import AgentValet.Broker.Evaluator

namespace AgentValet.Broker.Evaluator
namespace EvaluationInput

def applicable (input : EvaluationInput) (g : Guardrail) : Bool :=
  decide (g.appliesToRole = none ∨ g.appliesToRole = some input.callerRole) &&
    input.matchesTarget g.target

def denyingGuardrail (input : EvaluationInput) (g : Guardrail) : Bool :=
  input.applicable g && decide (g.enforcement = .deny)

def approvalGuardrail (input : EvaluationInput) (g : Guardrail) : Bool :=
  input.applicable g && decide (g.enforcement = .requireApproval)

def matchingRule (input : EvaluationInput) (effect : RuleEffect) (r : PolicyRule) : Bool :=
  decide (r.effect = effect) && input.matchesTarget r.target

def matchingApproval (input : EvaluationInput) (r : ApprovalRule) : Bool :=
  input.matchesTarget r.target

def permittedBy (input : EvaluationInput) (policy : PolicySnapshot) : Bool :=
  policy.rules.any (input.matchingRule .allow) && !policy.rules.any (input.matchingRule .deny)

def statedVerdict (input : EvaluationInput) : EvaluationResult :=
  match input.guardrails.find? input.denyingGuardrail with
  | some g => .deniedByGuardrail g.id
  | none =>
    match input.policy with
    | none => .noPolicyAssigned
    | some policy =>
      if !input.permittedBy policy then .deniedByPolicy policy.id policy.version
      else
        match input.guardrails.find? input.approvalGuardrail with
        | some g => .approvalRequiredByGuardrail g.id
        | none =>
          if policy.approvalRules.any input.matchingApproval then
            .approvalRequiredByPolicy policy.id policy.version
          else .allow policy.id policy.version

/-- Nothing denies, and the guardrail that asks for approval has the empty id. -/
def NamelessApproval (input : EvaluationInput) : Prop :=
  input.guardrails.find? input.denyingGuardrail = none ∧
    (∃ policy, input.policy = some policy ∧ input.permittedBy policy = true) ∧
    ∃ g, input.guardrails.find? input.approvalGuardrail = some g ∧ g.id = ""

theorem skippedRole_eq_none_iff (input : EvaluationInput) (g : Guardrail) :
    input.skippedRole g = none ↔
      g.appliesToRole = none ∨ g.appliesToRole = some input.callerRole := by
  cases h : g.appliesToRole <;> simp [skippedRole, h]

theorem applicable_of_skipped {input : EvaluationInput} {g : Guardrail} {role : Role}
    (h : input.skippedRole g = some role) : input.applicable g = false := by
  have hne : input.skippedRole g ≠ none := by simp [h]
  rw [Ne, skippedRole_eq_none_iff] at hne
  simp [applicable, hne]

theorem applicable_of_not_skipped {input : EvaluationInput} {g : Guardrail}
    (h : input.skippedRole g = none) : input.applicable g = input.matchesTarget g.target := by
  simp [applicable, (skippedRole_eq_none_iff input g).mp h]

theorem guardrailDenyPass_hit (input : EvaluationInput) (gs : List Guardrail) :
    (input.guardrailDenyPass gs).2 = gs.find? input.denyingGuardrail := by
  induction gs with
  | nil => rfl
  | cons g rest ih =>
    rw [guardrailDenyPass, List.find?_cons]
    cases hs : input.skippedRole g with
    | some role => simpa [denyingGuardrail, applicable_of_skipped hs] using ih
    | none =>
      cases hm : input.matchesTarget g.target <;> by_cases he : g.enforcement = .deny <;>
        simp [denyingGuardrail, applicable_of_not_skipped hs, hm, he, ih]

theorem guardrailApprovalPass_eq (input : EvaluationInput) (gs : List Guardrail) :
    input.guardrailApprovalPass gs = gs.find? input.approvalGuardrail := by
  induction gs with
  | nil => rfl
  | cons g rest ih =>
    rw [guardrailApprovalPass, List.find?_cons]
    cases hs : input.skippedRole g with
    | some role => simpa [approvalGuardrail, applicable_of_skipped hs] using ih
    | none =>
      cases hm : input.matchesTarget g.target <;> by_cases he : g.enforcement = .requireApproval <;>
        simp [approvalGuardrail, applicable_of_not_skipped hs, hm, he, ih]

theorem allowPass_hit (input : EvaluationInput) (rules : List PolicyRule) (considered : ℕ) :
    (input.allowPass rules considered).1 = rules.find? (input.matchingRule .allow) := by
  induction rules generalizing considered with
  | nil => rfl
  | cons r rest ih =>
    rw [allowPass, List.find?_cons]
    by_cases he : r.effect = .allow <;> cases hm : input.matchesTarget r.target <;>
      simp [matchingRule, he, hm, ih]

theorem denyPass_eq (input : EvaluationInput) (rules : List PolicyRule) :
    input.denyPass rules = rules.find? (input.matchingRule .deny) := by
  induction rules with
  | nil => rfl
  | cons r rest ih =>
    rw [denyPass, List.find?_cons]
    by_cases he : r.effect = .deny <;> cases hm : input.matchesTarget r.target <;>
      simp [matchingRule, he, hm, ih]

theorem approvalPass_eq (input : EvaluationInput) (rules : List ApprovalRule) :
    input.approvalPass rules = rules.find? input.matchingApproval := by
  induction rules with
  | nil => rfl
  | cons r rest ih =>
    rw [approvalPass, List.find?_cons]
    cases hm : input.matchesTarget r.target <;> simp [matchingApproval, hm, ih]

theorem evaluate_denied_by_guardrail {input : EvaluationInput} {g : Guardrail}
    (h : input.guardrails.find? input.denyingGuardrail = some g) :
    evaluatePolicy input = .deniedByGuardrail g.id := by
  rw [← guardrailDenyPass_hit] at h
  rcases hp : input.guardrailDenyPass input.guardrails with ⟨events, hit⟩
  simp only [hp] at h
  simp [evaluatePolicy, evaluatePolicyWithTrace, hp, h, done]

theorem evaluate_no_policy {input : EvaluationInput}
    (h : input.guardrails.find? input.denyingGuardrail = none) (hpol : input.policy = none) :
    evaluatePolicy input = .noPolicyAssigned := by
  rw [← guardrailDenyPass_hit] at h
  rcases hp : input.guardrailDenyPass input.guardrails with ⟨events, hit⟩
  simp only [hp] at h
  simp [evaluatePolicy, evaluatePolicyWithTrace, hp, h, hpol, done]

/-- Past the guardrails' deny pass, with a policy, the verdict is the policy's gate and then the
combined approvals. -/
theorem evaluate_policy {input : EvaluationInput} {policy : PolicySnapshot}
    (h : input.guardrails.find? input.denyingGuardrail = none) (hpol : input.policy = some policy) :
    evaluatePolicy input =
      if input.permittedBy policy then
        combineApprovals policy
          ((input.guardrails.find? input.approvalGuardrail).map Guardrail.id)
          (policy.approvalRules.any input.matchingApproval)
      else .deniedByPolicy policy.id policy.version := by
  rw [← guardrailDenyPass_hit] at h
  rcases hp : input.guardrailDenyPass input.guardrails with ⟨events, hit⟩
  simp only [hp] at h
  have hallow := allowPass_hit input policy.rules 0
  rcases ha : input.allowPass policy.rules 0 with ⟨allowed, considered⟩
  simp only [ha] at hallow
  simp only [evaluatePolicy, evaluatePolicyWithTrace, hp, h, hpol, ha, permittedBy,
    ← List.isSome_find?, ← hallow, ← denyPass_eq, ← guardrailApprovalPass_eq, ← approvalPass_eq]
  cases allowed with
  | none => simp [done]
  | some r => cases input.denyPass policy.rules <;> simp [done]

theorem combineApprovals_of_name {policy : PolicySnapshot} {id : String} (h : id ≠ "")
    (approval : Bool) :
    combineApprovals policy (some id) approval = .approvalRequiredByGuardrail id := by
  simp [combineApprovals, Option.filter, h]

theorem combineApprovals_nameless (policy : PolicySnapshot) (approval : Bool) :
    combineApprovals policy (some "") approval = combineApprovals policy none approval := by
  simp [combineApprovals, Option.filter]

theorem combineApprovals_ne_byGuardrail (policy : PolicySnapshot) (approval : Bool) (id : String) :
    combineApprovals policy none approval ≠ .approvalRequiredByGuardrail id := by
  cases approval <;> simp [combineApprovals]

theorem evaluate_eq_stated_of_named {input : EvaluationInput} (h : ¬ input.NamelessApproval) :
    evaluatePolicy input = input.statedVerdict := by
  cases hd : input.guardrails.find? input.denyingGuardrail with
  | some g => simp [evaluate_denied_by_guardrail hd, statedVerdict, hd]
  | none =>
    cases hpol : input.policy with
    | none => simp [evaluate_no_policy hd hpol, statedVerdict, hd, hpol]
    | some policy =>
      rw [evaluate_policy hd hpol]
      cases hperm : input.permittedBy policy with
      | false => simp [statedVerdict, hd, hpol, hperm]
      | true =>
        cases ha : input.guardrails.find? input.approvalGuardrail with
        | none => simp [statedVerdict, hd, hpol, hperm, ha, combineApprovals]
        | some g =>
          have hid : g.id ≠ "" := fun hid => h ⟨hd, ⟨policy, hpol, hperm⟩, g, ha, hid⟩
          simp [statedVerdict, hd, hpol, hperm, ha, combineApprovals_of_name hid]

theorem stated_of_nameless {input : EvaluationInput} (h : input.NamelessApproval) :
    input.statedVerdict = .approvalRequiredByGuardrail "" := by
  obtain ⟨hd, ⟨policy, hpol, hperm⟩, g, ha, hid⟩ := h
  simp [statedVerdict, hd, hpol, hperm, ha, hid]

theorem evaluate_ne_of_nameless {input : EvaluationInput} (h : input.NamelessApproval) :
    evaluatePolicy input ≠ .approvalRequiredByGuardrail "" := by
  obtain ⟨hd, ⟨policy, hpol, hperm⟩, g, ha, hid⟩ := h
  -- the empty id is dropped, and without an id no verdict names a guardrail
  rw [evaluate_policy hd hpol, if_pos hperm, ha, Option.map_some, hid, combineApprovals_nameless]
  exact combineApprovals_ne_byGuardrail policy _ _

theorem stated_ne_allow {input : EvaluationInput} {g : Guardrail} (hg : g ∈ input.guardrails)
    (ha : input.approvalGuardrail g = true) (id : String) (version : ℕ) :
    input.statedVerdict ≠ .allow id version := by
  have hsome : input.guardrails.find? input.approvalGuardrail ≠ none := by
    intro hnone
    exact absurd ha (by simpa using List.find?_eq_none.mp hnone g hg)
  obtain ⟨first, hfirst⟩ := Option.ne_none_iff_exists'.mp hsome
  unfold statedVerdict
  rw [hfirst]
  split
  · simp
  · split
    · simp
    · split <;> simp

end EvaluationInput

/-- The kernel returns the stated verdict, and lets no applicable `require_approval` guardrail
pass as an allow, exactly when no nameless guardrail is the one that asks for approval. -/
theorem evaluatePolicy_meets_stated_iff (input : EvaluationInput) :
    (evaluatePolicy input = input.statedVerdict ∧
      ∀ g ∈ input.guardrails, input.approvalGuardrail g = true →
        ∀ id version, evaluatePolicy input ≠ .allow id version) ↔
      ¬ input.NamelessApproval := by
  constructor
  · rintro ⟨heq, -⟩ hn
    apply EvaluationInput.evaluate_ne_of_nameless hn
    rw [heq, EvaluationInput.stated_of_nameless hn]
  · intro hn
    have heq := EvaluationInput.evaluate_eq_stated_of_named hn
    refine ⟨heq, fun g hg ha id version => ?_⟩
    rw [heq]
    exact EvaluationInput.stated_ne_allow hg ha id version

def namelessInput : EvaluationInput where
  policy := some
    { id := "p"
      version := 1
      rules := [⟨.allow, .platform, "github"⟩]
      approvalRules := [] }
  guardrails := [⟨"", .requireApproval, .platform, "github", none⟩]
  callerRole := .member
  requestedScopeTags := []
  requested := ⟨"github", "repo"⟩

theorem nameless_guardrail_allowed :
    evaluatePolicy namelessInput = .allow "p" 1 ∧
      namelessInput.statedVerdict = .approvalRequiredByGuardrail "" ∧
      evaluatePolicy namelessInput ≠ namelessInput.statedVerdict := by
  decide

end AgentValet.Broker.Evaluator
