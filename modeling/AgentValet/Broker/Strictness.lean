import AgentValet.Base.Join
import AgentValet.Broker.StatedSemantics
import Mathlib.Order.Lattice
import Mathlib.Data.Nat.Basic

namespace AgentValet.Broker.Evaluator
open Base

inductive Strictness where
  | allow
  | approvalRequired
  | deny
  deriving DecidableEq, Repr

namespace Strictness

def rank : Strictness → ℕ
  | .allow => 0
  | .approvalRequired => 1
  | .deny => 2

theorem rank_injective : Function.Injective rank := by
  intro a b h
  cases a <;> cases b <;> simp_all [rank]

instance : LinearOrder Strictness := LinearOrder.lift' rank rank_injective

instance : OrderBot Strictness where
  bot := .allow
  bot_le a := Nat.zero_le a.rank

theorem le_deny (a : Strictness) : a ≤ .deny := by
  cases a <;> decide

@[simp] theorem bot_eq : (⊥ : Strictness) = .allow := rfl

@[simp] theorem allow_sup (a : Strictness) : .allow ⊔ a = a := bot_sup_eq a

@[simp] theorem sup_allow (a : Strictness) : a ⊔ .allow = a := sup_bot_eq a

@[simp] theorem deny_sup (a : Strictness) : .deny ⊔ a = .deny := sup_eq_left.mpr (le_deny a)

@[simp] theorem sup_deny (a : Strictness) : a ⊔ .deny = .deny := sup_eq_right.mpr (le_deny a)

end Strictness

def EvaluationResult.strictness : EvaluationResult → Strictness
  | .allow _ _ => .allow
  | .approvalRequiredByGuardrail _ => .approvalRequired
  | .approvalRequiredByPolicy _ _ => .approvalRequired
  | .noPolicyAssigned => .deny
  | .deniedByGuardrail _ => .deny
  | .deniedByPolicy _ _ => .deny

def decision (input : EvaluationInput) : Strictness := (evaluatePolicy input).strictness

namespace EvaluationInput

def guardrailDemand (input : EvaluationInput) (g : Guardrail) : Strictness :=
  if input.denyingGuardrail g then .deny
  else if input.approvalGuardrail g then .approvalRequired else .allow

def denyRuleDemand (input : EvaluationInput) (r : PolicyRule) : Strictness :=
  if input.matchingRule .deny r then .deny else .allow

/-- What the allow rules leave to demand: nothing once one of them matches. -/
def allowGap (input : EvaluationInput) (rules : List PolicyRule) : Strictness :=
  if rules.any (input.matchingRule .allow) then .allow else .deny

def approvalRuleDemand (input : EvaluationInput) (r : ApprovalRule) : Strictness :=
  if input.matchingApproval r then .approvalRequired else .allow

def policyDemand (input : EvaluationInput) : Option PolicySnapshot → Strictness
  | none => .deny
  | some policy =>
    input.allowGap policy.rules ⊔ join input.denyRuleDemand policy.rules ⊔
      join input.approvalRuleDemand policy.approvalRules

def demand (input : EvaluationInput) : Strictness :=
  join input.guardrailDemand input.guardrails ⊔ input.policyDemand input.policy

theorem join_denyRuleDemand (input : EvaluationInput) (rules : List PolicyRule) :
    join input.denyRuleDemand rules =
      if rules.any (input.matchingRule .deny) then .deny else .allow := by
  induction rules with
  | nil => rfl
  | cons r rest ih =>
    rw [join_cons, ih, List.any_cons, denyRuleDemand]
    cases input.matchingRule .deny r <;> simp

theorem join_approvalRuleDemand (input : EvaluationInput) (rules : List ApprovalRule) :
    join input.approvalRuleDemand rules =
      if rules.any input.matchingApproval then .approvalRequired else .allow := by
  induction rules with
  | nil => rfl
  | cons r rest ih =>
    rw [join_cons, ih, List.any_cons, approvalRuleDemand]
    cases input.matchingApproval r <;> cases rest.any input.matchingApproval <;> simp

theorem join_guardrailDemand_of_deny {input : EvaluationInput} {g : Guardrail}
    (h : input.guardrails.find? input.denyingGuardrail = some g) :
    join input.guardrailDemand input.guardrails = .deny := by
  apply le_antisymm (Strictness.le_deny _)
  have hg : input.guardrailDemand g = .deny := by
    simp [guardrailDemand, List.find?_some h]
  rw [← hg]
  exact le_join (List.mem_of_find?_eq_some h)

theorem join_guardrailDemand_of_approval {input : EvaluationInput} {g : Guardrail}
    (hd : input.guardrails.find? input.denyingGuardrail = none)
    (ha : input.guardrails.find? input.approvalGuardrail = some g) :
    join input.guardrailDemand input.guardrails = .approvalRequired := by
  have hno : ∀ g ∈ input.guardrails, input.denyingGuardrail g = false := by
    simpa using List.find?_eq_none.mp hd
  apply le_antisymm
  -- no guardrail demands more, and the one found demands as much
  · rw [join_le_iff]
    intro g hg
    rw [guardrailDemand, hno g hg]
    cases input.approvalGuardrail g <;> decide
  · have hmem := List.mem_of_find?_eq_some ha
    have hg : input.guardrailDemand g = .approvalRequired := by
      simp [guardrailDemand, hno g hmem, List.find?_some ha]
    rw [← hg]
    exact le_join hmem

theorem join_guardrailDemand_of_none {input : EvaluationInput}
    (hd : input.guardrails.find? input.denyingGuardrail = none)
    (ha : input.guardrails.find? input.approvalGuardrail = none) :
    join input.guardrailDemand input.guardrails = .allow := by
  apply le_antisymm _ (bot_le : ⊥ ≤ _)
  rw [join_le_iff]
  intro g hg
  have hdeny : input.denyingGuardrail g = false := by
    simpa using List.find?_eq_none.mp hd g hg
  have happ : input.approvalGuardrail g = false := by
    simpa using List.find?_eq_none.mp ha g hg
  simp [guardrailDemand, hdeny, happ]

theorem policyDemand_some (input : EvaluationInput) (policy : PolicySnapshot) :
    input.policyDemand (some policy) =
      if input.permittedBy policy then
        if policy.approvalRules.any input.matchingApproval then .approvalRequired else .allow
      else .deny := by
  rw [policyDemand, join_denyRuleDemand, join_approvalRuleDemand, allowGap, permittedBy]
  cases policy.rules.any (input.matchingRule .allow) <;>
    cases policy.rules.any (input.matchingRule .deny) <;> simp

/-- The stated verdict is as strict as the strictest demand. -/
theorem statedVerdict_strictness (input : EvaluationInput) :
    input.statedVerdict.strictness = input.demand := by
  unfold statedVerdict demand
  cases hd : input.guardrails.find? input.denyingGuardrail with
  | some g => simp [join_guardrailDemand_of_deny hd, EvaluationResult.strictness]
  | none =>
    cases hpol : input.policy with
    | none => simp [policyDemand, EvaluationResult.strictness]
    | some policy =>
      rw [policyDemand_some]
      cases hperm : input.permittedBy policy with
      | false => simp [hperm, EvaluationResult.strictness]
      | true =>
        cases ha : input.guardrails.find? input.approvalGuardrail with
        | some g =>
          rw [join_guardrailDemand_of_approval hd ha]
          cases hr : policy.approvalRules.any input.matchingApproval <;>
            simp [hperm, EvaluationResult.strictness]
        | none =>
          rw [join_guardrailDemand_of_none hd ha]
          cases hr : policy.approvalRules.any input.matchingApproval <;>
            simp [hperm, -List.any_eq_true, hr, EvaluationResult.strictness]

def Named (input : EvaluationInput) : Prop := ∀ g ∈ input.guardrails, g.id ≠ ""

theorem Named.not_nameless {input : EvaluationInput} (h : input.Named) :
    ¬ input.NamelessApproval := by
  rintro ⟨-, -, g, hg, hid⟩
  exact h g (List.mem_of_find?_eq_some hg) hid

theorem Named.decision_eq {input : EvaluationInput} (h : input.Named) :
    decision input = input.demand := by
  rw [decision, evaluate_eq_stated_of_named h.not_nameless, statedVerdict_strictness]

theorem Named.insert {input : EvaluationInput} (h : input.Named) {g : Guardrail} (hg : g.id ≠ "")
    {pre post : List Guardrail} (hsplit : input.guardrails = pre ++ post) :
    Named { input with guardrails := pre ++ g :: post } := by
  intro g' hg'
  simp only [List.mem_append, List.mem_cons] at hg'
  rcases hg' with hpre | rfl | hpost
  · exact h g' (by simp [hsplit, hpre])
  · exact hg
  · exact h g' (by simp [hsplit, hpost])

end EvaluationInput

section Insertion
variable {input : EvaluationInput} {policy : PolicySnapshot}

theorem decision_insert_guardrail (h : input.Named) {g : Guardrail} (hg : g.id ≠ "")
    {pre post : List Guardrail} (hsplit : input.guardrails = pre ++ post) :
    decision input ≤ decision { input with guardrails := pre ++ g :: post } := by
  rw [h.decision_eq, (h.insert hg hsplit).decision_eq]
  change join input.guardrailDemand input.guardrails ⊔ _ ≤
    join input.guardrailDemand (pre ++ g :: post) ⊔ _
  rw [hsplit]
  exact sup_le_sup_right (join_le_join_insert g pre post) _

/-- Replacing the policy moves the decision as it moves the policy's demand. -/
theorem decision_le_of_policyDemand_le (h : input.Named) {p p' : Option PolicySnapshot}
    (hle : input.policyDemand p ≤ input.policyDemand p') :
    decision { input with policy := p } ≤ decision { input with policy := p' } := by
  have hp : EvaluationInput.Named { input with policy := p } := h
  have hp' : EvaluationInput.Named { input with policy := p' } := h
  rw [hp.decision_eq, hp'.decision_eq]
  exact sup_le_sup_left hle _

theorem allowGap_insert_deny {r : PolicyRule} (hr : r.effect = .deny) (pre post : List PolicyRule) :
    input.allowGap (pre ++ r :: post) = input.allowGap (pre ++ post) := by
  simp [EvaluationInput.allowGap, EvaluationInput.matchingRule, hr]

theorem allowGap_insert_le (r : PolicyRule) (pre post : List PolicyRule) :
    input.allowGap (pre ++ r :: post) ≤ input.allowGap (pre ++ post) := by
  unfold EvaluationInput.allowGap
  simp only [List.any_append, List.any_cons]
  cases pre.any (input.matchingRule .allow) <;> cases post.any (input.matchingRule .allow) <;>
    cases input.matchingRule .allow r <;> decide

theorem join_denyRuleDemand_insert_allow {r : PolicyRule} (hr : r.effect = .allow)
    (pre post : List PolicyRule) :
    join input.denyRuleDemand (pre ++ r :: post) = join input.denyRuleDemand (pre ++ post) := by
  have hno : input.denyRuleDemand r = .allow := by
    simp [EvaluationInput.denyRuleDemand, EvaluationInput.matchingRule, hr]
  rw [join_insert, hno, Strictness.allow_sup]

theorem policyDemand_insert_deny {r : PolicyRule} (hr : r.effect = .deny)
    {pre post : List PolicyRule} (hsplit : policy.rules = pre ++ post) :
    input.policyDemand (some policy) ≤
      input.policyDemand (some { policy with rules := pre ++ r :: post }) := by
  simp only [EvaluationInput.policyDemand, hsplit, allowGap_insert_deny hr]
  exact sup_le_sup_right (sup_le_sup_left (join_le_join_insert r pre post) _) _

theorem policyDemand_insert_allow {r : PolicyRule} (hr : r.effect = .allow)
    {pre post : List PolicyRule} (hsplit : policy.rules = pre ++ post) :
    input.policyDemand (some { policy with rules := pre ++ r :: post }) ≤
      input.policyDemand (some policy) := by
  simp only [EvaluationInput.policyDemand, hsplit, join_denyRuleDemand_insert_allow hr]
  exact sup_le_sup_right (sup_le_sup_right (allowGap_insert_le r pre post) _) _

theorem policyDemand_insert_approval (r : ApprovalRule) {pre post : List ApprovalRule}
    (hsplit : policy.approvalRules = pre ++ post) :
    input.policyDemand (some policy) ≤
      input.policyDemand (some { policy with approvalRules := pre ++ r :: post }) := by
  simp only [EvaluationInput.policyDemand, hsplit]
  exact sup_le_sup_left (join_le_join_insert r pre post) _

end Insertion

structure PolicySnapshot.Reordered (p p' : PolicySnapshot) : Prop where
  rules : p.rules.Perm p'.rules
  approvalRules : p.approvalRules.Perm p'.approvalRules

/-- The same request against the same guardrails and rules, each list in any order. -/
structure EvaluationInput.Reordered (input input' : EvaluationInput) : Prop where
  policy : Option.Rel PolicySnapshot.Reordered input.policy input'.policy
  guardrails : input.guardrails.Perm input'.guardrails
  callerRole : input.callerRole = input'.callerRole
  requestedScopeTags : input.requestedScopeTags.Perm input'.requestedScopeTags
  requested : input.requested = input'.requested

namespace EvaluationInput.Reordered
variable {input input' : EvaluationInput}

theorem named (h : input.Reordered input') (hn : input.Named) : input'.Named :=
  fun g hg => hn g (h.guardrails.mem_iff.mpr hg)

theorem matchesTarget (h : input.Reordered input') :
    input.matchesTarget = input'.matchesTarget := by
  funext target
  have htags : input.requestedScopeTags.contains target.targetValue =
      input'.requestedScopeTags.contains target.targetValue := by
    rw [Bool.eq_iff_iff, List.contains_iff_mem, List.contains_iff_mem,
      h.requestedScopeTags.mem_iff]
  unfold EvaluationInput.matchesTarget targetMatches
  rw [h.requested, htags]

theorem applicable (h : input.Reordered input') : input.applicable = input'.applicable := by
  funext g
  unfold EvaluationInput.applicable
  rw [h.callerRole, h.matchesTarget]

theorem matchingRule (h : input.Reordered input') : input.matchingRule = input'.matchingRule := by
  funext effect r
  unfold EvaluationInput.matchingRule
  rw [h.matchesTarget]

theorem guardrailDemand (h : input.Reordered input') :
    input.guardrailDemand = input'.guardrailDemand := by
  funext g
  unfold EvaluationInput.guardrailDemand denyingGuardrail approvalGuardrail
  rw [h.applicable]

theorem policyDemand (h : input.Reordered input') :
    input.policyDemand input.policy = input'.policyDemand input'.policy := by
  have hpol := h.policy
  generalize input.policy = policy, input'.policy = policy' at hpol ⊢
  cases hpol with
  | none => rfl
  | @some p p' hr =>
    have hgap : input.allowGap p.rules = input'.allowGap p'.rules := by
      unfold allowGap
      rw [h.matchingRule, hr.rules.any_eq]
    have hdeny : input.denyRuleDemand = input'.denyRuleDemand := by
      funext r
      unfold denyRuleDemand
      rw [h.matchingRule]
    have happ : input.approvalRuleDemand = input'.approvalRuleDemand := by
      funext r
      unfold approvalRuleDemand matchingApproval
      rw [h.matchesTarget]
    simp only [EvaluationInput.policyDemand, hgap, hdeny, happ, join_perm hr.rules,
      join_perm hr.approvalRules]

theorem decision_eq (h : input.Reordered input') (hn : input.Named) :
    decision input' = decision input := by
  rw [hn.decision_eq, (h.named hn).decision_eq, demand, demand, h.guardrailDemand, h.policyDemand,
    join_perm h.guardrails]

end EvaluationInput.Reordered

/-- One more guardrail, deny rule or approval rule never relaxes the decision, one more allow rule
never tightens it, and no reordering changes it. -/
theorem strictness_monotone (input : EvaluationInput) (h : ∀ g ∈ input.guardrails, g.id ≠ "") :
    (∀ (g : Guardrail) (pre post : List Guardrail), g.id ≠ "" → input.guardrails = pre ++ post →
      decision input ≤ decision { input with guardrails := pre ++ g :: post }) ∧
    (∀ policy, input.policy = some policy →
      (∀ (r : PolicyRule) (pre post : List PolicyRule), r.effect = .deny →
        policy.rules = pre ++ post → decision input ≤
          decision { input with policy := some { policy with rules := pre ++ r :: post } }) ∧
      (∀ (r : PolicyRule) (pre post : List PolicyRule), r.effect = .allow →
        policy.rules = pre ++ post →
          decision { input with policy := some { policy with rules := pre ++ r :: post } } ≤
            decision input) ∧
      (∀ (r : ApprovalRule) (pre post : List ApprovalRule), policy.approvalRules = pre ++ post →
        decision input ≤ decision
          { input with policy := some { policy with approvalRules := pre ++ r :: post } })) ∧
    ∀ input', input.Reordered input' → decision input' = decision input := by
  have hn : input.Named := h
  refine ⟨fun g pre post hg hsplit => decision_insert_guardrail hn hg hsplit, ?_,
    fun input' hr => hr.decision_eq hn⟩
  intro policy hpol
  -- the decision before is that of the same policy put in its own place
  have hself : input = { input with policy := some policy } := by rw [← hpol]
  refine ⟨fun r pre post hr hsplit => ?_, fun r pre post hr hsplit => ?_,
    fun r pre post hsplit => ?_⟩
  · conv_lhs => rw [hself]
    exact decision_le_of_policyDemand_le hn (policyDemand_insert_deny hr hsplit)
  · conv_rhs => rw [hself]
    exact decision_le_of_policyDemand_le hn (policyDemand_insert_allow hr hsplit)
  · conv_lhs => rw [hself]
    exact decision_le_of_policyDemand_le hn (policyDemand_insert_approval r hsplit)

def reviewedInput : EvaluationInput :=
  { namelessInput with guardrails := [⟨"g", .requireApproval, .platform, "github", none⟩] }

theorem strictness_monotone_reviewed :
    (∀ g ∈ reviewedInput.guardrails, g.id ≠ "") ∧
      decision reviewedInput ≤
        decision { reviewedInput with
          guardrails := [] ++ ⟨"h", .deny, .platform, "github", none⟩ ::
            reviewedInput.guardrails } :=
  ⟨by decide, (strictness_monotone reviewedInput (by decide)).1 _ [] _ (by decide) rfl⟩

end AgentValet.Broker.Evaluator
