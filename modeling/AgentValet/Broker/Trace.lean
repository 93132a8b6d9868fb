import AgentValet.Broker.StatedSemantics

namespace AgentValet.Broker.Evaluator

/-- A result without the version of the policy, which no event carries. -/
inductive Verdict where
  | allow (policyId : String)
  | approvalRequiredByGuardrail (guardrailId : String)
  | approvalRequiredByPolicy (policyId : String)
  | noPolicyAssigned
  | deniedByGuardrail (guardrailId : String)
  | deniedByPolicy (policyId : String)
  deriving DecidableEq, Repr

def EvaluationResult.verdict : EvaluationResult → Verdict
  | .allow id _ => .allow id
  | .approvalRequiredByGuardrail id => .approvalRequiredByGuardrail id
  | .approvalRequiredByPolicy id _ => .approvalRequiredByPolicy id
  | .noPolicyAssigned => .noPolicyAssigned
  | .deniedByGuardrail id => .deniedByGuardrail id
  | .deniedByPolicy id _ => .deniedByPolicy id

def Verdict.denies : Verdict → Bool
  | .noPolicyAssigned | .deniedByGuardrail _ | .deniedByPolicy _ => true
  | .allow _ | .approvalRequiredByGuardrail _ | .approvalRequiredByPolicy _ => false

namespace DecisionTraceEvent

def denial? : DecisionTraceEvent → Option Verdict
  | .guardrailDenyMatched id _ => some (.deniedByGuardrail id)
  | .noPolicyAssigned => some .noPolicyAssigned
  | .policyNoAllowMatched id _ => some (.deniedByPolicy id)
  | .policyDenyMatched id _ => some (.deniedByPolicy id)
  | _ => none

def guardrailApproval? : DecisionTraceEvent → Option Verdict
  | .guardrailApprovalMatched id _ => some (.approvalRequiredByGuardrail id)
  | _ => none

def policyApproval? : DecisionTraceEvent → Option Verdict
  | .policyApprovalMatched id _ => some (.approvalRequiredByPolicy id)
  | _ => none

def allowed? : DecisionTraceEvent → Option Verdict
  | .policyAllowMatched id _ => some (.allow id)
  | _ => none

def isSkip : DecisionTraceEvent → Bool
  | .guardrailSkippedRole _ _ => true
  | _ => false

/-- The target of an event that says that something matched. -/
def matched? : DecisionTraceEvent → Option TraceTargetRef
  | .guardrailDenyMatched _ target => some target
  | .guardrailApprovalMatched _ target => some target
  | .policyAllowMatched _ rule => some rule
  | .policyDenyMatched _ rule => some rule
  | .policyApprovalMatched _ rule => some rule
  | _ => none

end DecisionTraceEvent

open DecisionTraceEvent

def explained (events : List DecisionTraceEvent) : Option Verdict :=
  (events.getLast?.bind denial?).or <|
    (events.findSome? guardrailApproval?).or <|
      (events.findSome? policyApproval?).or (events.findSome? allowed?)

theorem denies_of_denial {event : DecisionTraceEvent} {v : Verdict} (h : event.denial? = some v) :
    v.denies = true := by
  cases event <;> simp only [denial?, Option.some.injEq, reduceCtorEq] at h <;> subst h <;> rfl

theorem denies_of_findSome {f : DecisionTraceEvent → Option Verdict}
    (hf : ∀ event v, f event = some v → v.denies = false) {events : List DecisionTraceEvent}
    {v : Verdict} (h : events.findSome? f = some v) : v.denies = false := by
  obtain ⟨event, -, hevent⟩ := List.exists_of_findSome?_eq_some h
  exact hf event v hevent

/-- A verdict that is explained denies exactly when the last event does. -/
theorem denies_iff_of_explained {events : List DecisionTraceEvent} {v : Verdict}
    (h : explained events = some v) :
    v.denies = true ↔ ∃ event, events.getLast? = some event ∧ event.denial?.isSome = true := by
  have hlast : (events.getLast?.bind denial?).isSome = true ↔
      ∃ event, events.getLast? = some event ∧ event.denial?.isSome = true := by
    cases events.getLast? <;> simp
  rw [← hlast]
  unfold explained at h
  cases hdenial : events.getLast?.bind denial? with
  | some w =>
    rw [hdenial, Option.some_or, Option.some.injEq] at h
    obtain ⟨event, -, hevent⟩ := Option.bind_eq_some_iff.1 hdenial
    simp [← h, denies_of_denial hevent]
  | none =>
    rw [hdenial, Option.none_or, Option.or_eq_some_iff, Option.or_eq_some_iff] at h
    have hv : v.denies = false := by
      obtain h | ⟨-, h | ⟨-, h⟩⟩ := h
      · refine denies_of_findSome ?_ h
        intro event v hv
        cases event <;> simp only [guardrailApproval?, Option.some.injEq, reduceCtorEq] at hv
        subst hv
        rfl
      · refine denies_of_findSome ?_ h
        intro event v hv
        cases event <;> simp only [policyApproval?, Option.some.injEq, reduceCtorEq] at hv
        subst hv
        rfl
      · refine denies_of_findSome ?_ h
        intro event v hv
        cases event <;> simp only [allowed?, Option.some.injEq, reduceCtorEq] at hv
        subst hv
        rfl
    simp [hv]

namespace EvaluationInput

def skipEvent (input : EvaluationInput) (g : Guardrail) : Option DecisionTraceEvent :=
  (input.skippedRole g).map fun role => .guardrailSkippedRole g.id role

def skips (input : EvaluationInput) (gs : List Guardrail) : List DecisionTraceEvent :=
  (gs.takeWhile fun g => !input.denyingGuardrail g).filterMap input.skipEvent

theorem guardrailDenyPass_events (input : EvaluationInput) (gs : List Guardrail) :
    (input.guardrailDenyPass gs).1 = input.skips gs ++
      ((gs.find? input.denyingGuardrail).map fun g =>
        .guardrailDenyMatched g.id g.target).toList := by
  induction gs with
  | nil => rfl
  | cons g rest ih =>
    rw [guardrailDenyPass, skips, List.takeWhile_cons, List.find?_cons]
    cases hs : input.skippedRole g with
    | some role =>
      have hdeny : input.denyingGuardrail g = false := by
        rw [denyingGuardrail, applicable_of_skipped hs, Bool.false_and]
      have hevent : input.skipEvent g = some (.guardrailSkippedRole g.id role) := by
        rw [skipEvent, hs, Option.map_some]
      simp only [hdeny, Bool.not_false, if_true, List.filterMap_cons, hevent, List.cons_append]
      exact congrArg (List.cons _) ih
    | none =>
      have hevent : input.skipEvent g = none := by rw [skipEvent, hs, Option.map_none]
      have hdeny : input.denyingGuardrail g =
          (input.matchesTarget g.target && decide (g.enforcement = .deny)) := by
        rw [denyingGuardrail, applicable_of_not_skipped hs]
      cases hm : input.matchesTarget g.target <;> by_cases he : g.enforcement = .deny <;>
        simp [hdeny, hm, he, hevent, ih, skips]

end EvaluationInput

/-- The events after the role skips, with the result they lead to. -/
inductive Traced (input : EvaluationInput) : List DecisionTraceEvent → EvaluationResult → Prop where
  | guardrailDeny (g : Guardrail) : input.matchesTarget g.target = true →
      Traced input [.guardrailDenyMatched g.id g.target] (.deniedByGuardrail g.id)
  | noPolicy (asked : Option Guardrail) :
      (∀ g ∈ asked, g ∈ input.guardrails ∧ input.matchesTarget g.target = true) →
      Traced input (guardrailApprovalEvents asked ++ [.noPolicyAssigned]) .noPolicyAssigned
  | noAllow (asked : Option Guardrail) (policy : PolicySnapshot) (considered : ℕ) :
      (∀ g ∈ asked, g ∈ input.guardrails ∧ input.matchesTarget g.target = true) →
      Traced input (guardrailApprovalEvents asked ++ [.policyNoAllowMatched policy.id considered])
        (.deniedByPolicy policy.id policy.version)
  | deny (asked : Option Guardrail) (policy : PolicySnapshot) (allowed denied : PolicyRule) :
      (∀ g ∈ asked, g ∈ input.guardrails ∧ input.matchesTarget g.target = true) →
      input.matchesTarget allowed.target = true → input.matchesTarget denied.target = true →
      Traced input
        (guardrailApprovalEvents asked ++ [.policyAllowMatched policy.id allowed.target] ++
          [.policyDenyMatched policy.id denied.target])
        (.deniedByPolicy policy.id policy.version)
  | approvals (asked : Option Guardrail) (policy : PolicySnapshot) (allowed : PolicyRule)
      (approval : Option ApprovalRule) :
      (∀ g ∈ asked, g ∈ input.guardrails ∧ input.matchesTarget g.target = true) →
      input.matchesTarget allowed.target = true →
      (∀ r ∈ approval, input.matchesTarget r.target = true) →
      Traced input
        (guardrailApprovalEvents asked ++ [.policyAllowMatched policy.id allowed.target] ++
          policyApprovalEvents policy approval)
        (combineApprovals policy (asked.map Guardrail.id) approval.isSome)

theorem matchesTarget_of_rule {input : EvaluationInput} {effect : RuleEffect}
    {rules : List PolicyRule} {r : PolicyRule}
    (h : rules.find? (input.matchingRule effect) = some r) :
    input.matchesTarget r.target = true := by
  have hfound := List.find?_some h
  rw [EvaluationInput.matchingRule, Bool.and_eq_true] at hfound
  exact hfound.2

theorem matchesTarget_of_applicable {input : EvaluationInput} {g : Guardrail}
    (h : input.applicable g = true) : input.matchesTarget g.target = true := by
  rw [EvaluationInput.applicable, Bool.and_eq_true] at h
  exact h.2

theorem evaluate_traced (input : EvaluationInput) :
    ∃ tail, (evaluatePolicyWithTrace input).trace.events = input.skips input.guardrails ++ tail ∧
      Traced input tail (evaluatePolicyWithTrace input).result := by
  have hevents := input.guardrailDenyPass_events input.guardrails
  have hhit := input.guardrailDenyPass_hit input.guardrails
  have hasked : ∀ g ∈ input.guardrailApprovalPass input.guardrails,
      g ∈ input.guardrails ∧ input.matchesTarget g.target = true := by
    intro g hg
    rw [EvaluationInput.guardrailApprovalPass_eq] at hg
    have hfound := List.find?_some hg
    rw [EvaluationInput.approvalGuardrail, Bool.and_eq_true] at hfound
    exact ⟨List.mem_of_find?_eq_some hg, matchesTarget_of_applicable hfound.1⟩
  unfold evaluatePolicyWithTrace
  rcases hpass : input.guardrailDenyPass input.guardrails with ⟨events, hit⟩
  rw [hpass] at hevents hhit
  simp only at hevents hhit
  subst hevents hhit
  cases hdeny : input.guardrails.find? input.denyingGuardrail with
  | some g =>
    have hfound := List.find?_some hdeny
    rw [EvaluationInput.denyingGuardrail, Bool.and_eq_true] at hfound
    exact ⟨_, rfl, .guardrailDeny g (matchesTarget_of_applicable hfound.1)⟩
  | none =>
    simp only [Option.map_none, Option.toList_none, List.append_nil, List.append_assoc]
    cases input.policy with
    | none => exact ⟨_, rfl, .noPolicy _ hasked⟩
    | some policy =>
      have hallow := input.allowPass_hit policy.rules 0
      rcases hallowPass : input.allowPass policy.rules 0 with ⟨_ | allowed, considered⟩
      · simp only [hallowPass]
        exact ⟨_, rfl, .noAllow _ policy considered hasked⟩
      · rw [hallowPass] at hallow
        have hallowed := matchesTarget_of_rule hallow.symm
        simp only [hallowPass]
        cases hdenied : input.denyPass policy.rules with
        | some denied =>
          rw [EvaluationInput.denyPass_eq] at hdenied
          refine ⟨_, rfl, ?_⟩
          rw [← List.append_assoc]
          exact .deny _ policy allowed denied hasked hallowed (matchesTarget_of_rule hdenied)
        | none =>
          refine ⟨_, rfl, ?_⟩
          rw [← List.append_assoc]
          refine .approvals _ policy allowed _ hasked hallowed ?_
          intro r hr
          rw [EvaluationInput.approvalPass_eq] at hr
          have hfound := List.find?_some hr
          exact hfound

theorem isSkip_of_mem_skips {input : EvaluationInput} {gs : List Guardrail}
    {event : DecisionTraceEvent} (h : event ∈ input.skips gs) : event.isSkip = true := by
  obtain ⟨g, -, hevent⟩ := List.mem_filterMap.1 h
  obtain ⟨role, -, rfl⟩ := Option.map_eq_some_iff.1 hevent
  rfl

/-- Nothing is read off the role skips. -/
theorem explained_append {skips tail : List DecisionTraceEvent}
    (hskips : ∀ event ∈ skips, event.isSkip = true) (htail : tail ≠ []) :
    explained (skips ++ tail) = explained tail := by
  have hnone : ∀ f : DecisionTraceEvent → Option Verdict,
      (∀ id role, f (.guardrailSkippedRole id role) = none) → skips.findSome? f = none := by
    intro f hf
    rw [List.findSome?_eq_none_iff]
    intro event hevent
    have hskip := hskips event hevent
    cases event <;> simp only [isSkip, reduceCtorEq] at hskip
    exact hf _ _
  have hguardrail : skips.findSome? guardrailApproval? = none := hnone _ fun _ _ => rfl
  have hpolicy : skips.findSome? policyApproval? = none := hnone _ fun _ _ => rfl
  have hallowed : skips.findSome? allowed? = none := hnone _ fun _ _ => rfl
  have hlast : (skips ++ tail).getLast? = tail.getLast? := by
    rw [List.getLast?_append, List.getLast?_eq_some_getLast htail, Option.some_or]
  rw [explained, explained, hlast, List.findSome?_append, List.findSome?_append,
    List.findSome?_append, hguardrail, hpolicy, hallowed, Option.none_or, Option.none_or,
    Option.none_or]

theorem Traced.ne_nil {input : EvaluationInput} {tail : List DecisionTraceEvent}
    {result : EvaluationResult} (h : Traced input tail result) : tail ≠ [] := by
  cases h <;> simp

/-- Only the guardrail that asks for approval needs a name: its id is tested for truth. -/
theorem Traced.explained {input : EvaluationInput} {tail : List DecisionTraceEvent}
    {result : EvaluationResult} (h : Traced input tail result)
    (hnamed : ∀ g ∈ input.guardrails, g.id ≠ "") : explained tail = some result.verdict := by
  cases h with
  | guardrailDeny g _ => rfl
  | noPolicy asked _ => cases asked <;> rfl
  | noAllow asked policy considered _ => cases asked <;> rfl
  | deny asked policy allowed denied _ _ _ => cases asked <;> rfl
  | approvals asked policy allowed approval hasked _ _ =>
    cases asked with
    | none => cases approval <;> rfl
    | some g =>
      have hid : g.id ≠ "" := hnamed g (hasked g rfl).1
      rw [Option.map_some, EvaluationInput.combineApprovals_of_name hid]
      cases approval <;> rfl

/-- No role skip, and what it says to match does match. -/
def EvaluationInput.Sound (input : EvaluationInput) (event : DecisionTraceEvent) : Prop :=
  event.isSkip = false ∧ ∀ target ∈ event.matched?, input.matchesTarget target = true

theorem sound_of_matched {input : EvaluationInput} {event : DecisionTraceEvent}
    {target : TraceTargetRef} (hskip : event.isSkip = false) (hevent : event.matched? = some target)
    (h : input.matchesTarget target = true) : input.Sound event := by
  refine ⟨hskip, fun target' htarget' => ?_⟩
  rw [hevent, Option.mem_some_iff] at htarget'
  rwa [← htarget']

theorem sound_of_unmatched {input : EvaluationInput} {event : DecisionTraceEvent}
    (hskip : event.isSkip = false) (hevent : event.matched? = none) : input.Sound event := by
  refine ⟨hskip, fun target htarget => ?_⟩
  rw [hevent] at htarget
  cases htarget

theorem sound_guardrailApproval {input : EvaluationInput} {asked : Option Guardrail}
    (h : ∀ g ∈ asked, g ∈ input.guardrails ∧ input.matchesTarget g.target = true) :
    ∀ event ∈ guardrailApprovalEvents asked, input.Sound event := by
  intro event hevent
  cases asked with
  | none => cases hevent
  | some g =>
    rw [List.mem_singleton.1 hevent]
    exact sound_of_matched rfl rfl (h g rfl).2

theorem sound_policyApproval {input : EvaluationInput} (policy : PolicySnapshot)
    {approval : Option ApprovalRule} (h : ∀ r ∈ approval, input.matchesTarget r.target = true) :
    ∀ event ∈ policyApprovalEvents policy approval, input.Sound event := by
  intro event hevent
  cases approval with
  | none => cases hevent
  | some r =>
    rw [List.mem_singleton.1 hevent]
    exact sound_of_matched rfl rfl (h r rfl)

theorem Traced.sound {input : EvaluationInput} {tail : List DecisionTraceEvent}
    {result : EvaluationResult} (h : Traced input tail result) :
    ∀ event ∈ tail, input.Sound event := by
  cases h with
  | guardrailDeny g hg =>
    rw [List.forall_mem_singleton]
    exact sound_of_matched rfl rfl hg
  | noPolicy asked hasked =>
    rw [List.forall_mem_append, List.forall_mem_singleton]
    exact ⟨sound_guardrailApproval hasked, sound_of_unmatched rfl rfl⟩
  | noAllow asked policy considered hasked =>
    rw [List.forall_mem_append, List.forall_mem_singleton]
    exact ⟨sound_guardrailApproval hasked, sound_of_unmatched rfl rfl⟩
  | deny asked policy allowed denied hasked hallowed hdenied =>
    rw [List.forall_mem_append, List.forall_mem_append, List.forall_mem_singleton,
      List.forall_mem_singleton]
    exact ⟨⟨sound_guardrailApproval hasked, sound_of_matched rfl rfl hallowed⟩,
      sound_of_matched rfl rfl hdenied⟩
  | approvals asked policy allowed approval hasked hallowed happroval =>
    rw [List.forall_mem_append, List.forall_mem_append, List.forall_mem_singleton]
    exact ⟨⟨sound_guardrailApproval hasked, sound_of_matched rfl rfl hallowed⟩,
      sound_policyApproval policy happroval⟩

/-- The verdict can be read off the events, the role skips stand for the guardrails of the other
role, and what is said to match does match. -/
theorem trace_explains {input : EvaluationInput} (h : ∀ g ∈ input.guardrails, g.id ≠ "") :
    explained (evaluatePolicyWithTrace input).trace.events =
        some (evaluatePolicyWithTrace input).result.verdict ∧
      ((evaluatePolicyWithTrace input).result.verdict.denies = true ↔
        ∃ event, (evaluatePolicyWithTrace input).trace.events.getLast? = some event ∧
          event.denial?.isSome = true) ∧
      (evaluatePolicyWithTrace input).trace.events.filter isSkip = input.skips input.guardrails ∧
      ∀ event ∈ (evaluatePolicyWithTrace input).trace.events, ∀ target ∈ event.matched?,
        input.matchesTarget target = true := by
  obtain ⟨tail, hevents, htraced⟩ := evaluate_traced input
  have hskips : ∀ event ∈ input.skips input.guardrails, event.isSkip = true := by
    intro event hevent
    exact isSkip_of_mem_skips hevent
  have hexplained : explained (evaluatePolicyWithTrace input).trace.events =
      some (evaluatePolicyWithTrace input).result.verdict := by
    rw [hevents, explained_append hskips htraced.ne_nil]
    exact htraced.explained h
  refine ⟨hexplained, denies_iff_of_explained hexplained, ?_, ?_⟩
  · have htail : tail.filter isSkip = [] := by
      rw [List.filter_eq_nil_iff]
      intro event hevent
      simp [(htraced.sound event hevent).1]
    rw [hevents, List.filter_append, List.filter_eq_self.2 hskips, htail, List.append_nil]
  · intro event hevent
    rw [hevents, List.mem_append] at hevent
    obtain hevent | hevent := hevent
    · have hskip := hskips event hevent
      cases event <;> simp only [isSkip, reduceCtorEq] at hskip
      simp [matched?]
    · exact (htraced.sound event hevent).2

def skippingInput : EvaluationInput where
  policy := some
    { id := "p"
      version := 1
      rules := [⟨.allow, .platform, "github"⟩]
      approvalRules := [⟨.scope, "github:repo"⟩] }
  guardrails :=
    [⟨"a", .deny, .platform, "github", some .admin⟩, ⟨"b", .requireApproval, .tag, "write", none⟩]
  callerRole := .member
  requestedScopeTags := ["write"]
  requested := ⟨"github", "repo"⟩

theorem trace_explains_skipping :
    explained (evaluatePolicyWithTrace skippingInput).trace.events =
      some (.approvalRequiredByGuardrail "b") :=
  (@trace_explains skippingInput (by decide)).1

end AgentValet.Broker.Evaluator
