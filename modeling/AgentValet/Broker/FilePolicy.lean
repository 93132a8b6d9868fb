import AgentValet.Base.Keyed
import AgentValet.Broker.PolicyYaml
import AgentValet.Broker.StatedSemantics

namespace AgentValet.Broker
open Base Lang PolicyYaml Evaluator

def target (server tool : String) : String := s!"{server}:{tool}"

def kernelRule (server : String) (r : PolicyRuleDoc) : PolicyRule :=
  if r.effect = .deny then ⟨.deny, .scope, target server r.tool⟩
  else ⟨.allow, .scope, target server r.tool⟩

def kernelApprovalRule (server : String) (r : PolicyRuleDoc) : Option ApprovalRule :=
  if r.effect = .requireApproval then some ⟨.scope, target server r.tool⟩ else none

/-- A default of allow adds a rule for the whole platform. -/
def catchAll (doc : PolicyDoc) (server : String) : List PolicyRule :=
  if doc.defaults = .allow then [⟨.allow, .platform, server⟩] else []

def toEvaluationInput (doc : PolicyDoc) (req : AccessRequest) : EvaluationInput :=
  let server := req.resource.server
  { policy := some
      { id := "local"
        version := doc.version
        rules := doc.rules.map (kernelRule server) ++ catchAll doc server
        approvalRules := doc.rules.filterMap (kernelApprovalRule server) }
    guardrails := []
    callerRole := .member
    requestedScopeTags := []
    requested := ⟨server, req.resource.tool⟩ }

def credentialNamed (ref : String) : Obligation := ⟨"credential", [("ref", .str ref)]⟩

/-- The obligation of a rule that names a non-empty credential. -/
def credentialObligations (credential : Option String) : List Obligation :=
  match credential.filter (· ≠ "") with
  | some ref => [credentialNamed ref]
  | none => []

def obligationsFor (doc : PolicyDoc) (tool : String) : List Obligation :=
  credentialObligations ((doc.rules.find? (·.tool == tool)).bind PolicyRuleDoc.credential)

def decisionFor (doc : PolicyDoc) (req : AccessRequest) : Decision :=
  let version := toString doc.version
  match evaluatePolicy (toEvaluationInput doc req) with
  | .allow _ _ => ⟨.allow, some (obligationsFor doc req.resource.tool), "local", version⟩
  | .approvalRequiredByGuardrail _ | .approvalRequiredByPolicy _ _ =>
    ⟨.requireApproval, some (obligationsFor doc req.resource.tool), "local", version⟩
  | .noPolicyAssigned | .deniedByGuardrail _ | .deniedByPolicy _ _ =>
    ⟨.deny, some [], "local", version⟩

structure FilePolicySource where
  doc : Option PolicyDoc
  deriving DecidableEq, Repr

namespace FilePolicySource

/-- `load`, where `readFile` is what reading the file gives now. -/
def load (self : FilePolicySource) (readFile : Except Thrown String) :
    Except Thrown PolicyDoc × FilePolicySource :=
  match self.doc with
  | some doc => (.ok doc, self)
  | none =>
    match readFile with
    | .error err => (.error err, self)
    | .ok raw =>
      match parsePolicy raw with
      | .error err => (.error (.error err.message), self)
      | .ok doc => (.ok doc, ⟨some doc⟩)

def evaluate (self : FilePolicySource) (readFile : Except Thrown String) (req : AccessRequest) :
    Except Thrown Decision × FilePolicySource :=
  let (loaded, self) := self.load readFile
  (loaded.map fun doc => decisionFor doc req, self)

end FilePolicySource

/-- The effect the document gives to calls it has no rule for. -/
def defaultEffect : DefaultEffect → Effect
  | .allow => .allow
  | .deny => .deny

/-- What the document says of a tool: its rule for the tool, else its default. -/
def plainDecision (doc : PolicyDoc) (tool : String) : Decision :=
  let version := toString doc.version
  match doc.rules.find? (·.tool == tool) with
  | none => ⟨defaultEffect doc.defaults, some [], "local", version⟩
  | some rule =>
    ⟨rule.effect, some (if rule.effect = .deny then [] else credentialObligations rule.credential),
      "local", version⟩

theorem target_inj {server tool tool' : String} :
    target server tool = target server tool' ↔ tool = tool' := by
  constructor
  · intro h
    exact (String.append_right_inj _).1 h
  · intro h
    rw [h]

section Kernel
variable (doc : PolicyDoc) (req : AccessRequest)

theorem matchesTarget_scope (tool : String) :
    (toEvaluationInput doc req).matchesTarget ⟨.scope, target req.resource.server tool⟩ =
      decide (tool = req.resource.tool) := by
  have h : (target req.resource.server tool == target req.resource.server req.resource.tool) =
      decide (tool = req.resource.tool) := by
    rw [beq_eq_decide]
    simp only [target_inj]
  exact h

theorem matchesTarget_platform :
    (toEvaluationInput doc req).matchesTarget ⟨.platform, req.resource.server⟩ = true :=
  beq_self_eq_true req.resource.server

theorem matchingRule_kernelRule (effect : RuleEffect) (r : PolicyRuleDoc) :
    (toEvaluationInput doc req).matchingRule effect (kernelRule req.resource.server r) = true ↔
      r.tool = req.resource.tool ∧ (r.effect = .deny ↔ effect = .deny) := by
  unfold kernelRule
  by_cases hdeny : r.effect = .deny
  · cases effect <;>
      simp [EvaluationInput.matchingRule, hdeny, PolicyRule.target, matchesTarget_scope]
  · cases effect <;>
      simp [EvaluationInput.matchingRule, hdeny, PolicyRule.target, matchesTarget_scope]

theorem matchingRule_catchAll (effect : RuleEffect) :
    (catchAll doc req.resource.server).any
      ((toEvaluationInput doc req).matchingRule effect) = true ↔
      doc.defaults = .allow ∧ effect = .allow := by
  unfold catchAll
  by_cases hallow : doc.defaults = .allow
  · simp [hallow, EvaluationInput.matchingRule, PolicyRule.target, matchesTarget_platform, eq_comm]
  · simp [hallow]

theorem matchingApproval_kernelApprovalRule :
    (doc.rules.filterMap (kernelApprovalRule req.resource.server)).any
        (toEvaluationInput doc req).matchingApproval = true ↔
      ∃ r ∈ doc.rules, r.tool = req.resource.tool ∧ r.effect = .requireApproval := by
  simp only [List.any_eq_true, List.mem_filterMap]
  constructor
  · rintro ⟨a, ⟨r, hr, ha⟩, hmatch⟩
    unfold kernelApprovalRule at ha
    split at ha
    · next heffect =>
      cases ha
      refine ⟨r, hr, ?_, heffect⟩
      simpa [EvaluationInput.matchingApproval, ApprovalRule.target, matchesTarget_scope]
        using hmatch
    · cases ha
  · rintro ⟨r, hr, htool, heffect⟩
    refine ⟨⟨.scope, target req.resource.server r.tool⟩, ⟨r, hr, ?_⟩, ?_⟩
    · simp [kernelApprovalRule, heffect]
    · simp [EvaluationInput.matchingApproval, ApprovalRule.target, matchesTarget_scope, htool]

theorem any_matchingRule (effect : RuleEffect) :
    (doc.rules.map (kernelRule req.resource.server) ++ catchAll doc req.resource.server).any
        ((toEvaluationInput doc req).matchingRule effect) = true ↔
      (∃ r ∈ doc.rules, r.tool = req.resource.tool ∧ (r.effect = .deny ↔ effect = .deny)) ∨
        doc.defaults = .allow ∧ effect = .allow := by
  rw [List.any_append, Bool.or_eq_true, matchingRule_catchAll, List.any_map, List.any_eq_true]
  simp only [Function.comp_apply, matchingRule_kernelRule]

/-- The verdict, from whether an allow rule, a deny rule and an approval rule match. -/
theorem evaluate_document {allowed denied reviewed : Prop} [Decidable allowed] [Decidable denied]
    [Decidable reviewed]
    (hallowed : ((doc.rules.map (kernelRule req.resource.server) ++
      catchAll doc req.resource.server).any
        ((toEvaluationInput doc req).matchingRule .allow) = true ↔ allowed))
    (hdenied : ((doc.rules.map (kernelRule req.resource.server) ++
      catchAll doc req.resource.server).any
        ((toEvaluationInput doc req).matchingRule .deny) = true ↔ denied))
    (hreviewed : ((doc.rules.filterMap (kernelApprovalRule req.resource.server)).any
        (toEvaluationInput doc req).matchingApproval = true ↔ reviewed)) :
    evaluatePolicy (toEvaluationInput doc req) =
      if allowed ∧ ¬ denied then
        if reviewed then .approvalRequiredByPolicy "local" doc.version
        else .allow "local" doc.version
      else .deniedByPolicy "local" doc.version := by
  rw [EvaluationInput.evaluate_policy rfl rfl]
  simp only [EvaluationInput.permittedBy, Bool.and_eq_true, Bool.not_eq_true', ← Bool.not_eq_true,
    hallowed, hdenied]
  congr 1
  simp only [toEvaluationInput, List.find?_nil, Option.map_none, combineApprovals,
    Option.filter_none]
  simp only [← hreviewed]
  rfl

end Kernel

theorem evaluate_of_no_rule {doc : PolicyDoc} {req : AccessRequest}
    (h : ∀ r ∈ doc.rules, r.tool ≠ req.resource.tool) :
    evaluatePolicy (toEvaluationInput doc req) =
      if doc.defaults = .allow then .allow "local" doc.version
      else .deniedByPolicy "local" doc.version := by
  -- only the rule for the whole platform can match
  have hno (p : PolicyRuleDoc → Prop) :
      ¬ ∃ r ∈ doc.rules, r.tool = req.resource.tool ∧ p r := by
    rintro ⟨r, hr, htool, -⟩
    exact h r hr htool
  have hany (effect : RuleEffect) := (any_matchingRule doc req effect).trans
    (or_iff_right (hno fun r => (r.effect = .deny ↔ effect = .deny)))
  have hreviewed := (matchingApproval_kernelApprovalRule doc req).trans
    (iff_false_intro (hno fun r => r.effect = .requireApproval))
  rw [evaluate_document doc req (hany .allow) (hany .deny) hreviewed]
  simp

theorem evaluate_of_rule {doc : PolicyDoc} (hdoc : doc.WellFormed) {req : AccessRequest}
    {rule : PolicyRuleDoc} (hmem : rule ∈ doc.rules) (htool : rule.tool = req.resource.tool) :
    evaluatePolicy (toEvaluationInput doc req) =
      match rule.effect with
      | .allow => .allow "local" doc.version
      | .requireApproval => .approvalRequiredByPolicy "local" doc.version
      | .deny => .deniedByPolicy "local" doc.version := by
  -- the parser lets no other rule name the tool
  have honly (p : PolicyRuleDoc → Prop) :
      (∃ r ∈ doc.rules, r.tool = req.resource.tool ∧ p r) ↔ p rule := by
    rw [← htool]
    exact Keyed.exists_mem_key_iff hdoc.tools_nodup hmem p
  have hany (effect : RuleEffect) := (any_matchingRule doc req effect).trans
    (or_congr_left (honly fun r => (r.effect = .deny ↔ effect = .deny)))
  have hreviewed := (matchingApproval_kernelApprovalRule doc req).trans
    (honly fun r => r.effect = .requireApproval)
  rw [evaluate_document doc req (hany .allow) (hany .deny) hreviewed]
  cases rule.effect <;> simp

/-- The kernel decides a translated document as the document reads. -/
theorem decisionFor_eq_plain {doc : PolicyDoc} (hdoc : doc.WellFormed) (req : AccessRequest) :
    decisionFor doc req = plainDecision doc req.resource.tool := by
  unfold decisionFor plainDecision obligationsFor
  cases hfind : doc.rules.find? (·.tool == req.resource.tool) with
  | none =>
    rw [evaluate_of_no_rule (Keyed.find?_eq_none_iff.1 hfind)]
    cases hdefault : doc.defaults <;> simp [defaultEffect, credentialObligations]
  | some rule =>
    obtain ⟨hmem, htool⟩ := (Keyed.find?_eq_some_iff hdoc.tools_nodup).1 hfind
    rw [evaluate_of_rule hdoc hmem htool]
    cases heffect : rule.effect <;> simp [heffect]

/-- The reading of a document is that of its rules in any order. -/
theorem plainDecision_perm {doc doc' : PolicyDoc} (hdoc : doc.WellFormed)
    (hdoc' : doc'.WellFormed) (hdefaults : doc'.defaults = doc.defaults)
    (hperm : doc'.rules.Perm doc.rules) (tool : String) :
    plainDecision doc' tool = plainDecision doc tool := by
  have hfind : doc'.rules.find? (·.tool == tool) = doc.rules.find? (·.tool == tool) :=
    Keyed.find?_perm hdoc.tools_nodup hperm tool
  unfold plainDecision
  rw [hfind, hdefaults, hdoc.version_eq, hdoc'.version_eq]

theorem credentialObligations_some (ref : String) :
    credentialObligations (some ref) = if ref = "" then [] else [credentialNamed ref] := by
  by_cases h : ref = "" <;> simp [credentialObligations, Option.filter, h]

namespace FilePolicySource

theorem evaluate_of_loaded {self : FilePolicySource} {doc : PolicyDoc} (h : self.doc = some doc)
    (readFile : Except Thrown String) (req : AccessRequest) :
    self.evaluate readFile req = (.ok (decisionFor doc req), self) := by
  unfold evaluate load
  rw [h]
  rfl

theorem evaluate_of_accepted {self : FilePolicySource} {text : String} {doc : PolicyDoc}
    (h : self.doc = none) (hparse : parsePolicy text = .ok doc) (req : AccessRequest) :
    self.evaluate (.ok text) req = (.ok (decisionFor doc req), ⟨some doc⟩) := by
  simp only [evaluate, load, h, hparse]
  rfl

/-- The answers to a run of calls, each with what reading the file gives at its time. -/
def answers (self : FilePolicySource) :
    List (Except Thrown String × AccessRequest) → List (Except Thrown Decision)
  | [] => []
  | (readFile, req) :: rest =>
    let (answer, self) := self.evaluate readFile req
    answer :: self.answers rest

theorem answers_of_loaded {self : FilePolicySource} {doc : PolicyDoc} (h : self.doc = some doc)
    (calls : List (Except Thrown String × AccessRequest)) :
    self.answers calls = calls.map fun call => .ok (decisionFor doc call.2) := by
  induction calls with
  | nil => rfl
  | cons call rest ih =>
    obtain ⟨readFile, req⟩ := call
    simp only [answers, evaluate_of_loaded h, ih, List.map_cons]

/-- Once a text is accepted the source answers by it, whatever becomes of the file. -/
theorem answers_of_accepted {text : String} {doc : PolicyDoc} (h : parsePolicy text = .ok doc)
    (req : AccessRequest) (later : List (Except Thrown String × AccessRequest)) :
    answers ⟨none⟩ ((.ok text, req) :: later) =
      ((.ok text, req) :: later).map fun call => .ok (plainDecision doc call.2.resource.tool) := by
  have hdoc := parsePolicy_wellFormed h
  have hloaded : (⟨some doc⟩ : FilePolicySource).doc = some doc := rfl
  have hfirst : (⟨none⟩ : FilePolicySource).doc = none := rfl
  simp only [answers, evaluate_of_accepted hfirst h, answers_of_loaded hloaded, List.map_cons,
    decisionFor_eq_plain hdoc]

end FilePolicySource

/-- The file source decides every request as the accepted document reads, whatever the server is
called and in whatever order the rules stand. -/
theorem filePolicy_refines_document {text : String} {doc : PolicyDoc}
    (hparse : parsePolicy text = .ok doc) (source : FilePolicySource)
    (readFile : Except Thrown String)
    (hsource : source.doc = some doc ∨ source.doc = none ∧ readFile = .ok text)
    (req : AccessRequest) :
    ∃ decision, (source.evaluate readFile req).1 = .ok decision ∧
      (∀ rule ∈ doc.rules, rule.tool = req.resource.tool →
        (∀ other ∈ doc.rules, other.tool = req.resource.tool → other = rule) ∧
        decision.effect = rule.effect ∧
        decision.obligations = some (match rule.credential with
          | some ref => if rule.effect ≠ .deny ∧ ref ≠ "" then [credentialNamed ref] else []
          | none => [])) ∧
      ((∀ rule ∈ doc.rules, rule.tool ≠ req.resource.tool) →
        decision.effect = defaultEffect doc.defaults ∧ decision.obligations = some []) ∧
      (∀ server, (source.evaluate readFile
        { req with resource := ⟨server, req.resource.tool⟩ }).1 = .ok decision) ∧
      (∀ text' doc', parsePolicy text' = .ok doc' → doc'.defaults = doc.defaults →
        doc'.rules.Perm doc.rules →
          (FilePolicySource.evaluate ⟨none⟩ (.ok text') req).1 = .ok decision) := by
  have hdoc := parsePolicy_wellFormed hparse
  have hanswer (req : AccessRequest) : (source.evaluate readFile req).1 =
      .ok (plainDecision doc req.resource.tool) := by
    rw [← decisionFor_eq_plain hdoc]
    rcases hsource with hloaded | ⟨hfresh, hread⟩
    · rw [FilePolicySource.evaluate_of_loaded hloaded]
    · rw [hread, FilePolicySource.evaluate_of_accepted hfresh hparse]
  refine ⟨plainDecision doc req.resource.tool, hanswer req, ?_, ?_, ?_, ?_⟩
  · intro rule hmem htool
    have hfind := (Keyed.find?_eq_some_iff hdoc.tools_nodup).2 ⟨hmem, htool⟩
    refine ⟨?_, ?_, ?_⟩
    · intro other hother hothertool
      exact Keyed.eq_of_key_eq hdoc.tools_nodup hother hmem (hothertool.trans htool.symm)
    · simp only [plainDecision, hfind]
    · simp only [plainDecision, hfind]
      cases rule.credential with
      | none => simp [credentialObligations]
      | some ref => by_cases hdeny : rule.effect = .deny <;>
          by_cases href : ref = "" <;> simp [credentialObligations_some, hdeny, href]
  · intro hno
    have hfind : doc.rules.find? (·.tool == req.resource.tool) = none :=
      Keyed.find?_eq_none_iff.2 hno
    constructor
    · simp only [plainDecision, hfind]
    · simp only [plainDecision, hfind]
  · intro server
    exact hanswer { req with resource := ⟨server, req.resource.tool⟩ }
  · intro text' doc' hparse' hdefaults hperm
    have hdoc' := parsePolicy_wellFormed hparse'
    rw [FilePolicySource.evaluate_of_accepted rfl hparse', decisionFor_eq_plain hdoc',
      plainDecision_perm hdoc hdoc' hdefaults hperm]

def createIssuePolicy : String :=
  "version: 1\nrules:\n  - tool: create_issue\n    effect: allow\n    credential: issues_rw\n"

def createIssueRequest : AccessRequest :=
  ⟨⟨"local", none, "local"⟩, ⟨"create_issue"⟩, ⟨"github:tools", "create_issue"⟩,
    ⟨"sha256:0", "stdio", "2025-01-01T00:00:00.000Z"⟩⟩

theorem createIssue_allowed :
    ∃ decision, (FilePolicySource.evaluate ⟨none⟩ (.ok createIssuePolicy) createIssueRequest).1 =
        .ok decision ∧
      decision.effect = .allow ∧ decision.obligations = some [credentialNamed "issues_rw"] := by
  have hparse : parsePolicy createIssuePolicy =
      .ok ⟨1, .deny, [⟨"create_issue", .allow, some "issues_rw"⟩]⟩ := by decide
  obtain ⟨decision, hanswer, hrule, -⟩ := filePolicy_refines_document hparse ⟨none⟩
    (.ok createIssuePolicy) (Or.inr ⟨rfl, rfl⟩) createIssueRequest
  obtain ⟨-, heffect, hobligations⟩ := hrule _ (List.mem_singleton.2 rfl) rfl
  refine ⟨decision, hanswer, heffect, ?_⟩
  simpa using hobligations

end AgentValet.Broker
