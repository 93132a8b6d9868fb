import Mathlib.Tactic.Common

namespace AgentValet.Broker.Evaluator

inductive TargetType where
  | platform
  | tag
  | scope
  deriving DecidableEq, Repr

inductive RuleEffect where
  | allow
  | deny
  deriving DecidableEq, Repr

inductive Role where
  | admin
  | member
  deriving DecidableEq, Repr

structure PolicyRule where
  effect : RuleEffect
  targetType : TargetType
  targetValue : String
  deriving DecidableEq, Repr

structure ApprovalRule where
  targetType : TargetType
  targetValue : String
  deriving DecidableEq, Repr

structure PolicySnapshot where
  id : String
  version : ℕ
  rules : List PolicyRule
  approvalRules : List ApprovalRule
  deriving DecidableEq, Repr

inductive Enforcement where
  | deny
  | requireApproval
  deriving DecidableEq, Repr

structure Guardrail where
  id : String
  enforcement : Enforcement
  targetType : TargetType
  targetValue : String
  appliesToRole : Option Role
  deriving DecidableEq, Repr

structure Requested where
  platformId : String
  scopeId : String
  deriving DecidableEq, Repr

structure EvaluationInput where
  policy : Option PolicySnapshot
  guardrails : List Guardrail
  callerRole : Role
  requestedScopeTags : List String
  requested : Requested
  deriving DecidableEq, Repr

inductive EvaluationResult where
  | allow (policyId : String) (policyVersion : ℕ)
  | approvalRequiredByGuardrail (guardrailId : String)
  | approvalRequiredByPolicy (policyId : String) (policyVersion : ℕ)
  | noPolicyAssigned
  | deniedByGuardrail (guardrailId : String)
  | deniedByPolicy (policyId : String) (policyVersion : ℕ)
  deriving DecidableEq, Repr

structure TraceTargetRef where
  targetType : TargetType
  targetValue : String
  deriving DecidableEq, Repr

inductive DecisionTraceEvent where
  | guardrailSkippedRole (guardrailId : String) (appliesToRole : Role)
  | guardrailDenyMatched (guardrailId : String) (target : TraceTargetRef)
  | guardrailApprovalMatched (guardrailId : String) (target : TraceTargetRef)
  | noPolicyAssigned
  | policyAllowMatched (policyId : String) (rule : TraceTargetRef)
  | policyNoAllowMatched (policyId : String) (allowRulesConsidered : ℕ)
  | policyDenyMatched (policyId : String) (rule : TraceTargetRef)
  | policyApprovalMatched (policyId : String) (rule : TraceTargetRef)
  deriving DecidableEq, Repr

structure TraceInput where
  platformId : String
  scopeId : String
  callerRole : Role
  requestedScopeTags : List String
  deriving DecidableEq, Repr

structure DecisionTrace where
  version : ℕ
  input : TraceInput
  events : List DecisionTraceEvent
  deriving DecidableEq, Repr

structure TracedEvaluation where
  result : EvaluationResult
  trace : DecisionTrace
  deriving DecidableEq, Repr

def traceVersion : ℕ := 1

def targetMatches (targetType : TargetType) (targetValue : String) (req : Requested)
    (tags : List String) : Bool :=
  match targetType with
  | .platform => targetValue == req.platformId
  | .tag => tags.contains targetValue
  | .scope => targetValue == s!"{req.platformId}:{req.scopeId}"

def Guardrail.target (g : Guardrail) : TraceTargetRef := ⟨g.targetType, g.targetValue⟩

def PolicyRule.target (r : PolicyRule) : TraceTargetRef := ⟨r.targetType, r.targetValue⟩

def ApprovalRule.target (r : ApprovalRule) : TraceTargetRef := ⟨r.targetType, r.targetValue⟩

namespace EvaluationInput

def matchesTarget (input : EvaluationInput) (target : TraceTargetRef) : Bool :=
  targetMatches target.targetType target.targetValue input.requested input.requestedScopeTags

def skippedRole (input : EvaluationInput) (g : Guardrail) : Option Role :=
  g.appliesToRole.filter (· ≠ input.callerRole)

/-- Pass 1: the first guardrail that denies, and the role skips traced on the way to it. -/
def guardrailDenyPass (input : EvaluationInput) :
    List Guardrail → List DecisionTraceEvent × Option Guardrail
  | [] => ([], none)
  | g :: rest =>
    match input.skippedRole g with
    | some role =>
      let (events, hit) := input.guardrailDenyPass rest
      (.guardrailSkippedRole g.id role :: events, hit)
    | none =>
      if !input.matchesTarget g.target then input.guardrailDenyPass rest
      else if g.enforcement = .deny then ([.guardrailDenyMatched g.id g.target], some g)
      else input.guardrailDenyPass rest

def guardrailApprovalPass (input : EvaluationInput) : List Guardrail → Option Guardrail
  | [] => none
  | g :: rest =>
    match input.skippedRole g with
    | some _ => input.guardrailApprovalPass rest
    | none =>
      if !input.matchesTarget g.target then input.guardrailApprovalPass rest
      else if g.enforcement = .requireApproval then some g
      else input.guardrailApprovalPass rest

/-- Pass 4, allow rules: the first that matches, and how many were considered. -/
def allowPass (input : EvaluationInput) : List PolicyRule → ℕ → Option PolicyRule × ℕ
  | [], considered => (none, considered)
  | r :: rest, considered =>
    if r.effect ≠ .allow then input.allowPass rest considered
    else if input.matchesTarget r.target then (some r, considered + 1)
    else input.allowPass rest (considered + 1)

def denyPass (input : EvaluationInput) : List PolicyRule → Option PolicyRule
  | [] => none
  | r :: rest =>
    if r.effect ≠ .deny then input.denyPass rest
    else if input.matchesTarget r.target then some r
    else input.denyPass rest

def approvalPass (input : EvaluationInput) : List ApprovalRule → Option ApprovalRule
  | [] => none
  | r :: rest => if input.matchesTarget r.target then some r else input.approvalPass rest

def done (input : EvaluationInput) (events : List DecisionTraceEvent)
    (result : EvaluationResult) : TracedEvaluation where
  result := result
  trace :=
    { version := traceVersion
      input :=
        { platformId := input.requested.platformId
          scopeId := input.requested.scopeId
          callerRole := input.callerRole
          requestedScopeTags := input.requestedScopeTags }
      events := events }

end EvaluationInput

def guardrailApprovalEvents : Option Guardrail → List DecisionTraceEvent
  | none => []
  | some g => [.guardrailApprovalMatched g.id g.target]

def policyApprovalEvents (policy : PolicySnapshot) : Option ApprovalRule → List DecisionTraceEvent
  | none => []
  | some r => [.policyApprovalMatched policy.id r.target]

/-- Pass 6.  The guardrail's id is tested for truth, so an empty id counts as no guardrail. -/
def combineApprovals (policy : PolicySnapshot) (guardrailApprovalId : Option String)
    (policyApproval : Bool) : EvaluationResult :=
  match guardrailApprovalId.filter (· ≠ "") with
  | some id => .approvalRequiredByGuardrail id
  | none =>
    if policyApproval then .approvalRequiredByPolicy policy.id policy.version
    else .allow policy.id policy.version

def evaluatePolicyWithTrace (input : EvaluationInput) : TracedEvaluation :=
  match input.guardrailDenyPass input.guardrails with
  | (events, some g) => input.done events (.deniedByGuardrail g.id)
  -- pass 1 went through all guardrails, so all role skips are traced
  | (skips, none) =>
    let guardrailApproval := input.guardrailApprovalPass input.guardrails
    let events := skips ++ guardrailApprovalEvents guardrailApproval
    -- pass 3: without a policy the approval found in pass 2 is not asked for
    match input.policy with
    | none => input.done (events ++ [.noPolicyAssigned]) .noPolicyAssigned
    | some policy =>
      match input.allowPass policy.rules 0 with
      | (none, considered) =>
        input.done (events ++ [.policyNoAllowMatched policy.id considered])
          (.deniedByPolicy policy.id policy.version)
      | (some allowed, _) =>
        let events := events ++ [.policyAllowMatched policy.id allowed.target]
        match input.denyPass policy.rules with
        | some denied =>
          input.done (events ++ [.policyDenyMatched policy.id denied.target])
            (.deniedByPolicy policy.id policy.version)
        | none =>
          let policyApproval := input.approvalPass policy.approvalRules
          input.done (events ++ policyApprovalEvents policy policyApproval)
            (combineApprovals policy (guardrailApproval.map Guardrail.id) policyApproval.isSome)

def evaluatePolicy (input : EvaluationInput) : EvaluationResult :=
  (evaluatePolicyWithTrace input).result

end AgentValet.Broker.Evaluator
