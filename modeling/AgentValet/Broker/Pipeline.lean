import AgentValet.Base.Logged
import AgentValet.Broker.Types

namespace AgentValet.Broker
open Base Base.Logged Lang

inductive FailMode where
  | closed
  | opened
  deriving DecidableEq, Repr

structure PipelineDeps (Res : Type) where
  serverName : String
  policy : AccessRequest → Except Thrown Decision
  secrets : CredentialRef → Decision → Except Thrown Credential
  audit : AuditEvent → Except Thrown Unit
  identity : McpHandlerExtra → Subject
  approval : Option (AccessRequest → Decision → Except Thrown ApprovalResult)
  redact : Option (Res → Decision → Except Thrown Res)
  failMode : FailMode
  warn : String → Except Thrown Unit
  now : ℕ → ℤ
  clock : ℕ → String

structure PipelineParams (Args : Type) where
  toolName : String
  args : Args
  extra : McpHandlerExtra

inductive PipelineResult (Res : Type) where
  | ok (result : Res)
  | blocked (effect : Effect) (reason : String)
  deriving DecidableEq, Repr

/-- A call the pipeline makes to a collaborator, with its arguments. -/
inductive Call (Res : Type) where
  | policy (req : AccessRequest)
  | approval (req : AccessRequest) (decision : Decision)
  | secrets (ref : CredentialRef) (decision : Decision)
  | invoke (credential : Option Credential)
  | redact (result : Res) (decision : Decision)
  | audit (event : AuditEvent)
  | warn (message : String)

abbrev Pipeline (Res α : Type) := Logged Thrown (Call Res) α

variable {Args Res : Type}

def credentialObligation (decision : Decision) : Option Obligation :=
  (decision.obligations.getD []).find? (·.type == "credential")

/-- `credOb.scope ? { id: credOb.ref, scope: credOb.scope } : { id: credOb.ref }` -/
def credentialRef (credOb : Obligation) : CredentialRef where
  id := Json.lookup credOb.fields "ref"
  scope :=
    if JavaScript.truthy (Json.lookup credOb.fields "scope") then Json.lookup credOb.fields "scope"
    else none

def transportOf (extra : McpHandlerExtra) : String :=
  if JavaScript.truthy extra.requestInfo then "http" else "stdio"

def accessRequest (argsFingerprint : Args → String) (deps : PipelineDeps Res)
    (params : PipelineParams Args) : AccessRequest where
  subject := deps.identity params.extra
  action := ⟨params.toolName⟩
  resource := ⟨deps.serverName, params.toolName⟩
  context := ⟨argsFingerprint params.args, transportOf params.extra, deps.clock 0⟩

structure EmitExtra where
  credentialScope : Option (List String)
  error : Option String

/-- The event `emit` builds; an empty `warnings` list and an empty `error` are left out. -/
def auditEvent (deps : PipelineDeps Res) (req : AccessRequest) (warnings : List String)
    (outcome : Outcome) (decision : Decision) (extra : EmitExtra) : AuditEvent where
  schemaVersion := 1
  ts := deps.clock 1
  subject := req.subject
  resource := req.resource
  action := req.action.name
  argsFingerprint := req.context.argsFingerprint
  decision := ⟨decision.effect, decision.policyId, decision.version⟩
  credentialScope := extra.credentialScope
  transport := req.context.transport
  latencyMs := deps.now 1 - deps.now 0
  outcome := outcome
  warnings := if warnings.isEmpty then none else some warnings
  error := extra.error.filter (· ≠ "")

def sinkWarning (toolName text : String) : String :=
  s!"[mcp-broker] audit sink failed for \"{toolName}\": {text}"

/-- A failing sink is only warned about, if what it threw has a text. -/
def emit (deps : PipelineDeps Res) (req : AccessRequest) (warnings : List String)
    (outcome : Outcome) (decision : Decision) (extra : EmitExtra) : Pipeline Res Unit := do
  let event := auditEvent deps req warnings outcome decision extra
  match ← attempt (call (.audit event) (deps.audit event)) with
  | .ok () => pure ()
  | .error err => do
    let text ← Logged.ofExcept err.text
    let message := sinkWarning req.action.name text
    call (.warn message) (deps.warn message)

/-- Steps 5 and 6: invoke the handler, redact its result, audit the call. -/
def invokeStep (deps : PipelineDeps Res) (req : AccessRequest) (warnings : List String)
    (decision : Decision) (credential : Option Credential)
    (invoke : Option Credential → Except Thrown Res) : Pipeline Res (PipelineResult Res) := do
  match ← attempt (call (.invoke credential) (invoke credential)) with
  | .error err => do
    let text ← Logged.ofExcept err.text
    emit deps req warnings .handlerError decision ⟨credential.bind Credential.scope, some text⟩
    Logged.throw err
  | .ok result =>
    -- the hook stands outside any `try`: what it throws ends the run unaudited
    let redacted ←
      match deps.redact with
      | some redact => call (.redact result decision) (redact result decision)
      | none => pure result
    emit deps req warnings .allowed decision ⟨credential.bind Credential.scope, none⟩
    pure (.ok redacted)

def expiryWarnings (credential : Credential) : List String :=
  if credential.expiresAt.isNone then ["credential_no_expiry_static_secret"] else []

/-- Step 4: resolve the credential the decision names; a failure denies. -/
def credentialStep (deps : PipelineDeps Res) (req : AccessRequest) (warnings : List String)
    (decision : Decision) (invoke : Option Credential → Except Thrown Res) :
    Pipeline Res (PipelineResult Res) :=
  match credentialObligation decision with
  | none => invokeStep deps req warnings decision none invoke
  | some credOb => do
    let ref := credentialRef credOb
    match ← attempt (call (.secrets ref decision) (deps.secrets ref decision)) with
    | .error err => do
      let text ← Logged.ofExcept err.text
      emit deps req (warnings ++ [s!"credential_unresolved: {text}"]) .denied decision ⟨none, none⟩
      pure (.blocked .deny "credential could not be resolved")
    | .ok credential =>
      invokeStep deps req (warnings ++ expiryWarnings credential) decision (some credential) invoke

def approvalWarnings (approvalReason : Option String) : List String :=
  match approvalReason.filter (· ≠ "") with
  | some reason => [s!"approval_{reason}"]
  | none => []

/-- The end of step 3 when the approval was not granted. -/
def approvalBlocked (deps : PipelineDeps Res) (req : AccessRequest) (warnings : List String)
    (decision : Decision) (approvalReason : Option String) :
    Pipeline Res (PipelineResult Res) := do
  let outcome := if approvalReason = some "timeout" then .approvalTimeout else .approvalDenied
  let reason := approvalReason.getD "not granted"
  emit deps req (warnings ++ approvalWarnings approvalReason) outcome decision ⟨none, none⟩
  pure (.blocked .requireApproval s!"approval {reason}")

/-- Steps 2 and 3: a deny ends the run, and an approval is asked for when the decision needs one. -/
def approvalStep (deps : PipelineDeps Res) (req : AccessRequest) (warnings : List String)
    (decision : Decision) (invoke : Option Credential → Except Thrown Res) :
    Pipeline Res (PipelineResult Res) :=
  match decision.effect with
  | .deny => do
    emit deps req warnings .denied decision ⟨none, none⟩
    pure (.blocked .deny "denied by policy")
  | .allow => credentialStep deps req warnings decision invoke
  | .requireApproval =>
    match deps.approval with
    | none => do
      emit deps req (warnings ++ ["require_approval_without_provider"]) .approvalDenied decision
        ⟨none, none⟩
      pure (.blocked .requireApproval
        "approval required but no approval provider is configured")
    | some request => do
      match ← attempt (call (.approval req decision) (request req decision)) with
      | .ok result =>
        if result.approved then credentialStep deps req warnings decision invoke
        else approvalBlocked deps req warnings decision result.reason
      -- a provider that throws has not approved, and its text becomes the reason
      | .error err => do
        let text ← Logged.ofExcept err.text
        approvalBlocked deps req warnings decision (some text)

def failDecision : Decision := ⟨.deny, none, "unavailable", "0"⟩

def failOpenDecision : Decision := ⟨.allow, none, "unavailable", "0"⟩

def openWarning (toolName reason : String) : String :=
  s!"[mcp-broker] failMode=open: policy source unreachable, ALLOWING " ++
    s!"\"{toolName}\" ({reason}). This is unsafe outside a dev loop."

def runPipeline (argsFingerprint : Args → String) (deps : PipelineDeps Res)
    (params : PipelineParams Args) (invoke : Option Credential → Except Thrown Res) :
    Pipeline Res (PipelineResult Res) := do
  let req := accessRequest argsFingerprint deps params
  -- step 1
  match ← attempt (call (.policy req) (deps.policy req)) with
  | .ok decision => approvalStep deps req [] decision invoke
  | .error err => do
    let reason ← Logged.ofExcept err.text
    match deps.failMode with
    | .opened => do
      let message := openWarning params.toolName reason
      call (.warn message) (deps.warn message)
      approvalStep deps req [s!"failMode_open_policy_unreachable: {reason}"] failOpenDecision invoke
    | .closed => do
      emit deps req [s!"policy_source_unreachable: {reason}"] .denied failDecision ⟨none, none⟩
      pure (.blocked .deny "policy source unreachable")

def Call.invocation? : Call Res → Option (Option Credential)
  | .invoke credential => some credential
  | _ => none

def Call.audited? : Call Res → Option AuditEvent
  | .audit event => some event
  | _ => none

section Reading
variable (credential : Option Credential) (result : Res) (decision : Decision) (event : AuditEvent)
  (message : String)

@[simp] theorem Call.invocation?_invoke :
    (Call.invoke credential : Call Res).invocation? = some credential := rfl

@[simp] theorem Call.invocation?_redact : (Call.redact result decision).invocation? = none := rfl

@[simp] theorem Call.invocation?_audit : (Call.audit event : Call Res).invocation? = none := rfl

@[simp] theorem Call.invocation?_warn : (Call.warn message : Call Res).invocation? = none := rfl

@[simp] theorem Call.audited?_invoke :
    (Call.invoke credential : Call Res).audited? = none := rfl

@[simp] theorem Call.audited?_redact : (Call.redact result decision).audited? = none := rfl

@[simp] theorem Call.audited?_audit : (Call.audit event : Call Res).audited? = some event := rfl

@[simp] theorem Call.audited?_warn : (Call.warn message : Call Res).audited? = none := rfl

end Reading

/-- The arguments of the calls of `invoke`, in order. -/
def invocations {α : Type} (run : Pipeline Res α) : List (Option Credential) :=
  run.log.filterMap Call.invocation?

/-- The events handed to `audit.emit`, in order. -/
def audits {α : Type} (run : Pipeline Res α) : List AuditEvent :=
  run.log.filterMap Call.audited?

end AgentValet.Broker
