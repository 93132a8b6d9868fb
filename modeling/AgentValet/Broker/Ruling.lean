import AgentValet.Broker.Pipeline

namespace AgentValet.Broker
open Base Base.Logged Lang

inductive Ruling where
  | refused (outcome : Outcome) (decision : Decision) (warnings : List String) (effect : Effect)
      (reason : String)
  | granted (decision : Decision) (credential : Option Credential) (warnings : List String)
  /-- `String` throws on what a source threw, or `warn` does. -/
  | brokenOff (raised : Thrown)

def Ruling.andThen {α : Type} (r : Except Thrown α) (rest : α → Ruling) : Ruling :=
  match r with
  | .ok a => rest a
  | .error raised => .brokenOff raised

variable {Args Res : Type}

def credentialRuling (deps : PipelineDeps Res) (warnings : List String) (decision : Decision) :
    Ruling :=
  match credentialObligation decision with
  | none => .granted decision none warnings
  | some credOb =>
    match deps.secrets (credentialRef credOb) decision with
    | .error err => .andThen err.text fun text =>
      .refused .denied decision (warnings ++ [s!"credential_unresolved: {text}"]) .deny
        "credential could not be resolved"
    | .ok credential => .granted decision (some credential) (warnings ++ expiryWarnings credential)

def notApproved (warnings : List String) (decision : Decision) (approvalReason : Option String) :
    Ruling :=
  let reason := approvalReason.getD "not granted"
  .refused (if approvalReason = some "timeout" then .approvalTimeout else .approvalDenied) decision
    (warnings ++ approvalWarnings approvalReason) .requireApproval s!"approval {reason}"

def approvalRuling (deps : PipelineDeps Res) (req : AccessRequest) (warnings : List String)
    (decision : Decision) : Ruling :=
  match decision.effect with
  | .deny => .refused .denied decision warnings .deny "denied by policy"
  | .allow => credentialRuling deps warnings decision
  | .requireApproval =>
    match deps.approval with
    | none =>
      .refused .approvalDenied decision (warnings ++ ["require_approval_without_provider"])
        .requireApproval "approval required but no approval provider is configured"
    | some request =>
      match request req decision with
      | .ok result =>
        if result.approved then credentialRuling deps warnings decision
        else notApproved warnings decision result.reason
      | .error err => .andThen err.text fun text => notApproved warnings decision (some text)

def failModeRuling (deps : PipelineDeps Res) (req : AccessRequest) (reason : String) : Ruling :=
  match deps.failMode with
  | .opened => .andThen (deps.warn (openWarning req.action.name reason)) fun () =>
    approvalRuling deps req [s!"failMode_open_policy_unreachable: {reason}"] failOpenDecision
  | .closed =>
    .refused .denied failDecision [s!"policy_source_unreachable: {reason}"] .deny
      "policy source unreachable"

def ruling (deps : PipelineDeps Res) (req : AccessRequest) : Ruling :=
  match deps.policy req with
  | .ok decision => approvalRuling deps req [] decision
  | .error err => .andThen err.text (failModeRuling deps req)

def Ruling.carryOut (deps : PipelineDeps Res) (req : AccessRequest)
    (invoke : Option Credential → Except Thrown Res) : Ruling → Pipeline Res (PipelineResult Res)
  | .refused outcome decision warnings effect reason => do
    emit deps req warnings outcome decision ⟨none, none⟩
    pure (.blocked effect reason)
  | .granted decision credential warnings =>
    invokeStep deps req warnings decision credential invoke
  | .brokenOff raised => Logged.throw raised

/-- The calls that act on the outside: handler, redaction hook and audit sink. -/
def Call.acts : Call Res → Bool
  | .invoke _ => true
  | .redact _ _ => true
  | .audit _ => true
  | _ => false

/-- The text of what was thrown is read before the ruling goes on. -/
theorem ofExcept_carriesOut {α : Type} (deps : PipelineDeps Res) (req : AccessRequest)
    (invoke : Option Credential → Except Thrown Res) (r : Except Thrown α)
    {f : α → Pipeline Res (PipelineResult Res)} {rest : α → Ruling}
    (h : ∀ a, AgreeOn Call.acts (f a) ((rest a).carryOut deps req invoke)) :
    AgreeOn Call.acts (Logged.ofExcept r >>= f)
      ((Ruling.andThen r rest).carryOut deps req invoke) := by
  cases r with
  | error raised => exact AgreeOn.refl _
  | ok a =>
    rw [ofExcept_ok_bind]
    exact h a

theorem warn_carriesOut (deps : PipelineDeps Res) (req : AccessRequest)
    (invoke : Option Credential → Except Thrown Res) (message : String)
    {f : Unit → Pipeline Res (PipelineResult Res)} {rest : Unit → Ruling}
    (h : AgreeOn Call.acts (f ()) ((rest ()).carryOut deps req invoke)) :
    AgreeOn Call.acts (call (.warn message) (deps.warn message) >>= f)
      ((Ruling.andThen (deps.warn message) rest).carryOut deps req invoke) := by
  cases deps.warn message with
  | error raised => exact AgreeOn.call_error_bind rfl
  | ok _ => exact AgreeOn.call_ok_bind rfl h

theorem credentialStep_carriesOut (deps : PipelineDeps Res) (req : AccessRequest)
    (warnings : List String) (decision : Decision)
    (invoke : Option Credential → Except Thrown Res) :
    AgreeOn Call.acts (credentialStep deps req warnings decision invoke)
      ((credentialRuling deps warnings decision).carryOut deps req invoke) := by
  unfold credentialStep credentialRuling
  cases credentialObligation decision with
  | none => exact AgreeOn.refl _
  | some credOb =>
    apply AgreeOn.attempt_call_bind rfl
    dsimp only
    cases deps.secrets (credentialRef credOb) decision with
    | error err => exact ofExcept_carriesOut deps req invoke _ fun text => AgreeOn.refl _
    | ok credential => exact AgreeOn.refl _

theorem approvalStep_carriesOut (deps : PipelineDeps Res) (req : AccessRequest)
    (warnings : List String) (decision : Decision)
    (invoke : Option Credential → Except Thrown Res) :
    AgreeOn Call.acts (approvalStep deps req warnings decision invoke)
      ((approvalRuling deps req warnings decision).carryOut deps req invoke) := by
  unfold approvalStep approvalRuling
  cases decision.effect with
  | deny => exact AgreeOn.refl _
  | allow => exact credentialStep_carriesOut deps req warnings decision invoke
  | requireApproval =>
    cases deps.approval with
    | none => exact AgreeOn.refl _
    | some request =>
      apply AgreeOn.attempt_call_bind rfl
      dsimp only
      cases request req decision with
      | error err => exact ofExcept_carriesOut deps req invoke _ fun text => AgreeOn.refl _
      | ok result =>
        cases hr : result.approved with
        | true =>
          simpa only [hr, if_true] using
            credentialStep_carriesOut deps req warnings decision invoke
        | false =>
          simp only [hr, Bool.false_eq_true, if_false]
          exact AgreeOn.refl _

/-- A run carries out its ruling. -/
theorem runPipeline_carriesOut (argsFingerprint : Args → String) (deps : PipelineDeps Res)
    (params : PipelineParams Args) (invoke : Option Credential → Except Thrown Res) :
    AgreeOn Call.acts (runPipeline argsFingerprint deps params invoke)
      ((ruling deps (accessRequest argsFingerprint deps params)).carryOut deps
        (accessRequest argsFingerprint deps params) invoke) := by
  unfold runPipeline ruling
  apply AgreeOn.attempt_call_bind rfl
  cases deps.policy (accessRequest argsFingerprint deps params) with
  | ok decision => exact approvalStep_carriesOut deps _ [] decision invoke
  | error err =>
    apply ofExcept_carriesOut
    intro reason
    unfold failModeRuling
    cases deps.failMode with
    | closed => exact AgreeOn.refl _
    | opened =>
      apply warn_carriesOut deps _ invoke (openWarning params.toolName reason)
      exact approvalStep_carriesOut deps _ _ failOpenDecision invoke

/-- What comes out of `emit` for an event: nothing, or what `String` or `warn` throws. -/
def sinkEnd (deps : PipelineDeps Res) (req : AccessRequest) (event : AuditEvent) :
    Except Thrown Unit :=
  match deps.audit event with
  | .ok () => .ok ()
  | .error err => do
    let text ← err.text
    deps.warn (sinkWarning req.action.name text)

section Emit
variable (deps : PipelineDeps Res) (req : AccessRequest) (warnings : List String)
  (outcome : Outcome) (decision : Decision) (extra : EmitExtra)

theorem emit_result : (emit deps req warnings outcome decision extra).result =
    sinkEnd deps req (auditEvent deps req warnings outcome decision extra) := by
  unfold emit sinkEnd
  rw [attempt_bind, call_result]
  cases deps.audit (auditEvent deps req warnings outcome decision extra) with
  | ok _ => rfl
  | error err =>
    dsimp only
    cases err.text with
    | error raised => rfl
    | ok text =>
      rw [ofExcept_ok_bind]
      rfl

/-- The calls of `emit`: the sink, and then `warn` at most. -/
theorem emit_log : ∃ rest, (emit deps req warnings outcome decision extra).log =
      .audit (auditEvent deps req warnings outcome decision extra) :: rest ∧
    ∀ c ∈ rest, ∃ message, c = .warn message := by
  unfold emit
  rw [attempt_bind, call_log, call_result]
  cases deps.audit (auditEvent deps req warnings outcome decision extra) with
  | ok _ => exact ⟨[], rfl, fun _ h => by cases h⟩
  | error err =>
    dsimp only
    cases err.text with
    | error raised => exact ⟨[], rfl, fun _ h => by cases h⟩
    | ok text =>
      rw [ofExcept_ok_bind]
      exact ⟨_, rfl, fun c hc => ⟨_, List.mem_singleton.1 hc⟩⟩

/-- Of what `emit` calls, only the sink is seen by `f`. -/
theorem emit_filterMap {κ : Type} {f : Call Res → Option κ}
    (hf : ∀ message, f (.warn message) = none) :
    (emit deps req warnings outcome decision extra).log.filterMap f =
      (f (.audit (auditEvent deps req warnings outcome decision extra))).toList := by
  obtain ⟨rest, hlog, hrest⟩ := emit_log deps req warnings outcome decision extra
  have hnone : rest.filterMap f = [] := by
    rw [List.filterMap_eq_nil_iff]
    intro c hc
    obtain ⟨message, rfl⟩ := hrest c hc
    exact hf message
  rw [hlog, List.filterMap_cons, hnone]
  cases f (.audit (auditEvent deps req warnings outcome decision extra)) <;> rfl

end Emit

def redaction (deps : PipelineDeps Res) (decision : Decision) (result : Res) : Except Thrown Res :=
  match deps.redact with
  | some redact => redact result decision
  | none => .ok result

inductive Handled (Res : Type) where
  | returned (redacted : Res)
  | threw (err : Thrown) (text : String)
  /-- The redaction hook throws, or `String` does on what the handler threw. -/
  | unaudited (raised : Thrown)

def handled (deps : PipelineDeps Res) (decision : Decision) : Except Thrown Res → Handled Res
  | .error err =>
    match err.text with
    | .ok text => .threw err text
    | .error raised => .unaudited raised
  | .ok result =>
    match redaction deps decision result with
    | .ok redacted => .returned redacted
    | .error raised => .unaudited raised

def Handled.ended : Handled Res → Except Thrown (PipelineResult Res)
  | .returned redacted => .ok (.ok redacted)
  | .threw err _ => .error err
  | .unaudited raised => .error raised

def Handled.event? (deps : PipelineDeps Res) (req : AccessRequest) (warnings : List String)
    (decision : Decision) (credential : Option Credential) : Handled Res → Option AuditEvent
  | .returned _ =>
    some (auditEvent deps req warnings .allowed decision ⟨credential.bind Credential.scope, none⟩)
  | .threw _ text =>
    some (auditEvent deps req warnings .handlerError decision
      ⟨credential.bind Credential.scope, some text⟩)
  | .unaudited _ => none

namespace Ruling

def invocations : Ruling → List (Option Credential)
  | .granted _ credential _ => [credential]
  | _ => []

/-- The event that a run with this ruling hands to the sink, if it comes to one. -/
def event? (deps : PipelineDeps Res) (req : AccessRequest)
    (invoke : Option Credential → Except Thrown Res) : Ruling → Option AuditEvent
  | .refused outcome decision warnings _ _ =>
    some (auditEvent deps req warnings outcome decision ⟨none, none⟩)
  | .granted decision credential warnings =>
    (handled deps decision (invoke credential)).event? deps req warnings decision credential
  | .brokenOff _ => none

def ended (deps : PipelineDeps Res) (invoke : Option Credential → Except Thrown Res) :
    Ruling → Except Thrown (PipelineResult Res)
  | .refused _ _ _ effect reason => .ok (.blocked effect reason)
  | .granted decision credential _ => (handled deps decision (invoke credential)).ended
  | .brokenOff raised => .error raised

end Ruling

def auditEnd (deps : PipelineDeps Res) (req : AccessRequest) :
    Option AuditEvent → Except Thrown Unit
  | some event => sinkEnd deps req event
  | none => .ok ()

/-- The run ends as its parts say, with these invocations and this event. -/
structure Carries (deps : PipelineDeps Res) (req : AccessRequest)
    (run : Pipeline Res (PipelineResult Res)) (credentials : List (Option Credential))
    (event : Option AuditEvent) (ended : Except Thrown (PipelineResult Res)) : Prop where
  result : run.result = auditEnd deps req event >>= fun _ => ended
  invocations : run.log.filterMap Call.invocation? = credentials
  audits : run.log.filterMap Call.audited? = event.toList

section Carries
variable (deps : PipelineDeps Res) (req : AccessRequest) (warnings : List String)
  (decision : Decision)

/-- An event is emitted, and then the run ends. -/
theorem carries_emit (outcome : Outcome) (extra : EmitExtra)
    {f : Unit → Pipeline Res (PipelineResult Res)} (hf : (f ()).log = []) :
    Carries deps req (emit deps req warnings outcome decision extra >>= f) []
      (some (auditEvent deps req warnings outcome decision extra)) (f ()).result where
  result := by rw [bind_result, emit_result]; rfl
  invocations := by
    rw [bind_log_of_silent _ fun _ => hf, emit_filterMap _ _ _ _ _ _ fun _ => rfl]
    rfl
  audits := by
    rw [bind_log_of_silent _ fun _ => hf, emit_filterMap _ _ _ _ _ _ fun _ => rfl]
    rfl

/-- A call that audits nothing goes before. -/
theorem Carries.after {run : Pipeline Res (PipelineResult Res)}
    {credentials : List (Option Credential)} {event : Option AuditEvent}
    {ended : Except Thrown (PipelineResult Res)} (h : Carries deps req run credentials event ended)
    {c : Call Res} (hc : c.audited? = none) :
    Carries deps req ⟨run.result, c :: run.log⟩ (c.invocation?.toList ++ credentials) event
      ended where
  result := h.result
  invocations := by
    rw [List.filterMap_cons, h.invocations]
    cases c.invocation? <;> rfl
  audits := by rw [List.filterMap_cons, hc, h.audits]

theorem carries_raised (raised : Thrown) :
    Carries deps req (Logged.throw raised) [] none (.error raised) := ⟨rfl, rfl, rfl⟩

theorem invokeStep_carries (credential : Option Credential)
    (invoke : Option Credential → Except Thrown Res) :
    Carries deps req (invokeStep deps req warnings decision credential invoke) [credential]
      ((handled deps decision (invoke credential)).event? deps req warnings decision credential)
      (handled deps decision (invoke credential)).ended := by
  unfold invokeStep
  rw [attempt_bind, call_result, call_log]
  refine Carries.after deps req ?_ (Call.audited?_invoke credential)
  cases invoke credential with
  | error err =>
    simp only [handled]
    cases err.text with
    | error raised => exact carries_raised deps req raised
    | ok text =>
      rw [ofExcept_ok_bind]
      exact carries_emit deps req warnings decision _ _ rfl
  | ok result =>
    simp only [handled, redaction]
    cases deps.redact with
    | none => exact carries_emit deps req warnings decision _ _ rfl
    | some redact =>
      dsimp only
      cases redact result decision with
      | error raised =>
        rw [call_error_bind]
        exact Carries.after deps req (carries_raised deps req raised)
          (Call.audited?_redact result decision)
      | ok redacted =>
        rw [call_ok_bind]
        exact Carries.after deps req (carries_emit deps req warnings decision _ _ rfl)
          (Call.audited?_redact result decision)

theorem Ruling.carryOut_carries (invoke : Option Credential → Except Thrown Res) (r : Ruling) :
    Carries deps req (r.carryOut deps req invoke) r.invocations (r.event? deps req invoke)
      (r.ended deps invoke) := by
  cases r with
  | refused outcome decision warnings effect reason =>
    exact carries_emit deps req warnings decision _ _ rfl
  | granted decision credential warnings =>
    exact invokeStep_carries deps req warnings decision credential invoke
  | brokenOff raised => exact carries_raised deps req raised

end Carries

/-- What a run does is what its ruling says. -/
theorem runPipeline_carries (argsFingerprint : Args → String) (deps : PipelineDeps Res)
    (params : PipelineParams Args) (invoke : Option Credential → Except Thrown Res) :
    let req := accessRequest argsFingerprint deps params
    let r := ruling deps req
    Carries deps req (runPipeline argsFingerprint deps params invoke) r.invocations
      (r.event? deps req invoke) (r.ended deps invoke) := by
  intro req r
  have hcarried := Ruling.carryOut_carries deps req invoke r
  have hagree := runPipeline_carriesOut argsFingerprint deps params invoke
  refine ⟨hagree.1.trans hcarried.result, ?_, ?_⟩
  · refine (hagree.filterMap_eq fun c hc => ?_).trans hcarried.invocations
    cases c <;> simp_all [Call.acts, Call.invocation?]
  · refine (hagree.filterMap_eq fun c hc => ?_).trans hcarried.audits
    cases c <;> simp_all [Call.acts, Call.audited?]

end AgentValet.Broker
