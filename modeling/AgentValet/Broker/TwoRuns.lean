import AgentValet.Broker.PipelineGate

namespace AgentValet.Broker
open Base Base.Logged Lang

variable {Args Res : Type}

def AuditEvent.eraseFingerprint (event : AuditEvent) : AuditEvent :=
  { event with argsFingerprint := "" }

structure AnswerAlike (deps : PipelineDeps Res) (reqA reqB : AccessRequest) : Prop where
  policy : deps.policy reqA = deps.policy reqB
  approval : ∀ request, deps.approval = some request →
    ∀ decision, request reqA decision = request reqB decision

theorem approvalRuling_congr {deps : PipelineDeps Res} {reqA reqB : AccessRequest}
    (h : AnswerAlike deps reqA reqB) (warnings : List String) (decision : Decision) :
    approvalRuling deps reqA warnings decision = approvalRuling deps reqB warnings decision := by
  unfold approvalRuling
  cases decision.effect with
  | deny => rfl
  | allow => rfl
  | requireApproval =>
    cases hp : deps.approval with
    | none => rfl
    | some request =>
      have hanswer := h.approval request hp decision
      simp only [hanswer]

/-- A ruling rests on the answers of the sources alone. -/
theorem ruling_congr {deps : PipelineDeps Res} {reqA reqB : AccessRequest}
    (h : AnswerAlike deps reqA reqB) (haction : reqA.action = reqB.action) :
    ruling deps reqA = ruling deps reqB := by
  unfold ruling failModeRuling
  rw [h.policy, haction]
  simp only [approvalRuling_congr h]

def ThrowsAlike (deps : PipelineDeps Res) (req : AccessRequest)
    (invokeA invokeB : Option Credential → Except Thrown Res) : Prop :=
  ∀ credential errA errB textA textB, Admitted deps req → HandsOver deps req credential →
    invokeA credential = .error errA → invokeB credential = .error errB →
    errA.text = .ok textA → errB.text = .ok textB → textA = textB

theorem handled_eq_threw {deps : PipelineDeps Res} {decision : Decision}
    {ended : Except Thrown Res} {err : Thrown} {text : String}
    (h : handled deps decision ended = .threw err text) :
    ended = .error err ∧ err.text = .ok text := by
  unfold handled at h
  cases ended with
  | error err' =>
    cases htext : err'.text with
    | error raised => simp [htext] at h
    | ok text' =>
      simp only [htext, Handled.threw.injEq] at h
      obtain ⟨rfl, rfl⟩ := h
      exact ⟨rfl, htext⟩
  | ok result => cases hr : redaction deps decision result <;> simp [hr] at h

/-- A run that audits one event audits that of its ruling. -/
theorem event?_of_audits {argsFingerprint : Args → String} {deps : PipelineDeps Res}
    {params : PipelineParams Args} {invoke : Option Credential → Except Thrown Res}
    {event : AuditEvent} (h : audits (runPipeline argsFingerprint deps params invoke) = [event]) :
    (ruling deps (accessRequest argsFingerprint deps params)).event? deps
      (accessRequest argsFingerprint deps params) invoke = some event := by
  rw [audits_eq] at h
  cases hevent : (ruling deps (accessRequest argsFingerprint deps params)).event? deps
      (accessRequest argsFingerprint deps params) invoke with
  | none =>
    rw [hevent] at h
    cases h
  | some event' =>
    rw [hevent] at h
    cases h
    rfl

section Arguments
variable {argsFingerprint : Args → String} {deps : PipelineDeps Res} {toolName : String}
  {extra : McpHandlerExtra} {a b : Args}

theorem filter_ne_empty_inj {s t : String} :
    (some s).filter (· ≠ "") = (some t).filter (· ≠ "") ↔ s = t := by
  by_cases hs : s = ""
  · by_cases ht : t = "" <;> simp [Option.filter, hs, ht, eq_comm]
  · by_cases ht : t = "" <;> simp [Option.filter, hs, ht]

/-- Of what the handler threw, the event shows the text and nothing else. -/
theorem auditEvent_eraseFingerprint_iff (warnings : List String) (outcome : Outcome)
    (decision : Decision) (scope : Option (List String)) (textA textB : String) :
    (auditEvent deps (accessRequest argsFingerprint deps ⟨toolName, a, extra⟩) warnings outcome
        decision ⟨scope, some textA⟩).eraseFingerprint =
      (auditEvent deps (accessRequest argsFingerprint deps ⟨toolName, b, extra⟩) warnings outcome
        decision ⟨scope, some textB⟩).eraseFingerprint ↔ textA = textB := by
  rw [← filter_ne_empty_inj]
  constructor
  · intro h
    exact congrArg AuditEvent.error h
  · intro h
    simp only [auditEvent, AuditEvent.eraseFingerprint, h]
    rfl

theorem handled_event?_alike {warnings : List String} {decision : Decision}
    {credential : Option Credential} {endA endB : Except Thrown Res} {eventA eventB : AuditEvent}
    (hA : (handled deps decision endA).event? deps
      (accessRequest argsFingerprint deps ⟨toolName, a, extra⟩) warnings decision credential =
        some eventA)
    (hB : (handled deps decision endB).event? deps
      (accessRequest argsFingerprint deps ⟨toolName, b, extra⟩) warnings decision credential =
        some eventB)
    (houtcome : eventA.outcome = eventB.outcome)
    (htext : ∀ errA errB textA textB, endA = .error errA → endB = .error errB →
      errA.text = .ok textA → errB.text = .ok textB → textA = textB) :
    eventA.eraseFingerprint = eventB.eraseFingerprint := by
  cases hhA : handled deps decision endA with
  | unaudited raised =>
    rw [hhA] at hA
    cases hA
  | returned redactedA =>
    rw [hhA] at hA
    cases hhB : handled deps decision endB with
    | unaudited raised =>
      rw [hhB] at hB
      cases hB
    | threw errB textB =>
      rw [hhB] at hB
      cases hA
      cases hB
      cases houtcome
    | returned redactedB =>
      rw [hhB] at hB
      cases hA
      cases hB
      rfl
  | threw errA textA =>
    rw [hhA] at hA
    cases hhB : handled deps decision endB with
    | unaudited raised =>
      rw [hhB] at hB
      cases hB
    | returned redactedB =>
      rw [hhB] at hB
      cases hA
      cases hB
      cases houtcome
    | threw errB textB =>
      rw [hhB] at hB
      cases hA
      cases hB
      obtain ⟨hendA, htextA⟩ := handled_eq_threw hhA
      obtain ⟨hendB, htextB⟩ := handled_eq_threw hhB
      exact (auditEvent_eraseFingerprint_iff _ _ _ _ textA textB).2
        (htext errA errB textA textB hendA hendB htextA htextB)

end Arguments

/-- The audit event shows the raw arguments through the text of a thrown error and not
otherwise. -/
theorem auditEvents_alike_iff (argsFingerprint : Args → String) (deps : PipelineDeps Res)
    (toolName : String) (extra : McpHandlerExtra)
    (handler : Args → Option Credential → Except Thrown Res) (a b : Args)
    (halike : AnswerAlike deps (accessRequest argsFingerprint deps ⟨toolName, a, extra⟩)
      (accessRequest argsFingerprint deps ⟨toolName, b, extra⟩)) :
    (∀ eventA eventB,
      audits (runPipeline argsFingerprint deps ⟨toolName, a, extra⟩ (handler a)) = [eventA] →
      audits (runPipeline argsFingerprint deps ⟨toolName, b, extra⟩ (handler b)) = [eventB] →
      eventA.outcome = eventB.outcome → eventA.eraseFingerprint = eventB.eraseFingerprint) ↔
    ThrowsAlike deps (accessRequest argsFingerprint deps ⟨toolName, a, extra⟩) (handler a)
      (handler b) := by
  have hruling := ruling_congr halike rfl
  rcases ruling_cases deps (accessRequest argsFingerprint deps ⟨toolName, a, extra⟩) with
    ⟨hadmitted, credential, warnings, hover, hrA⟩ | ⟨hclosed, hnone⟩
  · have hrB := hruling ▸ hrA
    constructor
    · intro hall credential' errA errB textA textB _ hover' hA hB htextA htextB
      obtain ⟨warnings', hrA'⟩ := ruling_eq_granted hadmitted hover'
      cases hrA.symm.trans hrA'
      -- both runs are audited, so their events may be compared
      have haudits {c : Args} {err : Thrown} {text : String}
          (hr : ruling deps (accessRequest argsFingerprint deps ⟨toolName, c, extra⟩) =
            .granted (effectiveDecision deps
              (accessRequest argsFingerprint deps ⟨toolName, a, extra⟩)) credential warnings)
          (hc : handler c credential = .error err) (htext : err.text = .ok text) :
          audits (runPipeline argsFingerprint deps ⟨toolName, c, extra⟩ (handler c)) =
            [auditEvent deps (accessRequest argsFingerprint deps ⟨toolName, c, extra⟩) warnings
              .handlerError (effectiveDecision deps
                (accessRequest argsFingerprint deps ⟨toolName, a, extra⟩))
              ⟨credential.bind Credential.scope, some text⟩] := by
        rw [audits_eq, hr, Ruling.event?, hc, handled, htext]
        rfl
      have herase := hall _ _ (haudits hrA hA htextA) (haudits hrB hB htextB) rfl
      exact (auditEvent_eraseFingerprint_iff warnings _ _ _ textA textB).1 herase
    · intro hthrows eventA eventB heventA heventB houtcome
      have hA := event?_of_audits heventA
      have hB := event?_of_audits heventB
      rw [hrA] at hA
      rw [hrB] at hB
      exact handled_event?_alike hA hB houtcome fun errA errB textA textB hA hB =>
        hthrows credential errA errB textA textB hadmitted hover hA hB
  · constructor
    · intro _ credential errA errB _ _ hadmitted hover
      exact absurd ⟨hadmitted, (credentialAvailable_iff deps _).2 ⟨credential, hover⟩⟩ hclosed
    · intro _ eventA eventB heventA heventB _
      have hA := event?_of_audits heventA
      have hB := event?_of_audits heventB
      rw [← hruling] at hB
      cases hr : ruling deps (accessRequest argsFingerprint deps ⟨toolName, a, extra⟩) with
      | brokenOff raised =>
        rw [hr] at hA
        cases hA
      | granted _ _ _ =>
        rw [hr] at hnone
        cases hnone
      | refused outcome decision warnings effect reason =>
        rw [hr] at hA hB
        cases hA
        cases hB
        rfl

def permissive : PipelineDeps String where
  serverName := "github"
  policy _ := .ok ⟨.allow, none, "main", "1"⟩
  secrets _ _ := .error (.error "no secrets configured")
  audit _ := .ok ()
  identity _ := ⟨"local", none, "local"⟩
  approval := none
  redact := none
  failMode := .closed
  warn _ := .ok ()
  now _ := 0
  clock _ := "2025-01-01T00:00:00.000Z"

def quotingHandler (args : String) (_ : Option Credential) : Except Thrown String :=
  .error (.error ("invalid token " ++ args))

def busyHandler (_ : String) (_ : Option Credential) : Except Thrown String :=
  .error (.error "rate limited")

theorem auditEvents_alike_busy :
    ∃ eventA eventB,
      audits (runPipeline (fun _ => "sha256:0") permissive
        ⟨"login", "topsecret-value", ⟨none, none, none, none⟩⟩ (busyHandler "topsecret-value")) =
          [eventA] ∧
      audits (runPipeline (fun _ => "sha256:0") permissive
        ⟨"login", "guest", ⟨none, none, none, none⟩⟩ (busyHandler "guest")) = [eventB] ∧
      eventA.outcome = .handlerError ∧ eventA.eraseFingerprint = eventB.eraseFingerprint := by
  have halike := (auditEvents_alike_iff (fun _ => "sha256:0") permissive "login"
    ⟨none, none, none, none⟩ busyHandler "topsecret-value" "guest" ⟨rfl, fun _ h => by cases h⟩).2
  refine ⟨_, _, rfl, rfl, rfl, halike ?_ _ _ rfl rfl rfl⟩
  intro credential errA errB textA textB _ _ hA hB htextA htextB
  cases hA
  cases hB
  cases htextA
  cases htextB
  rfl

theorem auditEvent_quotes_argument :
    ∃ eventA eventB,
      audits (runPipeline (fun _ => "sha256:0") permissive
        ⟨"login", "topsecret-value", ⟨none, none, none, none⟩⟩
        (quotingHandler "topsecret-value")) = [eventA] ∧
      audits (runPipeline (fun _ => "sha256:0") permissive
        ⟨"login", "guest", ⟨none, none, none, none⟩⟩ (quotingHandler "guest")) = [eventB] ∧
      eventA.outcome = eventB.outcome ∧ eventA.error = some "invalid token topsecret-value" ∧
      eventA.eraseFingerprint ≠ eventB.eraseFingerprint := by
  refine ⟨_, _, rfl, rfl, rfl, by decide, ?_⟩
  intro h
  have herror := congrArg AuditEvent.error h
  revert herror
  decide

def Call.isWarn : Call Res → Bool
  | .warn _ => true
  | _ => false

def Call.matters (c : Call Res) : Bool := !c.isWarn

def PipelineDeps.withSink (deps : PipelineDeps Res) (sink : AuditEvent → Except Thrown Unit) :
    PipelineDeps Res := { deps with audit := sink }

/-- The two sinks leave no difference but in the calls of `warn`. -/
def SinkImmaterial (argsFingerprint : Args → String) (deps : PipelineDeps Res)
    (params : PipelineParams Args) (invoke : Option Credential → Except Thrown Res)
    (sinkA sinkB : AuditEvent → Except Thrown Unit) : Prop :=
  let runA := runPipeline argsFingerprint (deps.withSink sinkA) params invoke
  let runB := runPipeline argsFingerprint (deps.withSink sinkB) params invoke
  runA.result = runB.result ∧
    runA.log.filter (fun c => !c.isWarn) = runB.log.filter (fun c => !c.isWarn)

/-- The sink rejects an event with a value that has no text, or `warn` throws when it is told of
the text. -/
inductive LetsOut (warn : String → Except Thrown Unit) (toolName : String)
    (sink : AuditEvent → Except Thrown Unit) (event : AuditEvent) (raised : Thrown) : Prop where
  | textless {err : Thrown} (hsink : sink event = .error err) (htext : err.text = .error raised)
  | warn {err : Thrown} {text : String} (hsink : sink event = .error err)
      (htext : err.text = .ok text) (hwarn : warn (sinkWarning toolName text) = .error raised)

def HandlerThrows (deps : PipelineDeps Res) (req : AccessRequest)
    (invoke : Option Credential → Except Thrown Res) (err : Thrown) : Prop :=
  ∃ credential, Admitted deps req ∧ HandsOver deps req credential ∧
    invoke credential = .error err

/-- What the sink makes come out of `emit`. -/
theorem sinkEnd_eq_error_iff {deps : PipelineDeps Res} {req : AccessRequest}
    {sink : AuditEvent → Except Thrown Unit} {event : AuditEvent} {raised : Thrown} :
    sinkEnd (deps.withSink sink) req event = .error raised ↔
      LetsOut deps.warn req.action.name sink event raised := by
  constructor
  · intro h
    cases hsink : sink event with
    | ok _ => simp [sinkEnd, PipelineDeps.withSink, hsink] at h
    | error err =>
      cases htext : err.text with
      | error raised' =>
        simp only [sinkEnd, PipelineDeps.withSink, hsink, htext] at h
        cases h
        exact .textless hsink htext
      | ok text =>
        simp only [sinkEnd, PipelineDeps.withSink, hsink, htext] at h
        exact .warn hsink htext h
  · intro h
    cases h with
    | textless hsink htext =>
      simp only [sinkEnd, PipelineDeps.withSink, hsink, htext]
      rfl
    | warn hsink htext hwarn =>
      simp only [sinkEnd, PipelineDeps.withSink, hsink, htext]
      exact hwarn

theorem accessRequest_withSink (argsFingerprint : Args → String) (deps : PipelineDeps Res)
    (sink : AuditEvent → Except Thrown Unit) (params : PipelineParams Args) :
    accessRequest argsFingerprint (deps.withSink sink) params =
      accessRequest argsFingerprint deps params := rfl

/-- The sources do not see the sink. -/
theorem ruling_withSink (deps : PipelineDeps Res) (sink : AuditEvent → Except Thrown Unit)
    (req : AccessRequest) : ruling (deps.withSink sink) req = ruling deps req := rfl

theorem event?_withSink (deps : PipelineDeps Res) (sink : AuditEvent → Except Thrown Unit)
    (req : AccessRequest) (invoke : Option Credential → Except Thrown Res) (r : Ruling) :
    r.event? (deps.withSink sink) req invoke = r.event? deps req invoke := by
  cases r <;> rfl

theorem ended_withSink (deps : PipelineDeps Res) (sink : AuditEvent → Except Thrown Unit)
    (invoke : Option Credential → Except Thrown Res) (r : Ruling) :
    r.ended (deps.withSink sink) invoke = r.ended deps invoke := by
  cases r <;> rfl

section Sinks
variable (deps : PipelineDeps Res) (sinkA sinkB : AuditEvent → Except Thrown Unit)
  (req : AccessRequest) (warnings : List String) (decision : Decision)
  (invoke : Option Credential → Except Thrown Res)

theorem withSink_approval : (deps.withSink sinkA).approval = deps.approval := rfl

theorem withSink_redact : (deps.withSink sinkA).redact = deps.redact := rfl

theorem withSink_failMode : (deps.withSink sinkA).failMode = deps.failMode := rfl

/-- Where an event is emitted at the end of a run, the sink is heard by `warn` alone. -/
theorem emit_calls {α : Type} (outcome : Outcome) (extra : EmitExtra)
    {f : Unit → Pipeline Res α} (hf : ∀ u, (f u).log = []) :
    (emit (deps.withSink sinkA) req warnings outcome decision extra >>= f).log.filter
        Call.matters =
      (emit (deps.withSink sinkB) req warnings outcome decision extra >>= f).log.filter
        Call.matters := by
  have hlog (sink : AuditEvent → Except Thrown Unit) :
      (emit (deps.withSink sink) req warnings outcome decision extra).log.filter Call.matters =
        [.audit (auditEvent deps req warnings outcome decision extra)] := by
    obtain ⟨rest, hlog, hrest⟩ :=
      emit_log (deps.withSink sink) req warnings outcome decision extra
    have hnone : rest.filter Call.matters = [] := by
      rw [List.filter_eq_nil_iff]
      intro c hc
      obtain ⟨message, rfl⟩ := hrest c hc
      exact Bool.false_ne_true
    rw [hlog, List.filter_cons_of_pos rfl, hnone]
    rfl
  rw [bind_log_of_silent _ hf, bind_log_of_silent _ hf, hlog, hlog]

theorem invokeStep_calls (credential : Option Credential) :
    (invokeStep (deps.withSink sinkA) req warnings decision credential invoke).log.filter
        Call.matters =
      (invokeStep (deps.withSink sinkB) req warnings decision credential invoke).log.filter
        Call.matters := by
  unfold invokeStep
  apply bind_log_congr
  intro ended
  cases ended with
  | error err =>
    apply bind_log_congr
    exact fun text => emit_calls deps sinkA sinkB req warnings decision _ _ fun _ => rfl
  | ok result =>
    have haudited (redacted : Res) := @emit_calls Res deps sinkA sinkB req warnings decision
      (PipelineResult Res) .allowed ⟨credential.bind Credential.scope, none⟩
      (fun _ => pure (.ok redacted)) fun _ => rfl
    simp only [withSink_redact]
    cases deps.redact with
    | none => exact haudited result
    | some redact => exact bind_log_congr _ haudited

theorem credentialStep_calls :
    (credentialStep (deps.withSink sinkA) req warnings decision invoke).log.filter Call.matters =
      (credentialStep (deps.withSink sinkB) req warnings decision invoke).log.filter
        Call.matters := by
  unfold credentialStep
  cases credentialObligation decision with
  | none => exact invokeStep_calls deps sinkA sinkB req warnings decision invoke none
  | some credOb =>
    apply bind_log_congr
    intro resolved
    cases resolved with
    | ok credential => exact invokeStep_calls deps sinkA sinkB req _ decision invoke _
    | error err =>
      apply bind_log_congr
      exact fun text => emit_calls deps sinkA sinkB req _ decision _ _ fun _ => rfl

theorem approvalBlocked_calls (approvalReason : Option String) :
    (approvalBlocked (deps.withSink sinkA) req warnings decision approvalReason).log.filter
        Call.matters =
      (approvalBlocked (deps.withSink sinkB) req warnings decision approvalReason).log.filter
        Call.matters :=
  emit_calls deps sinkA sinkB req _ decision _ _ fun _ => rfl

theorem approvalStep_calls :
    (approvalStep (deps.withSink sinkA) req warnings decision invoke).log.filter Call.matters =
      (approvalStep (deps.withSink sinkB) req warnings decision invoke).log.filter
        Call.matters := by
  unfold approvalStep
  cases decision.effect with
  | deny => exact emit_calls deps sinkA sinkB req _ decision _ _ fun _ => rfl
  | allow => exact credentialStep_calls deps sinkA sinkB req warnings decision invoke
  | requireApproval =>
    simp only [withSink_approval]
    cases deps.approval with
    | none => exact emit_calls deps sinkA sinkB req _ decision _ _ fun _ => rfl
    | some request =>
      apply bind_log_congr
      intro answer
      cases answer with
      | error err =>
        apply bind_log_congr
        exact fun text => approvalBlocked_calls deps sinkA sinkB req warnings decision _
      | ok result =>
        cases hr : result.approved with
        | true =>
          simpa only [hr, if_true] using
            credentialStep_calls deps sinkA sinkB req warnings decision invoke
        | false =>
          simpa only [hr, Bool.false_eq_true, if_false] using
            approvalBlocked_calls deps sinkA sinkB req warnings decision result.reason

end Sinks

/-- The calls of a run do not depend on its sink, but for those of `warn`. -/
theorem runPipeline_calls (argsFingerprint : Args → String) (deps : PipelineDeps Res)
    (params : PipelineParams Args) (invoke : Option Credential → Except Thrown Res)
    (sinkA sinkB : AuditEvent → Except Thrown Unit) :
    (runPipeline argsFingerprint (deps.withSink sinkA) params invoke).log.filter Call.matters =
      (runPipeline argsFingerprint (deps.withSink sinkB) params invoke).log.filter
        Call.matters := by
  unfold runPipeline
  apply bind_log_congr
  intro evaluated
  cases evaluated with
  | ok decision => exact approvalStep_calls deps sinkA sinkB _ _ decision invoke
  | error err =>
    apply bind_log_congr
    intro reason
    simp only [withSink_failMode]
    cases deps.failMode with
    | closed => exact emit_calls deps sinkA sinkB _ _ failDecision _ _ fun _ => rfl
    | opened =>
      apply bind_log_congr
      exact fun _ => approvalStep_calls deps sinkA sinkB _ _ failOpenDecision invoke

/-- Two ends that come before one and the same end. -/
theorem bind_const_eq_iff {ε α : Type} {x y : Except ε Unit} {ended : Except ε α} :
    (x >>= fun _ => ended) = (y >>= fun _ => ended) ↔
      ∀ raised, ended ≠ .error raised → (x = .error raised ↔ y = .error raised) := by
  have hok : (Except.ok () >>= fun _ => ended) = ended := rfl
  have herror (e : ε) : ((Except.error e : Except ε Unit) >>= fun _ => ended) = .error e := rfl
  constructor
  · intro h raised hended
    constructor
    · rintro rfl
      rcases y with e | _
      · rw [herror, herror] at h
        cases h
        rfl
      · rw [herror, hok] at h
        exact absurd h.symm hended
    · rintro rfl
      rcases x with e | _
      · rw [herror, herror] at h
        cases h
        rfl
      · rw [herror, hok] at h
        exact absurd h hended
  · intro h
    rcases x with e | _
    · by_cases hended : ended = .error e
      · rcases y with e' | _
        · by_cases hended' : ended = .error e'
          · rw [herror, herror, ← hended, ← hended']
          · have hx := (h e' hended').2 rfl
            cases hx
            rfl
        · rw [herror, hok, hended]
      · rw [(h e hended).1 rfl]
    · rcases y with e' | _
      · by_cases hended' : ended = .error e'
        · rw [herror, hok, hended']
        · have hx := (h e' hended').2 rfl
          cases hx
      · rfl

/-- An audited run ends with an exception only where the handler threw it. -/
theorem ended_eq_error_iff {deps : PipelineDeps Res} {req : AccessRequest}
    {invoke : Option Credential → Except Thrown Res} {event : AuditEvent} {raised : Thrown}
    (hevent : (ruling deps req).event? deps req invoke = some event) :
    (ruling deps req).ended deps invoke = .error raised ↔
      HandlerThrows deps req invoke raised := by
  rcases ruling_cases deps req with ⟨hadmitted, credential, warnings, hover, hr⟩ | ⟨hclosed, hnone⟩
  · have hthrows : HandlerThrows deps req invoke raised ↔ invoke credential = .error raised := by
      constructor
      · rintro ⟨credential', -, hover', hinvoke⟩
        obtain ⟨warnings', hr'⟩ := ruling_eq_granted hadmitted hover'
        cases hr.symm.trans hr'
        exact hinvoke
      · exact fun hinvoke => ⟨credential, hadmitted, hover, hinvoke⟩
    rw [hthrows]
    rw [hr] at hevent ⊢
    rw [Ruling.event?] at hevent
    rw [Ruling.ended]
    cases hhandled : handled deps (effectiveDecision deps req) (invoke credential) with
    | unaudited _ =>
      rw [hhandled] at hevent
      cases hevent
    | threw err text =>
      obtain ⟨hinvoke, -⟩ := handled_eq_threw hhandled
      rw [hinvoke]
      exact Iff.rfl.trans (by simp only [Handled.ended, Except.error.injEq])
    | returned redacted =>
      refine iff_of_false (fun h => by cases h) fun hinvoke => ?_
      rw [hinvoke, handled] at hhandled
      cases htext : raised.text <;> simp [htext] at hhandled
  · have hnot : ¬ HandlerThrows deps req invoke raised := by
      rintro ⟨credential, hadmitted, hover, -⟩
      exact hclosed ⟨hadmitted, (credentialAvailable_iff deps req).2 ⟨credential, hover⟩⟩
    refine iff_of_false (fun hended => ?_) hnot
    cases hr : ruling deps req with
    | refused _ _ _ _ _ =>
      rw [hr] at hended
      cases hended
    | brokenOff _ =>
      rw [hr] at hevent
      cases hevent
    | granted _ _ _ =>
      rw [hr] at hnone
      cases hnone

/-- Two sinks make no difference exactly when what one of them lets out at the event of the run,
the other lets out too, or the handler has thrown it anyway. -/
theorem sinkImmaterial_iff (argsFingerprint : Args → String) (deps : PipelineDeps Res)
    (params : PipelineParams Args) (invoke : Option Credential → Except Thrown Res)
    (sinkA sinkB : AuditEvent → Except Thrown Unit) :
    SinkImmaterial argsFingerprint deps params invoke sinkA sinkB ↔
      ∀ event, (ruling deps (accessRequest argsFingerprint deps params)).event? deps
          (accessRequest argsFingerprint deps params) invoke = some event →
        ∀ raised, ¬ HandlerThrows deps (accessRequest argsFingerprint deps params) invoke raised →
          (LetsOut deps.warn params.toolName sinkA event raised ↔
            LetsOut deps.warn params.toolName sinkB event raised) := by
  have hcalls := runPipeline_calls argsFingerprint deps params invoke sinkA sinkB
  refine (and_iff_left hcalls).trans ?_
  -- a run ends as its ruling does, once `emit` is through
  have hresult (sink : AuditEvent → Except Thrown Unit) :=
    (runPipeline_carries argsFingerprint (deps.withSink sink) params invoke).result
  rw [hresult sinkA, hresult sinkB]
  simp only [accessRequest_withSink, ruling_withSink, event?_withSink, ended_withSink]
  cases hevent : (ruling deps (accessRequest argsFingerprint deps params)).event? deps
      (accessRequest argsFingerprint deps params) invoke with
  | none => exact iff_of_true rfl fun event h => by cases h
  | some event =>
    refine bind_const_eq_iff.trans ?_
    simp only [auditEnd, sinkEnd_eq_error_iff, ne_eq, ended_eq_error_iff hevent]
    constructor
    · intro h event' hevent'
      cases hevent'
      exact h
    · exact fun h => h event rfl

def textlessSink (_ : AuditEvent) : Except Thrown Unit :=
  .error (.textless (.error "Cannot convert object to primitive value"))

theorem textlessSink_material :
    ¬ SinkImmaterial (fun _ : Unit => "fp") permissive
      ⟨"create_issue", (), ⟨none, none, none, none⟩⟩
      (fun _ => .ok "issue 7 created") (fun _ => .ok ()) textlessSink := by
  rintro ⟨hresult, -⟩
  cases hresult

end AgentValet.Broker
