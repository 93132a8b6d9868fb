import AgentValet.Broker.Ruling

namespace AgentValet.Broker
open Base Lang

variable {Args Res : Type}

/-- Policy and approval let the request through. -/
def Authorized (deps : PipelineDeps Res) (req : AccessRequest) : Prop :=
  (∃ decision, deps.policy req = .ok decision ∧ decision.effect = .allow) ∨
  (∃ decision request result, deps.policy req = .ok decision ∧
    decision.effect = .requireApproval ∧ deps.approval = some request ∧
    request req decision = .ok result ∧ result.approved = true) ∨
  (deps.failMode = .opened ∧ ∃ err, deps.policy req = .error err)

/-- The first credential obligation of the returned decision, if there is one, resolves. -/
def CredentialAvailable (deps : PipelineDeps Res) (req : AccessRequest) : Prop :=
  ∀ decision, deps.policy req = .ok decision →
    ∀ credOb, credentialObligation decision = some credOb →
      ∃ resolved, deps.secrets (credentialRef credOb) decision = .ok resolved

/-- What the handler is to receive: the resolved credential, or nothing when the decision names
none or there is no decision. -/
def HandsOver (deps : PipelineDeps Res) (req : AccessRequest) (credential : Option Credential) :
    Prop :=
  (∀ decision, deps.policy req = .ok decision →
    ∀ credOb, credentialObligation decision = some credOb →
      ∃ resolved, deps.secrets (credentialRef credOb) decision = .ok resolved ∧
        credential = some resolved) ∧
  ((∀ decision, deps.policy req = .ok decision → credentialObligation decision = none) →
    credential = none)

/-- An open `failMode` warns of a policy source that throws, and nothing is thrown on the way. -/
def Announced (deps : PipelineDeps Res) (req : AccessRequest) : Prop :=
  deps.failMode = .opened → ∀ err, deps.policy req = .error err →
    ∃ text, err.text = .ok text ∧ deps.warn (openWarning req.action.name text) = .ok ()

def Admitted (deps : PipelineDeps Res) (req : AccessRequest) : Prop :=
  Authorized deps req ∧ Announced deps req

/-- The decision the run works with past step 1. -/
def effectiveDecision (deps : PipelineDeps Res) (req : AccessRequest) : Decision :=
  match deps.policy req with
  | .ok decision => decision
  | .error _ => failOpenDecision

def Outcome.refuses : Outcome → Bool
  | .denied => true
  | .approvalTimeout => true
  | .approvalDenied => true
  | .allowed => false
  | .handlerError => false

/-- `Authorized`, at a decision. -/
def Clears (deps : PipelineDeps Res) (req : AccessRequest) (decision : Decision) : Prop :=
  decision.effect = .allow ∨
    ∃ request result, decision.effect = .requireApproval ∧ deps.approval = some request ∧
      request req decision = .ok result ∧ result.approved = true

/-- `HandsOver`, at a decision. -/
def Supplies (deps : PipelineDeps Res) (decision : Decision) (credential : Option Credential) :
    Prop :=
  match credentialObligation decision with
  | none => credential = none
  | some credOb =>
    ∃ resolved, deps.secrets (credentialRef credOb) decision = .ok resolved ∧
      credential = some resolved

namespace Ruling

def Grants (decision : Decision) (credential : Option Credential) : Ruling → Prop
  | .granted decision' credential' _ => decision' = decision ∧ credential' = credential
  | _ => False

def RefusalNamed : Ruling → Prop
  | .refused outcome _ _ _ _ => outcome.refuses = true
  | _ => True

def Breaks : Ruling → Prop
  | .brokenOff _ => True
  | _ => False

section AndThen
variable {α : Type} {r : Except Thrown α} {rest : α → Ruling}

theorem andThen_grants {decision : Decision} {credential : Option Credential} :
    (andThen r rest).Grants decision credential ↔
      ∃ a, r = .ok a ∧ (rest a).Grants decision credential := by
  cases r with
  | error raised => simp [andThen, Grants]
  | ok a => simp [andThen]

theorem andThen_refusalNamed (h : ∀ a, (rest a).RefusalNamed) :
    (andThen r rest).RefusalNamed := by
  cases r with
  | error raised => trivial
  | ok a => exact h a

theorem andThen_breaks :
    (andThen r rest).Breaks ↔ (∃ raised, r = .error raised) ∨ ∃ a, r = .ok a ∧ (rest a).Breaks := by
  cases r with
  | error raised => simp [andThen, Breaks]
  | ok a => simp [andThen]

end AndThen

end Ruling

section Grants
variable (deps : PipelineDeps Res) (req : AccessRequest) (warnings : List String)
  (decision decision' : Decision) (credential : Option Credential)

theorem credentialRuling_grants :
    (credentialRuling deps warnings decision).Grants decision' credential ↔
      decision = decision' ∧ Supplies deps decision credential := by
  unfold credentialRuling Supplies
  cases credentialObligation decision with
  | none => simp [Ruling.Grants, eq_comm]
  | some credOb =>
    dsimp only
    cases deps.secrets (credentialRef credOb) decision with
    | ok resolved => simp [Ruling.Grants, eq_comm]
    | error err =>
      rw [Ruling.andThen_grants]
      simp [Ruling.Grants]

theorem credentialRuling_refusalNamed :
    (credentialRuling deps warnings decision).RefusalNamed := by
  unfold credentialRuling
  cases credentialObligation decision with
  | none => trivial
  | some credOb =>
    dsimp only
    cases deps.secrets (credentialRef credOb) decision with
    | ok resolved => trivial
    | error err => exact Ruling.andThen_refusalNamed fun _ => rfl

theorem notApproved_grants (approvalReason : Option String) :
    ¬ (notApproved warnings decision approvalReason).Grants decision' credential := id

theorem notApproved_refusalNamed (approvalReason : Option String) :
    (notApproved warnings decision approvalReason).RefusalNamed := by
  unfold notApproved
  by_cases htimeout : approvalReason = some "timeout"
  · simp [Ruling.RefusalNamed, Outcome.refuses, htimeout]
  · simp [Ruling.RefusalNamed, Outcome.refuses, htimeout]

theorem approvalRuling_grants :
    (approvalRuling deps req warnings decision).Grants decision' credential ↔
      decision = decision' ∧ Clears deps req decision ∧ Supplies deps decision credential := by
  have hcred := credentialRuling_grants deps warnings decision decision' credential
  unfold approvalRuling Clears
  cases decision.effect with
  | deny => simp [Ruling.Grants]
  | allow => simpa using hcred
  | requireApproval =>
    cases deps.approval with
    | none => simp [Ruling.Grants]
    | some request =>
      cases hr : request req decision with
      | error err => simp [hr, Ruling.andThen_grants, notApproved_grants]
      | ok result =>
        by_cases happroved : result.approved = true
        · simpa [hr, happroved] using hcred
        · simp [hr, happroved, notApproved_grants]

theorem approvalRuling_refusalNamed :
    (approvalRuling deps req warnings decision).RefusalNamed := by
  unfold approvalRuling
  cases decision.effect with
  | deny => rfl
  | allow => exact credentialRuling_refusalNamed deps warnings decision
  | requireApproval =>
    cases deps.approval with
    | none => rfl
    | some request =>
      dsimp only
      cases request req decision with
      | error err =>
        exact Ruling.andThen_refusalNamed fun _ => notApproved_refusalNamed warnings decision _
      | ok result =>
        by_cases happroved : result.approved = true
        · simpa [happroved] using credentialRuling_refusalNamed deps warnings decision
        · simpa [happroved] using notApproved_refusalNamed warnings decision _

theorem ruling_refusalNamed : (ruling deps req).RefusalNamed := by
  unfold ruling
  cases deps.policy req with
  | ok decision => exact approvalRuling_refusalNamed deps req [] decision
  | error err =>
    apply Ruling.andThen_refusalNamed
    intro reason
    unfold failModeRuling
    cases deps.failMode with
    | closed => rfl
    | opened =>
      exact Ruling.andThen_refusalNamed fun _ =>
        approvalRuling_refusalNamed deps req _ failOpenDecision

/-- Behind a failing policy source a credential-free call is granted, once it is announced. -/
theorem ruling_grants_of_error {err : Thrown} (h : deps.policy req = .error err) :
    (ruling deps req).Grants decision credential ↔
      failOpenDecision = decision ∧ deps.failMode = .opened ∧ Announced deps req ∧
        credential = none := by
  have hruling : ruling deps req = .andThen err.text (failModeRuling deps req) := by
    simp only [ruling, h]
  have hsupplies : Supplies deps failOpenDecision credential ↔ credential = none := Iff.rfl
  have hclears : Clears deps req failOpenDecision := Or.inl rfl
  rw [hruling, Ruling.andThen_grants]
  constructor
  · rintro ⟨reason, hreason, hgrants⟩
    cases hmode : deps.failMode with
    | closed =>
      simp only [failModeRuling, hmode] at hgrants
      exact hgrants.elim
    | opened =>
      simp only [failModeRuling, hmode] at hgrants
      obtain ⟨_, hwarn, hgrants⟩ := Ruling.andThen_grants.1 hgrants
      obtain ⟨hd, -, hnone⟩ := (approvalRuling_grants deps req _ _ decision credential).1 hgrants
      refine ⟨hd, rfl, fun _ err' herr' => ?_, hsupplies.1 hnone⟩
      cases h.symm.trans herr'
      exact ⟨reason, hreason, hwarn⟩
  · rintro ⟨hd, hmode, hannounced, hnone⟩
    obtain ⟨reason, hreason, hwarn⟩ := hannounced hmode err h
    refine ⟨reason, hreason, ?_⟩
    simp only [failModeRuling, hmode]
    exact Ruling.andThen_grants.2 ⟨(), hwarn,
      (approvalRuling_grants deps req _ _ decision credential).2 ⟨hd, hclears, hsupplies.2 hnone⟩⟩

/-- What is granted is what the gate lets through. -/
theorem ruling_grants :
    (ruling deps req).Grants decision credential ↔
      effectiveDecision deps req = decision ∧ Admitted deps req ∧
        HandsOver deps req credential := by
  cases hp : deps.policy req with
  | ok returned =>
    have hsupplies : Supplies deps returned credential ↔
        (∀ credOb, credentialObligation returned = some credOb →
          ∃ resolved, deps.secrets (credentialRef credOb) returned = .ok resolved ∧
            credential = some resolved) ∧
        (credentialObligation returned = none → credential = none) := by
      unfold Supplies
      cases credentialObligation returned <;> simp
    have hgrants := approvalRuling_grants deps req [] returned decision credential
    simpa [ruling, effectiveDecision, Admitted, Authorized, Announced, HandsOver, hp, hsupplies,
      Clears] using hgrants
  | error err =>
    rw [ruling_grants_of_error deps req decision credential hp]
    simp [effectiveDecision, Admitted, Authorized, HandsOver, hp, and_assoc]

theorem credentialAvailable_iff :
    CredentialAvailable deps req ↔ ∃ credential, HandsOver deps req credential := by
  unfold CredentialAvailable HandsOver
  cases deps.policy req with
  | error err => simp
  | ok decision =>
    cases hob : credentialObligation decision with
    | none => simp [hob]
    | some credOb => simp [hob, exists_comm]

end Grants

/-- What a source throws has no text, or `warn` throws. -/
inductive BreaksOff (deps : PipelineDeps Res) (req : AccessRequest) : Prop where
  | policy {err : Thrown} (hpolicy : deps.policy req = .error err) (htextless : err.Textless)
  | warn {err : Thrown} {text : String} {raised : Thrown} (hopened : deps.failMode = .opened)
      (hpolicy : deps.policy req = .error err) (htext : err.text = .ok text)
      (hwarn : deps.warn (openWarning req.action.name text) = .error raised)
  | approval {decision : Decision}
    {request : AccessRequest → Decision → Except Thrown ApprovalResult}
      {err : Thrown} (hpolicy : deps.policy req = .ok decision)
      (heffect : decision.effect = .requireApproval) (happroval : deps.approval = some request)
      (hrequest : request req decision = .error err) (htextless : err.Textless)
  | credential {decision : Decision} {credOb : Obligation} {err : Thrown}
      (hpolicy : deps.policy req = .ok decision) (hclears : Clears deps req decision)
      (hcredOb : credentialObligation decision = some credOb)
      (hsecrets : deps.secrets (credentialRef credOb) decision = .error err)
      (htextless : err.Textless)

section Breaks
variable {deps : PipelineDeps Res} {req : AccessRequest}

theorem credentialRuling_breaks {warnings : List String} {decision : Decision} :
    (credentialRuling deps warnings decision).Breaks ↔
      ∃ credOb err, credentialObligation decision = some credOb ∧
        deps.secrets (credentialRef credOb) decision = .error err ∧ err.Textless := by
  unfold credentialRuling
  cases credentialObligation decision with
  | none => simp [Ruling.Breaks]
  | some credOb =>
    dsimp only
    cases hs : deps.secrets (credentialRef credOb) decision with
    | ok resolved => simp [Ruling.Breaks, hs]
    | error err =>
      rw [Ruling.andThen_breaks]
      simp [Ruling.Breaks, Thrown.Textless, hs]

theorem approvalRuling_breaks {warnings : List String} {decision : Decision} :
    (approvalRuling deps req warnings decision).Breaks ↔
      (∃ request err, decision.effect = .requireApproval ∧ deps.approval = some request ∧
        request req decision = .error err ∧ err.Textless) ∨
      Clears deps req decision ∧ ∃ credOb err, credentialObligation decision = some credOb ∧
        deps.secrets (credentialRef credOb) decision = .error err ∧ err.Textless := by
  have hcred := @credentialRuling_breaks Res deps warnings decision
  unfold approvalRuling Clears
  cases decision.effect with
  | deny => simp [Ruling.Breaks]
  | allow => simpa using hcred
  | requireApproval =>
    cases deps.approval with
    | none => simp [Ruling.Breaks]
    | some request =>
      cases hr : request req decision with
      | error err =>
        dsimp only
        rw [hr]
        dsimp only
        rw [Ruling.andThen_breaks]
        simp [Ruling.Breaks, notApproved, Thrown.Textless, hr]
      | ok result =>
        by_cases happroved : result.approved = true
        · simpa [hr, happroved] using hcred
        · simp [hr, happroved, Ruling.Breaks, notApproved]

/-- The decision of an open `failMode` names no credential, so nothing breaks off behind it. -/
theorem approvalRuling_failOpen_not_breaks {warnings : List String} :
    ¬ (approvalRuling deps req warnings failOpenDecision).Breaks := by
  rw [approvalRuling_breaks]
  rintro (⟨_, _, heffect, -⟩ | ⟨-, _, _, hcredOb, -⟩)
  · cases heffect
  · cases hcredOb

theorem ruling_breaks : (ruling deps req).Breaks ↔ BreaksOff deps req := by
  unfold ruling
  cases hp : deps.policy req with
  | ok decision =>
    dsimp only
    rw [approvalRuling_breaks]
    constructor
    · rintro (⟨request, err, heffect, happroval, hrequest, htextless⟩ |
        ⟨hclears, credOb, err, hcredOb, hsecrets, htextless⟩)
      · exact .approval hp heffect happroval hrequest htextless
      · exact .credential hp hclears hcredOb hsecrets htextless
    · intro h
      cases h with
      | policy hpolicy _ => cases hp.symm.trans hpolicy
      | warn _ hpolicy _ _ => cases hp.symm.trans hpolicy
      | approval hpolicy heffect happroval hrequest htextless =>
        cases hp.symm.trans hpolicy
        exact Or.inl ⟨_, _, heffect, happroval, hrequest, htextless⟩
      | credential hpolicy hclears hcredOb hsecrets htextless =>
        cases hp.symm.trans hpolicy
        exact Or.inr ⟨hclears, _, _, hcredOb, hsecrets, htextless⟩
  | error err =>
    dsimp only
    rw [Ruling.andThen_breaks]
    constructor
    · rintro (htextless | ⟨reason, hreason, hbreaks⟩)
      · exact .policy hp htextless
      · unfold failModeRuling at hbreaks
        cases hmode : deps.failMode with
        | closed =>
          rw [hmode] at hbreaks
          exact hbreaks.elim
        | opened =>
          rw [hmode] at hbreaks
          obtain ⟨raised, hwarn⟩ | ⟨_, _, hbreaks⟩ := Ruling.andThen_breaks.1 hbreaks
          · exact .warn hmode hp hreason hwarn
          · exact (approvalRuling_failOpen_not_breaks hbreaks).elim
    · intro h
      cases h with
      | policy hpolicy htextless =>
        cases hp.symm.trans hpolicy
        exact Or.inl htextless
      | warn hopened hpolicy htext hwarn =>
        cases hp.symm.trans hpolicy
        refine Or.inr ⟨_, htext, ?_⟩
        rw [failModeRuling, hopened]
        exact Ruling.andThen_breaks.2 (Or.inl ⟨_, hwarn⟩)
      | approval hpolicy _ _ _ _ => cases hp.symm.trans hpolicy
      | credential hpolicy _ _ _ _ => cases hp.symm.trans hpolicy

end Breaks

theorem ruling_eq_granted {deps : PipelineDeps Res} {req : AccessRequest}
    {credential : Option Credential} (hadmitted : Admitted deps req)
    (hover : HandsOver deps req credential) :
    ∃ warnings, ruling deps req = .granted (effectiveDecision deps req) credential warnings := by
  have h := (ruling_grants deps req _ credential).2 ⟨rfl, hadmitted, hover⟩
  cases hr : ruling deps req with
  | granted decision credential' warnings =>
    rw [hr] at h
    obtain ⟨hd, hc⟩ := h
    exact ⟨warnings, by rw [hd, hc]⟩
  | refused _ _ _ _ _ =>
    rw [hr] at h
    exact h.elim
  | brokenOff _ =>
    rw [hr] at h
    exact h.elim

/-- What a ruling can be: a grant behind an open gate, or else a refusal or an exception. -/
theorem ruling_cases (deps : PipelineDeps Res) (req : AccessRequest) :
    (Admitted deps req ∧ ∃ credential warnings, HandsOver deps req credential ∧
      ruling deps req = .granted (effectiveDecision deps req) credential warnings) ∨
    (¬ (Admitted deps req ∧ CredentialAvailable deps req) ∧
      (ruling deps req).invocations = []) := by
  by_cases h : Admitted deps req ∧ CredentialAvailable deps req
  · obtain ⟨credential, hover⟩ := (credentialAvailable_iff deps req).1 h.2
    obtain ⟨warnings, hr⟩ := ruling_eq_granted h.1 hover
    exact Or.inl ⟨h.1, credential, warnings, hover, hr⟩
  · refine Or.inr ⟨h, ?_⟩
    cases hr : ruling deps req with
    | refused _ _ _ _ _ => rfl
    | brokenOff _ => rfl
    | granted decision credential warnings =>
      have hgrants : (ruling deps req).Grants decision credential := by simp [hr, Ruling.Grants]
      obtain ⟨-, hadmitted, hover⟩ := (ruling_grants deps req decision credential).1 hgrants
      exact absurd ⟨hadmitted, (credentialAvailable_iff deps req).2 ⟨credential, hover⟩⟩ h

section Runs
variable {argsFingerprint : Args → String} {deps : PipelineDeps Res}
  {params : PipelineParams Args} {invoke : Option Credential → Except Thrown Res}

theorem invocations_eq :
    invocations (runPipeline argsFingerprint deps params invoke) =
      (ruling deps (accessRequest argsFingerprint deps params)).invocations :=
  (runPipeline_carries argsFingerprint deps params invoke).invocations

theorem audits_eq :
    audits (runPipeline argsFingerprint deps params invoke) =
      ((ruling deps (accessRequest argsFingerprint deps params)).event? deps
        (accessRequest argsFingerprint deps params) invoke).toList :=
  (runPipeline_carries argsFingerprint deps params invoke).audits

/-- The handler is invoked behind an open gate, and with what it is to receive. -/
theorem mem_invocations_iff {credential : Option Credential} :
    credential ∈ invocations (runPipeline argsFingerprint deps params invoke) ↔
      Admitted deps (accessRequest argsFingerprint deps params) ∧
        HandsOver deps (accessRequest argsFingerprint deps params) credential := by
  have hgrants := ruling_grants deps (accessRequest argsFingerprint deps params)
    (effectiveDecision deps (accessRequest argsFingerprint deps params)) credential
  rw [eq_self_iff_true, true_and] at hgrants
  rw [← hgrants, invocations_eq]
  rcases ruling_cases deps (accessRequest argsFingerprint deps params) with
    ⟨-, granted, warnings, -, hr⟩ | ⟨hclosed, hnone⟩
  · rw [hr, Ruling.invocations, List.mem_singleton]
    simp [Ruling.Grants, eq_comm]
  · rw [hnone]
    refine iff_of_false List.not_mem_nil fun h => ?_
    obtain ⟨-, hadmitted, hover⟩ := (ruling_grants deps _ _ credential).1 h
    exact hclosed ⟨hadmitted, (credentialAvailable_iff deps _).2 ⟨credential, hover⟩⟩

end Runs

theorem handsOver_none_iff {deps : PipelineDeps Res} {req : AccessRequest} :
    HandsOver deps req none ↔
      ∀ decision, deps.policy req = .ok decision → credentialObligation decision = none := by
  constructor
  · intro h decision hdecision
    cases hob : credentialObligation decision with
    | none => rfl
    | some credOb =>
      obtain ⟨resolved, -, hresolved⟩ := h.1 decision hdecision credOb hob
      cases hresolved
  · intro h
    refine ⟨fun decision hdecision credOb hob => ?_, fun _ => rfl⟩
    rw [h decision hdecision] at hob
    cases hob

theorem ruling_failMode {deps : PipelineDeps Res} {req : AccessRequest} {decision : Decision}
    (h : deps.policy req = .ok decision) (mode : FailMode) :
    ruling { deps with failMode := mode } req = ruling deps req := by
  simp only [ruling, h]
  rfl

/-- The handler runs once behind an open gate, with what it is to receive, and never behind a
closed one; once the policy answers, `failMode` has no part in it. -/
def GateKept (argsFingerprint : Args → String) (deps : PipelineDeps Res)
    (params : PipelineParams Args) (invoke : Option Credential → Except Thrown Res) : Prop :=
  let req := accessRequest argsFingerprint deps params
  let run := runPipeline argsFingerprint deps params invoke
  (Authorized deps req ∧ CredentialAvailable deps req →
    ∃ credential, HandsOver deps req credential ∧ invocations run = [credential]) ∧
  (¬ (Authorized deps req ∧ CredentialAvailable deps req) → invocations run = []) ∧
  (∀ decision mode, deps.policy req = .ok decision →
    invocations (runPipeline argsFingerprint { deps with failMode := mode } params invoke) =
      invocations run)

/-- The gate is kept unless the warning of an open `failMode` fails. -/
theorem gateKept_iff (argsFingerprint : Args → String) (deps : PipelineDeps Res)
    (params : PipelineParams Args) (invoke : Option Credential → Except Thrown Res) :
    GateKept argsFingerprint deps params invoke ↔
      Announced deps (accessRequest argsFingerprint deps params) := by
  constructor
  · rintro ⟨hopens, -, -⟩ hmode err herr
    -- without a decision there is nothing to approve, and no credential to resolve
    obtain ⟨credential, hover, hinvocations⟩ :=
      hopens ⟨Or.inr (Or.inr ⟨hmode, err, herr⟩), fun decision hdecision => by
        cases herr.symm.trans hdecision⟩
    have hmem : credential ∈ invocations (runPipeline argsFingerprint deps params invoke) := by
      rw [hinvocations]
      exact List.mem_singleton_self credential
    exact (mem_invocations_iff.1 hmem).1.2 hmode err herr
  · intro hannounced
    refine ⟨?_, ?_, ?_⟩
    · rintro ⟨hauth, havailable⟩
      obtain ⟨credential, hover⟩ := (credentialAvailable_iff deps _).1 havailable
      obtain ⟨warnings, hr⟩ := ruling_eq_granted ⟨hauth, hannounced⟩ hover
      refine ⟨credential, hover, ?_⟩
      rw [invocations_eq, hr]
      rfl
    · intro hclosed
      rw [List.eq_nil_iff_forall_not_mem]
      intro credential hmem
      obtain ⟨⟨hauth, -⟩, hover⟩ := mem_invocations_iff.1 hmem
      exact hclosed ⟨hauth, (credentialAvailable_iff deps _).2 ⟨credential, hover⟩⟩
    · intro decision mode hpolicy
      rw [invocations_eq, invocations_eq]
      exact congrArg Ruling.invocations (ruling_failMode hpolicy mode)

/-- A policy source that throws `Object.create(null)`, in a dev loop. -/
def textlessPolicy : PipelineDeps String where
  serverName := "github"
  policy _ := .error (.textless (.error "Cannot convert object to primitive value"))
  secrets _ _ := .error (.error "no secrets configured")
  audit _ := .ok ()
  identity _ := ⟨"local", none, "local"⟩
  approval := none
  redact := none
  failMode := .opened
  warn _ := .ok ()
  now _ := 0
  clock _ := "2025-01-01T00:00:00.000Z"

theorem textlessPolicy_not_gateKept :
    ¬ GateKept (fun _ : Unit => "") textlessPolicy ⟨"create_issue", (), ⟨none, none, none, none⟩⟩
      (fun _ => .ok "issue 7 created") := by
  rintro ⟨hopens, -, -⟩
  obtain ⟨credential, -, hinvocations⟩ := hopens
    ⟨Or.inr (Or.inr ⟨rfl, _, rfl⟩), fun decision hdecision => by cases hdecision⟩
  have hnone : invocations (runPipeline (fun _ : Unit => "") textlessPolicy
      ⟨"create_issue", (), ⟨none, none, none, none⟩⟩ (fun _ => .ok "issue 7 created")) = [] := rfl
  rw [hnone] at hinvocations
  cases hinvocations

/-- The run called `audit.emit` once, and the event names how the run ended. -/
def AuditedOnce (run : Pipeline Res (PipelineResult Res))
    (invoke : Option Credential → Except Thrown Res) : Prop :=
  ∃ event, audits run = [event] ∧
    (event.outcome = .allowed ↔
      ∃ credential result, invocations run = [credential] ∧ invoke credential = .ok result) ∧
    (event.outcome = .handlerError ↔
      ∃ credential err, invocations run = [credential] ∧ invoke credential = .error err) ∧
    (event.outcome.refuses = true ↔ invocations run = [])

/-- The run breaks off, the redaction hook throws on what the handler returned, or what the handler
threw has no text. -/
inductive Unaudited (deps : PipelineDeps Res) (req : AccessRequest)
    (invoke : Option Credential → Except Thrown Res) : Prop where
  | brokenOff (h : BreaksOff deps req)
  | handler {credential : Option Credential} {err : Thrown} (hadmitted : Admitted deps req)
      (hover : HandsOver deps req credential) (hinvoke : invoke credential = .error err)
      (htextless : err.Textless)
  | redaction {credential : Option Credential} {result : Res}
      {redact : Res → Decision → Except Thrown Res} {err : Thrown} (hadmitted : Admitted deps req)
      (hover : HandsOver deps req credential) (hinvoke : invoke credential = .ok result)
      (hredact : deps.redact = some redact)
      (hthrows : redact result (effectiveDecision deps req) = .error err)

theorem handled_event?_eq_none_iff {deps : PipelineDeps Res} {req : AccessRequest}
    {warnings : List String} {decision : Decision} {credential : Option Credential}
    {ended : Except Thrown Res} :
    (handled deps decision ended).event? deps req warnings decision credential = none ↔
      (∃ err, ended = .error err ∧ err.Textless) ∨
        ∃ result redact err, ended = .ok result ∧ deps.redact = some redact ∧
          redact result decision = .error err := by
  cases ended with
  | error err =>
    cases htext : err.text <;> simp [handled, Handled.event?, Thrown.Textless, htext]
  | ok result =>
    cases hredact : deps.redact with
    | none => simp [handled, redaction, Handled.event?, hredact]
    | some redact =>
      cases hr : redact result decision <;>
        simp [handled, redaction, Handled.event?, hredact, hr]

theorem unaudited_iff (deps : PipelineDeps Res) (req : AccessRequest)
    (invoke : Option Credential → Except Thrown Res) :
    (ruling deps req).event? deps req invoke = none ↔ Unaudited deps req invoke := by
  have hbreaks := @ruling_breaks Res deps req
  rcases ruling_cases deps req with ⟨hadmitted, credential, warnings, hover, hr⟩ | ⟨hclosed, hnone⟩
  · have hcredential : ∀ credential', HandsOver deps req credential' →
        credential' = credential := by
      intro credential' hover'
      obtain ⟨warnings', hr'⟩ := ruling_eq_granted hadmitted hover'
      cases hr.symm.trans hr'
      rfl
    rw [hr] at hbreaks ⊢
    refine handled_event?_eq_none_iff.trans ?_
    constructor
    · rintro (⟨err, hinvoke, htextless⟩ | ⟨result, redact, err, hinvoke, hredact, hthrows⟩)
      · exact .handler hadmitted hover hinvoke htextless
      · exact .redaction hadmitted hover hinvoke hredact hthrows
    · intro h
      cases h with
      | brokenOff h => exact (hbreaks.2 h).elim
      | handler _ hover' hinvoke htextless =>
        rw [hcredential _ hover'] at hinvoke
        exact Or.inl ⟨_, hinvoke, htextless⟩
      | redaction _ hover' hinvoke hredact hthrows =>
        rw [hcredential _ hover'] at hinvoke
        exact Or.inr ⟨_, _, _, hinvoke, hredact, hthrows⟩
  · have hnot : ∀ credential, Admitted deps req → ¬ HandsOver deps req credential := fun _ ha ho =>
      hclosed ⟨ha, (credentialAvailable_iff deps req).2 ⟨_, ho⟩⟩
    have hiff : Unaudited deps req invoke ↔ BreaksOff deps req := by
      constructor
      · intro h
        cases h with
        | brokenOff h => exact h
        | handler ha ho _ _ => exact (hnot _ ha ho).elim
        | redaction ha ho _ _ _ => exact (hnot _ ha ho).elim
      · exact .brokenOff
    rw [hiff, ← hbreaks]
    cases hr : ruling deps req with
    | refused _ _ _ _ _ => exact iff_of_false (fun h => by cases h) id
    | brokenOff raised => exact iff_of_true rfl trivial
    | granted _ _ _ =>
      rw [hr] at hnone
      cases hnone

/-- The event of a ruling names what becomes of it. -/
theorem event_names {deps : PipelineDeps Res} {req : AccessRequest}
    {invoke : Option Credential → Except Thrown Res} {r : Ruling} (hnamed : r.RefusalNamed)
    {event : AuditEvent} (h : r.event? deps req invoke = some event) :
    (event.outcome = .allowed ↔
      ∃ credential result, r.invocations = [credential] ∧ invoke credential = .ok result) ∧
    (event.outcome = .handlerError ↔
      ∃ credential err, r.invocations = [credential] ∧ invoke credential = .error err) ∧
    (event.outcome.refuses = true ↔ r.invocations = []) := by
  cases r with
  | brokenOff raised => cases h
  | refused outcome decision warnings effect reason =>
    obtain rfl := Option.some.inj h
    have ho : outcome.refuses = true := hnamed
    cases outcome <;> simp_all [auditEvent, Outcome.refuses, Ruling.invocations]
  | granted decision credential warnings =>
    have h' : (handled deps decision (invoke credential)).event? deps req warnings decision
      credential = some event := h
    cases hi : invoke credential with
    | error err =>
      rw [hi, handled] at h'
      cases htext : err.text with
      | error raised =>
        rw [htext] at h'
        cases h'
      | ok text =>
        rw [htext] at h'
        obtain rfl := Option.some.inj h'
        simp [auditEvent, Outcome.refuses, Ruling.invocations, hi]
    | ok result =>
      rw [hi, handled] at h'
      cases hr : redaction deps decision result with
      | error raised =>
        rw [hr] at h'
        cases h'
      | ok redacted =>
        rw [hr] at h'
        obtain rfl := Option.some.inj h'
        simp [auditEvent, Outcome.refuses, Ruling.invocations, hi]

/-- A run is audited exactly once, under the name of its end, unless it goes wrong before the
sink. -/
theorem auditedOnce_iff (argsFingerprint : Args → String) (deps : PipelineDeps Res)
    (params : PipelineParams Args) (invoke : Option Credential → Except Thrown Res) :
    AuditedOnce (runPipeline argsFingerprint deps params invoke) invoke ↔
      ¬ Unaudited deps (accessRequest argsFingerprint deps params) invoke := by
  rw [← unaudited_iff]
  unfold AuditedOnce
  rw [audits_eq, invocations_eq]
  have hnamed := ruling_refusalNamed deps (accessRequest argsFingerprint deps params)
  cases hevent : (ruling deps (accessRequest argsFingerprint deps params)).event? deps
      (accessRequest argsFingerprint deps params) invoke with
  | none =>
    refine iff_of_false ?_ fun h => h rfl
    rintro ⟨event, h, -⟩
    cases h
  | some event =>
    refine iff_of_true ⟨event, rfl, ?_⟩ fun h => by cases h
    exact event_names hnamed hevent

/-- An allowed call whose redaction hook throws a `TypeError`. -/
def failingRedaction : PipelineDeps String where
  serverName := "github"
  policy _ := .ok ⟨.allow, none, "main", "1"⟩
  secrets _ _ := .error (.error "no secrets configured")
  audit _ := .ok ()
  identity _ := ⟨"local", none, "local"⟩
  approval := none
  redact := some fun _ _ => .error (.error "Cannot read properties of undefined")
  failMode := .closed
  warn _ := .ok ()
  now _ := 0
  clock _ := "2025-01-01T00:00:00.000Z"

theorem invoked_but_unaudited :
    let run := runPipeline (fun _ : Unit => "") failingRedaction
      ⟨"create_issue", (), ⟨none, none, none, none⟩⟩ (fun _ => .ok "issue 7 created")
    invocations run = [none] ∧ audits run = [] ∧
      ¬ AuditedOnce run (fun _ => .ok "issue 7 created") := by
  intro run
  have haudits : audits run = [] := rfl
  refine ⟨rfl, haudits, ?_⟩
  rintro ⟨event, h, -⟩
  rw [haudits] at h
  cases h

end AgentValet.Broker
