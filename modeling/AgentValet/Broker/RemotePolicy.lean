import AgentValet.Broker.HostedClient
import AgentValet.Broker.PipelineGate
import AgentValet.Broker.Secrets

namespace AgentValet.Broker
open Base Lang

def isObject : Json → Bool
  | .obj _ => true
  | .arr _ => true
  | _ => false

def isString (v : Json) : Bool := (textOf (some v)).isSome

/-- A key of the attributes; where these are absent or null there is none. -/
def attrs (key : String) (o : Json) : Option Json :=
  (Json.field? "attributes" o).bind (Json.field? key)

def stringItems? : Option Json → Option (List Json)
  | some (.arr items) => some (items.filter isString)
  | _ => none

def credentialEntry (ref : String) (scope : Option (List Json)) : Obligation :=
  ⟨"credential", ("ref", .str ref) :: (scope.map fun items => ("scope", .arr items)).toList⟩

def narrowEntry (scope : List Json) : Obligation := ⟨"narrow_scope", [("scope", .arr scope)]⟩

structure MappedObligations where
  obligations : List Obligation
  requiresApproval : Bool

def mapObligation (mapped : MappedObligations) (o : Json) : MappedObligations :=
  if !isObject o then mapped
  else
    let id := textOf (Json.field? "id" o)
    if id = some "approval" ∨ id = some "require_approval" then
      { mapped with requiresApproval := true }
    else
      match if id = some "credential" then textOf (attrs "ref" o) else none with
      | some ref =>
        let entry := credentialEntry ref (stringItems? (attrs "scope" o))
        { mapped with obligations := mapped.obligations ++ [entry] }
      | none =>
        match if id = some "narrow_scope" then stringItems? (attrs "scope" o) else none with
        | some scope => { mapped with obligations := mapped.obligations ++ [narrowEntry scope] }
        | none => mapped

def mapObligations : Option Json → MappedObligations
  | some (.arr raw) => raw.foldl mapObligation ⟨[], false⟩
  | _ => ⟨[], false⟩

def toAuthzenRequest (req : AccessRequest) : Json :=
  let spiffeId := (req.subject.spiffeId.filter (· ≠ "")).map fun id => ("spiffeId", Json.str id)
  .obj
    [("subject", .obj
        [("type", .str "agent"),
          ("id", .str req.subject.id),
          ("properties", .obj (("sessionId", .str req.subject.sessionId) :: spiffeId.toList))]),
      ("action", .obj [("name", .str req.action.name)]),
      ("resource", .obj
        [("type", .str "tool"),
          ("id", .str req.resource.tool),
          ("properties", .obj [("server", .str req.resource.server)])]),
      ("context", .obj
        [("argsFingerprint", .str req.context.argsFingerprint),
          ("transport", .str req.context.transport),
          ("ts", .str req.context.ts)])]

structure AuthzenPolicySource where
  url : String
  fetch : String → FetchInit → Except Thrown FetchReply
  headers : List (String × String)

/-- `v === true` -/
def isTrue : Option Json → Bool
  | some (.bool b) => b
  | _ => false

namespace AuthzenPolicySource

def exchange (source : AuthzenPolicySource) (req : AccessRequest) : Except Thrown FetchReply :=
  source.fetch source.url ⟨"POST", source.headers, some (toAuthzenRequest req)⟩

def rawObligations (body : Json) : Option Json :=
  (Json.field? "context" body).bind (Json.field? "obligations")

def decisionOf (body : Json) : Decision :=
  let mapped := mapObligations (rawObligations body)
  if isTrue (Json.field? "decision" body) then
    { effect := if mapped.requiresApproval then .requireApproval else .allow
      obligations := some mapped.obligations
      policyId := "authzen"
      version := "1" }
  else ⟨.deny, some [], "authzen", "1"⟩

def evaluate (source : AuthzenPolicySource) (req : AccessRequest) : Except Thrown Decision := do
  let res ← source.exchange req
  let status := res.status
  if res.ok then
    let body ← res.json
    pure (decisionOf body)
  else .error (.error s!"authzen PDP returned HTTP {status}")

end AuthzenPolicySource

structure AgentvaletPolicySource where
  client : HostedClient
  agentId : Option String

namespace AgentvaletPolicySource

def resourceId (req : AccessRequest) : String :=
  let server := req.resource.server
  let tool := req.resource.tool
  s!"{server}:{tool}"

def requestBody (req : AccessRequest) (subjectId : String) : Json :=
  .obj
    [("subject", .obj [("type", .str "agent"), ("id", .str subjectId)]),
      ("action", .obj [("name", .str req.action.name)]),
      ("resource", .obj [("type", .str "tool"), ("id", .str (resourceId req))]),
      ("context", .obj
        [("timestamp", .str req.context.ts),
          ("session_id", .str req.subject.sessionId),
          ("args_fingerprint", .str req.context.argsFingerprint)])]

def exchange (source : AgentvaletPolicySource) (req : AccessRequest) :
    Except Thrown FetchReply := do
  let subjectId ← source.client.subjectId source.agentId
  source.client.exchange "POST" "/v1/authzen/access" (some (requestBody req subjectId))

/-- `result.decision` throws on null; on any other value it is a property or undefined. -/
def decisionOf (req : AccessRequest) : Json → Except Thrown Decision
  | .null => .error (readError "null" "decision")
  | result =>
    if isTrue (Json.field? "decision" result) then
      .ok ⟨.allow, some [⟨"credential", [("ref", .str (resourceId req))]⟩], "agentvalet", "1"⟩
    else .ok ⟨.deny, some [], "agentvalet", "1"⟩

def evaluate (source : AgentvaletPolicySource) (req : AccessRequest) : Except Thrown Decision := do
  let subjectId ← source.client.subjectId source.agentId
  let result ← source.client.request "POST" "/v1/authzen/access" (some (requestBody req subjectId))
  decisionOf req result

end AgentvaletPolicySource

inductive RemotePolicy where
  | authzen (source : AuthzenPolicySource)
  | agentvalet (source : AgentvaletPolicySource)

namespace RemotePolicy

def evaluate : RemotePolicy → AccessRequest → Except Thrown Decision
  | .authzen source => source.evaluate
  | .agentvalet source => source.evaluate

def exchange : RemotePolicy → AccessRequest → Except Thrown FetchReply
  | .authzen source => source.exchange
  | .agentvalet source => source.exchange

/-- The exchange succeeds with this body, and its decision is the boolean true. -/
def Permits (policy : RemotePolicy) (req : AccessRequest) (body : Json) : Prop :=
  ∃ res, policy.exchange req = .ok res ∧ res.ok = true ∧ res.json = .ok body ∧
    Json.field? "decision" body = some (.bool true)

end RemotePolicy

def asksApproval (o : Json) : Bool :=
  let id := textOf (Json.field? "id" o)
  id = some "approval" || id = some "require_approval"

/-- The obligation that an entry stands for, when it is recognised. -/
def obligation? (o : Json) : Option Obligation :=
  if textOf (Json.field? "id" o) = some "credential" then
    (textOf (attrs "ref" o)).map fun ref =>
      credentialEntry ref (stringItems? (attrs "scope" o))
  else if textOf (Json.field? "id" o) = some "narrow_scope" then
    (stringItems? (attrs "scope" o)).map narrowEntry
  else none

def entriesOf : Option Json → List Json
  | some (.arr raw) => raw
  | _ => []

def recognised (o : Json) : Bool := asksApproval o || (obligation? o).isSome

theorem field?_of_not_isObject {o : Json} (h : isObject o = false) (key : String) :
    Json.field? key o = none := by
  cases o <;> simp_all [isObject, Json.field?]

theorem mapObligation_eq (mapped : MappedObligations) (o : Json) :
    mapObligation mapped o =
      ⟨mapped.obligations ++ (obligation? o).toList,
        mapped.requiresApproval || asksApproval o⟩ := by
  unfold mapObligation obligation? asksApproval
  cases hobject : isObject o with
  | false => simp [field?_of_not_isObject hobject, textOf]
  | true =>
    simp only [Bool.not_true, Bool.false_eq_true, if_false]
    by_cases happroval : textOf (Json.field? "id" o) = some "approval"
    · simp [happroval]
    · by_cases hrequire : textOf (Json.field? "id" o) = some "require_approval"
      · simp [hrequire]
      · by_cases hcredential : textOf (Json.field? "id" o) = some "credential"
        · cases textOf (attrs "ref" o) <;> simp [hcredential]
        · by_cases hnarrow : textOf (Json.field? "id" o) = some "narrow_scope"
          · cases stringItems? (attrs "scope" o) <;> simp [hnarrow]
          · simp [happroval, hrequire, hcredential, hnarrow]

theorem foldl_mapObligation (raw : List Json) (mapped : MappedObligations) :
    raw.foldl mapObligation mapped =
      ⟨mapped.obligations ++ raw.filterMap obligation?,
        mapped.requiresApproval || raw.any asksApproval⟩ := by
  induction raw generalizing mapped with
  | nil => simp
  | cons o raw ih =>
    rw [List.foldl_cons, ih, mapObligation_eq]
    cases hentry : obligation? o <;> simp [hentry, Bool.or_assoc]

/-- The loop keeps the recognised entries in their order, and notes a wish for approval. -/
theorem mapObligations_eq (raw : Option Json) :
    mapObligations raw =
      ⟨(entriesOf raw).filterMap obligation?, (entriesOf raw).any asksApproval⟩ := by
  unfold mapObligations entriesOf
  split
  · rw [foldl_mapObligation, List.nil_append, Bool.false_or]
  · rfl

/-- Entries that are not recognised make no difference. -/
theorem mapObligations_filter (raw : List Json) :
    mapObligations (some (.arr (raw.filter recognised))) = mapObligations (some (.arr raw)) := by
  have hobligations : (raw.filter recognised).filterMap obligation? =
      raw.filterMap obligation? := by
    rw [List.filterMap_filter]
    apply List.filterMap_congr
    intro o _
    cases h : obligation? o <;> simp [recognised, h]
  have happroval : (raw.filter recognised).any asksApproval = raw.any asksApproval := by
    rw [List.any_filter]
    congr 1
    funext o
    cases h : asksApproval o <;> simp [recognised, h]
  rw [mapObligations_eq, mapObligations_eq]
  simp only [entriesOf, hobligations, happroval]

theorem isTrue_iff {v : Option Json} : isTrue v = true ↔ v = some (.bool true) := by
  unfold isTrue
  split
  · simp
  · constructor
    · intro h
      cases h
    · rintro rfl
      simp_all

/-- A decision of the authzen: source that does not deny. -/
theorem authzen_of_not_deny {source : AuthzenPolicySource} {req : AccessRequest}
    {decision : Decision} (h : source.evaluate req = .ok decision)
    (hdeny : decision.effect ≠ .deny) :
    ∃ body, (RemotePolicy.authzen source).Permits req body ∧
      decision.effect = if (entriesOf (AuthzenPolicySource.rawObligations body)).any asksApproval
        then .requireApproval else .allow := by
  unfold AuthzenPolicySource.evaluate at h
  obtain ⟨res, hres, h⟩ := Fallible.bind_eq_ok.1 h
  split_ifs at h with hok
  obtain ⟨body, hbody, h⟩ := Fallible.bind_eq_ok.1 h
  rw [Fallible.pure_eq_ok] at h
  subst h
  unfold AuthzenPolicySource.decisionOf at hdeny ⊢
  by_cases htrue : isTrue (Json.field? "decision" body) = true
  · refine ⟨body, ⟨res, hres, hok, hbody, isTrue_iff.1 htrue⟩, ?_⟩
    rw [if_pos htrue, mapObligations_eq]
  · rw [if_neg htrue] at hdeny
    exact absurd rfl hdeny

theorem agentvalet_of_not_deny {source : AgentvaletPolicySource} {req : AccessRequest}
    {decision : Decision} (h : source.evaluate req = .ok decision)
    (hdeny : decision.effect ≠ .deny) :
    ∃ body, (RemotePolicy.agentvalet source).Permits req body := by
  unfold AgentvaletPolicySource.evaluate at h
  obtain ⟨subjectId, hsubject, h⟩ := Fallible.bind_eq_ok.1 h
  obtain ⟨body, hbody, h⟩ := Fallible.bind_eq_ok.1 h
  obtain ⟨res, hres, hok, hjson⟩ := HostedClient.request_eq_ok_iff.1 hbody
  have hexchange : source.exchange req = .ok res := by
    rw [AgentvaletPolicySource.exchange, hsubject]
    exact hres
  refine ⟨body, res, hexchange, hok, hjson, ?_⟩
  unfold AgentvaletPolicySource.decisionOf at h
  split at h
  · cases h
  · split_ifs at h with htrue
    · exact isTrue_iff.1 htrue
    · cases h
      exact absurd rfl hdeny

/-- Past a closed `failMode` the decision allows, or its approval has been given. -/
theorem decision_of_authorized {Res : Type} {deps : PipelineDeps Res} {req : AccessRequest}
    (hclosed : deps.failMode = .closed) (hauth : Authorized deps req) :
    ∃ decision, deps.policy req = .ok decision ∧ Clears deps req decision := by
  obtain ⟨decision, hok, hallow⟩ | ⟨decision, request, result, hok, hrest⟩ | ⟨hopen, -⟩ := hauth
  · exact ⟨decision, hok, .inl hallow⟩
  · exact ⟨decision, hok, .inr ⟨request, result, hrest⟩⟩
  · rw [hclosed] at hopen
    cases hopen

theorem Clears.ne_deny {Res : Type} {deps : PipelineDeps Res} {req : AccessRequest}
    {decision : Decision} (h : Clears deps req decision) : decision.effect ≠ .deny := by
  obtain hallow | ⟨_, _, happroval, -⟩ := h
  · simp [hallow]
  · simp [happroval]

/-- Behind a remote policy and a closed `failMode` the handler runs only on a permit of the
exchange, and on an approval where an entry asks for one. -/
theorem remote_failsClosed {Args Res : Type} {policy : RemotePolicy} {deps : PipelineDeps Res}
    (hpolicy : deps.policy = policy.evaluate) (hclosed : deps.failMode = .closed)
    (argsFingerprint : Args → String) (params : PipelineParams Args)
    (invoke : Option Credential → Except Thrown Res) :
    (invocations (runPipeline argsFingerprint deps params invoke) ≠ [] →
      ∃ body, policy.Permits (accessRequest argsFingerprint deps params) body ∧
        ∀ source, policy = .authzen source →
          (∀ o ∈ entriesOf (AuthzenPolicySource.rawObligations body), asksApproval o = false) ∨
            ∃ decision request result,
              deps.policy (accessRequest argsFingerprint deps params) = .ok decision ∧
              deps.approval = some request ∧
              request (accessRequest argsFingerprint deps params) decision = .ok result ∧
              result.approved = true) ∧
      (∀ raw, mapObligations raw =
        ⟨(entriesOf raw).filterMap obligation?, (entriesOf raw).any asksApproval⟩) ∧
      ∀ raw, mapObligations (some (.arr (raw.filter recognised))) =
        mapObligations (some (.arr raw)) := by
  refine ⟨fun hinvoked => ?_, mapObligations_eq, mapObligations_filter⟩
  obtain ⟨credential, hcredential⟩ := List.exists_mem_of_ne_nil _ hinvoked
  obtain ⟨⟨hauth, -⟩, -⟩ := mem_invocations_iff.1 hcredential
  obtain ⟨decision, hok, hclears⟩ := decision_of_authorized hclosed hauth
  have hdeny := hclears.ne_deny
  have hevaluate := hok
  rw [hpolicy] at hevaluate
  cases policy with
  | agentvalet source =>
    obtain ⟨body, hpermits⟩ := agentvalet_of_not_deny hevaluate hdeny
    refine ⟨body, hpermits, ?_⟩
    intro source' hsource
    cases hsource
  | authzen source =>
    obtain ⟨body, hpermits, hasked⟩ := authzen_of_not_deny hevaluate hdeny
    refine ⟨body, hpermits, fun source' _ => ?_⟩
    obtain hallow | ⟨request, result, -, happroved⟩ := hclears
    · refine .inl fun o ho => Bool.eq_false_of_not_eq_true fun hasks => ?_
      rw [hallow, if_pos (List.any_eq_true.2 ⟨o, ho, hasks⟩)] at hasked
      cases hasked
    · exact .inr ⟨decision, request, result, hok, happroved⟩

def pdp : AuthzenPolicySource where
  url := "https://pdp/access/v1/evaluation"
  fetch := fun _ _ => .ok ⟨true, 200, .ok (.obj [("decision", .bool true)])⟩
  headers := [("content-type", "application/json"), ("accept", "application/json")]

def pdpDeps : PipelineDeps String where
  serverName := "mcp-server"
  policy := (RemotePolicy.authzen pdp).evaluate
  secrets := fun _ _ => .error (.error "unused")
  audit := fun _ => .ok ()
  identity := fun _ => ⟨"agent", none, "session"⟩
  approval := none
  redact := none
  failMode := .closed
  warn _ := .ok ()
  now := fun _ => 0
  clock := fun _ => "now"

theorem remote_failsClosed_pdp : ∃ body, (RemotePolicy.authzen pdp).Permits
    (accessRequest (fun _ : Unit => "fp") pdpDeps ⟨"list", (), ⟨none, none, none, none⟩⟩)
    body := by
  have hinvoked : invocations (runPipeline (fun _ : Unit => "fp") pdpDeps
      ⟨"list", (), ⟨none, none, none, none⟩⟩ fun _ => .ok "done") = [none] := rfl
  have hpermits := (@remote_failsClosed Unit String (.authzen pdp) pdpDeps rfl rfl (fun _ => "fp")
    ⟨"list", (), ⟨none, none, none, none⟩⟩ fun _ => .ok "done").1 (by simp [hinvoked])
  obtain ⟨body, hbody, -⟩ := hpermits
  exact ⟨body, hbody⟩

end AgentValet.Broker
