import AgentValet.Lang.Http
import AgentValet.Mcp.GateClient

namespace AgentValet.Mcp
open Lang

/-- `fetchImpl` may be rejected with any value. -/
structure GateClient where
  proxyUrl : String
  token : String
  fetchImpl : Request → Except Thrown Reply

structure GateRequest where
  platform : String
  endpoint : String
  method : String
  scope : String
  data : Option Serialized
  connectionId : Option String

structure ObserveRequest where
  platform : String
  endpoint : String
  method : String
  action : Option String
  body : Option Serialized
  credential : String

inductive ObserveOutcome where
  | observed (status : ℕ) (data : Json)
  | error (status : ℕ) (code correlationId : Option String) (raw : Json)

/-- The request, which `JSON.stringify` may throw on. -/
def actionsRequest (client : GateClient) (req : GateRequest) : Except Thrown Request := do
  let data ← req.data.elim (pure []) (·.map fun data => [("data", data)])
  pure {
    method := "POST"
    url := client.proxyUrl ++ "/v1/actions"
    headers := [("Authorization", "Bearer " ++ client.token), ("Content-Type", "application/json")]
    body := some (.obj ([("platform", .str req.platform), ("endpoint", .str req.endpoint),
      ("method", .str req.method), ("scope", .str req.scope)] ++ data ++
      ((req.connectionId.filter (· ≠ "")).map fun id => ("connection_id", Json.str id)).toList)) }

def relayRequest (client : GateClient) (req : ObserveRequest) : Except Thrown Request := do
  let body ← req.body.elim (pure []) (·.map fun body => [("body", body)])
  pure {
    method := "POST"
    url := client.proxyUrl ++ "/v1/observe/actions"
    headers := [("Authorization", "Bearer " ++ client.token), ("Content-Type", "application/json"),
      ("X-AV-Observe-Credential", req.credential)]
    body := some (.obj ([("platform", .str req.platform), ("endpoint", .str req.endpoint),
      ("method", .str req.method)] ++
      (req.action.map fun action => ("action", Json.str action)).toList ++ body)) }

def rejection (message : String) : Json := .obj [("error", .str message)]

/-- What `doFetch` is given and what comes of it, all under one `try`. -/
def GateClient.fetch (client : GateClient) (request : Except Thrown Request) :
    Except Thrown Reply :=
  request >>= client.fetchImpl

section
variable (parse : String → Option Json) (client : GateClient)

/-- The `catch` reads the text of what was thrown, and a body that fails to arrive throws past
it. -/
def callGate (req : GateRequest) : Except Thrown GateOutcome :=
  match client.fetch (actionsRequest client req) with
  | .error err => do
    let message ← err.text
    pure (.error 0 (some "network_error") none (rejection message))
  | .ok res => do
    let text ← res.text.mapError Thrown.error
    pure (classifyGateResponse res.status (parseBody parse text))

/-- The same for the relay, which passes every status through. -/
def observe (req : ObserveRequest) : Except Thrown ObserveOutcome :=
  match client.fetch (relayRequest client req) with
  | .error err => do
    let message ← err.text
    pure (.error 0 (some "network_error") none (rejection message))
  | .ok res => do
    let text ← res.text.mapError Thrown.error
    pure (.observed res.status (parseBody parse text))

end

def GateOutcome.isSuspended : GateOutcome → Bool
  | .suspended _ _ _ => true
  | _ => false

def GateOutcome.isNetworkError : GateOutcome → Bool
  | .error _ code _ _ => code = some "network_error"
  | _ => false

def ObserveOutcome.isNetworkError : ObserveOutcome → Bool
  | .error _ code _ _ => code = some "network_error"
  | .observed _ _ => false

def Halted (status : ℕ) (body : Json) : Prop :=
  status = 403 ∧ ∃ reason ∈ suspendedReasons, readField body "reason" = some reason

theorem classifyGateResponse_isSuspended_iff (status : ℕ) (body : Json) :
    (classifyGateResponse status body).isSuspended = true ↔ Halted status body := by
  unfold classifyGateResponse
  split_ifs with h202 hok h401
  · refine iff_of_false Bool.false_ne_true fun h => ?_
    rw [h.1] at h202
    cases h202
  · refine iff_of_false Bool.false_ne_true fun h => ?_
    rw [h.1] at hok
    exact absurd hok.2 (by decide)
  all_goals
    split
    · rename_i reason hreason
      obtain ⟨hread, htest⟩ := Option.filter_eq_some_iff.1 hreason
      have hhalted : status = 403 ∧ reason ∈ suspendedReasons := by simpa using htest
      exact iff_of_true rfl ⟨hhalted.1, reason, hhalted.2, hread⟩
    · rename_i hnone
      refine iff_of_false Bool.false_ne_true ?_
      rintro ⟨h403, reason, hmem, hread⟩
      rw [Option.filter_eq_none_iff] at hnone
      exact hnone reason hread (by simpa using ⟨h403, hmem⟩)

section
variable (parse : String → Option Json) (client : GateClient)

/-- What comes of a call: a decision that its status and its body justify, and `network_error`
where no reply has come in full. -/
def CallGateKeeps (req : GateRequest) : Prop :=
  match client.fetch (actionsRequest client req) with
  | .ok ⟨status, .ok text⟩ => ∃ outcome, callGate parse client req = .ok outcome ∧
      (outcome.isAllowed = true ↔ status ≠ 202 ∧ 200 ≤ status ∧ status < 300) ∧
      (outcome.isPending = true ↔ status = 202) ∧
      (outcome.isSuspended = true ↔ Halted status (parseBody parse text))
  | _ => ∃ outcome, callGate parse client req = .ok outcome ∧ outcome.isNetworkError = true

def ObserveKeeps (req : ObserveRequest) : Prop :=
  match client.fetch (relayRequest client req) with
  | .ok ⟨status, .ok text⟩ =>
    observe parse client req = .ok (.observed status (parseBody parse text))
  | _ => ∃ outcome, observe parse client req = .ok outcome ∧ outcome.isNetworkError = true

/-- The transport fails before the head of a reply, with a value that has a text, or not at all. -/
structure FailsEarly (fetched : Except Thrown Reply) : Prop where
  rejected : ∀ err, fetched = .error err → ¬ err.Textless
  body : ∀ status message, fetched ≠ .ok ⟨status, .error message⟩

/-- The two calls end alike where no reply has come in full. -/
theorem failsEarly_error_iff {α : Type} {err : Thrown} {f : String → α} {p : α → Prop}
    (hp : ∀ message, p (f message)) :
    (∃ outcome, (err.text >>= fun message => pure (f message)) = .ok outcome ∧ p outcome) ↔
      FailsEarly (.error err) := by
  constructor
  · rintro ⟨outcome, hcall, -⟩
    refine ⟨fun err' herr => ?_, fun _ _ h => by cases h⟩
    cases herr
    rintro ⟨raised, hraised⟩
    rw [hraised] at hcall
    cases hcall
  · intro h
    obtain ⟨message, hmessage⟩ := Thrown.not_textless_iff.1 (h.rejected err rfl)
    exact ⟨f message, by rw [hmessage]; rfl, hp message⟩

theorem failsEarly_ok {status : ℕ} {text : String} : FailsEarly (.ok ⟨status, .ok text⟩) :=
  ⟨fun _ h => (by cases h), fun _ _ h => (by cases h)⟩

theorem not_failsEarly_broken {status : ℕ} {message : String} :
    ¬ FailsEarly (.ok ⟨status, .error message⟩) := fun h => h.body status message rfl

theorem callGateKeeps_iff (req : GateRequest) :
    CallGateKeeps parse client req ↔ FailsEarly (client.fetch (actionsRequest client req)) := by
  unfold CallGateKeeps callGate
  cases client.fetch (actionsRequest client req) with
  | error err =>
    exact failsEarly_error_iff fun message => by simp [GateOutcome.isNetworkError]
  | ok res =>
    obtain ⟨status, text⟩ := res
    cases text with
    | error message =>
      refine iff_of_false ?_ not_failsEarly_broken
      rintro ⟨outcome, hcall, -⟩
      cases hcall
    | ok text =>
      refine iff_of_true ⟨classifyGateResponse status (parseBody parse text), rfl, ?_, ?_, ?_⟩
        failsEarly_ok
      · rw [classifyGateResponse_isAllowed, decide_eq_true_eq]
      · rw [classifyGateResponse_isPending, decide_eq_true_eq]
      · exact classifyGateResponse_isSuspended_iff status (parseBody parse text)

theorem observeKeeps_iff (req : ObserveRequest) :
    ObserveKeeps parse client req ↔ FailsEarly (client.fetch (relayRequest client req)) := by
  unfold ObserveKeeps observe
  cases client.fetch (relayRequest client req) with
  | error err =>
    exact failsEarly_error_iff fun message => by simp [ObserveOutcome.isNetworkError]
  | ok res =>
    obtain ⟨status, text⟩ := res
    cases text with
    | error message =>
      refine iff_of_false ?_ not_failsEarly_broken
      rintro ⟨outcome, hcall, -⟩
      cases hcall
    | ok text => exact iff_of_true rfl failsEarly_ok

/-- Both calls keep their promise exactly where the transport fails early, if it fails. -/
theorem gateClient_keeps_iff (req : GateRequest) (relayed : ObserveRequest) :
    (CallGateKeeps parse client req ↔ FailsEarly (client.fetch (actionsRequest client req))) ∧
    (ObserveKeeps parse client relayed ↔ FailsEarly (client.fetch (relayRequest client relayed))) :=
  ⟨callGateKeeps_iff parse client req, observeKeeps_iff parse client relayed⟩

end

def brokenClient : GateClient where
  proxyUrl := "https://proxy"
  token := "jwt"
  fetchImpl _ := .ok ⟨200, .error "terminated"⟩

def postRequest : GateRequest :=
  ⟨"slack", "/api/chat.postMessage", "POST", "chat:write", none, none⟩

def relayedRequest : ObserveRequest := ⟨"slack", "/api/auth.test", "GET", none, none, "xoxb"⟩

/-- Both calls throw what the reading of the body throws. -/
theorem broken_body_throws :
    callGate (fun _ => none) brokenClient postRequest = .error (.error "terminated") ∧
      ¬ CallGateKeeps (fun _ => none) brokenClient postRequest ∧
      ¬ ObserveKeeps (fun _ => none) brokenClient relayedRequest := by
  refine ⟨rfl, ?_, ?_⟩
  · rw [callGateKeeps_iff]
    exact not_failsEarly_broken
  · rw [observeKeeps_iff]
    exact not_failsEarly_broken

end AgentValet.Mcp
