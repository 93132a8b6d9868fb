import AgentValet.Sdk.Errors

namespace AgentValet.Sdk.TypeScript
open Base Lang Approvals

/-- What the engine makes of JSON, and how deep a value it gets through before its stack is used up:
`JSON.stringify` of a value, and the text of an array. -/
structure Runtime where
  parse : String → Option Json
  stringifies : Json → Bool
  joins : List Json → Bool

variable (rt : Runtime) (parse : String → Option Json) (opts : Options)

/-- An array nested too deep to be converted. -/
def overflows : Option Json → Bool
  | some (.arr items) => !rt.joins items
  | _ => false

/-- `String(v)` returns. -/
def hasText (v : Json) : Bool := JavaScript.stringable v && !overflows rt (some v)

/-- What failed to be fetched is put in a text. -/
def diagnoseNetworkError (err : Lang.Thrown) : Thrown :=
  match err.text with
  | .ok _ => .typed .network
  | .error _ => .foreign .text

/-- The token is signed outside of the `try`, the request is sent inside. -/
def once (sent : Except Lang.Thrown Reply) : Ended Reply :=
  match opts.key.jose with
  | .malformed => .error (.typed .config)
  | .unfit => .error (.foreign .signing)
  | .fit => sent.mapError diagnoseNetworkError

def authedFetch (x : Exchange) : Ended Reply := do
  let res ← once opts x.first
  if res.status = 401 then once opts x.retry else pure res

def readText (res : Reply) : Ended String := res.text.mapError fun _ => .foreign .reading

@[simp] theorem readText_ok (status : ℕ) (text : String) :
    readText ⟨status, .ok text⟩ = .ok text := rfl

def readJson (res : Reply) : Ended Json := do
  let text ← readText res
  match parse text with
  | none => .error (.foreign .json)
  | some v => pure v

/-- The properties of `await res.json()`. -/
def readBody (res : Reply) : Ended Payload := do
  match JavaScript.properties (← readJson parse res) with
  | none => .error (.foreign .type)
  | some body => pure body

def tryParseJson (text : String) : Option Json := (JavaScript.structured? text).bind parse

/-- `tryParseJson(text) ?? text` -/
def valueOf (text : String) : Value := ((tryParseJson parse text).map .parsed).getD (.text text)

def proxyError {α : Type} (res : Reply) : Ended α := do
  let text ← readText res
  .error (.typed (.proxy res.status (.text text)))

def answer (x : Exchange) : Ended Value := do
  let res ← authedFetch opts x
  let text ← readText res
  if res.ok then pure (valueOf parse text)
  else .error (.typed (.proxy res.status (.text text)))

/-- The message of an upstream error holds the data as JSON. -/
def upstreamError (status data : Option Json) : Thrown :=
  if data.all rt.stringifies then .typed (.upstream status data) else .foreign .range

def ofVerdict : Verdict → Ended (Option Json)
  | .returned data => pure data
  | .upstreamError status data => .error (upstreamError rt status data)
  | .denied detail => .error (.typed (.approvalDenied detail))
  | .expired => .error (.typed .approvalExpired)
  | .reexecutionFailed err => .error (.typed (.proxy 502 (.reexecutionFailed err)))
  | .statusError status text => .error (.typed (.proxy status (.text text)))
  | .timedOut => .error (.typed .approvalTimeout)
  | .typeError => .error (.foreign .type)

/-- The part of an answer that the tests on it make a text or a number of. -/
def converted (body : Payload) : Option Json :=
  let status := Json.lookup body "status"
  let executionError := Json.lookup body "execution_error"
  if isStr status "denied" then executionError
  else if isStr status "expired" then none
  else if JavaScript.truthy executionError then executionError
  else if isStr status "approved" && JavaScript.truthy (Json.lookup body "executed_at") &&
      JavaScript.truthy (Json.lookup body "result") then
    (Json.lookup body "result").bind (Json.field? "status")
  else none

def interpret (body : Payload) : Option (Ended (Option Json)) :=
  if overflows rt (converted body) then some (.error (.foreign .range))
  else (Client.interpret body).map (ofVerdict rt)

/-- A request whose address holds `v`, which may have no text. -/
def pollFetch (v : Json) (x : Exchange) : Ended Reply :=
  if hasText rt v then authedFetch opts x else .error (.foreign .type)

/-- A poll that fails on the way is made again. -/
def poll (approvalId : Json) (x : Exchange) (told : Option Bool) :
    Option (Ended (Option Json)) :=
  match pollFetch rt opts approvalId x with
  | .error _ => none
  | .ok res =>
    if res.ok then
      andThen (readBody rt.parse res) fun body => orTell told (interpret rt body)
    else some (proxyError res)

def timedOut (approvalId : Json) : Ended (Option Json) :=
  if hasText rt approvalId then .error (.typed .approvalTimeout) else .error (.foreign .type)

structure WaitContext where
  platform : Option String
  scope : Option String
  endpoint : Option String
  timeoutMs : Option Double

def waitForApproval (world : World) (approvalId : Json) (ctx : WaitContext) :
    PollLoop (Ended (Option Json)) (List PendingInfo) where
  running := within world.clock (ctx.timeoutMs.getD opts.approvalTimeout)
  poll k := poll rt opts approvalId (world.polls k) (world.told k)
  advance k infos :=
    match pollFetch rt opts approvalId (world.polls k) with
    | .error _ => infos
    | .ok _ =>
      infos ++ [⟨approvalId, world.clock.elapsed k, ctx.platform.getD "", ctx.scope.getD "",
        ctx.endpoint.getD ""⟩]
  late := timedOut rt approvalId

structure CallRequest where
  platform : String
  endpoint : String
  method : Option String
  scope : String
  data : Data
  connectionId : Option String
  reason : Option String
  approvalTimeoutMs : Option Double

def CallRequest.body (req : CallRequest) : Ended Json :=
  actionBody req.platform req.endpoint (req.method.getD "GET") req.scope req.data req.connectionId
    req.reason

/-- The body is serialised before anything else. -/
def act (world : World) (req : CallRequest) : Ended Reply := do
  let _ ← req.body
  authedFetch opts world.submit

/-- The id of a 202, unless it is falsy. -/
def approvalId? (text : String) : Option Json :=
  ((tryParseJson parse text).bind (Json.field? "approval_id")).filter
    fun id => JavaScript.truthy (some id)

def callReply (req : CallRequest) (res : Reply) : Ended (Reading Json) := do
  let text ← readText res
  match if res.status = 202 then approvalId? parse text else none with
  | some approvalId => pure (.wait approvalId)
  | none =>
    if res.ok then pure (.value (valueOf parse text))
    else if res.status = 403 then
      .error (.typed (.accessDenied res.status text req.platform req.scope))
    else .error (.typed (.proxy res.status (.text text)))

def waitContext (req : CallRequest) : WaitContext where
  platform := some req.platform
  scope := some req.scope
  endpoint := some req.endpoint
  timeoutMs := some (req.approvalTimeoutMs.getD opts.approvalTimeout)

def call (world : World) (req : CallRequest) (fuel : ℕ) : Option (Ended Output) :=
  andThen (act opts world req >>= callReply rt.parse req) <|
    Reading.await fun approvalId =>
      finish (waitForApproval rt opts world approvalId (waitContext opts req)) .waited fuel []

def listPlatforms (world : World) : Ended Value := answer rt.parse opts world.submit

def pendingActions (world : World) : Ended Value := answer rt.parse opts world.submit

def evaluate (world : World) : Ended Value := answer rt.parse opts world.submit

def accessReply (res : Reply) : Ended Json := do
  if !res.ok && res.status != 202 then proxyError res
  else
    let body ← readBody parse res
    match (Json.lookup body "request_token").filter fun t => JavaScript.truthy (some t) with
    | none => .error (.typed (.proxy res.status
      (.text "Access request did not return a request_token.")))
    | some token => pure token

def submitted (submit : Exchange) : Ended Json := do
  let res ← authedFetch opts submit
  accessReply parse res

/-- One look at an access request; only an ok reply is read. -/
def accessPoll (token : Json) (x : Exchange) : Option (Ended String) :=
  match pollFetch rt opts token x with
  | .error _ => none
  | .ok res =>
    if !res.ok then none
    else
      andThen (readBody rt.parse res) fun body =>
        let status := Json.lookup body "status"
        if isStr status "approved" then some (.ok "approved")
        else if isStr status "denied" then some (.ok "denied")
        else none

def accessLoop (world : World) (token : Json) (timeoutMs : Option Double) :
    PollLoop (Ended String) Unit where
  running := within world.clock (timeoutMs.getD opts.approvalTimeout)
  poll k := accessPoll rt opts token (world.polls k)
  advance _ _ := ()
  late := .ok "pending"

def requestAccess (world : World) (timeoutMs : Option Double) (fuel : ℕ) : Option (Ended Output) :=
  andThen (submitted rt.parse opts world.submit) fun token =>
    finish (accessLoop rt opts world token timeoutMs) (.access · token) fuel ()

inductive Method where
  | call (req : CallRequest)
  | waitForApproval (approvalId : String) (ctx : WaitContext)
  | requestAccess (timeoutMs : Option Double)
  | evaluate
  | listPlatforms
  | pendingActions

def run (world : World) (fuel : ℕ) : Method → Option (Ended Output)
  | .call req => call rt opts world req fuel
  | .waitForApproval approvalId ctx =>
    finish (waitForApproval rt opts world (.str approvalId) ctx) .waited fuel []
  | .requestAccess timeoutMs => requestAccess rt opts world timeoutMs fuel
  | .evaluate => some ((evaluate rt opts world).map .value)
  | .listPlatforms => some ((listPlatforms rt opts world).map .value)
  | .pendingActions => some ((pendingActions rt opts world).map .value)

end AgentValet.Sdk.TypeScript
