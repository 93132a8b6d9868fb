import AgentValet.Approvals.PythonClient
import AgentValet.Sdk.Errors

namespace AgentValet.Sdk.Python
open Base Lang Approvals

structure Runtime where
  loads : String → Lang.Python.Loaded
  /-- `response.json()`, which decodes the bytes of the text itself -/
  json : String → Lang.Python.Loaded
  /-- `str` of a value in an address -/
  str : Json → String
  /-- The transport can make a URL of the address. -/
  acceptsUrl : String → Bool
  /-- The transport is open, and its sockets take the timeout. -/
  sends : Double → Bool
  /-- `sleep` takes the interval, which is not negative for `time.sleep`. -/
  sleeps : Double → Bool

variable (rt : Runtime) (opts : Options)

structure Response where
  status : ℕ
  text : String

/-- A failure while reading the body is one of the request. -/
def received (sent : Except Lang.Thrown Reply) : Ended Response :=
  match sent with
  | .error _ => .error (.typed .network)
  | .ok res =>
    match res.text with
    | .error _ => .error (.typed .network)
    | .ok text => .ok ⟨res.status, text⟩

/-- The token is signed outside of the `try`, and of what goes wrong inside only an error of the
transport is caught. -/
def once (path : String) (encoded : Ended Unit) (sent : Except Lang.Thrown Reply) :
    Ended Response :=
  if !opts.key.pyJwt then .error (.typed .config)
  else if !rt.acceptsUrl (opts.proxyUrl ++ path) then .error (.foreign .request)
  else
    match encoded with
    | .error e => .error e
    | .ok () => if !rt.sends opts.timeout then .error (.foreign .request) else received sent

/-- A request to the path, the body of which is encoded anew each time. -/
def authedRequest (path : String) (encoded : Ended Unit) (x : Exchange) : Ended Response := do
  let response ← once rt opts path encoded x.first
  if response.status = 401 then once rt opts path encoded x.retry else pure response

def loadJson (text : String) : Ended Json :=
  match rt.json text with
  | .value v => .ok v
  | .valueError => .error (.foreign .json)
  | .recursionError => .error (.foreign .recursion)

/-- Only what looks structured is parsed, and only a `ValueError` gives the text back. -/
def tryParseJson (text : String) : Ended Value :=
  let trimmed := Lang.Python.strip text.toList
  if trimmed.head? = some '\x7b' || trimmed.head? = some '[' then
    match rt.loads (String.ofList trimmed) with
    | .value v => .ok (.parsed v)
    | .valueError => .ok (.text text)
    | .recursionError => .error (.foreign .recursion)
  else .ok (.text text)

/-- `.get(key)`, which only a dictionary has. -/
def get (v : Json) (key : String) : Ended (Option Json) :=
  match v with
  | .obj fields => .ok (Json.lookup fields key)
  | _ => .error (.foreign .type)

def proxyError {α : Type} (response : Response) : Ended α :=
  .error (.typed (.proxy response.status (.text response.text)))

def answer (path : String) (x : Exchange) : Ended Value := do
  let response ← authedRequest rt opts path (.ok ()) x
  if 400 ≤ response.status then proxyError response else tryParseJson rt response.text

def ofEnded : PythonClient.Ended → Ended (Option Json)
  | .ok data => .ok data
  | .error (.proxyError status body) => .error (.typed (.proxy status body))
  | .error (.approvalDenied detail) => .error (.typed (.approvalDenied (detail.map .str)))
  | .error .approvalExpired => .error (.typed .approvalExpired)
  | .error (.upstreamError status data) =>
    .error (.typed (.upstream (some (.num (.int status))) data))
  | .error .uncaught => .error (.foreign .type)

def interpret (payload : Payload) : Option (Ended (Option Json)) :=
  (PythonClient.interpretApprovalStatus payload).map ofEnded

def pollBody (told : Option Bool) (v : Json) : Option (Ended (Option Json)) :=
  match v with
  | .obj payload => orTell told (interpret payload)
  | _ => some (.error (.foreign .type))

/-- A request in a loop; only a `NetworkError` lets the loop go on. -/
def transient {α : Type} (r : Ended Response) (k : Response → Option (Ended α)) :
    Option (Ended α) :=
  match r with
  | .error (.typed .network) => none
  | .error e => some (.error e)
  | .ok response => k response

def approvalPath (approvalId : String) : String := s!"/v1/approvals/{approvalId}"

def slept {α : Type} (poll : Option (Ended α)) : Option (Ended α) :=
  if rt.sleeps opts.approvalPoll then poll else some (.error (.foreign .sleep))

def poll (approvalId : String) (x : Exchange) (told : Option Bool) : Option (Ended (Option Json)) :=
  transient (authedRequest rt opts (approvalPath approvalId) (.ok ()) x) fun response =>
    if 400 ≤ response.status then some (proxyError response)
    else
      andThen (loadJson rt response.text) (pollBody told)

/-- The message of a timeout rounds the budget, which has to be finite for it. -/
def timedOut (budget : Double) : Ended (Option Json) :=
  match budget with
  | .finite _ => .error (.typed .approvalTimeout)
  | _ => .error (.foreign .rounding)

structure WaitContext where
  platform : String
  scope : String
  endpoint : String
  timeout : Option Double

def waitForApproval (world : World) (approvalId : String) (ctx : WaitContext) :
    PollLoop (Ended (Option Json)) (List PendingInfo) where
  running := within world.clock (ctx.timeout.getD opts.approvalTimeout)
  poll k := slept rt opts (poll rt opts approvalId (world.polls k) (world.told k))
  advance k infos :=
    match authedRequest rt opts (approvalPath approvalId) (.ok ()) (world.polls k) with
    | .error _ => infos
    | .ok _ =>
      infos ++ [⟨.str approvalId, world.clock.elapsed k, ctx.platform, ctx.scope, ctx.endpoint⟩]
  late := timedOut (ctx.timeout.getD opts.approvalTimeout)

structure CallRequest where
  platform : String
  endpoint : String
  method : String
  scope : String
  data : Data
  connectionId : Option String
  reason : Option String
  approvalTimeout : Option Double

def CallRequest.body (req : CallRequest) : Ended Json :=
  actionBody req.platform req.endpoint req.method req.scope req.data req.connectionId req.reason

/-- The body is encoded as a part of the request. -/
def act (world : World) (req : CallRequest) : Ended Response :=
  authedRequest rt opts "/v1/actions" (req.body.map fun _ => ()) world.submit

def approvalIdFrom202 (text : String) : Ended (Option String) := do
  match ← tryParseJson rt text with
  | .parsed (.obj fields) => pure (PythonClient.asStr (Json.lookup fields "approval_id"))
  | _ => pure none

def interpretActionResponse (req : CallRequest) (response : Response) : Ended Value :=
  if response.status = 403 then
    .error (.typed (.accessDenied response.status response.text req.platform req.scope))
  else if ¬ (200 ≤ response.status ∧ response.status < 300) then proxyError response
  else tryParseJson rt response.text

def callReply (req : CallRequest) (response : Response) : Ended (Reading String) := do
  let approvalId ← if response.status = 202 then approvalIdFrom202 rt response.text else pure none
  match approvalId.filter (· ≠ "") with
  | some approvalId => pure (.wait approvalId)
  | none => do
    let v ← interpretActionResponse rt req response
    pure (.value v)

def waitContext (req : CallRequest) : WaitContext where
  platform := req.platform
  scope := req.scope
  endpoint := req.endpoint
  timeout := req.approvalTimeout

def call (world : World) (req : CallRequest) (fuel : ℕ) : Option (Ended Output) :=
  andThen (act rt opts world req >>= callReply rt req) <|
    Reading.await fun approvalId =>
      finish (waitForApproval rt opts world approvalId (waitContext req)) .waited fuel []

def listPlatforms (world : World) : Ended Value :=
  answer rt opts "/v1/agent/permissions" world.submit

def pendingActions (world : World) : Ended Value :=
  answer rt opts "/v1/agents/me/pending-actions" world.submit

def evaluate (world : World) : Ended Value := answer rt opts "/v1/authzen/access" world.submit

def accessReply (response : Response) : Ended Json := do
  if 400 ≤ response.status then proxyError response
  else
    match (← get (← loadJson rt response.text) "request_token").filter
        fun t => Lang.Python.truthy (some t) with
    | none => .error (.typed (.proxy response.status
      (.text "Access request did not return a request_token.")))
    | some token => pure token

def submitted (submit : Exchange) : Ended Json := do
  let response ← authedRequest rt opts "/v1/access-request" (.ok ()) submit
  accessReply rt response

def accessStatus (v : Json) : Option (Ended String) :=
  andThen (get v "status") fun status =>
    if isStr status "approved" then some (.ok "approved")
    else if isStr status "denied" then some (.ok "denied")
    else none

def statusPath (token : Json) : String := "/v1/access-request/status/" ++ rt.str token

def accessPoll (token : Json) (x : Exchange) : Option (Ended String) :=
  transient (authedRequest rt opts (statusPath rt token) (.ok ()) x)
    fun response =>
      if 400 ≤ response.status then none
      else
        andThen (loadJson rt response.text) accessStatus

def accessLoop (world : World) (token : Json) (timeout : Option Double) :
    PollLoop (Ended String) Unit where
  running := within world.clock (timeout.getD opts.approvalTimeout)
  poll k := slept rt opts (accessPoll rt opts token (world.polls k))
  advance _ _ := ()
  late := .ok "pending"

def requestAccess (world : World) (timeout : Option Double) (fuel : ℕ) : Option (Ended Output) :=
  andThen (submitted rt opts world.submit) fun token =>
    finish (accessLoop rt opts world token timeout) (.access · token) fuel ()

inductive Method where
  | call (req : CallRequest)
  | waitForApproval (approvalId : String) (ctx : WaitContext)
  | requestAccess (timeout : Option Double)
  | evaluate
  | listPlatforms
  | pendingActions

def run (world : World) (fuel : ℕ) : Method → Option (Ended Output)
  | .call req => call rt opts world req fuel
  | .waitForApproval approvalId ctx =>
    finish (waitForApproval rt opts world approvalId ctx) .waited fuel []
  | .requestAccess timeout => requestAccess rt opts world timeout fuel
  | .evaluate => some ((evaluate rt opts world).map .value)
  | .listPlatforms => some ((listPlatforms rt opts world).map .value)
  | .pendingActions => some ((pendingActions rt opts world).map .value)

end AgentValet.Sdk.Python
