import AgentValet.Mcp.Context

namespace AgentValet.Mcp
open Base Lang Approvals

variable {Key : Type} (rt : Runtime Key) (ctx : ServerContext Key)

def identityClaims (ctx : ServerContext Key) : Json :=
  .obj [("agent_id", ctx.AGENT_ID), ("owner_id", ctx.OWNER_ID)]

def signJWT : Prog String :=
  match ctx.privateKey with
  | none => .threw .keyNotLoaded
  | some key => do
    let issuedAt ← now
    let expires ← now
    Program.ofExcept ((rt.sign key (identityClaims ctx) issuedAt expires).mapError .signing)

def bindSecretRequest : Request where
  method := "POST"
  url := s!"{ctx.PROXY_URL}/v1/bind-secret"
  headers := [("Content-Type", "application/json")]
  body := some (identityClaims ctx)

/-- Best effort: a failure does not block the error response. -/
def notifyBindSecret : Prog Unit := do
  let _ ← (fetchWithTimeout (bindSecretRequest ctx) 8000).attempt
  pure ()

def pendingFirstCallResponse : ToolResult :=
  errorContent (rt.stringify (.obj [("error",
    .str "Agent not yet activated — owner confirmation pending. Retry in 60 seconds.")]))

def credentialsNotConfiguredResponse : ToolResult :=
  errorContent ("AgentValet credentials are not configured. Set AGENTVALET_AGENT_ID, " ++
    "AGENTVALET_OWNER_ID, and the agent private key (and optionally " ++
    "AGENTVALET_PROXY_URL). Run npx @agentvalet/register to create an agent. " ++
    "Docs: https://github.com/AgentValet/AgentValet#quickstart")

def identified (ctx : ServerContext Key) : Bool :=
  JavaScript.truthy (some ctx.AGENT_ID) && JavaScript.truthy (some ctx.OWNER_ID)

/-- The gate of every tool here: `none` lets the call proceed. -/
def requireCredentials : Prog (Option ToolResult) :=
  if ctx.AGENT_PRIVATE_KEY_RAW.isSome then .returned none
  else if identified ctx then do
    notifyBindSecret ctx
    pure (some (pendingFirstCallResponse rt))
  else .returned (some credentialsNotConfiguredResponse)

def gated (tool : Prog ToolResult) : Prog ToolResult := do
  match ← requireCredentials rt ctx with
  | some refusal => pure refusal
  | none => tool

structure RequestInit where
  method : String
  headers : List (String × String)
  body : Option Json

def authRequest (url : String) (init : RequestInit) (token : String) : Request where
  method := init.method
  url := url
  headers := [("Authorization", s!"Bearer {token}"), ("Content-Type", "application/json")] ++
    init.headers
  body := init.body

def makeRequest (url : String) (init : RequestInit) : Prog Reply := do
  let token ← signJWT rt ctx
  fetchWithTimeout (authRequest url init token) 15000

/-- One more request, with a new token, when the first is answered 401. -/
def fetchWithAuth (url : String) (init : RequestInit) : Prog Reply := do
  let response ← makeRequest rt ctx url init
  if response.status = 401 then makeRequest rt ctx url init else pure response

def relay (response : Reply) : Prog ToolResult := do
  let text ← readText response
  if response.ok then pure (jsonContent rt text)
  else pure (errorContent s!"Proxy error {response.status}: {text}")

def requestThen (url : String) (init : RequestInit) (failed : Fault → ToolResult)
    (k : Reply → Prog ToolResult) : Prog ToolResult := do
  match ← (fetchWithAuth rt ctx url init).attempt with
  | .error fault => pure (failed fault)
  | .ok response => k response

def networkError (fault : Fault) : ToolResult := errorContent s!"Network error: {fault.message}"

def diagnosed (fault : Fault) : ToolResult :=
  errorContent (diagnoseNetworkError fault.message ctx.PROXY_URL)

/-- The payload of the proxy's envelope, or the answer itself where there is no envelope. -/
def unwrapData (parsed : Option Json) : Option Json :=
  match parsed.bind (Json.field? "data") with
  | some data => some data
  | none => parsed

def handleListPlatforms : Prog ToolResult :=
  gated rt ctx <| requestThen rt ctx s!"{ctx.PROXY_URL}/v1/agent/permissions" ⟨"GET", [], none⟩
    (diagnosed ctx) fun response => do
      let body ← readText response
      if response.ok then
        match unwrapData (tryParseJson rt body) with
        | some (.obj fields) => pure ⟨body, some (.obj fields), false⟩
        | some (.arr items) => pure ⟨body, some (.arr items), false⟩
        | _ => pure (jsonContent rt body)
      else pure (errorContent s!"Proxy error {response.status}: {body}")

structure UsePlatform where
  platform : String
  endpoint : String
  method : String
  scope : String
  data : Option Json
  connectionId : Option String

def approvalPollBudgetMs : ℕ := 50000

def approvalPollIntervalMs : ℕ := 2000

def timedOutResult (approvalId : Json) : ToolResult :=
  jsonContent rt (rt.stringify (.obj [("status", .str "pending_approval"),
    ("approval_id", approvalId),
    ("message", .str ("Owner hasn't approved within 50s. " ++
      "The action is queued — your owner will be notified, and you'll see it " ++
      "complete next time we chat (or you can ask me to check pending actions)."))]))

def settle (approvalId : Json) (elapsed : ℚ) : Verdict → Prog ToolResult
  | .returned data =>
    let data := data.getD .null
    let seconds := McpServer.round (elapsed / 1000)
    let summary := s!"[Owner approved after {seconds}s]\n" ++ rt.stringify data
    match data with
    | .obj fields => .returned ⟨summary, some (.obj fields), false⟩
    | _ => .returned ⟨summary, none, false⟩
  | .upstreamError status data =>
    .returned (errorContent ("Upstream returned " ++ optionalText rt status ++ ": " ++
      (data.map rt.stringify).getD "undefined"))
  | .denied detail =>
    .returned (errorContent ("Owner denied this action" ++
      if JavaScript.truthy detail then ": " ++ optionalText rt detail else "."))
  | .expired => .returned (errorContent "Approval request expired before the owner responded.")
  | .reexecutionFailed err =>
    .returned (errorContent ("Approved but re-execution failed: " ++ optionalText rt err))
  | .statusError status text =>
    .returned (errorContent s!"Approval status error {status}: {text}")
  | .timedOut => .returned (timedOutResult rt approvalId)
  | .typeError => .threw .typeError

def pollApproval (approvalId : Json) : Prog Reply := do
  let id ← template rt approvalId
  fetchWithAuth rt ctx s!"{ctx.PROXY_URL}/v1/approvals/{id}" ⟨"GET", [], none⟩

/-- The loop of the wait, for `fuel` rounds. -/
def pollApprovals (approvalId : Json) (progressToken : Option Json) (startedAt : ℚ) :
    ℕ → ℚ → Prog ToolResult
  | 0, _ => .unfinished
  | fuel + 1, lastProgressAt => do
    if (← now) - startedAt < approvalPollBudgetMs then
      sleep approvalPollIntervalMs
      let elapsed := (← now) - startedAt
      match ← (pollApproval rt ctx approvalId).attempt with
      | .error _ => pollApprovals approvalId progressToken startedAt fuel lastProgressAt
      | .ok response =>
        if response.ok then
          let status ← readJson rt response
          match JavaScript.properties status with
          | none => .threw .typeError
          | some body =>
            match McpServer.interpret body with
            | some verdict => settle rt approvalId elapsed verdict
            | none =>
              if McpServer.approvalProgressIntervalMs ≤ (← now) - lastProgressAt then
                let seconds := McpServer.round (elapsed / 1000)
                sendProgress progressToken ⟨elapsed, approvalPollBudgetMs,
                  s!"Waiting for owner approval — {seconds}s elapsed"⟩
                let told ← now
                pollApprovals approvalId progressToken startedAt fuel told
              else pollApprovals approvalId progressToken startedAt fuel lastProgressAt
        else
          let text ← readText response
          settle rt approvalId elapsed (.statusError response.status text)
    else settle rt approvalId 0 .timedOut

def waitForApproval (fuel : ℕ) (approvalId : Json) (params : UsePlatform)
    (progressToken : Option Json) : Prog ToolResult := do
  let startedAt ← now
  let platform := params.platform
  let scope := params.scope
  sendProgress progressToken ⟨0, approvalPollBudgetMs,
    s!"Owner approval required for {platform}:{scope} — waiting…"⟩
  pollApprovals rt ctx approvalId progressToken startedAt fuel 0

def observes (ctx : ServerContext Key) (params : UsePlatform) : Bool :=
  ctx.OBSERVE_CREDENTIAL != "" &&
    (ctx.OBSERVE_PLATFORM == "" || ctx.OBSERVE_PLATFORM == params.platform)

def optionalField (key : String) (v : Option Json) : List (String × Json) :=
  (v.map fun v => (key, v)).toList

def observeBody (params : UsePlatform) : Json :=
  .obj ([("platform", .str params.platform), ("endpoint", .str params.endpoint),
    ("method", .str params.method), ("action", .str params.scope)] ++
    optionalField "body" params.data)

def requestBody (params : UsePlatform) : Json :=
  .obj ([("platform", .str params.platform), ("endpoint", .str params.endpoint),
    ("method", .str params.method), ("scope", .str params.scope)] ++
    optionalField "data" params.data ++
    optionalField "connection_id" ((params.connectionId.filter (· ≠ "")).map .str))

def observeAction (params : UsePlatform) : Prog ToolResult :=
  requestThen rt ctx s!"{ctx.PROXY_URL}/v1/observe/actions"
    ⟨"POST", [("X-AV-Observe-Credential", ctx.OBSERVE_CREDENTIAL)], some (observeBody params)⟩
    networkError (relay rt)

/-- `safeJsonParse(body)?.approval_id`, unless that is falsy; null parses, and reads as nothing. -/
def approvalId? (body : String) : Option Json :=
  ((rt.parse body).bind (Json.field? "approval_id")).filter fun id => JavaScript.truthy (some id)

def actionReply (fuel : ℕ) (params : UsePlatform) (progressToken : Option Json)
    (response : Reply) : Prog ToolResult := do
  let body ← readText response
  match if response.status = 202 then approvalId? rt body else none with
  | some approvalId => waitForApproval rt ctx fuel approvalId params progressToken
  | none =>
    if response.ok then pure (jsonContent rt body)
    else
      let hint := if response.status = 403 then "  You can call request_platform_access(\x7b " ++
        "platform, scope, reason \x7d) to ask an org admin to grant this." else ""
      pure (errorContent s!"Proxy error {response.status}: {body}{hint}")

def sendAction (params : UsePlatform) : Prog Reply :=
  fetchWithAuth rt ctx s!"{ctx.PROXY_URL}/v1/actions" ⟨"POST", [], some (requestBody params)⟩

def performAction (fuel : ℕ) (params : UsePlatform) (progressToken : Option Json) :
    Prog ToolResult :=
  requestThen rt ctx s!"{ctx.PROXY_URL}/v1/actions" ⟨"POST", [], some (requestBody params)⟩
    networkError (actionReply rt ctx fuel params progressToken)

def handleUsePlatform (fuel : ℕ) (params : UsePlatform) (progressToken : Option Json) :
    Prog ToolResult :=
  gated rt ctx <| if observes ctx params then observeAction rt ctx params
    else performAction rt ctx fuel params progressToken

def handleAuthzenEvaluate (platformId scope : String) : Prog ToolResult :=
  gated rt ctx <| requestThen rt ctx s!"{ctx.PROXY_URL}/v1/authzen/access" ⟨"POST", [],
    some (.obj [("subject", .obj [("type", .str "agent"), ("id", ctx.AGENT_ID)]),
      ("action", .obj [("name", .str "tool_call")]),
      ("resource", .obj [("type", .str "platform_scope"),
        ("id", .str s!"{platformId}:{scope}")])])⟩
    networkError (relay rt)

def handleListMyPendingActions : Prog ToolResult :=
  gated rt ctx <| requestThen rt ctx s!"{ctx.PROXY_URL}/v1/agents/me/pending-actions"
    ⟨"GET", [], none⟩ networkError (relay rt)

def stringArg (args : Payload) (key : String) : Option String :=
  match Json.lookup args key with
  | some (.str s) => some s
  | _ => none

def pollAccessRequest (token : Json) : Prog Reply := do
  let text ← template rt token
  fetchWithAuth rt ctx
    s!"{ctx.PROXY_URL}/v1/access-request/status/{rt.encodeURIComponent text}" ⟨"GET", [], none⟩

def accessResult (status message : String) : ToolResult :=
  jsonContent rt (rt.stringify (.obj [("status", .str status), ("message", .str message)]))

/-- The loop of the request, for `fuel` rounds. -/
def pollAccessRequests (token : Json) (deadline : ℚ) : ℕ → Prog ToolResult
  | 0 => .unfinished
  | fuel + 1 => do
    if (← now) < deadline then
      sleep 2000
      match ← (pollAccessRequest rt ctx token).attempt with
      | .error _ => pollAccessRequests token deadline fuel
      | .ok statusRes =>
        if statusRes.ok then
          let s ← readJson rt statusRes
          match JavaScript.properties s with
          | none => .threw .typeError
          | some body =>
            let status := Json.lookup body "status"
            if isStr status "approved" then
              pure (accessResult rt "approved"
                "Access granted — retry your original use_platform call.")
            else if isStr status "denied" then
              pure (accessResult rt "denied" "An admin denied this access request.")
            else pollAccessRequests token deadline fuel
        else pollAccessRequests token deadline fuel
    else pure (accessResult rt "pending"
      "Request submitted and awaiting admin approval. Retry your call later.")

def accessReply (fuel : ℕ) (submit : Reply) : Prog ToolResult :=
  if !submit.ok && submit.status != 202 && submit.status != 200 then do
    let t ← readText submit
    pure (errorContent s!"Access request failed ({submit.status}): {t}")
  else do
    let submitted ← readJson rt submit
    match JavaScript.properties submitted with
    | none => .threw .typeError
    | some body =>
      match (Json.lookup body "request_token").filter fun t => JavaScript.truthy (some t) with
      | none => pure (errorContent "Access request did not return a token.")
      | some token => do
        let started ← now
        pollAccessRequests rt ctx token (started + 50000) fuel

def handleRequestPlatformAccess (fuel : ℕ) (args : Payload) : Prog ToolResult :=
  gated rt ctx <|
    let platform := (stringArg args "platform").getD ""
    if platform = "" then pure (errorContent "platform is required")
    else
      requestThen rt ctx s!"{ctx.PROXY_URL}/v1/access-request" ⟨"POST", [],
        some (.obj ([("platform", .str platform)] ++
          optionalField "scope" ((stringArg args "scope").map .str) ++
          optionalField "reason" ((stringArg args "reason").map .str)))⟩
        (diagnosed ctx) (accessReply rt ctx fuel)

def handleReportSelfDiagnostic (args : Payload) : Prog ToolResult :=
  gated rt ctx <| requestThen rt ctx s!"{ctx.PROXY_URL}/v1/agents/self/diagnostics" ⟨"POST", [],
    some (.obj (["severity", "message", "code", "platform", "endpoint", "correlation_id",
      "context"].flatMap fun key => optionalField key (Json.lookup args key)))⟩
    networkError (relay rt)

inductive ToolCall where
  | listPlatforms
  | usePlatform (params : UsePlatform) (progressToken : Option Json)
  | authzenEvaluate (platformId scope : String)
  | listMyPendingActions
  | requestPlatformAccess (args : Payload)
  | reportSelfDiagnostic (args : Payload)

def handle (fuel : ℕ) : ToolCall → Prog ToolResult
  | .listPlatforms => handleListPlatforms rt ctx
  | .usePlatform params progressToken => handleUsePlatform rt ctx fuel params progressToken
  | .authzenEvaluate platformId scope => handleAuthzenEvaluate rt ctx platformId scope
  | .listMyPendingActions => handleListMyPendingActions rt ctx
  | .requestPlatformAccess args => handleRequestPlatformAccess rt ctx fuel args
  | .reportSelfDiagnostic args => handleReportSelfDiagnostic rt ctx args

end AgentValet.Mcp
