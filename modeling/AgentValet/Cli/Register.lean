import AgentValet.Approvals.EventStreams
import AgentValet.Base.Exchanges
import AgentValet.Cli.Scopes
import AgentValet.Identity.Store
import AgentValet.Lang.Http

namespace AgentValet.Cli
open Base Lang JavaScript Approvals Approvals.EventStreams
open Identity (AGENT_KEY_PATH Fields)

/-- What is printed: JSON text, or text for a reader, whose colours are left out. -/
inductive Line where
  | json (v : Json)
  | text (s : String)

/-- A question of the wizard; `required` is what it says of an answer of white space only. -/
structure PromptObject where
  name : String
  message : String
  initial : Option String
  required : Option String

inductive Question where
  | log (line : Line)
  | error (line : Line)
  | readStore
  | runOnboard (scope : String) (name : Option String)
  | prompts (questions : List PromptObject)
  | now
  | sleep (ms : ℕ)
  | fetch (r : Request)
  /-- A request for a stream, aborted after so many milliseconds. -/
  | stream (r : Request) (windowMs : Double)
  | saveOutput (agentId ownerId privateKey : Json) (apiUrl : String)
  | writePermissionsFromEvent (agentId ownerId platforms : Json)
  | runRefresh (quiet : Bool)

inductive Stop where
  | thrown (message : String)
  | exit (code : ℕ)
  deriving DecidableEq

structure RegisterReply where
  status : ℕ
  json : Except String Json

def RegisterReply.ok (r : RegisterReply) : Bool := 200 ≤ r.status && r.status ≤ 299

structure Answers where
  ownerId : Option String
  agentName : Option String
  description : Option String
  scopesRaw : Option String

/-- What the surroundings answer, to whichever question was put. -/
structure Answer where
  time : ℚ
  stored : Except String Fields
  onboarded : Except Stop Unit
  /-- None if the wizard was cancelled. -/
  answers : Option Answers
  reply : Except String RegisterReply
  connection : Connection
  saved : Except String Unit
  written : Except String Unit
  refreshed : Except Stop Unit

abbrev Action (α : Type) := Program Question Answer Stop α

/-- What of the runtime is not modelled: how it reads JSON, and how it writes a value in a text. -/
structure Runtime where
  parse : Text → Option Json
  string : Json → String
  home : String

def tell (q : Question) : Action Unit := Program.query q fun _ => ()

def thrown {α : Type} (x : Except String α) : Except Stop α := x.mapError .thrown

def exit {α : Type} (code : ℕ) : Action α := .threw (.exit code)

/-- `catch`, which an exit of the process does not reach. -/
def catching {α : Type} (p : Action α) (handler : String → Action α) : Action α := do
  match ← p.attempt with
  | .ok a => pure a
  | .error (.thrown msg) => handler msg
  | .error (.exit code) => exit code

structure RegisterBody where
  owner_id : String
  agent_name : String
  agent_description : Option String
  requested_scopes : List (String × List String)

def requestedScope (group : String × List String) : Json :=
  .obj [("platformId", .str group.1), ("scopes", .arr (group.2.map .str))]

/-- `JSON.stringify` leaves out a field that is undefined. -/
def RegisterBody.toJson (body : RegisterBody) : Json :=
  .obj ([("owner_id", .str body.owner_id), ("agent_name", .str body.agent_name)] ++
    (body.agent_description.map fun d => ("agent_description", .str d)).toList ++
    [("requested_scopes", .arr (body.requested_scopes.map requestedScope))])

def registerRequest (apiUrl : String) (body : RegisterBody) : Request where
  method := "POST"
  url := apiUrl ++ "/v1/register"
  headers := [("Content-Type", "application/json")]
  body := some body.toJson

/-- The text of an exception for a reply that is not ok. -/
def replyError (node : Runtime) (status : ℕ) (json : Json) : String :=
  let error := (given json "data").bind (fun wrapped => given wrapped "error") <|>
    given json "error"
  node.string (error.getD (.str s!"HTTP {status}"))

def registerAgent (node : Runtime) (apiUrl : String) (body : RegisterBody) : Action Json := do
  let reply ← Program.call (.fetch (registerRequest apiUrl body)) fun a => thrown a.reply
  let json ← Program.ofExcept (thrown reply.json)
  match json with
  | .null => .threw (.thrown "Cannot read properties of null (reading 'data')")
  | json =>
    if !reply.ok then .threw (.thrown (replyError node reply.status json))
    else
      let data := (given json "data").getD json
      match (data.field? "registration_token").filter fun v => truthy (some v) with
      | some token => pure token
      | none => .threw (.thrown "No registration_token in response")

def getRequest (url : String) (headers : List (String × String)) : Request where
  method := "GET"
  url := url
  headers := headers
  body := none

def streamRequest (apiUrl token : String) : Request :=
  getRequest (apiUrl ++ "/v1/register/stream/" ++ token) [("Accept", "text/event-stream")]

def statusRequest (apiUrl token : String) : Request :=
  getRequest (apiUrl ++ "/v1/register/status/" ++ token) []

def claimKeyRequest (apiUrl token : String) : Request :=
  getRequest (apiUrl ++ "/v1/register/claim-key/" ++ token) []

/-- The key in a reply, whatever its type; an exception leaves the result as it is. -/
def claimed (reply : Except String RegisterReply) : Option Json :=
  match reply with
  | .error _ => none
  | .ok reply =>
    if !reply.ok then none
    else
      match reply.json with
      | .error _ => none
      | .ok .null => none
      | .ok json => some ((given json "private_key").getD (.str ""))

def enrichWithKey (apiUrl token : String) (result : WaitResult) : Action WaitResult :=
  match result with
  | .approved agentId ownerId privateKey grantedPlatforms => do
    let key ← Program.query (.fetch (claimKeyRequest apiUrl token)) fun a => claimed a.reply
    pure (.approved agentId ownerId (key.getD privateKey) grantedPlatforms)
  | result => pure result

/-- What a reply to a poll decides; after an exception the loop tries again. -/
def polled (reply : Except String RegisterReply) : Option WaitResult :=
  match reply with
  | .error _ => none
  | .ok reply =>
    if !reply.ok then none
    else
      match reply.json with
      | .error _ => none
      | .ok json => parseEvent ((given json "data").getD json)

def poll (apiUrl token : String) (deadline : Double) : ℕ → Action WaitResult
  | 0 => .unfinished
  | fuel + 1 => do
    let now ← Program.query .now Answer.time
    if Double.lt (.finite now) deadline then do
      tell (.sleep 5000)
      let parsed ← Program.query (.fetch (statusRequest apiUrl token)) fun a => polled a.reply
      match parsed with
      | some result => pure result
      | none => poll apiUrl token deadline fuel
    else pure .timeout

/-- `Date.now() + timeoutMs` -/
def deadline (now : ℚ) : Double → Double
  | .finite ms => .ofRat (now + ms)
  | ms => ms

def waitForApproval (node : Runtime) (apiUrl token : String) (timeoutMs : Double) (fuel : ℕ) :
    Action WaitResult := do
  let now ← Program.query .now Answer.time
  let sseResult ← Program.query (.stream (streamRequest apiUrl token) timeoutMs) fun a =>
    (trySSE node.parse a.connection).result
  match sseResult with
  | some result => enrichWithKey apiUrl token result
  | none => do
    let pollResult ← poll apiUrl token (deadline now timeoutMs) fuel
    enrichWithKey apiUrl token pollResult

structure WizardInput where
  ownerId : String
  agentName : String
  description : String
  scopes : List String

def trimmed (s : String) : String := String.ofList (trim s.toList)

def wizardQuestions (prefilled : WizardInput) : List PromptObject :=
  (if prefilled.ownerId = "" then
    [⟨"ownerId", "Owner ID (from https://app.agentvalet.ai/settings):", none,
      some "Owner ID is required"⟩] else []) ++
  (if prefilled.agentName = "" then
    [⟨"agentName", "Agent name:", some "My Agent", some "Name is required"⟩] else []) ++
  [⟨"description", "Description (optional):", some prefilled.description, none⟩,
    ⟨"scopesRaw", "Scopes (comma-separated, e.g. slack:chat:write,gmail:send):",
      some (String.ofList (suggested (prefilled.scopes.map String.toList))), none⟩]

/-- What the wizard makes of the answers, which are none if it was cancelled. -/
def readAnswers (prefilled : WizardInput) : Option Answers → Action WizardInput
  | none => do
    tell (.log (.text "\nCancelled."))
    exit 0
  | some answers =>
    let scopes := (answers.scopesRaw.map fun raw =>
      (readScopes raw.toList).map String.ofList).getD prefilled.scopes
    pure ⟨trimmed (answers.ownerId.getD prefilled.ownerId),
      trimmed (answers.agentName.getD prefilled.agentName),
      answers.description.getD prefilled.description, scopes⟩

def runWizard (prefilled : WizardInput) : Action WizardInput := do
  tell (.log (.text "\nAgentValet — Register Agent\n"))
  let answers ← Program.query (.prompts (wizardQuestions prefilled)) Answer.answers
  readAnswers prefilled answers

structure Options where
  owner : Option String
  name : Option String
  description : Option String
  scope : List String
  apiUrl : String
  json : Bool
  wait : Bool
  timeout : String
  project : Bool

def parseInt (s : String) : Double :=
  let (negative, unsigned) := JavaScript.sign (s.toList.dropWhile isSpace)
  match nonEmptyDigits? 10 (unsigned.takeWhile Char.isDigit) with
  | some n => .ofRat (if negative then -(n : ℤ) else n)
  | none => .nan

/-- `parseInt(timeout, 10) * 1000` -/
def milliseconds (timeout : String) : Double :=
  match parseInt timeout with
  | .finite sec => .ofRat (sec * 1000)
  | sec => sec

def fail {α : Type} (isJson : Bool) (machine reader : String) : Action α := do
  tell (.error (if isJson then .json (.obj [("error", .str machine)]) else .text reader))
  exit 3

def storedTruthy (fields : Fields) (key : String) : Bool := truthy (Json.lookup fields key)

/-- Without an owner the command onboards, whether the user is new or known. -/
def onboards (ownerId : String) : Action Bool :=
  if ownerId ≠ "" then pure false
  else do
    let stored ← Program.call .readStore fun a => thrown a.stored
    if !storedTruthy stored "apiKey" then pure true
    else do
      let stored ← Program.call .readStore fun a => thrown a.stored
      if !storedTruthy stored "apiKey" then pure false
      else do
        let stored ← Program.call .readStore fun a => thrown a.stored
        pure (storedTruthy stored "ownerId" && storedTruthy stored "cliToken")

/-- What the options give, completed by the wizard where the name is missing. -/
def complete (isJson : Bool) (input : WizardInput) : Action WizardInput :=
  if input.agentName ≠ "" then pure input
  else if isJson then fail isJson "--name is required in non-interactive mode" ""
  else runWizard input

def nonEmpty (s : String) : Option String := if s = "" then none else some s

def submit (node : Runtime) (opts : Options) (input : WizardInput) : Action Json := do
  if input.ownerId = "" then
    fail opts.json "--owner or AGENTVALET_OWNER is required"
      "Error: --owner or AGENTVALET_OWNER environment variable is required"
  else
    match groupScopes input.scopes with
    | .error s =>
      fail opts.json ("Invalid scope format: " ++ s ++ " (expected platform:scope)")
        ("Invalid scope format: " ++ s ++ " (expected platform:scope)")
    | .ok requestedScopes =>
      catching (registerAgent node opts.apiUrl
          ⟨input.ownerId, input.agentName, nonEmpty input.description, requestedScopes⟩)
        fun msg => fail opts.json msg ("Registration failed: " ++ msg)

def say (isJson : Bool) (machine : Json) (reader : List String) : Action Unit :=
  if isJson then tell (.log (.json machine))
  else reader.forM fun s => tell (.log (.text s))

def remark (isJson : Bool) (s : String) : Action Unit :=
  if isJson then pure () else tell (.log (.text s))

/-- `grantedPlatforms.length > 0`; none if the length converts to no primitive. -/
def listed : Json → Option Bool
  | .arr items => some !items.isEmpty
  | .str s => some (s != "")
  | .obj fields => (toNumber (Json.lookup fields "length")).map (Double.lt (.finite 0))
  | _ => some false

def writePermissions (isJson : Bool) (agentId ownerId grantedPlatforms : Json) : Action Unit :=
  match listed grantedPlatforms with
  | none => .threw (.thrown "Cannot convert object to primitive value")
  | some true =>
    Program.call (.writePermissionsFromEvent agentId ownerId grantedPlatforms)
      fun a => thrown a.written
  | some false => Program.call (.runRefresh isJson) Answer.refreshed

def permissions (isJson : Bool) (agentId ownerId grantedPlatforms : Json) : Action Unit :=
  catching (do
      writePermissions isJson agentId ownerId grantedPlatforms
      remark isJson "Permissions: .claude/agentvalet-permissions.md")
    fun _ => remark isJson "Permissions: run 'agentvalet-register refresh' to generate"

def approved (node : Runtime) (opts : Options) (ownerId : String)
    (agentId owner privateKey grantedPlatforms : Json) : Action Unit := do
  let resolvedOwnerId := if truthy (some owner) then owner else .str ownerId
  let keyPath := AGENT_KEY_PATH node.home
  if truthy (some privateKey) then do
    catching (Program.call (.saveOutput agentId resolvedOwnerId privateKey opts.apiUrl)
        fun a => thrown a.saved)
      fun msg => fail opts.json msg ("Failed to save output: " ++ msg)
    say opts.json (.obj [("status", .str "approved"), ("agentId", agentId),
        ("keyPath", .str keyPath)])
      ["\nApproved! Agent ID: " ++ node.string agentId, "Key:  " ++ keyPath]
    permissions opts.json agentId resolvedOwnerId grantedPlatforms
    exit 0
  else do
    say opts.json (.obj [("status", .str "approved"), ("agentId", agentId), ("keyPath", .null)])
      ["\nApproved! Agent ID: " ++ node.string agentId,
        "Key:  not written — copy it from the dashboard and paste into " ++ keyPath]
    exit 0

def conclude (node : Runtime) (opts : Options) (ownerId : String) : WaitResult → Action Unit
  | .rejected => do
    say opts.json (.obj [("status", .str "rejected")]) ["\nRegistration denied by owner."]
    exit 1
  | .timeout => do
    say opts.json (.obj [("status", .str "timeout")]) ["\nTimed out waiting for approval."]
    exit 2
  | .expired => do
    say opts.json (.obj [("status", .str "timeout")]) ["\nTimed out waiting for approval."]
    exit 2
  | .approved agentId owner privateKey grantedPlatforms =>
    approved node opts ownerId agentId owner privateKey grantedPlatforms

def action (node : Runtime) (env : String → Option String) (opts : Options) (fuel : ℕ) :
    Action Unit := do
  let ownerId := (opts.owner <|> env "AGENTVALET_OWNER").getD ""
  let agentName := opts.name.getD ""
  if ← onboards ownerId then
    Program.call (.runOnboard (if opts.project then "project" else "user") (nonEmpty agentName))
      Answer.onboarded
  else do
    let input ← complete opts.json ⟨ownerId, agentName, opts.description.getD "", opts.scope⟩
    let token ← submit node opts input
    remark opts.json "\nApprove at: https://app.agentvalet.ai/agents\n"
    if !opts.wait then do
      say opts.json (.obj [("status", .str "pending"), ("token", token)])
        ["Registration submitted (--no-wait). Token: " ++ node.string token]
      exit 0
    else do
      let result ← catching
        (waitForApproval node opts.apiUrl (node.string token) (milliseconds opts.timeout) fuel)
        fun msg => fail opts.json msg ("Wait failed: " ++ msg)
      conclude node opts input.ownerId result

/-- The process: an exception that nothing catches is printed, and what is left to do is the code
it exits with. -/
def process (node : Runtime) (env : String → Option String) (opts : Options) (fuel : ℕ) :
    Action ℕ := do
  match ← (action node env opts fuel).attempt with
  | .ok _ => pure 0
  | .error (.exit code) => pure code
  | .error (.thrown msg) => do
    tell (.error (.text msg))
    pure 3

end AgentValet.Cli
