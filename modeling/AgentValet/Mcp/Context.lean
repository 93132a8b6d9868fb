import AgentValet.Approvals.McpServer
import AgentValet.Base.Dialogue
import AgentValet.Lang.Http

namespace AgentValet.Mcp
open Base Lang Approvals

inductive Effect where
  | fetch (r : Request) (timeoutMs : ℕ)
  | now
  | sleep (ms : ℕ)
  | notification (p : McpServer.Progress)

/-- What the surroundings show at one moment: the time, and how a request just made ended. -/
structure Moment where
  time : ℚ
  fetched : Except String Reply

inductive Fault where
  | keyNotLoaded
  | signing (message : String)
  | network (message : String)
  | body (message : String)
  | syntaxError
  | typeError

def Fault.message : Fault → String
  | .keyNotLoaded => "Private key not loaded"
  | .signing message => message
  | .network message => message
  | .body message => message
  | .syntaxError => "SyntaxError"
  | .typeError => "TypeError"

abbrev Prog := Program Effect Moment Fault

structure Runtime (Key : Type) where
  /-- `new SignJWT(claims)…sign(key)`, at the two times it looks at the clock -/
  sign : Key → Json → ℚ → ℚ → Except String String
  /-- `JSON.parse` -/
  parse : String → Option Json
  /-- `JSON.stringify` -/
  stringify : Json → String
  /-- the text of a value in a template -/
  toText : Json → String
  encodeURIComponent : String → String

/-- The ids are values as the configuration found them; a bind may answer with any truthy one. -/
structure ServerContext (Key : Type) where
  AGENT_ID : Json
  OWNER_ID : Json
  PROXY_URL : String
  AGENT_PRIVATE_KEY_RAW : Option String
  privateKey : Option Key
  OBSERVE_PLATFORM : String
  OBSERVE_CREDENTIAL : String

structure ToolResult where
  text : String
  structuredContent : Option Json
  isError : Bool

def errorContent (message : String) : ToolResult := ⟨message, none, true⟩

section
variable {Key : Type} (rt : Runtime Key)

def tryParseJson (text : String) : Option Json :=
  match (JavaScript.structured? text).bind rt.parse with
  | some (.obj fields) => some (.obj fields)
  | some (.arr items) => some (.arr items)
  | _ => none

def jsonContent (body : String) : ToolResult := ⟨body, tryParseJson rt body, false⟩

/-- A value in a template; an object with a `toString` of its own stops it. -/
def template (v : Json) : Prog String :=
  if JavaScript.stringable v then .returned (rt.toText v) else .threw .typeError

def optionalText (v : Option Json) : String := (v.map rt.toText).getD "undefined"

def readText (r : Reply) : Prog String := .ofExcept (r.text.mapError .body)

@[simp] theorem readText_ok (status : ℕ) (text : String) :
    readText ⟨status, .ok text⟩ = .returned text := rfl

def readJson (r : Reply) : Prog Json := do
  let text ← readText r
  match rt.parse text with
  | none => .threw .syntaxError
  | some v => .returned v

end

def now : Prog ℚ := .query .now Moment.time

def sleep (ms : ℕ) : Prog Unit := .query (.sleep ms) fun _ => ()

def fetchWithTimeout (r : Request) (timeoutMs : ℕ) : Prog Reply := do
  let fetched ← Program.query (.fetch r timeoutMs) Moment.fetched
  Program.ofExcept (fetched.mapError .network)

def sendProgress (token : Option Json) (p : McpServer.Progress) : Prog Unit :=
  match token with
  | none => .returned ()
  | some _ => .query (.notification p) fun _ => ()

def includes (text keyword : String) : Bool := keyword.toList <:+: text.toList

def diagnoseNetworkError (raw proxyUrl : String) : String :=
  let lower := raw.toLower
  if includes lower "enotfound" || includes lower "getaddrinfo" then
    s!"Network error: cannot resolve {proxyUrl}. Check your DNS / corporate proxy / VPN, or " ++
      s!"confirm the PROXY_URL setting is correct. Raw: {raw}"
  else if includes lower "econnrefused" || includes lower "econnreset" then
    s!"Network error: connection to {proxyUrl} was refused or reset. The proxy may be down — " ++
      s!"check https://status.agentvalet.ai — or a firewall is blocking the request. Raw: {raw}"
  else if includes lower "etimedout" || includes lower "timeout" || includes lower "aborterror" then
    s!"Network error: request to {proxyUrl} timed out. Likely causes: VPN routing, corporate " ++
      "proxy buffering, or slow network. Try again or confirm api.agentvalet.ai is reachable " ++
      s!"from this machine. Raw: {raw}"
  else if includes lower "self signed" || includes lower "cert" || includes lower "ssl" ||
      includes lower "tls" then
    s!"Network error: TLS / certificate problem talking to {proxyUrl}. A corporate MITM proxy " ++
      s!"may be intercepting traffic. Raw: {raw}"
  else
    s!"Network error reaching {proxyUrl}: {raw}. Check VPN, corporate proxy, and firewall rules " ++
      "for api.agentvalet.ai. If the proxy itself is down, see https://status.agentvalet.ai."

end AgentValet.Mcp
