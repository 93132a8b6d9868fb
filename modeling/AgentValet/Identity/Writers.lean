import AgentValet.Identity.Invite
import AgentValet.Identity.Store

namespace AgentValet.Identity
open Lang

structure Issued where
  agentId : String
  ownerId : String
  key : String

/-- The updates are merged into what is stored; a file that is no JSON stops the command. -/
def Machine.saveConfig (m : Machine) (updates : Fields) : Machine :=
  { m with config :=
      match getStoredConfig m.config with
      | none => m.config
      | some fields => .json (.obj (setFields fields updates)) }

def Machine.writeFile (m : Machine) (path text : String) : Machine :=
  { m with files := m.files.write path text }

section
variable (m : Machine)

def saveOutput (i : Issued) (apiUrl : String) : Machine :=
  (m.writeFile (AGENT_KEY_PATH m.home) i.key).saveConfig
    [("agentId", .str i.agentId), ("ownerId", .str i.ownerId), ("apiUrl", .str apiUrl),
      ("keyPath", .str (AGENT_KEY_PATH m.home)), ("lastAgentId", .str i.agentId),
      ("lastKeyPath", .str (AGENT_KEY_PATH m.home))]

/-- What `install` stores, before it turns to the frameworks. -/
def install (i : Issued) (proxyUrl : String) : Machine :=
  (m.writeFile (AGENT_KEY_PATH m.home) i.key).saveConfig
    [("agentId", .str i.agentId), ("ownerId", .str i.ownerId), ("apiUrl", .str proxyUrl),
      ("keyPath", .str (AGENT_KEY_PATH m.home)), ("proxyUrl", .str proxyUrl),
      ("lastAgentId", .str i.agentId), ("lastKeyPath", .str (AGENT_KEY_PATH m.home))]

/-- `text.includes(part)` -/
def includes (text part : String) : Bool := part.toList <:+: text.toList

/-- `inject` with the target `agentvalet`; the identity is what the options and the file give. -/
def inject (i : Issued) (proxyUrl : String) : Machine :=
  if !includes i.key "BEGIN PRIVATE KEY" || i.ownerId = "" then m
  else
    (m.writeFile (AGENT_KEY_PATH m.home) i.key).saveConfig
      [("agentId", .str i.agentId), ("ownerId", .str i.ownerId), ("apiUrl", .str proxyUrl),
        ("proxyUrl", .str proxyUrl), ("keyPath", .str (AGENT_KEY_PATH m.home)),
        ("lastAgentId", .str i.agentId), ("lastKeyPath", .str (AGENT_KEY_PATH m.home))]

structure Login where
  ownerId : String
  orgId : Option String
  proxyUrl : String
  email : Option String
  cliToken : String

/-- An agent that the dashboard registers for the owner who is signed in. -/
structure Registered where
  agentId : String
  agentName : String
  key : String
  registeredAt : String

def loginFields (l : Login) : Fields :=
  [("apiKey", .str l.ownerId), ("ownerId", .str l.ownerId)] ++
    (l.orgId.map fun orgId => ("orgId", Json.str orgId)).toList ++
    [("proxyUrl", .str l.proxyUrl), ("email", .str (l.email.getD "")),
      ("cliToken", .str l.cliToken)]

def localKeyPath (cwd : String) : String := cwd ++ "/.agentvalet/agent.key"

def localConfig (r : Registered) (proxyUrl : Json) : Fields :=
  [("agent_id", .str r.agentId), ("agent_name", .str r.agentName), ("proxy_url", proxyUrl),
    ("registered_at", .str r.registeredAt)]

/-- In the home directory, the local `config.json` is the one of the machine. -/
def writeLocalConfig (cwd : String) (r : Registered) (proxyUrl : Json) : Machine :=
  { m with
    config := if cwd = m.home then .json (.obj (localConfig r proxyUrl)) else m.config
    files := m.files.write (localKeyPath cwd) r.key }

def lastAgent (cwd : String) (r : Registered) : Fields :=
  [("lastAgentId", .str r.agentId), ("lastKeyPath", .str (localKeyPath cwd))]

/-- The registration may be cancelled, or fail. -/
def registerAgentFlow (stored : Fields) (cwd : String) (registered : Option Registered) :
    Machine :=
  match registered with
  | none => m
  | some r =>
    (writeLocalConfig m cwd r ((Json.lookup stored "proxyUrl").getD .null)).saveConfig
      (lastAgent cwd r)

inductive MenuAction where
  | register
  | showCredentials
  | signout

/-- What the user and the dashboard answer in the course of the command. -/
structure Onboarding where
  cwd : String
  action : Option MenuAction
  login : Option Login
  registered : Option Registered

def isAuthenticated (stored : Fields) : Bool := truthy (Json.lookup stored "apiKey")

def runOnboard (o : Onboarding) : Machine :=
  match getStoredConfig m.config with
  | none => m
  | some stored =>
    if isAuthenticated stored then
      match o.action with
      | some .register => registerAgentFlow m stored o.cwd o.registered
      | some .signout => { m with config := .json (.obj []) }
      | _ => m
    else
      match o.login with
      | none => m
      | some l =>
        registerAgentFlow (m.saveConfig (loginFields l)) (setFields stored (loginFields l)) o.cwd
          o.registered

structure PythonIdentity where
  agentId : Json
  ownerId : Json
  apiUrl : Json

/-- What is updated: nothing is taken from a file that is no JSON. -/
def existingConfig : JsonFile → Option Fields
  | .absent => some []
  | .invalid => some []
  | .json (.obj fields) => some fields
  | .json _ => none

def identityFields (keyPath : String) (identity : PythonIdentity) : Fields :=
  [("agentId", identity.agentId), ("ownerId", identity.ownerId), ("apiUrl", identity.apiUrl),
    ("keyPath", .str keyPath), ("lastAgentId", identity.agentId), ("lastKeyPath", .str keyPath)]

/-- The key is written first; only a dictionary can be updated. -/
def saveIdentity (identity : PythonIdentity) (privatePem : String) : Machine :=
  { m with
    files := m.files.write (AGENT_KEY_PATH m.home) privatePem
    config :=
      match existingConfig m.config with
      | none => m.config
      | some existing =>
        .json (.obj (setFields existing (identityFields (AGENT_KEY_PATH m.home) identity))) }

/-- The identity that the answer to a bind gives; a missing id is a `KeyError`. -/
def boundBy (w : BindHost) (proxyUrl : String) (res : Reply) : Option PythonIdentity :=
  if 400 ≤ res.status then none
  else do
    let text ← res.text.toOption
    match ← w.parse text with
    | .obj result => do
      let agentId ← Json.lookup result "agent_id"
      let ownerId ← Json.lookup result "owner_id"
      pure ⟨agentId, ownerId, (Json.lookup result "proxy_url").getD (.str proxyUrl)⟩
    | _ => none

/-- `url.rstrip("/")` -/
def stripSlashes (url : String) : String := String.ofList (url.toList.rdropWhile (· = '/'))

/-- What a command sends, and the machine that it leaves. -/
structure Ran where
  requests : List Request
  machine : Machine

/-- `agentvalet register --code`; the directory or the key may not be writable. -/
def pythonRegister (w : BindHost) (code proxyUrl : String) : Ran :=
  let request : Request :=
    { method := "POST"
      url := stripSlashes proxyUrl ++ "/v1/invites/bind"
      headers := [("Content-Type", "application/json")]
      body := some (.obj [("bind_secret", .str code), ("public_key_pem", .str w.publicKey)]) }
  match (w.send request).toOption.bind (boundBy w proxyUrl) with
  | none => ⟨[request], m⟩
  | some identity =>
    if w.writes (AGENT_DIR m.home) && w.writes (AGENT_KEY_PATH m.home) then
      ⟨[request], saveIdentity m identity w.privateKey⟩
    else ⟨[request], m⟩

/-- The lower case of a letter, as far as it is or has a Latin letter. -/
def lowerCase (c : Char) : List Char :=
  if c = '\u212A' then ['k']
  else if c = '\u0130' then ['i', '\u0307']
  else [c.toLower]

def labelChar (c : Char) : Bool :=
  ('a' ≤ c && c ≤ 'z') || ('0' ≤ c && c ≤ '9')

/-- Each run of other characters becomes one dash. -/
def dashed : List Char → List Char
  | [] => []
  | c :: rest =>
    if labelChar c then c :: dashed rest
    else
      match dashed rest with
      | '-' :: more => '-' :: more
      | more => '-' :: more

def sanitiseLabel (label : String) : String :=
  let lower := label.toList.flatMap lowerCase
  String.ofList (((dashed lower).dropWhile (· = '-')).rdropWhile (· = '-'))

/-- A label that is blank, or of which nothing is left, stands for the directory itself. -/
def resolveAgentDir (label : Option String) : String :=
  match label.filter (· ≠ "") with
  | some label => AGENT_DIR m.home ++ "/" ++ label
  | none => AGENT_DIR m.home

structure ClaimOptions where
  bindSecret : String
  label : Option String
  apiUrl : String

def ClaimOptions.label? (opts : ClaimOptions) : Option String :=
  let rawLabel := String.ofList (JavaScript.trim (opts.label.getD "").toList)
  if rawLabel = "" then none else some (sanitiseLabel rawLabel)

def ClaimOptions.identityJson (opts : ClaimOptions) (identity : BoundIdentity) : Json :=
  .obj [("agent_id", identity.agent_id), ("owner_id", identity.owner_id),
    ("proxy_url", identity.proxy_url), ("label", (opts.label?.map Json.str).getD .null),
    ("bound_at", .str identity.bound_at)]

/-- A key that is there is left alone, and nothing is sent. -/
def claimBind (w : BindHost) (opts : ClaimOptions) : Option Bind :=
  if !"bsec_".toList.isPrefixOf opts.bindSecret.toList then none
  else
    let place := placeIn (resolveAgentDir m opts.label?)
    if (m.files place.keyPath).isSome then none
    else
      some (bindAt w m.files (bindRequest opts.apiUrl opts.bindSecret w.publicKey) place
        opts.identityJson)

def claimCommand (w : BindHost) (opts : ClaimOptions) : Ran :=
  match claimBind m w opts with
  | none => ⟨[], m⟩
  | some bound => ⟨bound.requests, { m with files := bound.files }⟩

end

end AgentValet.Identity
