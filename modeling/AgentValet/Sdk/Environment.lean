import AgentValet.Identity.Writers
import AgentValet.Lang.Base64
import AgentValet.Lang.TextFiles
import AgentValet.Mcp.Boot

namespace AgentValet.Sdk
open Base Lang Identity Mcp

/-- The path that `pathlib` makes of a text: empty parts and dots are gone from it, and with them
the slash at its end. -/
def pathText (path : String) : String :=
  let text := path.toList
  let root :=
    if ['/', '/'].isPrefixOf text && !(['/', '/', '/'].isPrefixOf text) then "//"
    else if text.head? = some '/' then "/"
    else ""
  let parts := (text.splitOn '/').filter fun part => part ≠ [] && part ≠ ['.']
  if root = "" && parts.isEmpty then "." else root ++ String.ofList (['/'].intercalate parts)

structure Workstation where
  env : String → Option String
  env_ascii : ∀ {name v}, env name = some v → ∀ c ∈ v.toList, 0 < c.toNat ∧ c.toNat < 128
  /-- What can be read under a path, just as it is given to the system. -/
  file : String → Option Bytes
  file_pathText : ∀ {path bytes}, file path = some bytes → file (pathText path) = some bytes
  /-- `~/.agentvalet/agent.key` -/
  diskKey : Option Bytes
  /-- Why a file cannot be read, in the words of Node and of Python. -/
  nodeReason : String → String
  pythonReason : String → String

structure ConfigError where
  message : String

def cannotRead (path reason : String) : ConfigError :=
  ⟨"Cannot read AGENT_PRIVATE_KEY_PATH (" ++ path ++ "): " ++ reason⟩

def noPrivateKey (command : String) : ConfigError :=
  ⟨"No private key found. Set AGENT_PRIVATE_KEY, AGENT_PRIVATE_KEY_PATH, or " ++
    "AGENT_PRIVATE_KEY_B64, or run \x60" ++ command ++ "\x60 to create an agent and " ++
    "write ~/.agentvalet/agent.key."⟩

section
variable (trim : String → String) (m : Workstation)

/-- A variable that is set; empty texts and placeholders count as not set. -/
def readEnvBy (name : String) : Option String :=
  ((m.env name).map trim).filter fun t => t ≠ "" && !placeholder t

/-- The prefixed name wins over the bare one. -/
def readEitherBy (suffix : String) : Option String :=
  readEnvBy trim m ("AGENTVALET_" ++ suffix) <|> readEnvBy trim m suffix

end

inductive KeySource where
  | base64 (text : String)
  | path (path : String)
  | raw (text : String)
  | disk

/-- The first variable that is set, or else the file of a registration. -/
def keySource (readEither : String → Option String) : KeySource :=
  match readEither "AGENT_PRIVATE_KEY_B64" with
  | some text => .base64 text
  | none =>
    match readEither "AGENT_PRIVATE_KEY_PATH" with
    | some path => .path path
    | none =>
      match readEither "AGENT_PRIVATE_KEY" with
      | some text => .raw text
      | none => .disk

namespace TypeScript
variable (m : Workstation)

def readEnv (name : String) : Option String := readEnvBy trimmed m name

def readEither (suffix : String) : Option String := readEitherBy trimmed m suffix

def agentIdFromEnv : Option String := readEither m "AGENT_ID"

def ownerIdFromEnv : Option String := readEither m "OWNER_ID"

def proxyUrlFromEnv : String := dropSlash ((readEither m "PROXY_URL").getD DEFAULT_PROXY_URL)

/-- `buffer.toString("utf-8").trim()` -/
def keyText (bytes : Bytes) : String := String.ofList (JavaScript.trim (Utf8.lossy bytes))

def readDiskKey : Option String := (m.diskKey.map keyText).filter (· ≠ "")

def keyFrom : KeySource → Except ConfigError String
  | .base64 text => .ok (keyText (Base64.fromBase64 text.toList))
  | .path path =>
    match m.file path with
    | some bytes => .ok (keyText bytes)
    | none => .error (cannotRead path (m.nodeReason path))
  | .raw text => .ok (wrapPem text)
  | .disk =>
    match readDiskKey m with
    | some key => .ok key
    | none => .error (noPrivateKey "npx @agentvalet/register")

def privateKeyFromEnv : Except ConfigError String := keyFrom m (keySource (readEither m))

end TypeScript

namespace Python
variable (m : Workstation)

/-- What leaves the function; only the first is the package's own. -/
inductive Raised where
  | config (e : ConfigError)
  | binascii
  | unicodeDecode

def stripped (s : String) : String := String.ofList (Lang.Python.strip s.toList)

def readEnv (name : String) : Option String := readEnvBy stripped m name

def readEither (suffix : String) : Option String := readEitherBy stripped m suffix

def agentIdFromEnv : Option String := readEither m "AGENT_ID"

def ownerIdFromEnv : Option String := readEither m "OWNER_ID"

def proxyUrlFromEnv : String := stripSlashes ((readEither m "PROXY_URL").getD DEFAULT_PROXY_URL)

def decodeUtf8 (bytes : Bytes) : Except Raised (List Char) :=
  match Utf8.strict bytes with
  | some text => .ok text
  | none => .error .unicodeDecode

/-- `read_text(encoding="utf-8").strip()` of a file that can be opened. -/
def keyText (bytes : Bytes) : Except Raised String := do
  let text ← decodeUtf8 bytes
  pure (String.ofList (Lang.Python.strip (Lang.Python.universalNewlines text)))

/-- Only an `OSError` is caught. -/
def readDiskKey : Except Raised (Option String) :=
  match m.diskKey with
  | none => .ok none
  | some bytes => do
    let key ← keyText bytes
    pure (if key = "" then none else some key)

def keyFrom : KeySource → Except Raised String
  | .base64 text =>
    match Base64.b64decode text.toList with
    | none => .error .binascii
    | some bytes => do
      let text ← decodeUtf8 bytes
      pure (String.ofList (Lang.Python.strip text))
  | .path path =>
    match m.file (pathText path) with
    | some bytes => keyText bytes
    | none => .error (.config (cannotRead path (m.pythonReason path)))
  | .raw text => .ok (wrapPem text)
  | .disk => do
    match ← readDiskKey m with
    | some key => pure key
    | none => .error (.config (noPrivateKey "agentvalet register"))

def privateKeyFromEnv : Except Raised String := keyFrom m (keySource (readEither m))

end Python

/-- The same value, or the `ConfigError` of each. -/
def Agree : Except ConfigError String → Except Python.Raised String → Prop
  | .ok key, .ok key' => key = key'
  | .error _, .error (.config _) => True
  | _, _ => False

def SameIdentity (m : Workstation) : Prop :=
  TypeScript.agentIdFromEnv m = Python.agentIdFromEnv m ∧
    TypeScript.ownerIdFromEnv m = Python.ownerIdFromEnv m ∧
    TypeScript.proxyUrlFromEnv m = Python.proxyUrlFromEnv m ∧
    Agree (TypeScript.privateKeyFromEnv m) (Python.privateKeyFromEnv m)

end AgentValet.Sdk
