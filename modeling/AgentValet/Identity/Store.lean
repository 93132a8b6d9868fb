import AgentValet.Lang.Files
import AgentValet.Lang.JavaScript

namespace AgentValet.Identity
open Lang

/-- The properties of a value that is written to property by property. -/
abbrev Fields := List (String × Json)

inductive JsonFile where
  | absent
  | invalid
  | json (v : Json)

/-- The identity part of a machine; paths are absolute and `home` has no slash at its end. -/
structure Machine where
  home : String
  files : Files
  config : JsonFile

def AGENT_DIR (home : String) : String := home ++ "/.agentvalet"

def AGENT_KEY_PATH (home : String) : String := AGENT_DIR home ++ "/agent.key"

/-- `config[k] = v` for each of the updates: of bindings of one key the last one counts. -/
def setFields (fields updates : Fields) : Fields := fields ++ updates

theorem lookup_setFields (fields updates : Fields) (key : String) :
    Json.lookup (setFields fields updates) key =
      (Json.lookup updates key <|> Json.lookup fields key) := by
  simp [Json.lookup, setFields, List.reverse_append, List.lookup_append]

theorem lookup_set_self (fields : Fields) (key : String) (v : Json) :
    Json.lookup (setFields fields [(key, v)]) key = some v := by
  have hlookup : Json.lookup [(key, v)] key = some v := by simp [Json.lookup]
  rw [lookup_setFields, hlookup]
  rfl

theorem lookup_set_of_ne (fields : Fields) {key other : String} (v : Json) (h : other ≠ key) :
    Json.lookup (setFields fields [(key, v)]) other = Json.lookup fields other := by
  have hlookup : Json.lookup [(key, v)] other = none := by
    simp [Json.lookup, List.lookup_cons, beq_eq_false_iff_ne.2 h]
  rw [lookup_setFields, hlookup]
  rfl

/-- The stored properties; a file that is no JSON cannot be read. -/
def getStoredConfig : JsonFile → Option Fields
  | .absent => some []
  | .invalid => none
  | .json (.obj fields) => some fields
  | .json _ => some []

/-- `stored[key]`, where null counts as not there. -/
def storedField (fields : Fields) (key : String) : Option Json :=
  (Json.lookup fields key).filter fun v => match v with | .null => false | _ => true

structure AgentCredentials where
  agentId : Json
  ownerId : Json
  keyPath : Json
  apiUrl : Json

/-- Lines `NAME=value`, without comments; of a repeated name the last line counts. -/
def parseEnvFile (content : String) : Fields :=
  (content.splitOn "\n").filterMap fun line =>
    let trimmed := JavaScript.trim line.toList
    if trimmed.isEmpty || trimmed.head? = some '#' || !trimmed.contains '=' then none
    else some (String.ofList (trimmed.takeWhile (· ≠ '=')),
      .str (String.ofList ((trimmed.dropWhile (· ≠ '=')).drop 1)))

/-- What the surroundings of a command add: the directory it runs in, and its environment. -/
structure Shell where
  cwd : String
  env : String → Option String

def resolvePath (cwd path : String) : String :=
  if path.toList.head? = some '/' then path else cwd ++ "/" ++ path

def DEFAULT_API_URL : String := "https://api.agentvalet.ai"

structure Partial where
  agentId : Option Json
  ownerId : Option Json
  apiUrl : Json
  keyPath : Json

def truthy (v : Option Json) : Bool := JavaScript.truthy v

/-- `~/.agentvalet/config.json`, and the default for the key where it names none. -/
def fromConfig (m : Machine) : Partial :=
  let stored := (getStoredConfig m.config).getD []
  let keyPath := storedField stored "keyPath" <|> storedField stored "lastKeyPath"
  { agentId := storedField stored "agentId" <|> storedField stored "lastAgentId"
    ownerId := storedField stored "ownerId"
    apiUrl := (storedField stored "apiUrl" <|> storedField stored "proxyUrl").getD
      (.str DEFAULT_API_URL)
    keyPath := (keyPath.filter fun v => truthy (some v)).getD (.str (AGENT_KEY_PATH m.home)) }

/-- `.env.agentvalet` in the directory, for ids that are still missing. -/
def fromEnvFile (m : Machine) (shell : Shell) (p : Partial) : Partial :=
  if truthy p.agentId && truthy p.ownerId then p
  else
    match m.files (resolvePath shell.cwd ".env.agentvalet") with
    | none => p
    | some content =>
      let vars := parseEnvFile content
      { agentId := p.agentId <|> Json.lookup vars "AGENTVALET_AGENT_ID"
        ownerId := p.ownerId <|> Json.lookup vars "AGENTVALET_OWNER_ID"
        apiUrl := (Json.lookup vars "AGENTVALET_API_URL").getD p.apiUrl
        keyPath := (Json.lookup vars "AGENTVALET_PRIVATE_KEY_PATH").getD p.keyPath }

def envVariable (shell : Shell) (name : String) : Option Json := (shell.env name).map .str

def fromVariables (shell : Shell) (p : Partial) : Partial where
  agentId := p.agentId <|> envVariable shell "AGENTVALET_AGENT_ID"
  ownerId := p.ownerId <|> envVariable shell "AGENTVALET_OWNER_ID"
  apiUrl := ((envVariable shell "AGENTVALET_API_URL").filter fun v => truthy (some v)).getD p.apiUrl
  keyPath := ((envVariable shell "AGENTVALET_PRIVATE_KEY_PATH").filter
    fun v => truthy (some v)).getD p.keyPath

/-- The file at a path, which is a text wherever an agent is resolved. -/
def keyFile (m : Machine) (shell : Shell) (keyPath : Json) : Option String :=
  match keyPath with
  | .str path => m.files (resolvePath shell.cwd path)
  | _ => none

/-- `existsSync(resolve(keyPath))`, where `resolve` throws on what is no text. -/
def keyExists (m : Machine) (shell : Shell) (keyPath : Json) : Except String Bool :=
  match keyPath with
  | .str path => .ok (m.files (resolvePath shell.cwd path)).isSome
  | _ => .error "The paths[0] argument must be of type string"

def tryResolveAgent (m : Machine) (shell : Shell) : Except String (Option AgentCredentials) :=
  let p := fromVariables shell (fromEnvFile m shell (fromConfig m))
  match p.agentId.filter fun v => truthy (some v), p.ownerId.filter fun v => truthy (some v) with
  | some agentId, some ownerId =>
    if truthy (some p.keyPath) then do
      let found ← keyExists m shell p.keyPath
      pure (if found then some ⟨agentId, ownerId, p.keyPath, p.apiUrl⟩ else none)
    else .ok none
  | _, _ => .ok none

end AgentValet.Identity
