import AgentValet.Identity.Writers
import AgentValet.Permissions.Blocks

namespace AgentValet.Identity
open Lang Permissions

/-- How the entries of the agent are taken out of the other programs' settings, which stay. -/
structure Strips where
  mcpJson : String → Option String
  flatMcpJson : String → Option String
  codexToml : String → Option String
  settingsJson : String → Option String

def textLines (content : String) : List String :=
  (content.splitOn "\n").map fun line =>
    if line.toList.getLast? = some '\r' then String.ofList line.toList.dropLast else line

def isAgentValetGeneratedDoc (content : String) (marker : String) : Bool :=
  match (textLines content).find? fun l => JavaScript.trim l.toList ≠ [] with
  | some firstLine => marker.toList.isPrefixOf firstLine.toList
  | none => false

/-- What `cleanLocally` deletes in the directory that it runs in. -/
def projectFiles : List String :=
  [".env.agentvalet", ".agentvalet", "agentvalet.key", ".claude/agentvalet-permissions.md",
    "AGENTVALET.md", ".factory/droids/agentvalet.yaml",
    ".factory/droids/agentvalet-reliability.yaml", ".factory/commands/av-status.md",
    ".factory/commands/av-register.md"]

def removeGenerated (files : Files) (path : String) : Files :=
  match files path with
  | some content => if isAgentValetGeneratedDoc content "# AgentValet" then files.remove path
    else files
  | none => files

theorem removeGenerated_eq_none {files : Files} {p : String} (h : files p = none) (path : String) :
    removeGenerated files path p = none := by
  unfold removeGenerated
  cases files path with
  | none => exact h
  | some content =>
    dsimp only
    split_ifs
    · exact files.remove_eq_none h path
    · exact h

/-- A function on texts as one on the contents of a file. -/
def onText (strip : Option JavaScript.Text → Option JavaScript.Text) (content : String) :
    Option String :=
  (strip (some content.toList)).map String.ofList

def stripped (strips : Strips) (home cwd : String) : List (String × (String → Option String)) :=
  [(cwd ++ "/.mcp.json", strips.mcpJson), (cwd ++ "/.cursor/mcp.json", strips.mcpJson),
    (cwd ++ "/.factory/mcp.json", strips.flatMcpJson), (home ++ "/.claude.json", strips.mcpJson),
    (home ++ "/.cursor/mcp.json", strips.mcpJson),
    (home ++ "/.factory/mcp.json", strips.flatMcpJson),
    (home ++ "/.codex/config.toml", strips.codexToml),
    (cwd ++ "/.codex/config.toml", strips.codexToml),
    (cwd ++ "/CLAUDE.md", onText stripClaudeMd),
    (cwd ++ "/.claude/settings.local.json", strips.settingsJson),
    (cwd ++ "/AGENTS.md", onText stripPermissionsBlock),
    (cwd ++ "/SKILL.md", onText stripPermissionsBlock)]

/-- The directory of the machine goes as a whole, and with it `config.json`. -/
def cleanLocally (strips : Strips) (m : Machine) (cwd : String) : Machine :=
  let files := m.files.remove (AGENT_DIR m.home)
  let files := projectFiles.foldl (fun files path => files.remove (cwd ++ "/" ++ path)) files
  let files := removeGenerated files (cwd ++ "/AGENTS.md")
  let files := removeGenerated files (cwd ++ "/SKILL.md")
  { m with
    config := .absent
    files := (stripped strips m.home cwd).foldl (fun files p => files.rewrite p.1 p.2) files }

inductive OwnerDecision where
  | approved
  | rejected
  | timeout
  deriving DecidableEq

/-- The library functions of `uninstall`, and what the broker and the owner answer. -/
structure UninstallHost where
  signJwt : AgentCredentials → String → Option String
  send : Request → Except String Reply
  parse : String → Option Json
  pollForApproval : OwnerDecision

def uninstallRequest (creds : AgentCredentials) (jwt : String) : Request where
  method := "POST"
  url := (match creds.apiUrl with | .str apiUrl => apiUrl | _ => "") ++ "/v1/revoke-request"
  headers := [("Authorization", "Bearer " ++ jwt), ("Content-Type", "application/json")]
  body := some (.obj [("reason", .str "CLI uninstall")])

/-- The broker does not know the agent any more, or the owner approves. -/
def revocationDone (w : UninstallHost) (creds : AgentCredentials) (jwt : String) : Bool :=
  match (w.send (uninstallRequest creds jwt)).toOption with
  | none => false
  | some res =>
    match res.text.toOption.bind w.parse with
    | none => false
    | some body =>
      if res.status = 404 || res.status = 409 then true
      else
        match JavaScript.properties body with
        | none => false
        | some fields =>
          res.ok && truthy (Json.lookup fields "revocation_token") &&
            w.pollForApproval = .approved

/-- `uninstall` comes to `cleanLocally`. -/
def uninstallCleans (w : UninstallHost) (m : Machine) (shell : Shell) (localOnly : Bool) : Bool :=
  match tryResolveAgent m shell with
  | .error _ => false
  | .ok none => true
  | .ok (some creds) =>
    if localOnly then true
    else
      let privateKeyPem := (keyFile m shell creds.keyPath).map fun pem =>
        String.ofList (JavaScript.trim pem.toList)
      match privateKeyPem.filter (· ≠ "") with
      | none => false
      | some pem =>
        match w.signJwt creds pem with
        | none => false
        | some jwt => revocationDone w creds jwt

def uninstallCommand (w : UninstallHost) (strips : Strips) (m : Machine) (shell : Shell)
    (localOnly : Bool) : Machine :=
  if uninstallCleans w m shell localOnly then cleanLocally strips m shell.cwd else m

/-- What the user asks `revoke` for, and what the dashboard answers: the agents that are revoked. -/
structure Revocation where
  confirmed : Bool
  keepLocal : Bool
  revokedAgentIds : Option (List String)

/-- `revoke` comes to `cleanLocally`: the agent of the machine is among those that are revoked. -/
def revokeCleans (m : Machine) (shell : Shell) (r : Revocation) : Bool :=
  match getStoredConfig m.config with
  | none => false
  | some config =>
    truthy (Json.lookup config "cliToken") && r.confirmed && !r.keepLocal &&
      match r.revokedAgentIds, tryResolveAgent m shell with
      | some ids, .ok (some creds) =>
        match creds.agentId with
        | .str agentId => agentId ∈ ids
        | _ => false
      | _, _ => false

def revokeCommand (strips : Strips) (m : Machine) (shell : Shell) (r : Revocation) : Machine :=
  if revokeCleans m shell r then cleanLocally strips m shell.cwd else m

end AgentValet.Identity
