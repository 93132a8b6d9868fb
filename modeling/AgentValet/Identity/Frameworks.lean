import AgentValet.Identity.Store
import AgentValet.Lang.Replace
import AgentValet.Lang.Toml

namespace AgentValet.Identity
open Base Lang

structure DetectedFrameworks where
  codex : Bool
  codexDesktop : Bool
  claudeCode : Bool
  cursor : Bool
  cursorCli : Bool
  openclaw : Bool
  factoryDroid : Bool

/-- Where no framework is found, nobody is asked. -/
def frameworkSetupConsent (detected : DetectedFrameworks) (confirm : Bool) : Bool :=
  (detected.claudeCode || detected.cursor || detected.cursorCli || detected.codex ||
    detected.codexDesktop || detected.openclaw || detected.factoryDroid) && confirm

structure McpParams where
  agentId : String
  ownerId : String
  proxyUrl : String
  keyPath : String

def McpParams.env (p : McpParams) : List (String × String) :=
  [("AGENT_ID", p.agentId), ("OWNER_ID", p.ownerId), ("PROXY_URL", p.proxyUrl),
    ("AGENT_PRIVATE_KEY_PATH", p.keyPath)]

def buildMcpEntry (p : McpParams) : Json :=
  .obj [("command", .str "npx"),
    ("args", .arr [.str "-y", .str "@agentvalet/register", .str "mcp-server"]),
    ("env", .obj (p.env.map fun v => (v.1, .str v.2)))]

abbrev JsonFiles := String → JsonFile

/-- A file is replaced by what its own content gives. -/
def rewriteAt (files : JsonFiles) (path : String) (f : JsonFile → JsonFile) : JsonFiles :=
  Function.update files path (f (files path))

/-- What a merge begins with: nothing, where there is no file or no JSON in it. -/
def existingJson : JsonFile → Json
  | .absent => .obj []
  | .invalid => .obj []
  | .json v => v

/-- A value without properties of its own throws, and one that is an array loses the property
when it is written; either way the file holds what it held. -/
def mergeJsonFile (key : String) (value : Json) (file : JsonFile) : JsonFile :=
  match existingJson file with
  | .obj existing =>
    match Json.lookup existing "mcpServers" with
    | none => .json (.obj (setFields existing [("mcpServers", .obj [(key, value)])]))
    | some .null => .json (.obj (setFields existing [("mcpServers", .obj [(key, value)])]))
    | some (.obj servers) =>
      .json (.obj (setFields existing [("mcpServers", .obj (setFields servers [(key, value)]))]))
    | some _ => file
  | _ => file

def backedUp (files : JsonFiles) (path : String) : JsonFiles :=
  match files path with
  | .invalid => Function.update files (path ++ ".backup") .invalid
  | _ => files

def mergeFactoryDroidMcpJson (files : JsonFiles) (path key : String) (value : Json) : JsonFiles :=
  match existingJson (files path) with
  | .obj existing =>
    if truthy (Json.lookup existing key) then backedUp files path
    else
      Function.update (backedUp files path) path
        (.json (.obj (setFields existing [(key, value)])))
  | _ => backedUp files path

/-- `delete fields[key]` -/
def deleteField (fields : Fields) (key : String) : Fields := fields.filter fun f => f.1 ≠ key

def stripAgentvaletFromMcpJson (file : JsonFile) : JsonFile :=
  match file with
  | .json (.obj config) =>
    match Json.lookup config "mcpServers" with
    | some (.obj servers) =>
      if truthy (Json.lookup servers "agentvalet") then
        .json (.obj (setFields config [("mcpServers", .obj (deleteField servers "agentvalet"))]))
      else file
    | _ => file
  | _ => file

/-- The same where the servers are not wrapped. -/
def stripFactoryProjectMcp (file : JsonFile) : JsonFile :=
  match file with
  | .json (.obj config) =>
    if truthy (Json.lookup config "agentvalet") then
      .json (.obj (deleteField config "agentvalet"))
    else file
  | _ => file

def cleanProjectScopedEntries (cwd : String) (files : JsonFiles) : JsonFiles :=
  let claude := rewriteAt files (cwd ++ "/.mcp.json") stripAgentvaletFromMcpJson
  let cursor := rewriteAt claude (cwd ++ "/.cursor/mcp.json") stripAgentvaletFromMcpJson
  rewriteAt cursor (cwd ++ "/.factory/mcp.json") stripFactoryProjectMcp

/-- `writeIdeConfigs` with the scope of the user. -/
def writeIdeConfigs (home cwd : String) (detected : DetectedFrameworks) (p : McpParams)
    (files : JsonFiles) : JsonFiles :=
  let entry := buildMcpEntry p
  let claude :=
    if detected.claudeCode then
      rewriteAt files (home ++ "/.claude.json") (mergeJsonFile "agentvalet" entry)
    else files
  let cursor :=
    if detected.cursor || detected.cursorCli then
      rewriteAt claude (home ++ "/.cursor/mcp.json") (mergeJsonFile "agentvalet" entry)
    else claude
  let factory :=
    if detected.factoryDroid then
      mergeFactoryDroidMcpJson cursor (home ++ "/.factory/mcp.json") "agentvalet" entry
    else cursor
  cleanProjectScopedEntries cwd factory

def codexHeader : JavaScript.Text := "[mcp_servers.agentvalet]".toList

/-- `keyPath.replace(/\\/g, '/')` -/
def slashed (path : String) : String :=
  String.ofList (path.toList.map fun c => if c = '\\' then '/' else c)

def buildCodexTomlBlock (p : McpParams) : JavaScript.Text :=
  '\n' :: codexHeader ++ "\ncommand = \"npx\"".toList ++
  "\nargs = [\"-y\", \"@agentvalet/register\", \"mcp-server\"]".toList ++
  "\nenv = \x7b AGENT_ID = \"".toList ++ p.agentId.toList ++
  "\", OWNER_ID = \"".toList ++ p.ownerId.toList ++
  "\", PROXY_URL = \"".toList ++ p.proxyUrl.toList ++
  "\", AGENT_PRIVATE_KEY_PATH = \"".toList ++ (slashed p.keyPath).toList ++
  "\" \x7d\n".toList

/-- What `~/.codex/config.toml` holds afterwards; a file that is not there holds nothing. -/
def writeGlobalFrameworkConfigs (p : McpParams) (existing : JavaScript.Text) : JavaScript.Text :=
  if JavaScript.includes existing codexHeader then existing
  else existing ++ buildCodexTomlBlock p

abbrev Env := String → Option String

def jsonEnv (entry : Json) : Env := fun name =>
  match (entry.field? "env").bind (Json.field? name) with
  | some (.str value) => some value
  | _ => none

def isSet (entry : Json) : Bool := truthy (some entry)

def serverEntry : JsonFile → Option Json
  | .json config =>
    ((config.field? "mcpServers").bind (Json.field? "agentvalet")).filter isSet
  | _ => none

def flatEntry : JsonFile → Option Json
  | .json config => (config.field? "agentvalet").filter isSet
  | _ => none

/-- What stands behind the first header is taken for the entry of Codex. -/
def codexEnv (text : JavaScript.Text) : Option Env :=
  (splitFirst codexHeader text).map fun sides name =>
    ((splitFirst "env = ".toList sides.2).map fun table => Toml.readTable table.2).bind
      (List.lookup name)

section
variable {files : JsonFiles} {path other : String} {file : JsonFile} {key : String} {value v : Json}
  {config existing servers : Fields}

theorem lookup_filter_of_ne (h : other ≠ key) (fields : Fields) :
    (fields.filter fun f => f.1 ≠ key).lookup other = fields.lookup other := by
  induction fields with
  | nil => rfl
  | cons f fields ih =>
    obtain ⟨name, v⟩ := f
    by_cases hname : name = key
    · have hother : (other == name) = false := by simp [hname, h]
      rw [List.filter_cons_of_neg (by simp [hname]), ih, List.lookup_cons, hother]
    · rw [List.filter_cons_of_pos (by simp [hname]), List.lookup_cons, List.lookup_cons, ih]

theorem lookup_deleteField_of_ne (h : other ≠ key) (fields : Fields) :
    Json.lookup (deleteField fields key) other = Json.lookup fields other := by
  rw [Json.lookup, deleteField, ← List.filter_reverse, lookup_filter_of_ne h, Json.lookup]

theorem lookup_deleteField_self (fields : Fields) (key : String) :
    Json.lookup (deleteField fields key) key = none := by
  rw [Json.lookup, List.lookup_eq_none_iff]
  intro f hf
  rw [List.mem_reverse, deleteField, List.mem_filter] at hf
  simpa using fun h => (of_decide_eq_true hf.2) h.symm

theorem lookup_written (fields : Fields) (key : String) (value : Json) :
    Json.lookup (setFields fields [(key, value)]) key = some value := by
  have hlast : Json.lookup [(key, value)] key = some value := List.lookup_cons_self
  rw [lookup_setFields, hlast]
  rfl

theorem field?_of_not_obj (h : ∀ fields, v ≠ .obj fields) (key : String) :
    v.field? key = none := by
  cases v with
  | obj fields => exact absurd rfl (h fields)
  | _ => rfl

theorem serverEntry_of_lookup (h : Json.lookup config "mcpServers" = some v) :
    serverEntry (.json (.obj config)) = (v.field? "agentvalet").filter isSet := by
  rw [serverEntry, Json.field?, h, Option.bind_some]

theorem entries_of_not_obj (h : ∀ fields, file ≠ .json (.obj fields)) :
    serverEntry file = none ∧ flatEntry file = none := by
  cases file with
  | json config =>
    have hconfig : ∀ fields, config ≠ .obj fields := by
      rintro fields rfl
      exact h fields rfl
    rw [serverEntry, flatEntry, field?_of_not_obj hconfig, field?_of_not_obj hconfig]
    exact ⟨rfl, rfl⟩
  | _ => exact ⟨rfl, rfl⟩

theorem entry_eq_of_filter (h : (some value).filter isSet = some v) : v = value := by
  rw [Option.filter_eq_some_iff] at h
  exact (Option.some.inj h.1).symm

/-- A merge leaves the entry that it was given, or none. -/
theorem serverEntry_mergeJsonFile
    (h : serverEntry (mergeJsonFile "agentvalet" value file) = some v) : v = value := by
  have hwritten : ∀ config servers, serverEntry (.json (.obj (setFields config
      [("mcpServers", .obj (setFields servers [("agentvalet", value)]))]))) = some v →
        v = value := by
    intro config servers h'
    rw [serverEntry_of_lookup (lookup_written config "mcpServers" _), Json.field?,
      lookup_written] at h'
    exact entry_eq_of_filter h'
  rw [mergeJsonFile] at h
  cases file with
  | absent => exact hwritten [] [] h
  | invalid => exact hwritten [] [] h
  | json config =>
    cases config with
    | obj existing =>
      dsimp only [existingJson] at h
      split at h
      · exact hwritten existing [] h
      · exact hwritten existing [] h
      · exact hwritten existing _ h
      · rename_i w hnull hobj hw
        rw [serverEntry_of_lookup hw, field?_of_not_obj hobj, Option.filter_none] at h
        cases h
    | _ => cases h

/-- An entry that is there already stays. -/
theorem flatEntry_mergeFactoryDroidMcpJson
    (h : flatEntry (mergeFactoryDroidMcpJson files path "agentvalet" value path) = some v) :
    v = value ∨ flatEntry (files path) = some v := by
  have hwritten : ∀ existing, flatEntry (.json (.obj (setFields existing
      [("agentvalet", value)]))) = some v → v = value := by
    intro existing h'
    rw [flatEntry, Json.field?, lookup_written] at h'
    exact entry_eq_of_filter h'
  have hempty : ¬ truthy (Json.lookup [] "agentvalet") = true := by decide
  unfold mergeFactoryDroidMcpJson at h
  cases hfile : files path with
  | absent =>
    rw [hfile, existingJson] at h
    dsimp only at h
    rw [if_neg hempty, Function.update_self] at h
    exact Or.inl (hwritten [] h)
  | invalid =>
    rw [hfile, existingJson] at h
    dsimp only at h
    rw [if_neg hempty, Function.update_self] at h
    exact Or.inl (hwritten [] h)
  | json config =>
    have hsame : backedUp files path = files := by rw [backedUp, hfile]
    rw [hfile, hsame] at h
    cases config with
    | obj existing =>
      dsimp only [existingJson] at h
      split at h
      · rw [hfile] at h
        exact Or.inr h
      · rw [Function.update_self] at h
        exact Or.inl (hwritten existing h)
    | _ =>
      dsimp only [existingJson] at h
      rw [hfile] at h
      exact Or.inr h

theorem backedUp_of_ne (hbackup : other ≠ path ++ ".backup") :
    backedUp files path other = files other := by
  unfold backedUp
  cases files path with
  | invalid => exact Function.update_of_ne hbackup _ _
  | _ => rfl

theorem mergeFactoryDroidMcpJson_of_ne (h : other ≠ path) (hbackup : other ≠ path ++ ".backup") :
    mergeFactoryDroidMcpJson files path key value other = files other := by
  unfold mergeFactoryDroidMcpJson
  cases existingJson (files path) with
  | obj existing =>
    dsimp only
    split
    · exact backedUp_of_ne hbackup
    · rw [Function.update_of_ne h]
      exact backedUp_of_ne hbackup
  | _ => exact backedUp_of_ne hbackup

theorem filter_isSet_eq_none {o : Option Json} (h : truthy o = false) : o.filter isSet = none := by
  cases o with
  | none => rfl
  | some v => exact Option.filter_some_neg h

theorem serverEntry_stripAgentvaletFromMcpJson (file : JsonFile) :
    serverEntry (stripAgentvaletFromMcpJson file) = none := by
  unfold stripAgentvaletFromMcpJson
  split
  · rename_i config
    split
    · rename_i servers hservers
      split
      · rw [serverEntry_of_lookup (lookup_written config "mcpServers" _), Json.field?,
          lookup_deleteField_self, Option.filter_none]
      · rename_i hnot
        rw [serverEntry_of_lookup hservers, Json.field?]
        exact filter_isSet_eq_none (Bool.not_eq_true _ ▸ hnot)
    · rename_i hnone
      cases hlookup : Json.lookup config "mcpServers" with
      | none => rw [serverEntry, Json.field?, hlookup, Option.bind_none, Option.filter_none]
      | some w =>
        have hw : ∀ fields, w ≠ .obj fields := by
          rintro fields rfl
          exact hnone fields hlookup
        rw [serverEntry_of_lookup hlookup, field?_of_not_obj hw, Option.filter_none]
  · rename_i hnone
    exact (entries_of_not_obj hnone).1

theorem flatEntry_stripAgentvaletFromMcpJson (file : JsonFile) :
    flatEntry (stripAgentvaletFromMcpJson file) = flatEntry file := by
  unfold stripAgentvaletFromMcpJson
  split
  · split
    · split
      · rw [flatEntry, Json.field?, lookup_setFields]
        rfl
      · rfl
    · rfl
  · rfl

theorem serverEntry_stripFactoryProjectMcp (file : JsonFile) :
    serverEntry (stripFactoryProjectMcp file) = serverEntry file := by
  unfold stripFactoryProjectMcp
  split
  · split
    · rw [serverEntry, Json.field?, lookup_deleteField_of_ne (by decide)]
      rfl
    · rfl
  · rfl

theorem flatEntry_stripFactoryProjectMcp (file : JsonFile) :
    flatEntry (stripFactoryProjectMcp file) = none := by
  unfold stripFactoryProjectMcp
  split
  · rename_i config
    split
    · rw [flatEntry, Json.field?, lookup_deleteField_self, Option.filter_none]
    · rename_i hnot
      rw [flatEntry, Json.field?]
      exact filter_isSet_eq_none (Bool.not_eq_true _ ▸ hnot)
  · rename_i hnone
    exact (entries_of_not_obj hnone).2

theorem rewriteAt_of_ne {f : JsonFile → JsonFile} (h : other ≠ path) :
    rewriteAt files path f other = files other :=
  Function.update_of_ne h _ _

theorem rewriteAt_self (files : JsonFiles) (path : String) (f : JsonFile → JsonFile) :
    rewriteAt files path f path = f (files path) :=
  Function.update_self _ _ _

/-- What adds no entry to a file adds none to any. -/
theorem entry_of_rewriteAt {read : JsonFile → Option Json} {f : JsonFile → JsonFile}
    (hf : ∀ file v, read (f file) = some v → read file = some v)
    (h : read (rewriteAt files path f other) = some v) : read (files other) = some v := by
  by_cases hpath : other = path
  · rw [hpath, rewriteAt_self] at h
    rw [hpath]
    exact hf _ v h
  · rwa [rewriteAt_of_ne hpath] at h

theorem serverEntry_cleanProjectScopedEntries {cwd : String}
    (h : serverEntry (cleanProjectScopedEntries cwd files other) = some v) :
    serverEntry (files other) = some v ∧ other ≠ cwd ++ "/.cursor/mcp.json" := by
  have hstrip : ∀ file v, serverEntry (stripAgentvaletFromMcpJson file) = some v →
      serverEntry file = some v := by
    intro file v h'
    rw [serverEntry_stripAgentvaletFromMcpJson] at h'
    cases h'
  have hflat : ∀ file v, serverEntry (stripFactoryProjectMcp file) = some v →
      serverEntry file = some v := by
    intro file v h'
    rwa [serverEntry_stripFactoryProjectMcp] at h'
  have hcursor := entry_of_rewriteAt hflat h
  have hclaude := entry_of_rewriteAt hstrip hcursor
  refine ⟨entry_of_rewriteAt hstrip hclaude, ?_⟩
  rintro rfl
  rw [rewriteAt_self, serverEntry_stripAgentvaletFromMcpJson] at hcursor
  cases hcursor

theorem flatEntry_cleanProjectScopedEntries {cwd : String}
    (h : flatEntry (cleanProjectScopedEntries cwd files other) = some v) :
    flatEntry (files other) = some v ∧ other ≠ cwd ++ "/.factory/mcp.json" := by
  have hstrip : ∀ file v, flatEntry (stripAgentvaletFromMcpJson file) = some v →
      flatEntry file = some v := by
    intro file v h'
    rwa [flatEntry_stripAgentvaletFromMcpJson] at h'
  have hflat : ∀ file v, flatEntry (stripFactoryProjectMcp file) = some v →
      flatEntry file = some v := by
    intro file v h'
    rw [flatEntry_stripFactoryProjectMcp] at h'
    cases h'
  refine ⟨entry_of_rewriteAt hstrip (entry_of_rewriteAt hstrip (entry_of_rewriteAt hflat h)), ?_⟩
  rintro rfl
  rw [cleanProjectScopedEntries, rewriteAt_self, flatEntry_stripFactoryProjectMcp] at h
  cases h

theorem under_ne {a b : String} (h : a ≠ b) (home : String) : home ++ a ≠ home ++ b :=
  fun h' => h ((String.append_right_inj home).1 h')

theorem not_written {g : JsonFiles} (b : Bool) (h : g other = files other) :
    (if b then g else files) other = files other := by
  cases b with
  | false => rfl
  | true => exact h

end

section
variable {home cwd rest : String} {detected : DetectedFrameworks} {p : McpParams}
  {files : JsonFiles} {key : String} {value v : Json}

theorem mergeFactoryDroidMcpJson_under_home (h : rest ≠ "/.factory/mcp.json")
    (hbackup : rest ≠ "/.factory/mcp.json" ++ ".backup") :
    mergeFactoryDroidMcpJson files (home ++ "/.factory/mcp.json") key value (home ++ rest) =
      files (home ++ rest) := by
  apply mergeFactoryDroidMcpJson_of_ne (under_ne h home)
  rw [String.append_assoc]
  exact under_ne hbackup home

theorem writeIdeConfigs_claude
    (h : serverEntry (writeIdeConfigs home cwd detected p files
      (home ++ "/.claude.json")) = some v) :
    v = buildMcpEntry p ∨
      detected.claudeCode = false ∧ serverEntry (files (home ++ "/.claude.json")) = some v := by
  have hwritten := (serverEntry_cleanProjectScopedEntries h).1
  rw [not_written _ (mergeFactoryDroidMcpJson_under_home (by decide) (by decide)),
    not_written _ (rewriteAt_of_ne (under_ne (by decide) home))] at hwritten
  cases hclaude : detected.claudeCode with
  | false =>
    rw [hclaude] at hwritten
    exact Or.inr ⟨rfl, hwritten⟩
  | true =>
    rw [hclaude, if_pos rfl, rewriteAt_self] at hwritten
    exact Or.inl (serverEntry_mergeJsonFile hwritten)

theorem writeIdeConfigs_cursor
    (h : serverEntry (writeIdeConfigs home cwd detected p files (home ++ "/.cursor/mcp.json")) =
      some v) :
    cwd ≠ home ∧ (v = buildMcpEntry p ∨ (detected.cursor || detected.cursorCli) = false ∧
      serverEntry (files (home ++ "/.cursor/mcp.json")) = some v) := by
  obtain ⟨hwritten, hplace⟩ := serverEntry_cleanProjectScopedEntries h
  refine ⟨fun heq => hplace (by rw [heq]), ?_⟩
  rw [not_written _ (mergeFactoryDroidMcpJson_under_home (by decide) (by decide))] at hwritten
  cases hcursor : detected.cursor || detected.cursorCli with
  | false =>
    rw [hcursor, if_neg (by decide), not_written _ (rewriteAt_of_ne (under_ne (by decide) home))]
      at hwritten
    exact Or.inr ⟨rfl, hwritten⟩
  | true =>
    rw [hcursor, if_pos rfl, rewriteAt_self] at hwritten
    exact Or.inl (serverEntry_mergeJsonFile hwritten)

theorem writeIdeConfigs_factory
    (h : flatEntry (writeIdeConfigs home cwd detected p files (home ++ "/.factory/mcp.json")) =
      some v) :
    cwd ≠ home ∧ (v = buildMcpEntry p ∨
      flatEntry (files (home ++ "/.factory/mcp.json")) = some v) := by
  obtain ⟨hwritten, hplace⟩ := flatEntry_cleanProjectScopedEntries h
  refine ⟨fun heq => hplace (by rw [heq]), ?_⟩
  cases hfactory : detected.factoryDroid with
  | false =>
    rw [hfactory, if_neg (by decide), not_written _ (rewriteAt_of_ne (under_ne (by decide) home)),
      not_written _ (rewriteAt_of_ne (under_ne (by decide) home))] at hwritten
    exact Or.inr hwritten
  | true =>
    rw [hfactory, if_pos rfl] at hwritten
    obtain hnew | hold := flatEntry_mergeFactoryDroidMcpJson hwritten
    · exact Or.inl hnew
    · right
      rwa [not_written _ (rewriteAt_of_ne (under_ne (by decide) home)),
        not_written _ (rewriteAt_of_ne (under_ne (by decide) home))] at hold

theorem slashed_of_plain {path : String} (h : Toml.Plain path) : slashed path = path := by
  have hsame : (path.toList.map fun c => if c = '\\' then '/' else c) = path.toList := by
    conv_rhs => rw [← List.map_id path.toList]
    apply List.map_congr_left
    intro c hc
    apply if_neg
    rintro rfl
    exact absurd (h _ hc).1 (by decide)
  rw [slashed, hsame, String.ofList_toList]

/-- Behind the header the block has two lines, and then the table. -/
theorem buildCodexTomlBlock_eq (p : McpParams) :
    buildCodexTomlBlock p = '\n' :: (codexHeader ++
      ("\ncommand = \"npx\"".toList ++
        "\nargs = [\"-y\", \"@agentvalet/register\", \"mcp-server\"]".toList ++ '\n' ::
          ("env = ".toList ++ (Toml.inlineTable { p with keyPath := slashed p.keyPath }.env ++
            '\n' :: [])))) := by
  simp [buildCodexTomlBlock, Toml.inlineTable, Toml.tableFrom, Toml.assignment, McpParams.env]

theorem occurrences_codexHeader {text : JavaScript.Text}
    (h : JavaScript.includes text codexHeader = false) : occurrences codexHeader text = 0 := by
  rw [JavaScript.includes, Option.isSome_eq_false_iff, Option.isNone_iff_eq_none] at h
  exact (splitFirst_eq_none_iff (by decide)).1 h

theorem bare_env : ∀ v ∈ p.env, Toml.Bare v.1 := by
  simp only [McpParams.env, List.forall_mem_cons]
  refine ⟨?_, ?_, ?_, ?_, by simp⟩ <;> exact List.all_iff_forall_prop.1 (by decide)

theorem codexEnv_appended {text : JavaScript.Text}
    (h : JavaScript.includes text codexHeader = false) (hplain : ∀ v ∈ p.env, Toml.Plain v.2) :
    codexEnv (text ++ buildCodexTomlBlock p) = some fun name => p.env.lookup name := by
  have hkey : slashed p.keyPath = p.keyPath :=
    slashed_of_plain (hplain ("AGENT_PRIVATE_KEY_PATH", p.keyPath) (by simp [McpParams.env]))
  have hlines : occurrences "env = ".toList ("\ncommand = \"npx\"".toList ++
      "\nargs = [\"-y\", \"@agentvalet/register\", \"mcp-server\"]".toList) = 0 := by
    decide
  rw [codexEnv, buildCodexTomlBlock_eq, hkey, splitFirst_append_cons (by decide) (by decide)
    (occurrences_codexHeader h), Option.map_some]
  dsimp only
  rw [splitFirst_append_cons (by decide) (by decide) hlines, Option.map_some]
  dsimp only
  rw [Toml.readTable_inlineTable fun v hv => ⟨bare_env v hv, hplain v hv⟩]
  rfl

end

/-- The variables are those that an installation writes. -/
structure Names (env : Env) (p : McpParams) : Prop where
  agentId : env "AGENT_ID" = some p.agentId
  ownerId : env "OWNER_ID" = some p.ownerId
  keyPath : env "AGENT_PRIVATE_KEY_PATH" = some p.keyPath

theorem names_buildMcpEntry (p : McpParams) : Names (jsonEnv (buildMcpEntry p)) p := ⟨rfl, rfl, rfl⟩

theorem names_lookup (p : McpParams) : Names (fun name => p.env.lookup name) p := ⟨rfl, rfl, rfl⟩

theorem codexEnv_writeGlobalFrameworkConfigs {p : McpParams} {text : JavaScript.Text} {env : Env}
    (hplain : JavaScript.includes text codexHeader = false → ∀ v ∈ p.env, Toml.Plain v.2)
    (h : codexEnv (writeGlobalFrameworkConfigs p text) = some env) :
    Names env p ∨ codexEnv text = some env := by
  rw [writeGlobalFrameworkConfigs] at h
  cases hthere : JavaScript.includes text codexHeader with
  | false =>
    rw [hthere, if_neg (by decide), codexEnv_appended hthere (hplain hthere)] at h
    left
    rw [← Option.some.inj h]
    exact names_lookup p
  | true =>
    rw [hthere, if_pos rfl] at h
    exact Or.inr h

end AgentValet.Identity
