import AgentValet.Identity.Frameworks
import AgentValet.Identity.OneIdentity

namespace AgentValet.Identity
open Base Lang

/-- A world, and the files of the frameworks in it. -/
structure Desktop extends World where
  mcp : JsonFiles
  codex : JavaScript.Text

/-- An installation for the user, and what it finds and is told. -/
structure InstallRun where
  issued : Issued
  proxyUrl : String
  detected : DetectedFrameworks
  confirm : Bool
  cwd : String

def InstallRun.params (r : InstallRun) (home : String) : McpParams :=
  ⟨r.issued.agentId, r.issued.ownerId, r.proxyUrl, AGENT_KEY_PATH home⟩

namespace Desktop

/-- A `config.json` that is no JSON stops the command behind the key. -/
def configures (d : Desktop) (r : InstallRun) : Bool :=
  (getStoredConfig d.machine.config).isSome && frameworkSetupConsent r.detected r.confirm

def install (d : Desktop) (r : InstallRun) : Desktop where
  toWorld := d.toWorld.step (.install r.issued r.proxyUrl)
  mcp :=
    if d.configures r then
      writeIdeConfigs d.machine.home r.cwd r.detected (r.params d.machine.home) d.mcp
    else d.mcp
  codex :=
    if d.configures r then writeGlobalFrameworkConfigs (r.params d.machine.home) d.codex
    else d.codex

end Desktop

inductive Surface where
  | claude
  | cursor
  | factory
  | codex

def Desktop.entry (d : Desktop) : Surface → Option Env
  | .claude => (serverEntry (d.mcp (d.machine.home ++ "/.claude.json"))).map jsonEnv
  | .cursor => (serverEntry (d.mcp (d.machine.home ++ "/.cursor/mcp.json"))).map jsonEnv
  | .factory => (flatEntry (d.mcp (d.machine.home ++ "/.factory/mcp.json"))).map jsonEnv
  | .codex => codexEnv d.codex

/-- The ids are those of one agent, and at the path lies its key. -/
def OfAgent (w : World) (env : Env) : Prop :=
  ∃ i ∈ w.issued, env "AGENT_ID" = some i.agentId ∧ env "OWNER_ID" = some i.ownerId ∧
    ∃ path, env "AGENT_PRIVATE_KEY_PATH" = some path ∧ w.machine.files path = some i.key

def Desktop.Paired (d : Desktop) : Prop :=
  ∀ surface env, d.entry surface = some env → OfAgent d.toWorld env

/-- What is there is written anew, or taken out as the entry of a project. -/
def Desktop.replaces (d : Desktop) (r : InstallRun) : Surface → Bool
  | .claude => d.configures r && r.detected.claudeCode
  | .cursor =>
    d.configures r && (r.detected.cursor || r.detected.cursorCli || r.cwd = d.machine.home)
  | .factory => d.configures r && r.cwd = d.machine.home
  | .codex => false

/-- An entry that stays beside the new key is one of the same agent, and what is written for Codex
needs no escapes. -/
structure Desktop.Safe (d : Desktop) (r : InstallRun) : Prop where
  same : ∀ surface env, d.entry surface = some env → d.replaces r surface = false →
    env "AGENT_PRIVATE_KEY_PATH" = some (AGENT_KEY_PATH d.machine.home) →
    env "AGENT_ID" = some r.issued.agentId ∧ env "OWNER_ID" = some r.issued.ownerId
  plain : d.configures r = true → JavaScript.includes d.codex codexHeader = false →
    ∀ v ∈ (r.params d.machine.home).env, Toml.Plain v.2

section
variable {d : Desktop} {r : InstallRun} {runs : List InstallRun} {surface : Surface} {env : Env}

theorem home_install (d : Desktop) (r : InstallRun) :
    (d.install r).machine.home = d.machine.home :=
  rfl

theorem files_install (d : Desktop) (r : InstallRun) : (d.install r).machine.files =
    d.machine.files.write (AGENT_KEY_PATH d.machine.home) r.issued.key :=
  rfl

theorem entry_install_of_skipped (h : d.configures r = false) (surface : Surface) :
    (d.install r).entry surface = d.entry surface ∧ d.replaces r surface = false := by
  have hmcp : (d.install r).mcp = d.mcp := if_neg (by simp [h])
  have hcodex : (d.install r).codex = d.codex := if_neg (by simp [h])
  cases surface <;> simp [Desktop.entry, Desktop.replaces, hmcp, hcodex, home_install, h]

/-- After an installation an entry is the one it writes, or one of before that it left alone. -/
theorem entry_install (hsafe : d.Safe r) (h : (d.install r).entry surface = some env) :
    Names env (r.params d.machine.home) ∨
      d.entry surface = some env ∧ d.replaces r surface = false := by
  cases hruns : d.configures r with
  | false =>
    obtain ⟨hsame, hleft⟩ := entry_install_of_skipped hruns surface
    rw [hsame] at h
    exact Or.inr ⟨h, hleft⟩
  | true =>
    have hmcp : (d.install r).mcp = writeIdeConfigs d.machine.home r.cwd r.detected
        (r.params d.machine.home) d.mcp := if_pos hruns
    have hcodex : (d.install r).codex =
        writeGlobalFrameworkConfigs (r.params d.machine.home) d.codex := if_pos hruns
    have hnew : ∀ {v}, v = buildMcpEntry (r.params d.machine.home) →
        Names (jsonEnv v) (r.params d.machine.home) := by
      rintro v rfl
      exact names_buildMcpEntry _
    cases surface with
    | claude =>
      rw [Desktop.entry, hmcp, home_install, Option.map_eq_some_iff] at h
      obtain ⟨v, hv, rfl⟩ := h
      obtain hv | ⟨hclaude, hv⟩ := writeIdeConfigs_claude hv
      · exact Or.inl (hnew hv)
      · right
        rw [Desktop.entry, hv, Desktop.replaces, hclaude, Bool.and_false]
        exact ⟨rfl, rfl⟩
    | cursor =>
      rw [Desktop.entry, hmcp, home_install, Option.map_eq_some_iff] at h
      obtain ⟨v, hv, rfl⟩ := h
      obtain ⟨hcwd, hv | ⟨hcursor, hv⟩⟩ := writeIdeConfigs_cursor hv
      · exact Or.inl (hnew hv)
      · right
        rw [Desktop.entry, hv, Desktop.replaces, hcursor, decide_eq_false hcwd, Bool.or_false,
          Bool.and_false]
        exact ⟨rfl, rfl⟩
    | factory =>
      rw [Desktop.entry, hmcp, home_install, Option.map_eq_some_iff] at h
      obtain ⟨v, hv, rfl⟩ := h
      obtain ⟨hcwd, hv | hv⟩ := writeIdeConfigs_factory hv
      · exact Or.inl (hnew hv)
      · right
        rw [Desktop.entry, hv, Desktop.replaces, decide_eq_false hcwd, Bool.and_false]
        exact ⟨rfl, rfl⟩
    | codex =>
      rw [Desktop.entry, hcodex] at h
      exact (codexEnv_writeGlobalFrameworkConfigs (hsafe.plain hruns) h).imp_right fun h => ⟨h, rfl⟩

/-- The key changes at one path, and what stays beside it names the same agent. -/
theorem paired_install (hpaired : d.Paired) (hsafe : d.Safe r) : (d.install r).Paired := by
  intro surface env henv
  obtain hnew | ⟨hold, hleft⟩ := entry_install hsafe henv
  · refine ⟨r.issued, List.mem_cons_self, hnew.agentId, hnew.ownerId, AGENT_KEY_PATH d.machine.home,
      hnew.keyPath, ?_⟩
    rw [files_install, Files.write_self]
  · obtain ⟨i, hmem, hagent, howner, path, hpath, hkey⟩ := hpaired surface env hold
    by_cases hsame : path = AGENT_KEY_PATH d.machine.home
    · rw [hsame] at hpath
      obtain ⟨hagent', howner'⟩ := hsafe.same surface env hold hleft hpath
      refine ⟨r.issued, List.mem_cons_self, hagent', howner', AGENT_KEY_PATH d.machine.home,
        hpath, ?_⟩
      rw [files_install, Files.write_self]
    · refine ⟨i, List.mem_cons_of_mem _ hmem, hagent, howner, path, hpath, ?_⟩
      rw [files_install, Files.write_of_ne _ hsame, hkey]

theorem codexEnv_eq_none_iff {text : JavaScript.Text} :
    codexEnv text = none ↔ JavaScript.includes text codexHeader = false := by
  rw [codexEnv, Option.map_eq_none_iff, JavaScript.includes, Option.isSome_eq_false_iff,
    Option.isNone_iff_eq_none]

/-- What is there for Codex is never written again. -/
theorem entry_codex_install (h : d.entry .codex = some env) :
    (d.install r).entry .codex = some env := by
  have hthere : JavaScript.includes d.codex codexHeader = true := by
    cases hincludes : JavaScript.includes d.codex codexHeader with
    | true => rfl
    | false =>
      rw [Desktop.entry, codexEnv_eq_none_iff.2 hincludes] at h
      cases h
  have hsame : (d.install r).codex = d.codex := by
    rw [Desktop.install, writeGlobalFrameworkConfigs, if_pos hthere, ite_self]
  rw [Desktop.entry, hsame]
  exact h

/-- So another agent, with a key of its own, makes that entry stale. -/
theorem not_paired_install (h : d.entry .codex = some env)
    (hpath : env "AGENT_PRIVATE_KEY_PATH" = some (AGENT_KEY_PATH d.machine.home))
    (hother : env "AGENT_ID" ≠ some r.issued.agentId)
    (hkey : ∀ i ∈ d.issued, i.key ≠ r.issued.key) : ¬ (d.install r).Paired := by
  intro hpaired
  obtain ⟨i, hmem, hagent, -, path, hpath', hfile⟩ := hpaired .codex env (entry_codex_install h)
  have hsame : path = AGENT_KEY_PATH d.machine.home := Option.some.inj (hpath'.symm.trans hpath)
  rw [hsame, files_install, Files.write_self, Option.some.injEq] at hfile
  obtain rfl | hmem := List.mem_cons.1 hmem
  · exact hother hagent
  · exact hkey i hmem hfile.symm

/-- In a run of installations that are all in order, every entry is paired all along. -/
theorem paired_throughout (hstart : d.Paired) (h : Along Desktop.install Desktop.Safe d runs) :
    Throughout Desktop.install Desktop.Paired d runs :=
  h.throughout (fun _ _ => paired_install) (fun _ => id) hstart

end

def Desktop.bare (home : String) : Desktop := ⟨World.start home fun _ => none, fun _ => .absent, []⟩

theorem paired_bare (home : String) : (Desktop.bare home).Paired := by
  intro surface env h
  cases surface <;> cases h

theorem safe_bare {home : String} {r : InstallRun} (h : ∀ v ∈ (r.params home).env, Toml.Plain v.2) :
    (Desktop.bare home).Safe r := by
  refine ⟨fun surface env h => ?_, fun _ _ => h⟩
  cases surface <;> cases h

/-- What the first installation writes. -/
theorem names_install_bare {home : String} {r : InstallRun} {surface : Surface} {env : Env}
    (hplain : ∀ v ∈ (r.params home).env, Toml.Plain v.2)
    (h : ((Desktop.bare home).install r).entry surface = some env) : Names env (r.params home) := by
  obtain hnew | ⟨hold, -⟩ := entry_install (safe_bare hplain) h
  · exact hnew
  · cases surface <;> cases hold

/-- An installation in `/work` on a machine with Claude Code and Codex. -/
def codexRun (agentId key : String) : InstallRun :=
  ⟨⟨agentId, "own_1", key⟩, "https://api", ⟨true, false, true, false, false, false, false⟩, true,
    "/work"⟩

theorem plain_codexRun : ∀ v ∈ ((codexRun "agt_1" "pem-1").params "/home/u").env,
    Toml.Plain v.2 := by
  simp only [McpParams.env, List.forall_mem_cons]
  refine ⟨?_, ?_, ?_, ?_, by simp⟩ <;> exact List.all_iff_forall_prop.1 (by decide)

/-- The agent may get a new key: all entries go on naming it. -/
theorem paired_of_rotation : Throughout Desktop.install Desktop.Paired (Desktop.bare "/home/u")
    [codexRun "agt_1" "pem-1", codexRun "agt_1" "pem-2"] := by
  refine paired_throughout (paired_bare _) ⟨safe_bare plain_codexRun,
    ⟨?_, fun _ _ => plain_codexRun⟩,
    trivial⟩
  intro surface env h _ _
  have hnames := names_install_bare plain_codexRun h
  exact ⟨hnames.agentId, hnames.ownerId⟩

/-- The second agent gets its key where the entry of the first one for Codex looks for its own. -/
theorem codex_keeps_first_agent : ¬ Throughout Desktop.install Desktop.Paired
    (Desktop.bare "/home/u") [codexRun "agt_1" "pem-1", codexRun "agt_2" "pem-2"] := by
  intro h
  have hcodex : ((Desktop.bare "/home/u").install (codexRun "agt_1" "pem-1")).entry .codex =
      some fun name => ((codexRun "agt_1" "pem-1").params "/home/u").env.lookup name :=
    codexEnv_appended rfl plain_codexRun
  refine not_paired_install hcodex rfl (by decide) ?_ (h 2)
  intro i hmem
  rw [List.mem_singleton.1 hmem]
  decide

end AgentValet.Identity
