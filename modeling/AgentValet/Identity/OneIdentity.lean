import AgentValet.Base.Runs
import AgentValet.Identity.Writers

namespace AgentValet.Identity
open Base Lang

/-- A machine, and what the registrations have issued to it so far. -/
structure World where
  machine : Machine
  issued : List Issued

def World.start (home : String) (files : Files) : World := ⟨⟨home, files, .absent⟩, []⟩

inductive Command where
  | install (i : Issued) (proxyUrl : String)
  | saveOutput (i : Issued) (apiUrl : String)
  | inject (i : Issued) (proxyUrl : String)
  | onboard (o : Onboarding)
  | pythonRegister (i : Issued) (apiUrl : Json)

def onboardIssues (m : Machine) (o : Onboarding) : List Issued :=
  match getStoredConfig m.config, o.registered with
  | some stored, some r =>
    if isAuthenticated stored then
      match o.action, storedField stored "ownerId" with
      | some .register, some (.str ownerId) => [⟨r.agentId, ownerId, r.key⟩]
      | _, _ => []
    else (o.login.map fun l => ⟨r.agentId, l.ownerId, r.key⟩).toList
  | _, _ => []

def World.step (w : World) : Command → World
  | .install i proxyUrl => ⟨install w.machine i proxyUrl, i :: w.issued⟩
  | .saveOutput i apiUrl => ⟨saveOutput w.machine i apiUrl, i :: w.issued⟩
  | .inject i proxyUrl => ⟨inject w.machine i proxyUrl, i :: w.issued⟩
  | .onboard o => ⟨runOnboard w.machine o, onboardIssues w.machine o ++ w.issued⟩
  | .pythonRegister i apiUrl =>
    ⟨saveIdentity w.machine ⟨.str i.agentId, .str i.ownerId, apiUrl⟩ i.key, i :: w.issued⟩

/-- No file with variables in the directory, and none of them in the environment. -/
structure Bare (m : Machine) (shell : Shell) : Prop where
  noFile : m.files (resolvePath shell.cwd ".env.agentvalet") = none
  noVariable : ∀ name, "AGENTVALET_".toList <+: name.toList → shell.env name = none

/-- The credentials are those of one registration, together with its key. -/
def IssuedTogether (w : World) (shell : Shell) (creds : AgentCredentials) : Prop :=
  ∃ i ∈ w.issued, creds.agentId = .str i.agentId ∧ creds.ownerId = .str i.ownerId ∧
    keyFile w.machine shell creds.keyPath = some i.key

def OneIdentity (w : World) : Prop :=
  ∀ shell, Bare w.machine shell → ∃ resolved, tryResolveAgent w.machine shell = .ok resolved ∧
    ∀ creds, resolved = some creds → IssuedTogether w shell creds

/-- The agent that is resolved after a login as it was before. -/
def keptAgent (m : Machine) (o : Onboarding) (stored : Fields) : Option Json :=
  match storedField stored "agentId" with
  | some agentId => if o.registered.isSome ∧ o.cwd = m.home then none else some agentId
  | none => if o.registered.isSome then none else storedField stored "lastAgentId"

def SameOwner (w : World) : Command → Prop
  | .onboard o => ∀ stored l, getStoredConfig w.machine.config = some stored →
      isAuthenticated stored = false → o.login = some l →
      ∀ i ∈ w.issued, keptAgent w.machine o stored = some (.str i.agentId) → i.ownerId = l.ownerId
  | _ => True

/-- A path from the root, which is itself the empty text. -/
def Absolute (dir : String) : Prop := dir = "" ∨ dir.toList.head? = some '/'

def Admitted : Command → Prop
  | .onboard o => Absolute o.cwd
  | _ => True

/-- What is stored beside an agent id belongs to one registration. -/
def OfOne (issued : List Issued) (files : Files) (fields : Fields) (agentId : Json) : Prop :=
  ∃ i ∈ issued, ∃ path : String, agentId = .str i.agentId ∧
    (storedField fields "keyPath" <|> storedField fields "lastKeyPath") = some (.str path) ∧
    path.toList.head? = some '/' ∧ files path = some i.key ∧
    ∀ ownerId, storedField fields "ownerId" = some ownerId → ownerId = .str i.ownerId

/-- `agentId` and `keyPath` are written together, and a session has an owner. -/
structure Shaped (home : String) (fields : Fields) : Prop where
  machineKey : storedField fields "agentId" ≠ none →
    storedField fields "keyPath" = some (.str (AGENT_KEY_PATH home))
  noMachineKey : storedField fields "agentId" = none → storedField fields "keyPath" = none
  owner : isAuthenticated fields = true → ∃ o, storedField fields "ownerId" = some (.str o)

structure Consistent (home : String) (files : Files) (issued : List Issued) (fields : Fields) :
    Prop extends Shaped home fields where
  agent : ∀ agentId, (storedField fields "agentId" <|> storedField fields "lastAgentId") =
    some agentId → OfOne issued files fields agentId

/-- The file is not there yet, or it is an object. -/
def Stored (config : JsonFile) (fields : Fields) : Prop :=
  config = .absent ∧ fields = [] ∨ config = .json (.obj fields)

def World.Inv (w : World) : Prop :=
  Absolute w.machine.home ∧ ∃ fields, Stored w.machine.config fields ∧
    Consistent w.machine.home w.machine.files w.issued fields

section
variable {fields updates : Fields} {key : String} {config : JsonFile} {m : Machine}

theorem Stored.getStoredConfig (h : Stored config fields) :
    getStoredConfig config = some fields := by
  obtain ⟨rfl, rfl⟩ | rfl := h <;> rfl

theorem Stored.existingConfig (h : Stored config fields) : existingConfig config = some fields := by
  obtain ⟨rfl, rfl⟩ | rfl := h <;> rfl

theorem stored_saveConfig (h : Stored m.config fields) (updates : Fields) :
    Stored (m.saveConfig updates).config (setFields fields updates) := by
  right
  rw [Machine.saveConfig]
  dsimp only
  rw [h.getStoredConfig]

theorem storedField_updated (fields : Fields) {s : String}
    (h : Json.lookup updates key = some (.str s)) :
    storedField (setFields fields updates) key = some (.str s) := by
  rw [storedField, lookup_setFields, h]
  rfl

theorem storedField_kept (h : Json.lookup updates key = none) :
    storedField (setFields fields updates) key = storedField fields key := by
  rw [storedField, lookup_setFields, h]
  rfl

end

theorem head_under {dir : String} (h : Absolute dir) (rest : String) :
    (dir ++ ("/" ++ rest)).toList.head? = some '/' := by
  rw [String.toList_append, List.head?_append]
  obtain rfl | h := h
  · simp
  · rw [h]
    rfl

theorem localKeyPath_home (home : String) : localKeyPath home = AGENT_KEY_PATH home := by
  unfold localKeyPath AGENT_KEY_PATH AGENT_DIR
  rw [String.append_assoc]
  rfl

theorem localKeyPath_injective {dir dir' : String} (h : localKeyPath dir = localKeyPath dir') :
    dir = dir' := by
  have hlist := congrArg String.toList h
  unfold localKeyPath at hlist
  rw [String.toList_append, String.toList_append, List.append_left_inj] at hlist
  exact String.toList_injective hlist

theorem head_localKeyPath {dir : String} (h : Absolute dir) :
    (localKeyPath dir).toList.head? = some '/' :=
  head_under h ".agentvalet/agent.key"

theorem head_keyPath {home : String} (h : Absolute home) :
    (AGENT_KEY_PATH home).toList.head? = some '/' := by
  rw [← localKeyPath_home]
  exact head_localKeyPath h

section
variable {home : String} {files : Files} {issued : List Issued} {fields updates : Fields}

theorem consistent_nil (home : String) (files : Files) (issued : List Issued) :
    Consistent home files issued [] := by
  have hnone : ∀ key, storedField [] key = none := fun key => rfl
  refine ⟨⟨fun h => ?_, fun _ => hnone "keyPath", fun h => ?_⟩, fun agentId h => ?_⟩
  · exact absurd (hnone "agentId") h
  · cases h
  · simp [hnone] at h

theorem OfOne.mono {issued' : List Issued} {agentId : Json} (h : OfOne issued files fields agentId)
    (hsub : issued ⊆ issued') : OfOne issued' files fields agentId := by
  obtain ⟨i, hmem, hi⟩ := h
  exact ⟨i, hsub hmem, hi⟩

/-- A command that stores a whole identity leaves nothing of the one before. -/
theorem consistent_of_whole {i : Issued} (hhome : Absolute home) (hmem : i ∈ issued)
    (hkey : files (AGENT_KEY_PATH home) = some i.key)
    (hagent : Json.lookup updates "agentId" = some (.str i.agentId))
    (howner : Json.lookup updates "ownerId" = some (.str i.ownerId))
    (hpath : Json.lookup updates "keyPath" = some (.str (AGENT_KEY_PATH home))) :
    Consistent home files issued (setFields fields updates) := by
  have hagent' := storedField_updated fields hagent
  have howner' := storedField_updated fields howner
  have hpath' := storedField_updated fields hpath
  refine ⟨⟨fun _ => hpath', fun h => ?_, fun _ => ⟨_, howner'⟩⟩, fun agentId h => ?_⟩
  · rw [hagent'] at h
    cases h
  · rw [hagent'] at h
    have hid : agentId = .str i.agentId := (Option.some.inj h).symm
    refine ⟨i, hmem, AGENT_KEY_PATH home, hid, by rw [hpath']; rfl, head_keyPath hhome, hkey, ?_⟩
    intro ownerId h'
    rw [howner'] at h'
    exact (Option.some.inj h').symm

/-- Without an agent of the machine, the one that was registered last is resolved. -/
theorem consistent_of_last {i : Issued} {path : String} (hshape : Shaped home fields)
    (hmem : i ∈ issued) (hkey : files path = some i.key) (hhead : path.toList.head? = some '/')
    (hnone : storedField fields "agentId" = none)
    (hagent : storedField fields "lastAgentId" = some (.str i.agentId))
    (hpath : storedField fields "lastKeyPath" = some (.str path))
    (howner : ∀ ownerId, storedField fields "ownerId" = some ownerId → ownerId = .str i.ownerId) :
    Consistent home files issued fields := by
  refine ⟨hshape, fun agentId h => ?_⟩
  rw [hnone, hagent] at h
  have hid : agentId = .str i.agentId := (Option.some.inj h).symm
  exact ⟨i, hmem, path, hid, by rw [hshape.noMachineKey hnone, hpath]; rfl, hhead, hkey, howner⟩

theorem Shaped.kept (h : Shaped home fields) (hagent : Json.lookup updates "agentId" = none)
    (hpath : Json.lookup updates "keyPath" = none)
    (howner : isAuthenticated (setFields fields updates) = true →
      ∃ o, storedField (setFields fields updates) "ownerId" = some (.str o)) :
    Shaped home (setFields fields updates) := by
  refine ⟨?_, ?_, howner⟩
  · rw [storedField_kept hagent, storedField_kept hpath]
    exact h.machineKey
  · rw [storedField_kept hagent, storedField_kept hpath]
    exact h.noMachineKey

end

/-- The agent of the machine stays what it is when one is registered in another directory. -/
theorem OfOne.registered {home cwd : String} {files : Files} {issued : List Issued}
    {fields : Fields} {agentId : Json} (h : OfOne issued files fields agentId) (hdir : cwd ≠ home)
    (hmachineKey : storedField fields "keyPath" = some (.str (AGENT_KEY_PATH home)))
    (r : Registered) (i : Issued) :
    OfOne (i :: issued) (files.write (localKeyPath cwd) r.key) (setFields fields (lastAgent cwd r))
      agentId := by
  obtain ⟨j, hj, path, hid, hpath, hhead, hfile, hown⟩ := h
  have hpathEq : path = AGENT_KEY_PATH home := by
    rw [hmachineKey] at hpath
    exact (Json.str.inj (Option.some.inj hpath)).symm
  have hother : path ≠ localKeyPath cwd := by
    rw [hpathEq, ← localKeyPath_home]
    exact fun h => hdir (localKeyPath_injective h).symm
  refine ⟨j, List.mem_cons_of_mem _ hj, path, hid, ?_, hhead, ?_, ?_⟩
  · rw [storedField_kept rfl, hmachineKey, hpathEq]
    rfl
  · exact (Files.write_of_ne files hother r.key).trans hfile
  · rw [storedField_kept rfl]
    exact hown

/-- A registration takes the place of the agent, unless that is one of the machine: then the
machine keeps it, and the key of the new one lies elsewhere. -/
theorem registerAgentFlow_inv {m : Machine} {fields stored : Fields} {issued : List Issued}
    {cwd owner : String} {r : Registered} (hhome : Absolute m.home) (hcwd : Absolute cwd)
    (hstored : Stored m.config fields) (hshape : Shaped m.home fields)
    (howner : storedField fields "ownerId" = some (.str owner))
    (hkept : cwd ≠ m.home → ∀ agentId, storedField fields "agentId" = some agentId →
      OfOne issued m.files fields agentId) :
    World.Inv ⟨registerAgentFlow m stored cwd (some r), ⟨r.agentId, owner, r.key⟩ :: issued⟩ := by
  have hmem : (⟨r.agentId, owner, r.key⟩ : Issued) ∈
      (⟨r.agentId, owner, r.key⟩ : Issued) :: issued :=
    List.mem_cons_self
  have hagent (fields : Fields) :
      storedField (setFields fields (lastAgent cwd r)) "lastAgentId" = some (.str r.agentId) :=
    storedField_updated fields rfl
  have hpath (fields : Fields) :
      storedField (setFields fields (lastAgent cwd r)) "lastKeyPath" =
        some (.str (localKeyPath cwd)) :=
    storedField_updated fields rfl
  have hkey : m.files.write (localKeyPath cwd) r.key (localKeyPath cwd) = some r.key :=
    Files.write_self m.files (localKeyPath cwd) r.key
  refine ⟨hhome, ?_⟩
  by_cases hdir : cwd = m.home
  · -- the local `config.json` takes the place of the whole file
    refine ⟨_, stored_saveConfig (Or.inr (if_pos hdir)) _, ?_⟩
    refine consistent_of_last ?_ hmem hkey (head_localKeyPath hcwd) rfl (hagent _) (hpath _) ?_
    · exact ⟨fun h => absurd rfl h, fun _ => rfl, fun h => by cases h⟩
    · intro ownerId h
      cases h
  · have hstored' : Stored
        (writeLocalConfig m cwd r ((Json.lookup stored "proxyUrl").getD .null)).config
        fields := by
      rw [writeLocalConfig]
      dsimp only
      rwa [if_neg hdir]
    have howner' : storedField (setFields fields (lastAgent cwd r)) "ownerId" =
        some (.str owner) := by
      rw [storedField_kept rfl, howner]
    have hshape' : Shaped m.home (setFields fields (lastAgent cwd r)) :=
      hshape.kept rfl rfl fun _ => ⟨owner, howner'⟩
    refine ⟨_, stored_saveConfig hstored' _, ?_⟩
    cases hmachine : storedField fields "agentId" with
    | none =>
      refine consistent_of_last hshape' hmem hkey (head_localKeyPath hcwd) ?_ (hagent _)
        (hpath _) ?_
      · rw [storedField_kept rfl, hmachine]
      · intro ownerId h
        rw [howner'] at h
        exact (Option.some.inj h).symm
    | some agentId =>
      refine ⟨hshape', fun agentId' h => ?_⟩
      rw [storedField_kept rfl, hmachine] at h
      have hsame : agentId' = agentId := (Option.some.inj h).symm
      rw [hsame]
      exact (hkept hdir agentId hmachine).registered hdir (hshape.machineKey (by simp [hmachine])) r
        _

theorem loginFields_agentId (l : Login) (key : String)
    (h : key = "agentId" ∨ key = "keyPath" ∨ key = "lastAgentId" ∨ key = "lastKeyPath") :
    Json.lookup (loginFields l) key = none := by
  unfold loginFields Json.lookup
  cases l.orgId <;> obtain rfl | rfl | rfl | rfl := h <;> rfl

theorem loginFields_ownerId (l : Login) :
    Json.lookup (loginFields l) "ownerId" = some (.str l.ownerId) := by
  unfold loginFields Json.lookup
  cases l.orgId <;> rfl

theorem Shaped.login {home : String} {fields : Fields} (h : Shaped home fields) (l : Login) :
    Shaped home (setFields fields (loginFields l)) :=
  h.kept (loginFields_agentId l _ (by simp)) (loginFields_agentId l _ (by simp))
    fun _ => ⟨l.ownerId, storedField_updated fields (loginFields_ownerId l)⟩

/-- After a login of its owner, the agent is the one that it was. -/
theorem OfOne.login {issued : List Issued} {files : Files} {fields : Fields} {agentId : Json}
    (h : OfOne issued files fields agentId) (l : Login)
    (hsame : ∀ i ∈ issued, agentId = .str i.agentId → i.ownerId = l.ownerId) :
    OfOne issued files (setFields fields (loginFields l)) agentId := by
  obtain ⟨i, hi, path, hid, hpath, hhead, hfile, -⟩ := h
  refine ⟨i, hi, path, hid, ?_, hhead, hfile, ?_⟩
  · rwa [storedField_kept (loginFields_agentId l _ (by simp)),
      storedField_kept (loginFields_agentId l _ (by simp))]
  · intro ownerId howner
    rw [storedField_updated fields (loginFields_ownerId l)] at howner
    rw [← Option.some.inj howner, hsame i hi hid]

theorem keptAgent_of_unregistered (m : Machine) {o : Onboarding} (fields : Fields)
    (h : o.registered = none) :
    keptAgent m o fields = (storedField fields "agentId" <|> storedField fields "lastAgentId") := by
  unfold keptAgent
  rw [h]
  cases storedField fields "agentId" <;> simp

theorem keptAgent_elsewhere {m : Machine} {o : Onboarding} {fields : Fields} {agentId : Json}
    (hdir : o.cwd ≠ m.home) (h : storedField fields "agentId" = some agentId) :
    keptAgent m o fields = some agentId := by
  unfold keptAgent
  rw [h]
  simp [hdir]

theorem signedOut_inv {m : Machine} {issued : List Issued} (hhome : Absolute m.home) :
    World.Inv ⟨{ m with config := .json (.obj []) }, issued⟩ :=
  ⟨hhome, [], Or.inr rfl, consistent_nil m.home m.files issued⟩

theorem runOnboard_inv {m : Machine} {issued : List Issued} {o : Onboarding}
    (hinv : World.Inv ⟨m, issued⟩) (hcwd : Absolute o.cwd)
    (hsame : SameOwner ⟨m, issued⟩ (.onboard o)) :
    World.Inv ⟨runOnboard m o, onboardIssues m o ++ issued⟩ := by
  have hkeep := hinv
  obtain ⟨hhome, fields, hstored, hcons⟩ := hinv
  have hget := hstored.getStoredConfig
  have hagentOf : ∀ agentId, storedField fields "agentId" = some agentId →
      OfOne issued m.files fields agentId :=
    fun agentId h => hcons.agent agentId (by rw [h]; rfl)
  unfold runOnboard onboardIssues
  rw [hget]
  cases hreg : o.registered with
  | none =>
    dsimp only
    cases hauth : isAuthenticated fields with
    | true =>
      cases o.action with
      | none => exact hkeep
      | some action =>
        cases action with
        | register => exact hkeep
        | showCredentials => exact hkeep
        | signout => exact signedOut_inv hhome
    | false =>
      cases hlogin : o.login with
      | none => exact hkeep
      | some l =>
        have hkept := hsame fields l hget hauth hlogin
        refine ⟨hhome, _, stored_saveConfig hstored (loginFields l), hcons.toShaped.login l, ?_⟩
        intro agentId h
        rw [storedField_kept (loginFields_agentId l _ (by simp)),
          storedField_kept (loginFields_agentId l _ (by simp))] at h
        apply (hcons.agent agentId h).login l
        rintro i hi rfl
        exact hkept i hi ((keptAgent_of_unregistered m fields hreg).trans h)
  | some r =>
    dsimp only
    cases hauth : isAuthenticated fields with
    | true =>
      obtain ⟨owner, howner⟩ := hcons.owner hauth
      rw [howner]
      cases o.action with
      | none => exact hkeep
      | some action =>
        cases action with
        | register =>
          exact registerAgentFlow_inv hhome hcwd hstored hcons.toShaped howner fun _ => hagentOf
        | showCredentials => exact hkeep
        | signout => exact signedOut_inv hhome
    | false =>
      cases hlogin : o.login with
      | none => exact hkeep
      | some l =>
        have hkept := hsame fields l hget hauth hlogin
        refine registerAgentFlow_inv (m := m.saveConfig (loginFields l)) hhome hcwd
          (stored_saveConfig hstored (loginFields l)) (hcons.toShaped.login l)
          (storedField_updated fields (loginFields_ownerId l)) ?_
        intro hdir agentId h
        rw [storedField_kept (loginFields_agentId l _ (by simp))] at h
        apply (hagentOf agentId h).login l
        rintro i hi rfl
        exact hkept i hi (keptAgent_elsewhere hdir h)

theorem whole_inv {m m' : Machine} {issued : List Issued} {fields updates : Fields} {i : Issued}
    (hhome : Absolute m.home) (hsame : m'.home = m.home)
    (hkey : m'.files (AGENT_KEY_PATH m.home) = some i.key)
    (hstored : Stored m'.config (setFields fields updates))
    (hagent : Json.lookup updates "agentId" = some (.str i.agentId))
    (howner : Json.lookup updates "ownerId" = some (.str i.ownerId))
    (hpath : Json.lookup updates "keyPath" = some (.str (AGENT_KEY_PATH m.home))) :
    World.Inv ⟨m', i :: issued⟩ := by
  refine ⟨by rwa [← hsame] at hhome, _, hstored, ?_⟩
  rw [show (World.mk m' (i :: issued)).machine.home = m.home from hsame]
  exact consistent_of_whole hhome List.mem_cons_self hkey hagent howner hpath

theorem Consistent.mono {home : String} {files : Files} {issued issued' : List Issued}
    {fields : Fields} (h : Consistent home files issued fields) (hsub : issued ⊆ issued') :
    Consistent home files issued' fields :=
  ⟨h.toShaped, fun agentId hagent => (h.agent agentId hagent).mono hsub⟩

/-- What one command keeps. -/
theorem World.step_inv (w : World) (c : Command) (hinv : w.Inv)
    (hc : Admitted c ∧ SameOwner w c) : (w.step c).Inv := by
  obtain ⟨m, issued⟩ := w
  have hinv' := hinv
  obtain ⟨hhome, fields, hstored, hcons⟩ := hinv
  have hkey (i : Issued) : (m.writeFile (AGENT_KEY_PATH m.home) i.key).files
      (AGENT_KEY_PATH m.home) =
      some i.key := Files.write_self m.files _ i.key
  have hstored' (i : Issued) : Stored (m.writeFile (AGENT_KEY_PATH m.home) i.key).config fields :=
    hstored
  cases c with
  | install i proxyUrl =>
    exact whole_inv hhome rfl (hkey i) (stored_saveConfig (hstored' i) _) rfl rfl rfl
  | saveOutput i apiUrl =>
    exact whole_inv hhome rfl (hkey i) (stored_saveConfig (hstored' i) _) rfl rfl rfl
  | inject i proxyUrl =>
    unfold World.step inject
    dsimp only
    split_ifs with hrefused
    · exact ⟨hhome, fields, hstored, hcons.mono (List.subset_cons_self i issued)⟩
    · exact whole_inv hhome rfl (hkey i) (stored_saveConfig (hstored' i) _) rfl rfl rfl
  | onboard o => exact runOnboard_inv hinv' hc.1 hc.2
  | pythonRegister i apiUrl =>
    have hsaved : Stored (saveIdentity m ⟨.str i.agentId, .str i.ownerId, apiUrl⟩ i.key).config
        (setFields fields (identityFields (AGENT_KEY_PATH m.home)
          ⟨.str i.agentId, .str i.ownerId, apiUrl⟩)) := by
      rw [saveIdentity, hstored.existingConfig]
      exact Or.inr rfl
    exact whole_inv hhome rfl (hkey i) hsaved rfl rfl rfl

/-- Without variables only `config.json` is left to resolve from. -/
theorem fromVariables_bare {m : Machine} {shell : Shell} (h : Bare m shell) :
    fromVariables shell (fromEnvFile m shell (fromConfig m)) = fromConfig m := by
  have hfile : fromEnvFile m shell (fromConfig m) = fromConfig m := by
    rw [fromEnvFile, h.noFile]
    exact ite_self _
  have hvariable : ∀ name, "AGENTVALET_".toList <+: name.toList →
      envVariable shell name = none := by
    intro name hname
    rw [envVariable, h.noVariable name hname]
    rfl
  rw [hfile, fromVariables, hvariable "AGENTVALET_AGENT_ID" (by decide),
    hvariable "AGENTVALET_OWNER_ID" (by decide), hvariable "AGENTVALET_API_URL" (by decide),
    hvariable "AGENTVALET_PRIVATE_KEY_PATH" (by decide)]
  simp

theorem truthy_of_head {path : String} {c : Char} (h : path.toList.head? = some c) :
    truthy (some (.str path)) = true := by
  have hne : path ≠ "" := by
    rintro rfl
    cases h
  simpa [truthy, JavaScript.truthy] using hne

theorem World.Inv.oneIdentity {w : World} (hinv : w.Inv) : OneIdentity w := by
  obtain ⟨m, issued⟩ := w
  obtain ⟨-, fields, hstored, hcons⟩ := hinv
  intro shell hbare
  rw [tryResolveAgent, fromVariables_bare hbare]
  dsimp only
  split
  · rename_i agentId ownerId hsaid howned
    have hagent := (Option.filter_eq_some_iff.1 hsaid).1
    have howner := (Option.filter_eq_some_iff.1 howned).1
    rw [fromConfig, hstored.getStoredConfig] at hagent howner
    obtain ⟨i, hi, path, hid, hpath, hhead, hfile, hown⟩ := hcons.agent agentId hagent
    have hkeyPath : (fromConfig m).keyPath = .str path := by
      rw [fromConfig, hstored.getStoredConfig, Option.getD_some]
      dsimp only
      rw [hpath, Option.filter_some, if_pos (truthy_of_head hhead)]
      rfl
    have hfound : keyFile m shell (.str path) = some i.key := by
      rw [keyFile, resolvePath, if_pos hhead]
      exact hfile
    rw [hkeyPath, if_pos (truthy_of_head hhead), keyExists]
    refine ⟨_, rfl, fun creds hcreds => ?_⟩
    rw [show m.files (resolvePath shell.cwd path) = some i.key from hfound] at hcreds
    cases hcreds
    exact ⟨i, hi, hid, hown ownerId howner, hfound⟩
  · exact ⟨none, rfl, fun creds hcreds => by cases hcreds⟩

theorem World.start_inv {home : String} (hhome : Absolute home) (files : Files) :
    (World.start home files).Inv :=
  ⟨hhome, [], Or.inl ⟨rfl, rfl⟩, consistent_nil home files []⟩

/-- As long as nobody but its owner signs in over an agent that is kept, the agent that is resolved
is one that was issued. -/
theorem oneIdentity_throughout {home : String} (hhome : Absolute home) (files : Files)
    (commands : List Command)
    (h : Along World.step (fun w c => Admitted c ∧ SameOwner w c)
      (World.start home files) commands) :
    Throughout World.step OneIdentity (World.start home files) commands :=
  h.throughout World.step_inv (fun _ hinv => hinv.oneIdentity) (World.start_inv hhome files)

def installed : Command := .install ⟨"agt_1", "own_1", "pem"⟩ ""

def signIn (ownerId : String) : Command :=
  .onboard ⟨"/work", none, some ⟨ownerId, none, "", none, ""⟩, none⟩

/-- The owner of the installed agent may sign in. -/
theorem oneIdentity_of_owner : Throughout World.step OneIdentity
    (World.start "/root" fun _ => none) [installed, signIn "own_1"] := by
  apply oneIdentity_throughout (Or.inr rfl)
  refine ⟨⟨trivial, trivial⟩, ⟨Or.inr rfl, ?_⟩, trivial⟩
  rintro stored l - - hlogin i hi -
  cases hlogin
  rw [List.mem_singleton.1 hi]

/-- Where another owner signs in, the agent is resolved under an owner it was not issued to. -/
theorem installed_under_other_owner : ¬ Throughout World.step OneIdentity
    (World.start "/root" fun _ => none) [installed, signIn "own_2"] := by
  intro h
  have hbare : Bare (runOnboard (install ⟨"/root", fun _ => none, .absent⟩
      ⟨"agt_1", "own_1", "pem"⟩ "") ⟨"/work", none, some ⟨"own_2", none, "", none, ""⟩, none⟩)
      ⟨"/work", fun _ => none⟩ := ⟨by rfl, fun _ _ => rfl⟩
  obtain ⟨resolved, hresolved, hissued⟩ := h 2 _ hbare
  have hcreds : tryResolveAgent (runOnboard (install ⟨"/root", fun _ => none, .absent⟩
      ⟨"agt_1", "own_1", "pem"⟩ "") ⟨"/work", none, some ⟨"own_2", none, "", none, ""⟩, none⟩)
      ⟨"/work", fun _ => none⟩ =
        .ok (some ⟨.str "agt_1", .str "own_2", .str (AGENT_KEY_PATH "/root"), .str ""⟩) := by rfl
  obtain ⟨i, hi, -, howner, -⟩ := hissued _ (Except.ok.inj (hresolved.symm.trans hcreds))
  rw [List.mem_singleton.1 hi] at howner
  exact absurd (Json.str.inj howner) (by decide)

end AgentValet.Identity
