import AgentValet.Identity.Writers
import AgentValet.Lang.Disk
import AgentValet.Lang.Python
import AgentValet.Mcp.Boot

namespace AgentValet.Identity.Saving
open Base Lang Disk

/-- A write of a text; there is none of a value nested too deep to be one. -/
def writeText (path : String) : Option String → DiskProg Unit
  | none => .threw "RangeError"
  | some text => do
    let _ ← perform (.write path text)
    pure ()

def persistBindArtifacts (stringifyIndented : Json → Option String) (place : Place)
    (identity : BoundIdentity) (privateKeyPem : String) : DiskProg Unit := do
  let _ ← perform (.mkdir place.dir)
  let _ ← perform (.write place.keyPath privateKeyPem)
  writeText place.identityPath (stringifyIndented (Mcp.identityJson identity))

/-- The package `conf`: the properties it reads from the content of a file and the text it writes,
where none is an exception. -/
structure Conf where
  deserialized : String → Option Fields
  serialized : Fields → Option String

/-- What `conf` has stored; a file that is not there holds nothing. -/
def Conf.stored (conf : Conf) : Option String → Option Fields
  | none => some []
  | some text => conf.deserialized text

/-- `store.set`, which replaces the file as a whole. -/
def saveConfig (conf : Conf) (place : Place) (updates : Fields) : DiskProg Unit := do
  let content ← perform (.read place.identityPath)
  match conf.stored content with
  | none => .threw "SyntaxError"
  | some stored => do
    let _ ← perform (.mkdir place.dir)
    match conf.serialized (setFields stored updates) with
    | none => .threw "RangeError"
    | some text => do
      let _ ← perform (.replace place.identityPath text)
      pure ()

/-- The machine's own directory, with the `config.json` in it. -/
def agentPlace (home : String) : Place :=
  ⟨AGENT_DIR home, AGENT_KEY_PATH home, AGENT_DIR home ++ "/config.json"⟩

def outputFields (home : String) (i : Issued) (apiUrl : String) : Fields :=
  [("agentId", .str i.agentId), ("ownerId", .str i.ownerId), ("apiUrl", .str apiUrl),
    ("keyPath", .str (AGENT_KEY_PATH home)), ("lastAgentId", .str i.agentId),
    ("lastKeyPath", .str (AGENT_KEY_PATH home))]

def saveOutput (conf : Conf) (home : String) (i : Issued) (apiUrl : String) : DiskProg Unit := do
  let _ ← perform (.mkdir (AGENT_DIR home))
  let _ ← perform (.write (AGENT_KEY_PATH home) i.key)
  saveConfig conf (agentPlace home) (outputFields home i apiUrl)

/-- The module `json`, on the content of a file; `dumps` may raise a `RecursionError` too. -/
structure PythonJson where
  loads : String → Python.Loaded
  dumps : Json → Option String

/-- What is updated; only a dictionary can be, and only a `ValueError` is caught. -/
def PythonJson.existing (json : PythonJson) : Option String → Option Fields
  | none => existingConfig .absent
  | some text =>
    match json.loads text with
    | .value v => existingConfig (.json v)
    | .valueError => existingConfig .invalid
    | .recursionError => none

def pythonConfig (json : PythonJson) (home : String) (identity : PythonIdentity) :
    DiskProg Unit := do
  -- the mode of the key is best effort
  let _ ← (perform (.chmod (AGENT_KEY_PATH home))).attempt
  let content ← perform (.read (agentPlace home).identityPath)
  match json.existing content with
  | none => .threw "AttributeError"
  | some existing =>
    writeText (agentPlace home).identityPath (json.dumps (.obj
      (setFields existing (identityFields (AGENT_KEY_PATH home) identity))))

def saveIdentity (json : PythonJson) (home : String) (identity : PythonIdentity)
    (privatePem : String) : DiskProg Unit := do
  let _ ← perform (.mkdir (AGENT_DIR home))
  let _ ← perform (.write (AGENT_KEY_PATH home) privatePem)
  pythonConfig json home identity

/-- The identity file holds all of the new text, if there is to be one. -/
def IsNew (new content : Option String) : Prop := ∃ text, new = some text ∧ content = some text

/-- The key file and the identity file are as they were, or both are new. -/
def Whole (place : Place) (key : String) (new : Option String) (before after : Files) : Prop :=
  after place.keyPath = before place.keyPath ∧
      after place.identityPath = before place.identityPath ∨
    after place.keyPath = some key ∧ IsNew new (after place.identityPath)

/-- When the writer raises, it leaves both files as they were, or both new. -/
def AllOrNothing (place : Place) (key : String) (new : Option String) (luck : ℕ → Luck)
    (files : Files) (writer : DiskProg Unit) : Prop :=
  OnRaise luck ⟨files, 0⟩ writer (Whole place key new files)

/-- A failed write of the key leaves what was there, or all of the key beside an identity that is
the new one already. -/
def KeyHarmless (key : String) (new before content left : Option String) : Prop :=
  left = before ∨ left = some key ∧ IsNew new content

/-- After a later failure the key is not a new one and the identity is as it was, or the identity
is the new one. -/
def LateHarmless (key : String) (new before content left : Option String) : Prop :=
  before = some key ∧ left = content ∨ IsNew new left

section
variable {place : Place} {key : String} {new : Option String} {luck : ℕ → Luck} {files : Files}

theorem whole_key_iff (hne : place.identityPath ≠ place.keyPath) (left : Option String) :
    Whole place key new files (Function.update files place.keyPath left) ↔
      KeyHarmless key new (files place.keyPath) (files place.identityPath) left := by
  simp only [Whole, Function.update_self, Function.update_of_ne hne, and_true, KeyHarmless]

theorem whole_late_iff {after : Files} (hkey : after place.keyPath = some key) :
    Whole place key new files after ↔
      LateHarmless key new (files place.keyPath) (files place.identityPath)
        (after place.identityPath) := by
  rw [Whole, hkey, LateHarmless]
  simp only [true_and, eq_comm (a := some key)]

/-- A writer of the key, and then of the identity. -/
theorem allOrNothing_iff (hne : place.identityPath ≠ place.keyPath) (rest : DiskProg Unit) :
    AllOrNothing place key new luck files (do
        let _ ← perform (.mkdir place.dir)
        let _ ← perform (.write place.keyPath key)
        rest) ↔
      (luck 0 = .works →
        (luck 1 ≠ .works → KeyHarmless key new (files place.keyPath) (files place.identityPath)
          ((luck 1).left (files place.keyPath) key)) ∧
        (luck 1 = .works → OnRaise luck ⟨Function.update files place.keyPath (some key), 2⟩ rest
          (Whole place key new files))) := by
  have hsame : Whole place key new files files := Or.inl ⟨rfl, rfl⟩
  rw [AllOrNothing, onRaise_perform_iff, onRaise_perform_iff]
  simp only [DiskOp.leaves, whole_key_iff hne, hsame, implies_true, true_and, Luck.left]

/-- The write of an identity file, at operation `n`. -/
def WriteSafe (luck : ℕ → Luck) (place : Place) (key : String) (new : Option String)
    (before : Files) (n : ℕ) (text : Option String) : Prop :=
  (text = none → LateHarmless key new (before place.keyPath) (before place.identityPath)
    (before place.identityPath)) ∧
  ∀ t, text = some t → luck n ≠ .works →
    LateHarmless key new (before place.keyPath) (before place.identityPath)
      ((luck n).left (before place.identityPath) t)

/-- A new text is written over the identity file. -/
theorem onRaise_writeText_iff {n : ℕ} {text : Option String}
    (hne : place.identityPath ≠ place.keyPath) (hkey : files place.keyPath = some key)
    (before : Files) (hid : before place.identityPath = files place.identityPath) :
    OnRaise luck ⟨files, n⟩ (writeText place.identityPath text) (Whole place key new before) ↔
      WriteSafe luck place key new before n text := by
  have hkey' : ∀ left, Function.update files place.identityPath left place.keyPath = some key := by
    intro left
    rw [Function.update_of_ne hne.symm, hkey]
  unfold WriteSafe
  cases text with
  | none => simp [writeText, onRaise_threw_iff, whole_late_iff hkey, hid]
  | some text =>
    rw [writeText, onRaise_perform_iff]
    simp [DiskOp.leaves, whole_late_iff (hkey' _), onRaise_pure, hid]

/-- The identity file is what it was, unless `conf` has replaced it. -/
theorem onRaise_saveConfig_iff {n : ℕ} {conf : Conf} {updates : Fields}
    (hkey : files place.keyPath = some key) (before : Files)
    (hid : files place.identityPath = before place.identityPath) :
    OnRaise luck ⟨files, n⟩ (saveConfig conf place updates) (Whole place key new before) ↔
      (luck n ≠ .works ∨
          ((conf.stored (before place.identityPath)).bind fun stored =>
            conf.serialized (setFields stored updates)) = none ∨
          luck (n + 1) ≠ .works ∨ luck (n + 2) ≠ .works →
        LateHarmless key new (before place.keyPath) (before place.identityPath)
          (before place.identityPath)) := by
  have hlate : Whole place key new before files ↔ LateHarmless key new (before place.keyPath)
      (before place.identityPath) (before place.identityPath) := by
    rw [whole_late_iff hkey, hid]
  rw [saveConfig, onRaise_perform_iff]
  simp only [DiskOp.leaves, DiskOp.content, hlate, hid]
  by_cases hread : luck n = .works
  · cases conf.stored (before place.identityPath) with
    | none => simp [onRaise_threw_iff, hlate, hread]
    | some stored =>
      simp only [onRaise_perform_iff, DiskOp.leaves]
      by_cases hmkdir : luck (n + 1) = .works
      · cases htext : conf.serialized (setFields stored updates) with
        | none => simp [onRaise_threw_iff, hread, hmkdir, hlate, htext]
        | some text =>
          by_cases hreplace : luck (n + 1 + 1) = .works
          · simp [onRaise_perform_iff, onRaise_pure, hread, hmkdir, hreplace, htext]
          · simp [onRaise_perform_iff, onRaise_pure, DiskOp.leaves, hread, hmkdir, hreplace, hlate,
              htext]
      · simp [hread, hmkdir, hlate]
  · simp [hread]

/-- The mode of the key is passed over; the identity file is what it was until it is written. -/
theorem onRaise_pythonConfig_iff {n : ℕ} {json : PythonJson} {home : String}
    {identity : PythonIdentity} (hkey : files (agentPlace home).keyPath = some key) (before : Files)
    (hid : files (agentPlace home).identityPath = before (agentPlace home).identityPath)
    (hne : (agentPlace home).identityPath ≠ (agentPlace home).keyPath) :
    OnRaise luck ⟨files, n⟩ (pythonConfig json home identity)
        (Whole (agentPlace home) key new before) ↔
      (luck (n + 1) ≠ .works → LateHarmless key new (before (agentPlace home).keyPath)
          (before (agentPlace home).identityPath) (before (agentPlace home).identityPath)) ∧
      (luck (n + 1) = .works → WriteSafe luck (agentPlace home) key new before (n + 2)
        ((json.existing (before (agentPlace home).identityPath)).bind fun existing =>
          json.dumps (.obj (setFields existing
            (identityFields (AGENT_KEY_PATH home) identity))))) := by
  have hlate : Whole (agentPlace home) key new before files ↔ LateHarmless key new
      (before (agentPlace home).keyPath) (before (agentPlace home).identityPath)
      (before (agentPlace home).identityPath) := by
    rw [whole_late_iff hkey, hid]
  rw [pythonConfig, onRaise_attempt_iff (fun _ => rfl), onRaise_perform_iff]
  simp only [DiskOp.leaves, DiskOp.content, hlate, hid]
  cases json.existing (before (agentPlace home).identityPath) with
  | none => simp [onRaise_threw_iff, hlate, WriteSafe]
  | some existing =>
    rw [Option.bind_some]
    exact and_congr_right fun _ => imp_congr_right fun _ =>
      onRaise_writeText_iff hne hkey before hid.symm

end

section
variable (luck : ℕ → Luck) (files : Files)

/-- The directory cannot be made, or the key is written or left alone, and then `late` holds. -/
def SafeSteps (place : Place) (key : String) (new : Option String) (late : Prop) : Prop :=
  luck 0 = .works →
    (luck 1 ≠ .works → KeyHarmless key new (files place.keyPath) (files place.identityPath)
      ((luck 1).left (files place.keyPath) key)) ∧
    (luck 1 = .works → late)

def PersistSafe (place : Place) (key : String) (text : Option String) : Prop :=
  SafeSteps luck files place key text (WriteSafe luck place key text files 2 text)

/-- The text of the new `config.json`; there is none over one that cannot be read. -/
def newOutput (conf : Conf) (home : String) (i : Issued) (apiUrl : String) : Option String :=
  (conf.stored (files (agentPlace home).identityPath)).bind fun stored =>
    conf.serialized (setFields stored (outputFields home i apiUrl))

/-- The old `config.json` is read, understood and replaced. -/
def SaveOutputSafe (conf : Conf) (home : String) (i : Issued) (apiUrl : String) : Prop :=
  let place := agentPlace home
  let new := newOutput files conf home i apiUrl
  SafeSteps luck files place i.key new
    (luck 2 ≠ .works ∨ new = none ∨ luck 3 ≠ .works ∨ luck 4 ≠ .works →
      LateHarmless i.key new (files place.keyPath) (files place.identityPath)
        (files place.identityPath))

def newIdentity (json : PythonJson) (home : String) (identity : PythonIdentity) : Option String :=
  (json.existing (files (agentPlace home).identityPath)).bind fun existing =>
    json.dumps (.obj (setFields existing (identityFields (AGENT_KEY_PATH home) identity)))

/-- The old `config.json` is read, gives a new text, and is written over. -/
def SaveIdentitySafe (json : PythonJson) (home : String) (identity : PythonIdentity)
    (key : String) : Prop :=
  let place := agentPlace home
  let new := newIdentity files json home identity
  SafeSteps luck files place key new
    ((luck 3 ≠ .works → LateHarmless key new (files place.keyPath) (files place.identityPath)
        (files place.identityPath)) ∧
      (luck 3 = .works → WriteSafe luck place key new files 4 new))

theorem agentPlace_ne (home : String) :
    (agentPlace home).identityPath ≠ (agentPlace home).keyPath := by
  intro h
  have hlast := congrArg (fun s => s.toList.getLast?) h
  simp [agentPlace, AGENT_KEY_PATH] at hlast

theorem persistBindArtifacts_iff (stringifyIndented : Json → Option String) (dir : String)
    (identity : BoundIdentity) (key : String) :
    AllOrNothing (placeIn dir) key (stringifyIndented (Mcp.identityJson identity)) luck files
        (persistBindArtifacts stringifyIndented (placeIn dir) identity key) ↔
      PersistSafe luck files (placeIn dir) key (stringifyIndented (Mcp.identityJson identity)) := by
  have hne := identityPath_ne_keyPath dir dir
  rw [persistBindArtifacts, allOrNothing_iff hne, PersistSafe, SafeSteps,
    onRaise_writeText_iff hne (Function.update_self _ _ _) files
      (Function.update_of_ne hne _ _).symm]

theorem saveOutput_iff (conf : Conf) (home : String) (i : Issued) (apiUrl : String) :
    AllOrNothing (agentPlace home) i.key (newOutput files conf home i apiUrl) luck files
        (saveOutput conf home i apiUrl) ↔
      SaveOutputSafe luck files conf home i apiUrl := by
  have hne := agentPlace_ne home
  rw [SaveOutputSafe, SafeSteps]
  refine (allOrNothing_iff hne _).trans ?_
  rw [onRaise_saveConfig_iff (Function.update_self _ _ _) files (Function.update_of_ne hne _ _)]
  rfl

theorem saveIdentity_iff (json : PythonJson) (home : String) (identity : PythonIdentity)
    (key : String) :
    AllOrNothing (agentPlace home) key (newIdentity files json home identity) luck files
        (saveIdentity json home identity key) ↔
      SaveIdentitySafe luck files json home identity key := by
  have hne := agentPlace_ne home
  rw [SaveIdentitySafe, SafeSteps]
  refine (allOrNothing_iff hne _).trans ?_
  rw [onRaise_pythonConfig_iff (Function.update_self _ _ _) files (Function.update_of_ne hne _ _)
    hne]
  rfl

end

def allWorks : ℕ → Luck := fun _ => .works

/-- The writer returns, and both files are new. -/
def Saves (place : Place) (key : String) (new : Option String) (files : Files)
    (writer : DiskProg Unit) : Prop :=
  ∃ d, writer.exec (answer allWorks) ⟨files, 0⟩ = (.returned (), d) ∧
    d.files place.keyPath = some key ∧ IsNew new (d.files place.identityPath)

theorem update_twice {place : Place} (hne : place.identityPath ≠ place.keyPath) (files : Files)
    (key text : String) :
    Function.update (Function.update files place.keyPath (some key)) place.identityPath (some text)
        place.keyPath = some key ∧
      Function.update (Function.update files place.keyPath (some key)) place.identityPath
        (some text) place.identityPath = some text := by
  rw [Function.update_of_ne hne.symm, Function.update_self, Function.update_self]
  exact ⟨rfl, rfl⟩

theorem persistBindArtifacts_saves {stringifyIndented : Json → Option String}
    {identity : BoundIdentity} {text : String}
    (htext : stringifyIndented (Mcp.identityJson identity) = some text) (dir key : String)
    (files : Files) :
    Saves (placeIn dir) key (some text) files
      (persistBindArtifacts stringifyIndented (placeIn dir) identity key) := by
  obtain ⟨hkey, hid⟩ := update_twice (identityPath_ne_keyPath dir dir) files key text
  rw [persistBindArtifacts, htext]
  exact ⟨_, rfl, hkey, _, rfl, hid⟩

theorem saveOutput_saves {conf : Conf} {home : String} {files : Files} {i : Issued}
    {apiUrl text : String} (hnew : newOutput files conf home i apiUrl = some text) :
    Saves (agentPlace home) i.key (some text) files (saveOutput conf home i apiUrl) := by
  have hne := agentPlace_ne home
  obtain ⟨hkey, hid⟩ := update_twice hne files i.key text
  obtain ⟨stored, hstored, hserialized⟩ := Option.bind_eq_some_iff.1 hnew
  refine ⟨⟨Function.update (Function.update files (agentPlace home).keyPath (some i.key))
    (agentPlace home).identityPath _, 5⟩, ?_, hkey, _, rfl, hid⟩
  rw [← Function.update_of_ne hne (some i.key) files] at hstored
  change Program.exec (answer allWorks) _ (match conf.stored (Function.update files
    (agentPlace home).keyPath (some i.key) (agentPlace home).identityPath) with
      | none => _
      | some stored => _) = _
  rw [hstored]
  change Program.exec (answer allWorks) _ (match conf.serialized (setFields stored
    (outputFields home i apiUrl)) with
      | none => _
      | some text => _) = _
  rw [hserialized]
  rfl

theorem saveIdentity_saves {json : PythonJson} {home : String} {files : Files}
    {identity : PythonIdentity} {text : String}
    (hnew : newIdentity files json home identity = some text) (key : String) :
    Saves (agentPlace home) key (some text) files (saveIdentity json home identity key) := by
  have hne := agentPlace_ne home
  obtain ⟨hkey, hid⟩ := update_twice hne files key text
  obtain ⟨existing, hexisting, hdumps⟩ := Option.bind_eq_some_iff.1 hnew
  refine ⟨⟨Function.update (Function.update files (agentPlace home).keyPath (some key))
    (agentPlace home).identityPath _, 5⟩, ?_, hkey, _, rfl, hid⟩
  rw [← Function.update_of_ne hne (some key) files] at hexisting
  change Program.exec (answer allWorks) _ (match json.existing (Function.update files
    (agentPlace home).keyPath (some key) (agentPlace home).identityPath) with
      | none => _
      | some existing => _) = _
  rw [hexisting]
  change Program.exec (answer allWorks) _ (writeText _ (json.dumps _)) = _
  rw [hdumps]
  rfl

/-- None of the three is safe against a step that fails once the key is written. -/
theorem saving_allOrNothing_iff (luck : ℕ → Luck) (files : Files)
    (stringifyIndented : Json → Option String) (dir : String) (bound : BoundIdentity)
    (boundKey : String)
    (conf : Conf) (home : String) (i : Issued) (apiUrl : String) (json : PythonJson)
    (identity : PythonIdentity) (key : String) :
    (AllOrNothing (placeIn dir) boundKey (stringifyIndented (Mcp.identityJson bound)) luck
        files (persistBindArtifacts stringifyIndented (placeIn dir) bound boundKey) ↔
      PersistSafe luck files (placeIn dir) boundKey
        (stringifyIndented (Mcp.identityJson bound))) ∧
    (AllOrNothing (agentPlace home) i.key (newOutput files conf home i apiUrl) luck files
        (saveOutput conf home i apiUrl) ↔
      SaveOutputSafe luck files conf home i apiUrl) ∧
    (AllOrNothing (agentPlace home) key (newIdentity files json home identity) luck files
        (saveIdentity json home identity key) ↔
      SaveIdentitySafe luck files json home identity key) :=
  ⟨persistBindArtifacts_iff luck files stringifyIndented dir bound boundKey,
    saveOutput_iff luck files conf home i apiUrl,
    saveIdentity_iff luck files json home identity key⟩

/-- A disk that is full when the third operation comes, or the fifth. -/
def full (n : ℕ) : ℕ → Luck := fun k => if k = n then .cut 0 else .works

def oldFiles : Files := fun path =>
  if path = "/root/.agentvalet/agent.key" then some "old key" else some "old identity"

def plainConf : Conf where
  deserialized _ := some []
  serialized _ := some "new identity"

/-- To this reader every text is an empty list. -/
def listJson : PythonJson where
  loads _ := .value (.arr [])
  dumps _ := some "new identity"

def boundNow : BoundIdentity := ⟨.str "a", .str "o", .str "p", "now"⟩

/-- The key is new and the identity is not: it is cut off, it is not replaced, or it is no
dictionary. -/
theorem key_outlives_identity :
    ¬ AllOrNothing (placeIn "/root/.agentvalet") "new key" (some "new identity") (full 2) oldFiles
        (persistBindArtifacts (fun _ => some "new identity") (placeIn "/root/.agentvalet") boundNow
          "new key") ∧
    ¬ AllOrNothing (agentPlace "/root") "new key"
        (newOutput oldFiles plainConf "/root" ⟨"a", "o", "new key"⟩ "p") (full 4) oldFiles
        (saveOutput plainConf "/root" ⟨"a", "o", "new key"⟩ "p") ∧
    ¬ AllOrNothing (agentPlace "/root") "new key"
        (newIdentity oldFiles listJson "/root" ⟨.str "a", .str "o", .str "p"⟩) allWorks oldFiles
        (saveIdentity listJson "/root" ⟨.str "a", .str "o", .str "p"⟩ "new key") := by
  have hold : oldFiles "/root/.agentvalet/agent.key" ≠ some "new key" := by decide
  refine ⟨?_, ?_, ?_⟩
  · intro h
    have hsafe := (persistBindArtifacts_iff (full 2) oldFiles (fun _ => some "new identity")
      "/root/.agentvalet" boundNow "new key").1 h
    obtain ⟨hsame, -⟩ | ⟨text, hnew, hleft⟩ := ((hsafe rfl).2 rfl).2 _ rfl (by decide)
    · exact hold hsame
    · rw [← hnew] at hleft
      revert hleft
      decide
  · intro h
    have hsafe := (saveOutput_iff (full 4) oldFiles plainConf "/root" ⟨"a", "o", "new key"⟩ "p").1 h
    obtain ⟨hsame, -⟩ | ⟨text, hnew, hleft⟩ := (hsafe rfl).2 rfl (by decide)
    · exact hold hsame
    · rw [← hnew] at hleft
      revert hleft
      decide
  · intro h
    rw [saveIdentity_iff] at h
    obtain ⟨hsame, -⟩ | ⟨text, hnew, -⟩ := (((h rfl).2 rfl).2 rfl).1 rfl
    · exact hold hsame
    · cases hnew

end AgentValet.Identity.Saving
