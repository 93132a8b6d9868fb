import AgentValet.Identity.Store

namespace AgentValet.Identity
open Lang

structure Source where
  agentId : Option Json
  ownerId : Option Json
  keyPath : Option Json
  apiUrl : Option Json

def said (v : Option Json) : Option Json := v.filter fun v => truthy (some v)

def configSource (m : Machine) : Source :=
  let stored := (getStoredConfig m.config).getD []
  { agentId := storedField stored "agentId" <|> storedField stored "lastAgentId"
    ownerId := storedField stored "ownerId"
    keyPath := said (storedField stored "keyPath" <|> storedField stored "lastKeyPath")
    apiUrl := storedField stored "apiUrl" <|> storedField stored "proxyUrl" }

def envFileSource (m : Machine) (shell : Shell) : Source :=
  let vars := ((m.files (resolvePath shell.cwd ".env.agentvalet")).map parseEnvFile).getD []
  { agentId := Json.lookup vars "AGENTVALET_AGENT_ID"
    ownerId := Json.lookup vars "AGENTVALET_OWNER_ID"
    keyPath := Json.lookup vars "AGENTVALET_PRIVATE_KEY_PATH"
    apiUrl := Json.lookup vars "AGENTVALET_API_URL" }

/-- An address or a path that is empty is not said here. -/
def environmentSource (shell : Shell) : Source where
  agentId := envVariable shell "AGENTVALET_AGENT_ID"
  ownerId := envVariable shell "AGENTVALET_OWNER_ID"
  keyPath := said (envVariable shell "AGENTVALET_PRIVATE_KEY_PATH")
  apiUrl := said (envVariable shell "AGENTVALET_API_URL")

/-- The source provides the ids and a path of the key. -/
def Source.Complete (s : Source) : Prop :=
  truthy s.agentId = true ∧ truthy s.ownerId = true ∧ truthy s.keyPath = true

instance (s : Source) : Decidable s.Complete := by
  unfold Source.Complete
  infer_instance

def decider (m : Machine) (shell : Shell) : Source :=
  if (configSource m).Complete then configSource m
  else if (envFileSource m shell).Complete then envFileSource m shell
  else environmentSource shell

section
variable (m : Machine) (shell : Shell) (s : Source)

def Source.key : Json := s.keyPath.getD (.str (AGENT_KEY_PATH m.home))

def Source.url : Json := s.apiUrl.getD (.str DEFAULT_API_URL)

/-- The agent of one source, unless an id or the file of the key is missing. -/
def Source.credentials : Option AgentCredentials :=
  match said s.agentId, said s.ownerId with
  | some agentId, some ownerId =>
    if truthy (some (s.key m)) && (keyFile m shell (s.key m)).isSome then
      some ⟨agentId, ownerId, s.key m, s.url⟩
    else none
  | _, _ => none

/-- The agent is that of the source that is to decide. -/
def PriorityKept : Prop := tryResolveAgent m shell = .ok ((decider m shell).credentials m shell)

/-- The file is read only where `config.json` lacks an id. -/
def askedFile : Source :=
  if truthy (configSource m).agentId && truthy (configSource m).ownerId then
    ⟨none, none, none, none⟩
  else envFileSource m shell

/-- What is said first: of the ids `config.json` is asked first and the environment last, of the
key and the address it is the other way. -/
def askedFirst : Source where
  agentId := (configSource m).agentId <|> (askedFile m shell).agentId <|>
    (environmentSource shell).agentId
  ownerId := (configSource m).ownerId <|> (askedFile m shell).ownerId <|>
    (environmentSource shell).ownerId
  keyPath := (environmentSource shell).keyPath <|> (askedFile m shell).keyPath <|>
    (configSource m).keyPath
  apiUrl := (environmentSource shell).apiUrl <|> (askedFile m shell).apiUrl <|>
    (configSource m).apiUrl

theorem getD_orElse (a b : Option Json) (v : Json) : (a <|> b).getD v = a.getD (b.getD v) := by
  cases a <;> rfl

theorem fromEnvFile_eq : fromEnvFile m shell (fromConfig m) =
    { agentId := (configSource m).agentId <|> (askedFile m shell).agentId
      ownerId := (configSource m).ownerId <|> (askedFile m shell).ownerId
      apiUrl := (askedFile m shell).apiUrl.getD (configSource m).url
      keyPath := (askedFile m shell).keyPath.getD ((configSource m).key m) } := by
  have hids : (fromConfig m).agentId = (configSource m).agentId ∧
      (fromConfig m).ownerId = (configSource m).ownerId := ⟨rfl, rfl⟩
  have hnone : ∀ v : Option Json, (v <|> none) = v := fun v => by cases v <;> rfl
  rw [fromEnvFile, askedFile, hids.1, hids.2]
  cases hboth : truthy (configSource m).agentId && truthy (configSource m).ownerId with
  | true =>
    simp only [if_true, hnone]
    rfl
  | false =>
    simp only [Bool.false_eq_true, if_false, envFileSource]
    cases m.files (resolvePath shell.cwd ".env.agentvalet") with
    | none =>
      have hlookup : ∀ key, Json.lookup [] key = none := fun _ => rfl
      simp only [Option.map_none, Option.getD_none, hlookup, hnone]
      rfl
    | some content => rfl

def Source.resolved : Except String (Option AgentCredentials) :=
  match said s.agentId, said s.ownerId with
  | some agentId, some ownerId =>
    if truthy (some (s.key m)) then do
      let found ← keyExists m shell (s.key m)
      pure (if found then some ⟨agentId, ownerId, s.key m, s.url⟩ else none)
    else .ok none
  | _, _ => .ok none

/-- What is resolved is made of what is said first of each field. -/
theorem tryResolveAgent_eq : tryResolveAgent m shell = (askedFirst m shell).resolved m shell := by
  have hfirst : fromVariables shell (fromEnvFile m shell (fromConfig m)) =
      { agentId := (askedFirst m shell).agentId
        ownerId := (askedFirst m shell).ownerId
        apiUrl := (askedFirst m shell).url
        keyPath := (askedFirst m shell).key m } := by
    have hassoc : ∀ a b c : Option Json, ((a <|> b) <|> c) = (a <|> b <|> c) := by
      intro a b c
      cases a <;> rfl
    rw [fromEnvFile_eq, fromVariables]
    simp only [Source.url, Source.key, askedFirst, getD_orElse, hassoc]
    rfl
  rw [tryResolveAgent, hfirst]
  rfl

/-- An id is missing or empty, or there is no file for the key. -/
def Source.Unusable : Prop :=
  ¬ (truthy s.agentId = true ∧ truthy s.ownerId = true ∧ truthy (some (s.key m)) = true ∧
    (keyFile m shell (s.key m)).isSome = true)

theorem said_eq_none_iff {v : Option Json} : said v = none ↔ ¬ truthy v = true := by
  cases v with
  | none => exact iff_of_true rfl Bool.false_ne_true
  | some v => simp [said, Option.filter]

theorem said_eq_some_iff {v : Option Json} {w : Json} :
    said v = some w ↔ v = some w ∧ truthy v = true := by
  rw [said, Option.filter_eq_some_iff]
  constructor
  · rintro ⟨rfl, hw⟩
    exact ⟨rfl, hw⟩
  · rintro ⟨rfl, hw⟩
    exact ⟨rfl, hw⟩

variable {m shell s} in
theorem credentials_eq_some_iff {creds : AgentCredentials} :
    s.credentials m shell = some creds ↔
      (s.agentId = some creds.agentId ∧ s.ownerId = some creds.ownerId ∧ s.key m = creds.keyPath ∧
        s.url = creds.apiUrl) ∧ ¬ s.Unusable m shell := by
  rw [Source.credentials, Source.Unusable, not_not]
  cases hagent : said s.agentId with
  | none =>
    have hnot := said_eq_none_iff.1 hagent
    exact iff_of_false nofun fun h => hnot h.2.1
  | some agentId =>
    cases howner : said s.ownerId with
    | none =>
      have hnot := said_eq_none_iff.1 howner
      exact iff_of_false nofun fun h => hnot h.2.2.1
    | some ownerId =>
      obtain ⟨hagent, hagent'⟩ := said_eq_some_iff.1 hagent
      obtain ⟨howner, howner'⟩ := said_eq_some_iff.1 howner
      rw [hagent] at hagent' ⊢
      rw [howner] at howner' ⊢
      dsimp only
      split_ifs with hkey
      · rw [Bool.and_eq_true] at hkey
        constructor
        · intro h
          cases h
          exact ⟨⟨rfl, rfl, rfl, rfl⟩, hagent', howner', hkey⟩
        · rintro ⟨⟨ha, ho, hk, hu⟩, -⟩
          rw [hk, hu, Option.some.inj ha, Option.some.inj ho]
      · refine iff_of_false nofun ?_
        rintro ⟨-, -, -, hkey'⟩
        exact hkey ((Bool.and_eq_true _ _).mpr hkey')

theorem credentials_eq_none_iff : s.credentials m shell = none ↔ s.Unusable m shell := by
  constructor
  · intro hnone
    by_contra husable
    have hsaid := husable
    rw [Source.Unusable, not_not] at hsaid
    obtain ⟨hagent, howner, -⟩ := hsaid
    cases hid : s.agentId with
    | none =>
      rw [hid] at hagent
      cases hagent
    | some agentId =>
      cases howns : s.ownerId with
      | none =>
        rw [howns] at howner
        cases howner
      | some ownerId =>
        have hsome : s.credentials m shell = some ⟨agentId, ownerId, s.key m, s.url⟩ :=
          credentials_eq_some_iff.2 ⟨⟨hid, howns, rfl, rfl⟩, husable⟩
        rw [hnone] at hsome
        cases hsome
  · intro hunusable
    rw [Option.eq_none_iff_forall_ne_some]
    intro creds hcreds
    exact (credentials_eq_some_iff.1 hcreds).2 hunusable

/-- There is an agent, and its key path is no text. -/
def Source.Malformed : Prop :=
  truthy s.agentId = true ∧ truthy s.ownerId = true ∧ truthy (some (s.key m)) = true ∧
    ∀ path, s.key m ≠ .str path

theorem keyExists_eq_ok {keyPath : Json} {found : Bool}
    (h : keyExists m shell keyPath = .ok found) :
    (∃ path, keyPath = .str path) ∧ (keyFile m shell keyPath).isSome = found := by
  cases keyPath with
  | str path => exact ⟨⟨path, rfl⟩, Except.ok.inj h⟩
  | _ => cases h

theorem keyExists_eq_error {keyPath : Json} {e : String}
    (h : keyExists m shell keyPath = .error e) : ∀ path, keyPath ≠ .str path := by
  rintro path rfl
  cases h

/-- An agent is resolved as the source has it, unless its key path is no text. -/
theorem resolved_eq_ok_iff {creds : Option AgentCredentials} :
    s.resolved m shell = .ok creds ↔ s.credentials m shell = creds ∧ ¬ s.Malformed m := by
  unfold Source.resolved Source.credentials Source.Malformed
  cases hagent : said s.agentId with
  | none => simp [said_eq_none_iff.1 hagent]
  | some agentId =>
    cases howner : said s.ownerId with
    | none => simp [said_eq_none_iff.1 howner]
    | some ownerId =>
      have hagent' := (said_eq_some_iff.1 hagent).2
      have howner' := (said_eq_some_iff.1 howner).2
      by_cases hkey : truthy (some (s.key m)) = true
      · cases hexists : keyExists m shell (s.key m) with
        | error e =>
          have hnot := keyExists_eq_error m shell hexists
          simp [hkey, hagent', howner', hnot, bind, Except.bind]
        | ok found =>
          obtain ⟨⟨path, hpath⟩, hfound⟩ := keyExists_eq_ok m shell hexists
          have hnot : ¬ ∀ path, s.key m ≠ .str path := fun h => h path hpath
          simp [hkey, hfound, hnot, bind, Except.bind, pure, Except.pure]
      · simp [hkey]

/-- What the sources asked before or after the deciding one say of each field, where it matters:
`config.json` is asked for an id first, and for the key and the address a variable. -/
inductive Undisturbed : Prop where
  | config (hconfig : (configSource m).Complete)
      (hkey : ∀ v, (environmentSource shell).keyPath = some v → v = (configSource m).key m)
      (hurl : ∀ v, (environmentSource shell).apiUrl = some v → v = (configSource m).url)
  | envFile (hconfig : ¬ (configSource m).Complete) (hfile : (envFileSource m shell).Complete)
      (hagent : ∀ v, (configSource m).agentId = some v → (envFileSource m shell).agentId = some v)
      (howner : ∀ v, (configSource m).ownerId = some v → (envFileSource m shell).ownerId = some v)
      (hkey : ∀ v, (environmentSource shell).keyPath = some v → v = (envFileSource m shell).key m)
      (hurl : ∀ v, (environmentSource shell).apiUrl = some v → v = (envFileSource m shell).url)
      -- what the file does not say, or is not read for, is taken from `config.json`
      (hkey' : (environmentSource shell).keyPath = none → (askedFile m shell).keyPath = none →
        (configSource m).key m = (envFileSource m shell).key m)
      (hurl' : (environmentSource shell).apiUrl = none → (askedFile m shell).apiUrl = none →
        (configSource m).url = (envFileSource m shell).url)
  | environment (hconfig : ¬ (configSource m).Complete) (hfile : ¬ (envFileSource m shell).Complete)
      (hagent : ∀ v, (configSource m).agentId = some v ∨
        (configSource m).agentId = none ∧ (askedFile m shell).agentId = some v →
        (environmentSource shell).agentId = some v)
      (howner : ∀ v, (configSource m).ownerId = some v ∨
        (configSource m).ownerId = none ∧ (askedFile m shell).ownerId = some v →
        (environmentSource shell).ownerId = some v)
      (hkey : (environmentSource shell).keyPath = none →
        (askedFile m shell).keyPath.getD ((configSource m).key m) = .str (AGENT_KEY_PATH m.home))
      (hurl : (environmentSource shell).apiUrl = none →
        (askedFile m shell).apiUrl.getD (configSource m).url = .str DEFAULT_API_URL)

/-- No source says an id or the one that says it first says an empty one, or so with the path of the
key, or there is no file under the path that is said first. -/
inductive NoAgent : Prop where
  | agentId (h : truthy ((configSource m).agentId <|> (askedFile m shell).agentId <|>
      (environmentSource shell).agentId) = false)
  | ownerId (h : truthy ((configSource m).ownerId <|> (askedFile m shell).ownerId <|>
      (environmentSource shell).ownerId) = false)
  | keyPath (h : truthy ((environmentSource shell).keyPath <|> (askedFile m shell).keyPath <|>
      some ((configSource m).key m)) = false)
  | file {path : String} (hfile : m.files (resolvePath shell.cwd path) = none)
      (h : ((environmentSource shell).keyPath <|> (askedFile m shell).keyPath <|>
        some ((configSource m).key m)) = some (.str path))

/-- What is said first of every field is what one source says. -/
structure SaysFirst : Prop where
  agentId : (askedFirst m shell).agentId = s.agentId
  ownerId : (askedFirst m shell).ownerId = s.ownerId
  keyPath : (askedFirst m shell).key m = s.key m
  apiUrl : (askedFirst m shell).url = s.url

theorem saysFirst_iff : SaysFirst m shell s ↔ (askedFirst m shell).agentId = s.agentId ∧
    (askedFirst m shell).ownerId = s.ownerId ∧ (askedFirst m shell).key m = s.key m ∧
    (askedFirst m shell).url = s.url :=
  ⟨fun h => ⟨h.agentId, h.ownerId, h.keyPath, h.apiUrl⟩, fun h => ⟨h.1, h.2.1, h.2.2.1, h.2.2.2⟩⟩

variable {m shell s} in
theorem SaysFirst.malformed_iff (h : SaysFirst m shell s) :
    (askedFirst m shell).Malformed m ↔ s.Malformed m := by
  simp only [Source.Malformed, h.agentId, h.ownerId, h.keyPath]

theorem key_askedFirst : some ((askedFirst m shell).key m) =
    ((environmentSource shell).keyPath <|> (askedFile m shell).keyPath <|>
      some ((configSource m).key m)) := by
  rw [Source.key, askedFirst]
  cases (environmentSource shell).keyPath with
  | some v => rfl
  | none =>
    cases (askedFile m shell).keyPath with
    | some v => rfl
    | none => rfl

theorem noAgent_iff : NoAgent m shell ↔
    (askedFirst m shell).Unusable m shell ∧ ¬ (askedFirst m shell).Malformed m := by
  have hkey := key_askedFirst m shell
  constructor
  · intro h
    cases h with
    | agentId h =>
      have h' : truthy (askedFirst m shell).agentId = false := h
      constructor
      · rintro ⟨hagent, -⟩
        rw [h'] at hagent
        cases hagent
      · rintro ⟨hagent, -⟩
        rw [h'] at hagent
        cases hagent
    | ownerId h =>
      have h' : truthy (askedFirst m shell).ownerId = false := h
      constructor
      · rintro ⟨-, howner, -⟩
        rw [h'] at howner
        cases howner
      · rintro ⟨-, howner, -⟩
        rw [h'] at howner
        cases howner
    | keyPath h =>
      rw [← hkey] at h
      constructor
      · rintro ⟨-, -, hpath, -⟩
        rw [h] at hpath
        cases hpath
      · rintro ⟨-, -, hpath, -⟩
        rw [h] at hpath
        cases hpath
    | file hfile h =>
      have hpath := Option.some.inj (hkey.trans h)
      constructor
      · rintro ⟨-, -, -, hfound⟩
        rw [hpath, keyFile, hfile] at hfound
        cases hfound
      · rintro ⟨-, -, -, hnot⟩
        exact hnot _ hpath
  · rintro ⟨hunusable, hwell⟩
    by_cases hagent : truthy (askedFirst m shell).agentId = true
    · by_cases howner : truthy (askedFirst m shell).ownerId = true
      · by_cases hpath : truthy (some ((askedFirst m shell).key m)) = true
        · obtain ⟨path, hstr⟩ : ∃ path, (askedFirst m shell).key m = .str path := by
            by_contra hnone
            exact hwell ⟨hagent, howner, hpath, fun path h => hnone ⟨path, h⟩⟩
          have hfile : m.files (resolvePath shell.cwd path) = none := by
            by_contra hsome
            refine hunusable ⟨hagent, howner, hpath, ?_⟩
            rw [hstr, keyFile]
            exact Option.isSome_iff_ne_none.2 hsome
          exact .file hfile (by rw [← hkey, hstr])
        · exact .keyPath (by rw [← hkey]; exact Bool.not_eq_true _ ▸ hpath)
      · exact .ownerId (Bool.not_eq_true _ ▸ howner)
    · exact .agentId (Bool.not_eq_true _ ▸ hagent)

theorem orElse_of_truthy {v : Option Json} (hv : truthy v = true) (w : Option Json) :
    (v <|> w) = v := by
  cases v with
  | none => cases hv
  | some v => rfl

/-- A value is asked of two sources. -/
theorem getD_eq_iff {v : Option Json} {d w : Json} :
    v.getD d = w ↔ (∀ u, v = some u → u = w) ∧ (v = none → d = w) := by
  cases v <;> simp

theorem orElse_eq_iff {a b d : Option Json} :
    (a <|> b) = d ↔ (∀ u, a = some u → d = some u) ∧ (a = none → b = d) := by
  cases a <;> simp [eq_comm]

section
variable {m shell}

theorem saysFirst_config_iff (hconfig : (configSource m).Complete) :
    SaysFirst m shell (configSource m) ↔
      (∀ v, (environmentSource shell).keyPath = some v → v = (configSource m).key m) ∧
        ∀ v, (environmentSource shell).apiUrl = some v → v = (configSource m).url := by
  obtain ⟨hagent, howner, -⟩ := id hconfig
  have hfile : askedFile m shell = ⟨none, none, none, none⟩ := by
    rw [askedFile, hagent, howner]
    rfl
  have hkey : (askedFirst m shell).key m =
      (environmentSource shell).keyPath.getD ((configSource m).key m) := by
    rw [Source.key, askedFirst, hfile, getD_orElse, getD_orElse]
    rfl
  have hurl : (askedFirst m shell).url =
      (environmentSource shell).apiUrl.getD (configSource m).url := by
    rw [Source.url, askedFirst, hfile, getD_orElse, getD_orElse]
    rfl
  constructor
  · intro h
    exact ⟨(getD_eq_iff.1 (hkey.symm.trans h.keyPath)).1,
      (getD_eq_iff.1 (hurl.symm.trans h.apiUrl)).1⟩
  · rintro ⟨hkey', hurl'⟩
    exact ⟨orElse_of_truthy hagent _, orElse_of_truthy howner _,
      hkey.trans (getD_eq_iff.2 ⟨hkey', fun _ => rfl⟩),
      hurl.trans (getD_eq_iff.2 ⟨hurl', fun _ => rfl⟩)⟩

/-- The key and the address are asked of the environment, then of the file, then of
`config.json`. -/
theorem key_askedFirst_eq_iff {w : Json} : (askedFirst m shell).key m = w ↔
    (∀ v, (environmentSource shell).keyPath = some v → v = w) ∧
      ((environmentSource shell).keyPath = none →
        (askedFile m shell).keyPath.getD ((configSource m).key m) = w) := by
  rw [Source.key, askedFirst, getD_orElse, getD_orElse]
  exact getD_eq_iff

theorem url_askedFirst_eq_iff {w : Json} : (askedFirst m shell).url = w ↔
    (∀ v, (environmentSource shell).apiUrl = some v → v = w) ∧
      ((environmentSource shell).apiUrl = none →
        (askedFile m shell).apiUrl.getD (configSource m).url = w) := by
  rw [Source.url, askedFirst, getD_orElse, getD_orElse]
  exact getD_eq_iff

/-- The file is read, or says nothing. -/
theorem askedFile_cases :
    askedFile m shell = envFileSource m shell ∨
      truthy (configSource m).agentId = true ∧ truthy (configSource m).ownerId = true ∧
        askedFile m shell = ⟨none, none, none, none⟩ := by
  rw [askedFile]
  split_ifs with hboth
  · rw [Bool.and_eq_true] at hboth
    exact Or.inr ⟨hboth.1, hboth.2, rfl⟩
  · exact Or.inl rfl

theorem saysFirst_envFile_iff (hfile : (envFileSource m shell).Complete) :
    SaysFirst m shell (envFileSource m shell) ↔
      (∀ v, (configSource m).agentId = some v → (envFileSource m shell).agentId = some v) ∧
      (∀ v, (configSource m).ownerId = some v → (envFileSource m shell).ownerId = some v) ∧
      (∀ v, (environmentSource shell).keyPath = some v → v = (envFileSource m shell).key m) ∧
      (∀ v, (environmentSource shell).apiUrl = some v → v = (envFileSource m shell).url) ∧
      ((environmentSource shell).keyPath = none → (askedFile m shell).keyPath = none →
        (configSource m).key m = (envFileSource m shell).key m) ∧
      ((environmentSource shell).apiUrl = none → (askedFile m shell).apiUrl = none →
        (configSource m).url = (envFileSource m shell).url) := by
  obtain ⟨hagent, howner, -⟩ := hfile
  -- what the file says itself is what it says
  have hkey : ∀ v, (askedFile m shell).keyPath = some v → v = (envFileSource m shell).key m := by
    intro v hv
    obtain hread | ⟨-, -, hunread⟩ := @askedFile_cases m shell
    · rw [hread] at hv
      rw [Source.key, hv]
      rfl
    · rw [hunread] at hv
      cases hv
  have hurl : ∀ v, (askedFile m shell).apiUrl = some v → v = (envFileSource m shell).url := by
    intro v hv
    obtain hread | ⟨-, -, hunread⟩ := @askedFile_cases m shell
    · rw [hread] at hv
      rw [Source.url, hv]
      rfl
    · rw [hunread] at hv
      cases hv
  -- where `config.json` lacks an id, the file is read for it
  have hagent' : (configSource m).agentId = none →
      ((askedFile m shell).agentId <|> (environmentSource shell).agentId) =
        (envFileSource m shell).agentId := by
    intro hnone
    obtain hread | ⟨hid, -⟩ := @askedFile_cases m shell
    · rw [hread]
      exact orElse_of_truthy hagent _
    · rw [hnone] at hid
      cases hid
  have howner' : (configSource m).ownerId = none →
      ((askedFile m shell).ownerId <|> (environmentSource shell).ownerId) =
        (envFileSource m shell).ownerId := by
    intro hnone
    obtain hread | ⟨-, hid, -⟩ := @askedFile_cases m shell
    · rw [hread]
      exact orElse_of_truthy howner _
    · rw [hnone] at hid
      cases hid
  rw [saysFirst_iff, key_askedFirst_eq_iff, url_askedFirst_eq_iff, askedFirst]
  dsimp only
  rw [@orElse_eq_iff (configSource m).agentId, @orElse_eq_iff (configSource m).ownerId,
    @getD_eq_iff (askedFile m shell).keyPath, @getD_eq_iff (askedFile m shell).apiUrl]
  constructor
  · rintro ⟨⟨ha, -⟩, ⟨ho, -⟩, ⟨hk, hk'⟩, hu, hu'⟩
    exact ⟨ha, ho, hk, hu, fun he => (hk' he).2, fun he => (hu' he).2⟩
  · rintro ⟨ha, ho, hk, hu, hk', hu'⟩
    exact ⟨⟨ha, hagent'⟩, ⟨ho, howner'⟩, ⟨hk, fun he => ⟨hkey, hk' he⟩⟩,
      hu, fun he => ⟨hurl, hu' he⟩⟩

theorem saysFirst_environment_iff :
    SaysFirst m shell (environmentSource shell) ↔
      (∀ v, (configSource m).agentId = some v ∨
        (configSource m).agentId = none ∧ (askedFile m shell).agentId = some v →
        (environmentSource shell).agentId = some v) ∧
      (∀ v, (configSource m).ownerId = some v ∨
        (configSource m).ownerId = none ∧ (askedFile m shell).ownerId = some v →
        (environmentSource shell).ownerId = some v) ∧
      ((environmentSource shell).keyPath = none →
        (askedFile m shell).keyPath.getD ((configSource m).key m) = .str (AGENT_KEY_PATH m.home)) ∧
      ((environmentSource shell).apiUrl = none →
        (askedFile m shell).apiUrl.getD (configSource m).url = .str DEFAULT_API_URL) := by
  have hid : ∀ {c f e : Option Json}, (c <|> f <|> e) = e ↔
      ∀ v, c = some v ∨ c = none ∧ f = some v → e = some v := by
    intro c f e
    cases c <;> cases f <;> simp [eq_comm]
  have hdefault : ∀ {v : Option Json} {d w : Json}, ((∀ u, v = some u → u = v.getD d) ∧
      (v = none → w = v.getD d)) ↔ (v = none → w = d) := by
    intro v d w
    cases v <;> simp
  rw [saysFirst_iff, key_askedFirst_eq_iff, url_askedFirst_eq_iff, askedFirst]
  dsimp only
  rw [hid, hid, Source.key, hdefault, Source.url, hdefault]

/-- What is said first is what the deciding source says exactly where nothing disturbs it. -/
theorem saysFirst_decider_iff : SaysFirst m shell (decider m shell) ↔ Undisturbed m shell := by
  by_cases hconfig : (configSource m).Complete
  · rw [decider, if_pos hconfig, saysFirst_config_iff hconfig]
    constructor
    · exact fun h => .config hconfig h.1 h.2
    · intro h
      cases h with
      | config _ hkey hurl => exact ⟨hkey, hurl⟩
      | envFile hnot => exact absurd hconfig hnot
      | environment hnot => exact absurd hconfig hnot
  · by_cases hfile : (envFileSource m shell).Complete
    · rw [decider, if_neg hconfig, if_pos hfile, saysFirst_envFile_iff hfile]
      constructor
      · rintro ⟨hagent, howner, hkey, hurl, hkey', hurl'⟩
        exact .envFile hconfig hfile hagent howner hkey hurl hkey' hurl'
      · intro h
        cases h with
        | config hcomplete => exact absurd hcomplete hconfig
        | envFile _ _ hagent howner hkey hurl hkey' hurl' =>
          exact ⟨hagent, howner, hkey, hurl, hkey', hurl'⟩
        | environment _ hnot => exact absurd hfile hnot
    · rw [decider, if_neg hconfig, if_neg hfile, saysFirst_environment_iff]
      constructor
      · exact fun h => .environment hconfig hfile h.1 h.2.1 h.2.2.1 h.2.2.2
      · intro h
        cases h with
        | config hcomplete => exact absurd hcomplete hconfig
        | envFile _ hcomplete => exact absurd hcomplete hfile
        | environment _ _ hagent howner hkey hurl => exact ⟨hagent, howner, hkey, hurl⟩

end

/-- The priority is kept exactly if no other source disturbs the deciding one and its key path is a
text, or if no agent comes of what is said nor of that source. -/
theorem tryResolveAgent_priority_iff :
    PriorityKept m shell ↔
      Undisturbed m shell ∧ ¬ (decider m shell).Malformed m ∨
        NoAgent m shell ∧ (decider m shell).Unusable m shell := by
  rw [PriorityKept, tryResolveAgent_eq, resolved_eq_ok_iff, ← saysFirst_decider_iff, noAgent_iff]
  constructor
  · rintro ⟨h, hwell⟩
    cases hcreds : (decider m shell).credentials m shell with
    | none =>
      rw [hcreds] at h
      exact Or.inr ⟨⟨(credentials_eq_none_iff _ _ _).1 h, hwell⟩,
        (credentials_eq_none_iff _ _ _).1 hcreds⟩
    | some creds =>
      rw [hcreds] at h
      obtain ⟨⟨ha, ho, hk, hu⟩, -⟩ := credentials_eq_some_iff.1 h
      obtain ⟨⟨ha', ho', hk', hu'⟩, -⟩ := credentials_eq_some_iff.1 hcreds
      have hspoken : SaysFirst m shell (decider m shell) :=
        ⟨ha.trans ha'.symm, ho.trans ho'.symm, hk.trans hk'.symm, hu.trans hu'.symm⟩
      exact Or.inl ⟨hspoken, fun hbad => hwell (hspoken.malformed_iff.2 hbad)⟩
  · rintro (⟨hspoken, hwell⟩ | ⟨⟨hfirst, hwell⟩, hdecider⟩)
    · refine ⟨?_, fun hbad => hwell (hspoken.malformed_iff.1 hbad)⟩
      simp only [Source.credentials, hspoken.agentId, hspoken.ownerId, hspoken.keyPath,
        hspoken.apiUrl]
    · exact ⟨((credentials_eq_none_iff _ _ _).2 hfirst).trans
        ((credentials_eq_none_iff _ _ _).2 hdecider).symm, hwell⟩

end

def registeredMachine : Machine where
  home := "/root"
  files path :=
    if path = "/root/.agentvalet/agent.key" then some "key" else
      if path = "/tmp/other.key" then some "other" else none
  config := .json (.obj [("agentId", .str "agt_1"), ("ownerId", .str "o"),
    ("keyPath", .str "/root/.agentvalet/agent.key")])

def otherShell : Shell where
  cwd := "/work"
  env name := if name = "AGENTVALET_PRIVATE_KEY_PATH" then some "/tmp/other.key" else none

/-- The agent of `config.json` is resolved with the key that a variable names. -/
theorem variable_replaces_key :
    tryResolveAgent registeredMachine otherShell =
        .ok (some ⟨.str "agt_1", .str "o", .str "/tmp/other.key", .str DEFAULT_API_URL⟩) ∧
      ¬ PriorityKept registeredMachine otherShell := by
  have hresolved : tryResolveAgent registeredMachine otherShell =
      .ok (some ⟨.str "agt_1", .str "o", .str "/tmp/other.key", .str DEFAULT_API_URL⟩) := rfl
  refine ⟨hresolved, fun hkept => ?_⟩
  have hcomplete : (configSource registeredMachine).Complete := by decide +kernel
  have hcreds := Except.ok.inj (hresolved.symm.trans hkept)
  rw [decider, if_pos hcomplete] at hcreds
  obtain ⟨⟨-, -, hkey, -⟩, -⟩ := credentials_eq_some_iff.1 hcreds.symm
  have hpath : (configSource registeredMachine).key registeredMachine =
      .str "/root/.agentvalet/agent.key" := rfl
  rw [hpath] at hkey
  exact absurd (Json.str.inj hkey) (by decide)

end AgentValet.Identity
