import AgentValet.Base.Runs
import AgentValet.Identity.ClaudeSettings
import AgentValet.Identity.Frameworks
import AgentValet.Lang.Utf8

namespace AgentValet.Identity.ConfigWrites
open Base Lang JavaScript ClaudeSettings

/-- What stands in a file: bytes that somebody else has left, the JSON text of a value, which is
read as that value, or a beginning of such a text. -/
inductive Contents where
  | bytes (b : Bytes)
  | json (v : Json)
  | cut (v : Json) (n : ℕ)

/-- The file at the path of a configuration, and the one at this path with `.backup` added. -/
structure Target where
  file : Option Contents
  backup : Option Contents

/-- How a copy goes; of one that is cut something may be left. -/
inductive CopyLuck where
  | works
  | fails
  | cut (left : Option Contents)

/-- How the operations of a writer go, as far as it gets to them. -/
structure Lucks where
  reads : Bool
  copy : CopyLuck
  write : Luck

def Target.written (t : Target) (luck : Luck) (v : Json) : Target :=
  match luck with
  | .works => { t with file := some (.json v.rewritten) }
  | .fails => t
  | .cut n => { t with file := some (.cut v.rewritten n) }

/-- A writer that throws, or has nothing to add, leaves the files as they are. -/
def Target.update (t : Target) (luck : Luck) (v : Option Json) : Target :=
  match v with
  | none => t
  | some v => t.written luck v

/-- `target[key]`; of null it throws. -/
def property (target : Json) (key : String) : Option (Option Json) :=
  match target with
  | .null => none
  | v => some (v.field? key)

/-- `v ?? \x7b\x7d` -/
def orObject (v : Option Json) : Json :=
  match v with
  | none => .obj []
  | some .null => .obj []
  | some v => v

/-- `target[key] = value`, in strict mode; of an array the property is not written to the file. -/
def setProperty (target : Json) (key : String) (value : Json) : Option Json :=
  match target with
  | .obj fields => some (.obj (setFields fields [(key, value)]))
  | .arr items => some (.arr items)
  | _ => none

/-- `servers.agentvalet = value; existing.mcpServers = servers` -/
def setServer (existing servers value : Json) : Option Json := do
  let servers ← setProperty servers "agentvalet" value
  setProperty existing "mcpServers" servers

/-- What `mergeJsonFile` writes of what it has read; `none` is the exception. -/
def addServer (value existing : Json) : Option Json := do
  let servers ← property existing "mcpServers"
  setServer existing (orObject servers) value

def addEntry (value existing : Json) : Option Json := do
  let entry ← property existing "agentvalet"
  if truthy entry then none
  else setProperty existing "agentvalet" value

def mcpEntry (creds : AgentCredentials) : Json :=
  .obj [("command", .str "npx"),
    ("args", .arr [.str "-y", .str "@agentvalet/register", .str "mcp-server"]),
    ("env", .obj [("AGENT_ID", creds.agentId), ("OWNER_ID", creds.ownerId),
      ("PROXY_URL", creds.apiUrl), ("AGENT_PRIVATE_KEY_PATH", creds.keyPath)])]

/-- The credentials are what `tryResolveAgent` gives. -/
def addMcpEntry (creds : Option AgentCredentials) (mcpConfig : Json) : Option Json := do
  let servers ← property mcpConfig "mcpServers"
  let entry ← property (orObject servers) "agentvalet"
  if truthy entry then none
  else
    let creds ← creds
    setServer mcpConfig (orObject servers) (mcpEntry creds)

section
variable (parse : Text → Option Json)

/-- `JSON.parse(readFile(path, "utf8"))`; `none` where one of the two throws. -/
def Contents.read (reads : Bool) (c : Contents) : Option Json :=
  if reads then
    match c with
    | bytes b => parse (Utf8.lossy b)
    | json v => some v
    | cut _ _ => none
  else none

/-- The JSON value that the file is, numbers as they stand there; JSON is UTF-8. -/
def Contents.states : Contents → Option Json
  | bytes b => (Utf8.strict b).bind parse
  | json v => some v
  | cut _ _ => none

def mergeJsonFile (value : Json) (luck : Lucks) (t : Target) : Target :=
  let existing :=
    match t.file with
    | none => .obj []
    -- overwrite if unreadable
    | some c => (c.read parse luck.reads).getD (.obj [])
  t.update luck.write (addServer value existing)

def mergeFactoryDroidMcpJson (value : Json) (luck : Lucks) (t : Target) : Target :=
  match t.file with
  | none => t.update luck.write (addEntry value (.obj []))
  | some c =>
    match c.read parse luck.reads with
    | some existing => t.update luck.write (addEntry value existing)
    | none =>
      match luck.copy with
      | .works => { t with backup := some c }.update luck.write (addEntry value (.obj []))
      -- the exception of the copy ends the function
      | .fails => t
      | .cut left => { t with backup := left }

def ensureMcpJson (creds : Option AgentCredentials) (luck : Lucks) (t : Target) : Target :=
  match t.file with
  | none => t.update luck.write (addMcpEntry creds (.obj []))
  | some c =>
    match c.read parse luck.reads with
    -- unparseable, left alone
    | none => t
    | some mcpConfig => t.update luck.write (addMcpEntry creds mcpConfig)

inductive Writer where
  | mergeJsonFile (value : Json)
  | mergeFactoryDroidMcpJson (value : Json)
  | ensureMcpJson (creds : Option AgentCredentials)

def Writer.add : Writer → Json → Option Json
  | mergeJsonFile value => addServer value
  | mergeFactoryDroidMcpJson value => addEntry value
  | ensureMcpJson creds => addMcpEntry creds

structure Attempt where
  writer : Writer
  luck : Lucks

def step (t : Target) (a : Attempt) : Target :=
  match a.writer with
  | .mergeJsonFile value => mergeJsonFile parse value a.luck t
  | .mergeFactoryDroidMcpJson value => mergeFactoryDroidMcpJson parse value a.luck t
  | .ensureMcpJson creds => ensureMcpJson parse creds a.luck t

end

section
variable (same : Option Json → Option Json → Prop)

def ServersKept (before after : Option Json) : Prop :=
  same after before ∨ ∃ old new, orObject before = .obj old ∧ after = some (.obj new) ∧
    ∀ key, key ≠ "agentvalet" → same (Json.lookup new key) (Json.lookup old key)

structure SameBut (before after : Fields) : Prop where
  servers : ServersKept same (Json.lookup before "mcpServers") (Json.lookup after "mcpServers")
  others : ∀ key, key ≠ "mcpServers" → key ≠ "agentvalet" →
    same (Json.lookup after key) (Json.lookup before key)

end

/-- What is written is the same as before, in the file as it can be read. -/
abbrev Alike : Option Json → Option Json → Prop := Option.Rel Json.Same

theorem orObject_of_alike {before after : Option Json} {new : Fields} (h : Alike after before)
    (hnew : orObject after = .obj new) :
    ∃ old, orObject before = .obj old ∧
      ∀ key, Alike (Json.lookup new key) (Json.lookup old key) := by
  cases h with
  | none => exact ⟨new, hnew, fun key => Json.rel_same_refl _⟩
  | @some v w h =>
    cases v with
    | null =>
      cases w with
      | null => exact ⟨new, hnew, fun key => Json.rel_same_refl _⟩
      | _ => cases h []
    | obj fields =>
      obtain rfl := Json.obj.inj hnew
      obtain ⟨old, rfl, hkeys⟩ := h.obj
      exact ⟨old, rfl, hkeys⟩
    | _ => cases hnew

theorem ServersKept.trans {a b c : Option Json} (h : ServersKept Alike a b)
    (h' : ServersKept Alike b c) : ServersKept Alike a c := by
  obtain h | ⟨old, new, hold, rfl, hkeys⟩ := h
  · obtain h' | ⟨old', new', hold', rfl, hkeys'⟩ := h'
    · exact Or.inl (Json.rel_same_trans h' h)
    · obtain ⟨old, hold, hkeys⟩ := orObject_of_alike h hold'
      exact Or.inr ⟨old, new', hold, rfl, fun key hkey =>
        Json.rel_same_trans (hkeys' key hkey) (hkeys key)⟩
  · obtain h' | ⟨old', new', hold', rfl, hkeys'⟩ := h'
    · obtain ⟨new', rfl, hkeys'⟩ : ∃ new', c = some (.obj new') ∧
          ∀ key, Alike (Json.lookup new' key) (Json.lookup new key) := by
        cases h' with
        | some h' =>
          obtain ⟨new', rfl, hkeys'⟩ := h'.symm.obj
          exact ⟨new', rfl, fun key => Json.rel_same_symm (hkeys' key)⟩
      exact Or.inr ⟨old, new', hold, rfl, fun key hkey =>
        Json.rel_same_trans (hkeys' key) (hkeys key hkey)⟩
    · obtain rfl : new = old' := by simpa [orObject] using hold'
      exact Or.inr ⟨old, new', hold, rfl, fun key hkey =>
        Json.rel_same_trans (hkeys' key hkey) (hkeys key hkey)⟩

theorem SameBut.trans {a b c : Fields} (h : SameBut Alike a b) (h' : SameBut Alike b c) :
    SameBut Alike a c where
  servers := h.servers.trans h'.servers
  others key hservers hentry :=
    Json.rel_same_trans (h'.others key hservers hentry) (h.others key hservers hentry)

/-- Every number outside of AgentValet's entry is written as it was read. -/
structure NumbersKept (fields : Fields) : Prop where
  servers : ∀ old, orObject (Json.lookup fields "mcpServers") = .obj old →
    ∀ key, key ≠ "agentvalet" → ∀ v, Json.lookup old key = some v → v.NumbersKept
  noServers : ∀ v, Json.lookup fields "mcpServers" = some v →
    (∀ old, orObject (some v) ≠ .obj old) → v.NumbersKept
  others : ∀ key, key ≠ "mcpServers" → key ≠ "agentvalet" →
    ∀ v, Json.lookup fields key = some v → v.NumbersKept

theorem alike_rewritten_iff {v w : Option Json} (h : v = w) :
    Alike (v.map Json.rewritten) w ↔ ∀ u, w = some u → u.NumbersKept := by
  rw [h]
  exact Json.rel_same_rewritten_iff w

theorem entries_alike_iff {old new : Fields}
    (hkeys : ∀ key, key ≠ "agentvalet" → Json.lookup new key = Json.lookup old key) :
    (∀ key, key ≠ "agentvalet" →
        Alike (Json.lookup (Json.rewrittenFields new) key) (Json.lookup old key)) ↔
      ∀ key, key ≠ "agentvalet" → ∀ v, Json.lookup old key = some v → v.NumbersKept := by
  refine forall₂_congr fun key hkey => ?_
  rw [Json.lookup_rewrittenFields, alike_rewritten_iff (hkeys key hkey)]

/-- Servers that are an object before are kept entry by entry. -/
theorem serversKept_entries_iff {before : Option Json} {old new : Fields}
    (hold : orObject before = .obj old)
    (hkeys : ∀ key, key ≠ "agentvalet" → Json.lookup new key = Json.lookup old key) :
    ServersKept Alike before (some (.obj (Json.rewrittenFields new))) ↔
      ∀ key, key ≠ "agentvalet" → ∀ v, Json.lookup old key = some v → v.NumbersKept := by
  rw [← entries_alike_iff hkeys]
  constructor
  · rintro (hsame | ⟨old', new', hold', hnew', hsame⟩)
    · obtain ⟨old', hold', hsame⟩ := orObject_of_alike hsame rfl
      obtain rfl := Json.obj.inj (hold.symm.trans hold')
      exact fun key _ => hsame key
    · obtain rfl := Json.obj.inj (hold.symm.trans hold')
      obtain rfl := Json.obj.inj (Option.some.inj hnew')
      exact hsame
  · exact fun hsame => Or.inr ⟨old, _, hold, rfl, hsame⟩

/-- What is asked of the numbers in the servers: of each entry, or of the value as a whole. -/
def ServerNumbersKept (before : Option Json) : Prop :=
  (∀ old, orObject before = .obj old →
    ∀ key, key ≠ "agentvalet" → ∀ v, Json.lookup old key = some v → v.NumbersKept) ∧
  ∀ v, before = some v → (∀ old, orObject (some v) ≠ .obj old) → v.NumbersKept

theorem serverNumbersKept_of_obj {before : Option Json} {old : Fields}
    (hold : orObject before = .obj old) :
    ServerNumbersKept before ↔
      ∀ key, key ≠ "agentvalet" → ∀ v, Json.lookup old key = some v → v.NumbersKept := by
  constructor
  · exact fun h => h.1 old hold
  · intro h
    refine ⟨fun old' hold' => ?_, fun v hv hno => ?_⟩
    · obtain rfl := Json.obj.inj (hold.symm.trans hold')
      exact h
    · rw [← hv] at hno
      exact absurd hold (hno old)

theorem serverNumbersKept_of_other {before : Option Json}
    (hno : ∀ old, orObject before ≠ .obj old) :
    ServerNumbersKept before ↔ ∀ v, before = some v → v.NumbersKept := by
  rw [ServerNumbersKept, and_iff_right fun old hold => absurd hold (hno old)]
  constructor
  · exact fun h v hv => h v hv fun old => hv ▸ hno old
  · exact fun h v hv _ => h v hv

/-- Servers that nothing is added to. -/
theorem serversKept_self_iff (servers : Option Json) :
    ServersKept Alike servers (servers.map Json.rewritten) ↔ ServerNumbersKept servers := by
  by_cases hservers : ∃ old, orObject servers = .obj old
  · obtain ⟨old, hold⟩ := hservers
    rw [serverNumbersKept_of_obj hold]
    cases servers with
    | none =>
      obtain rfl := Json.obj.inj hold
      exact iff_of_true (Or.inl .none) fun key _ v hv => by cases hv
    | some v =>
      cases v with
      | null =>
        obtain rfl := Json.obj.inj hold
        exact iff_of_true (Or.inl (Json.rel_same_refl _)) fun key _ v hv => by cases hv
      | obj fields =>
        obtain rfl := Json.obj.inj hold
        rw [Option.map_some, Json.rewritten]
        exact serversKept_entries_iff rfl fun _ _ => rfl
      | _ => cases hold
  · have hno : ∀ old, orObject servers ≠ .obj old := fun old hold => hservers ⟨old, hold⟩
    rw [serverNumbersKept_of_other hno, ← alike_rewritten_iff rfl, ServersKept, or_iff_left]
    rintro ⟨old, new, hold, -⟩
    exact hno old hold

theorem serversKept_rewritten_iff {before after : Option Json} (h : ServersKept Eq before after) :
    ServersKept Alike before (after.map Json.rewritten) ↔ ServerNumbersKept before := by
  obtain rfl | ⟨old, new, hold, rfl, hkeys⟩ := h
  · exact serversKept_self_iff after
  · rw [Option.map_some, Json.rewritten, serverNumbersKept_of_obj hold]
    exact serversKept_entries_iff hold hkeys

theorem sameBut_rewritten_iff {before after : Fields} (h : SameBut Eq before after) :
    SameBut Alike before (Json.rewrittenFields after) ↔ NumbersKept before := by
  have hservers := serversKept_rewritten_iff h.servers
  constructor
  · intro hsame
    have hkept := hsame.servers
    rw [Json.lookup_rewrittenFields, hservers] at hkept
    refine ⟨hkept.1, hkept.2, fun key hkey hentry => ?_⟩
    have hother := hsame.others key hkey hentry
    rwa [Json.lookup_rewrittenFields, alike_rewritten_iff (h.others key hkey hentry)] at hother
  · intro hnumbers
    refine ⟨?_, fun key hkey hentry => ?_⟩
    · rw [Json.lookup_rewrittenFields, hservers]
      exact ⟨hnumbers.servers, hnumbers.noServers⟩
    · rw [Json.lookup_rewrittenFields, alike_rewritten_iff (h.others key hkey hentry)]
      exact hnumbers.others key hkey hentry

/-- An object gets the server, an array stays what it is, and anything else throws. -/
theorem setServer_cases {existing value v : Json} {servers : Option Json}
    (hservers : property existing "mcpServers" = some servers)
    (h : setServer existing (orObject servers) value = some v) :
    (∃ before after, existing = .obj before ∧ v = .obj after ∧ SameBut Eq before after) ∨
      ∃ items, existing = .arr items ∧ v = .arr items := by
  rw [setServer, Option.bind_eq_bind, Option.bind_eq_some_iff] at h
  obtain ⟨new, hnew, hset⟩ := h
  cases existing with
  | obj fields =>
    left
    obtain rfl : Json.lookup fields "mcpServers" = servers := Option.some.inj hservers
    obtain rfl : Json.obj (setFields fields [("mcpServers", new)]) = v := Option.some.inj hset
    refine ⟨fields, _, rfl, rfl, ?_, fun key hkey _ => lookup_set_of_ne _ _ hkey⟩
    rw [lookup_set_self]
    cases hold : orObject (Json.lookup fields "mcpServers") with
    | obj old =>
      rw [hold] at hnew
      obtain rfl : Json.obj (setFields old [("agentvalet", value)]) = new := Option.some.inj hnew
      exact Or.inr ⟨old, _, hold, rfl, fun key hkey => lookup_set_of_ne _ _ hkey⟩
    | arr items =>
      rw [hold] at hnew
      obtain rfl : Json.arr items = new := Option.some.inj hnew
      left
      cases hlookup : Json.lookup fields "mcpServers" with
      | none =>
        rw [hlookup] at hold
        cases hold
      | some servers =>
        rw [hlookup] at hold
        cases servers <;> simp_all [orObject]
    | _ =>
      rw [hold] at hnew
      cases hnew
  | arr items =>
    obtain rfl : Json.arr items = v := Option.some.inj hset
    exact Or.inr ⟨items, rfl, rfl⟩
  | _ => cases hset

theorem addEntry_cases {existing value v : Json} (h : addEntry value existing = some v) :
    (∃ before after, existing = .obj before ∧ v = .obj after ∧ SameBut Eq before after) ∨
      ∃ items, existing = .arr items ∧ v = .arr items := by
  rw [addEntry, Option.bind_eq_bind, Option.bind_eq_some_iff] at h
  obtain ⟨entry, -, h⟩ := h
  split_ifs at h
  cases existing with
  | obj fields =>
    obtain rfl := Option.some.inj h
    refine Or.inl ⟨fields, _, rfl, rfl, Or.inl ?_, fun key _ hkey => lookup_set_of_ne _ _ hkey⟩
    exact lookup_set_of_ne _ _ (by decide)
  | arr items =>
    obtain rfl := Option.some.inj h
    exact Or.inr ⟨items, rfl, rfl⟩
  | _ => cases h

/-- What a writer does with JSON that it finds. -/
theorem add_cases {w : Writer} {existing v : Json} (h : w.add existing = some v) :
    (∃ before after, existing = .obj before ∧ v = .obj after ∧ SameBut Eq before after) ∨
      ∃ items, existing = .arr items ∧ v = .arr items := by
  cases w with
  | mergeJsonFile value =>
    obtain ⟨servers, hservers, h⟩ := Option.bind_eq_some_iff.1 h
    exact setServer_cases hservers h
  | mergeFactoryDroidMcpJson value => exact addEntry_cases h
  | ensureMcpJson creds =>
    obtain ⟨servers, hservers, h⟩ := Option.bind_eq_some_iff.1 h
    obtain ⟨entry, -, h⟩ := Option.bind_eq_some_iff.1 h
    split_ifs at h
    obtain ⟨creds, -, h⟩ := Option.bind_eq_some_iff.1 h
    exact setServer_cases hservers h

section
variable (parse : Text → Option Json)

/-- Nobody overwrites what is no JSON or cannot be read, a copy is made of what the user has left,
and what is written is an object in UTF-8 whose numbers stay what they are. -/
structure Harmless (t : Target) (a : Attempt) : Prop where
  unread : ∀ c, t.file = some c → c.read parse a.luck.reads = none → a.luck.write ≠ .fails →
    ∀ value, a.writer ≠ .mergeJsonFile value
  copied : ∀ c, t.file = some c → c.read parse a.luck.reads = none → a.luck.copy ≠ .fails →
    ∀ value, a.writer = .mergeFactoryDroidMcpJson value → ∃ b, c = .bytes b
  merged : ∀ c v v', t.file = some c → c.read parse a.luck.reads = some v →
    a.writer.add v = some v' → a.luck.write ≠ .fails →
      a.luck.write = .works ∧ ∃ fields, c.states parse = some (.obj fields) ∧ NumbersKept fields

/-- What stood in the file is still there, in the file or in its copy, or the file is the same
object with another entry of AgentValet. -/
def Available (first t : Target) : Prop :=
  ∀ c, first.file = some c →
    t.file = some c ∨ t.backup = some c ∨
      ∃ before after, c.states parse = some (.obj before) ∧ t.file = some (.json (.obj after)) ∧
        SameBut Alike before after

/-- What a run keeps of the file that it began with: it is there, or an object has taken its place,
or its copy is next to what a write has begun. -/
def Inv (c : Contents) (t : Target) : Prop :=
  t.file = some c ∨
    (∃ after, t.file = some (.json (.obj after)) ∧
      (t.backup = some c ∨
        ∃ before, c.states parse = some (.obj before) ∧ SameBut Alike before after)) ∨
    ∃ v n, t.file = some (.cut v n) ∧ t.backup = some c

variable {parse}

theorem read_of_states {c : Contents} {v : Json} (h : c.states parse = some v) :
    c.read parse true = some v := by
  cases c with
  | bytes b =>
    obtain ⟨t, ht, h⟩ := Option.bind_eq_some_iff.1 h
    have hread : (Contents.bytes b).read parse true = parse (Utf8.lossy b) := rfl
    rw [hread, Utf8.lossy_of_strict ht]
    exact h
  | json v => exact h
  | cut v n => cases h

theorem eq_of_states_of_read {c : Contents} {v w : Json} {reads : Bool}
    (h : c.states parse = some v) (hread : c.read parse reads = some w) : w = v := by
  cases reads with
  | true => exact Option.some.inj (hread.symm.trans (read_of_states h))
  | false => cases hread

theorem update_of_fails {t : Target} {luck : Luck} (h : luck = .fails) (v : Option Json) :
    t.update luck v = t := by
  rw [h]
  cases v <;> rfl

theorem step_of_read {t : Target} {a : Attempt} {c : Contents} {v : Json}
    (hfile : t.file = some c) (hread : c.read parse a.luck.reads = some v) :
    step parse t a = t.update a.luck.write (a.writer.add v) := by
  rw [step]
  cases hwriter : a.writer with
  | mergeJsonFile value => simp only [mergeJsonFile, hfile, hread, Option.getD_some, Writer.add]
  | mergeFactoryDroidMcpJson value =>
    simp only [mergeFactoryDroidMcpJson, hfile, hread, Writer.add]
  | ensureMcpJson creds => simp only [ensureMcpJson, hfile, hread, Writer.add]

/-- Where a harmless writer cannot read the file, it is left alone, or its copy is there. -/
theorem step_of_unread {t : Target} {a : Attempt} {c : Contents} (hw : Harmless parse t a)
    (hfile : t.file = some c) (hread : c.read parse a.luck.reads = none) :
    step parse t a = t ∨
      (∃ b, c = .bytes b) ∧
        ((step parse t a).file = some c ∨
          (step parse t a).backup = some c ∧
            ((∃ after, (step parse t a).file = some (.json (.obj after))) ∨
              ∃ v n, (step parse t a).file = some (.cut v n))) := by
  rw [step]
  cases hwriter : a.writer with
  | mergeJsonFile value =>
    left
    by_cases hwrite : a.luck.write = .fails
    · exact update_of_fails hwrite _
    · exact absurd hwriter (hw.unread c hfile hread hwrite value)
  | mergeFactoryDroidMcpJson value =>
    simp only [mergeFactoryDroidMcpJson, hfile, hread]
    cases hcopy : a.luck.copy with
    | fails => exact Or.inl rfl
    | works =>
      have hbytes := hw.copied c hfile hread (by rw [hcopy]; simp) value hwriter
      refine Or.inr ⟨hbytes, ?_⟩
      have hadd : addEntry value (.obj []) =
          some (.obj (setFields [] [("agentvalet", value)])) := rfl
      rw [hadd, Target.update]
      cases a.luck.write with
      | works => exact Or.inr ⟨rfl, Or.inl ⟨_, rfl⟩⟩
      | fails => exact Or.inl rfl
      | cut n => exact Or.inr ⟨rfl, Or.inr ⟨_, n, rfl⟩⟩
    | cut left =>
      have hbytes := hw.copied c hfile hread (by rw [hcopy]; simp) value hwriter
      exact Or.inr ⟨hbytes, Or.inl rfl⟩
  | ensureMcpJson creds =>
    left
    simp only [ensureMcpJson, hfile, hread]

/-- Where a harmless writer reads the file, it is left alone, or the same object is written. -/
theorem step_of_harmless_read {t : Target} {a : Attempt} {c : Contents} {v : Json}
    (hw : Harmless parse t a) (hfile : t.file = some c)
    (hread : c.read parse a.luck.reads = some v) :
    step parse t a = t ∨ ∃ before after, c.states parse = some (.obj before) ∧
      step parse t a = { t with file := some (.json (.obj after)) } ∧
      SameBut Alike before after := by
  rw [step_of_read hfile hread]
  cases hadd : a.writer.add v with
  | none => exact Or.inl rfl
  | some v' =>
    by_cases hwrite : a.luck.write = .fails
    · exact Or.inl (update_of_fails hwrite _)
    · right
      obtain ⟨hworks, before, hstates, hnumbers⟩ := hw.merged c v v' hfile hread hadd hwrite
      obtain rfl := eq_of_states_of_read hstates hread
      obtain ⟨before', after, hbefore, rfl, hsame⟩ | ⟨items, hitems, -⟩ := add_cases hadd
      · obtain rfl := Json.obj.inj hbefore
        refine ⟨before, Json.rewrittenFields after, hstates, ?_,
          (sameBut_rewritten_iff hsame).2 hnumbers⟩
        rw [hworks]
        rfl
      · cases hitems

theorem Inv.step {c : Contents} {t : Target} {a : Attempt} (hinv : Inv parse c t)
    (hw : Harmless parse t a) : Inv parse c (step parse t a) := by
  obtain hfile | ⟨after, hfile, hfirst⟩ | ⟨v, n, hfile, hbackup⟩ := id hinv
  · cases hread : c.read parse a.luck.reads with
    | none =>
      obtain hsame | ⟨-, hsame | ⟨hbackup, ⟨after, hwritten⟩ | ⟨v, n, hcut⟩⟩⟩ :=
        step_of_unread hw hfile hread
      · rwa [hsame]
      · exact Or.inl hsame
      · exact Or.inr (Or.inl ⟨after, hwritten, Or.inl hbackup⟩)
      · exact Or.inr (Or.inr ⟨v, n, hcut, hbackup⟩)
    | some v =>
      obtain hsame | ⟨before, after, hstates, hstep, hsame⟩ := step_of_harmless_read hw hfile hread
      · rwa [hsame]
      · rw [hstep]
        exact Or.inr (Or.inl ⟨after, rfl, Or.inr ⟨before, hstates, hsame⟩⟩)
  · cases hread : (Contents.json (.obj after)).read parse a.luck.reads with
    | none =>
      obtain hsame | ⟨⟨b, hb⟩, -⟩ := step_of_unread hw hfile hread
      · rwa [hsame]
      · cases hb
    | some v =>
      obtain hsame | ⟨before', after', hstates', hstep, hsame'⟩ :=
        step_of_harmless_read hw hfile hread
      · rwa [hsame]
      · obtain rfl := Json.obj.inj (Option.some.inj hstates')
        rw [hstep]
        refine Or.inr (Or.inl ⟨after', rfl, ?_⟩)
        obtain hbackup | ⟨before, hstates, hsame⟩ := hfirst
        · exact Or.inl hbackup
        · exact Or.inr ⟨before, hstates, hsame.trans hsame'⟩
  · -- what a write has begun is no JSON, and it is not copied over the copy
    have hread : (Contents.cut v n).read parse a.luck.reads = none := by
      cases hreads : a.luck.reads <;> rfl
    obtain hsame | ⟨⟨b, hb⟩, -⟩ := step_of_unread hw hfile hread
    · rwa [hsame]
    · cases hb

theorem available_of_inv {first t : Target} (h : ∀ c, first.file = some c → Inv parse c t) :
    Available parse first t := by
  intro c hfile
  obtain hsame | ⟨after, hwritten, hbackup | ⟨before, hstates, hsame⟩⟩ | ⟨v, n, -, hbackup⟩ :=
    h c hfile
  · exact Or.inl hsame
  · exact Or.inr (Or.inl hbackup)
  · exact Or.inr (Or.inr ⟨before, after, hstates, hwritten, hsame⟩)
  · exact Or.inr (Or.inl hbackup)

/-- What is written in the place of bytes loses them, unless it is the same object. -/
theorem of_available_written {t : Target} {b : Bytes} {luck : Luck} {v : Json}
    (hfile : t.file = some (.bytes b)) (hcopy : t.backup ≠ some (.bytes b)) (hluck : luck ≠ .fails)
    (h : Available parse t (t.written luck v)) :
    luck = .works ∧ ∃ before after, (Contents.bytes b).states parse = some (.obj before) ∧
      v.rewritten = .obj after ∧ SameBut Alike before after := by
  cases luck with
  | works =>
    obtain hsame | hbackup | ⟨before, after, hstates, hafter, hsame⟩ := h _ hfile
    · cases hsame
    · exact absurd hbackup hcopy
    · exact ⟨rfl, before, after, hstates, Contents.json.inj (Option.some.inj hafter), hsame⟩
  | fails => exact absurd rfl hluck
  | cut n =>
    obtain hsame | hbackup | ⟨before, after, -, hafter, -⟩ := h _ hfile
    · cases hsame
    · exact absurd hbackup hcopy
    · cases hafter

/-- A step that is not harmless loses what the user has left, unless a copy is there already. -/
theorem available_step_iff {t : Target} {a : Attempt} {b : Bytes}
    (hfile : t.file = some (.bytes b)) (hcopy : t.backup ≠ some (.bytes b))
    (hreads : a.luck.reads = true) :
    Available parse t (step parse t a) ↔ Harmless parse t a := by
  constructor
  · intro h
    refine ⟨?_, ?_, ?_⟩
    · intro c hc hread hwrite value hwriter
      obtain rfl := Option.some.inj (hfile.symm.trans hc)
      have hstep : step parse t a = t.written a.luck.write
          (.obj (setFields [] [("mcpServers", .obj (setFields [] [("agentvalet", value)]))])) := by
        simp only [step, hwriter, mergeJsonFile, hfile, hread]
        rfl
      rw [hstep] at h
      obtain ⟨-, before, after, hstates, -⟩ := of_available_written hfile hcopy hwrite h
      rw [hreads, read_of_states hstates] at hread
      cases hread
    · intro c hc _ _ _ _
      exact ⟨b, (Option.some.inj (hfile.symm.trans hc)).symm⟩
    · intro c v v' hc hread hadd hwrite
      obtain rfl := Option.some.inj (hfile.symm.trans hc)
      rw [step_of_read hfile hread, hadd] at h
      obtain ⟨hworks, before, after, hstates, hafter, hsame⟩ :=
        of_available_written hfile hcopy hwrite h
      refine ⟨hworks, before, hstates, ?_⟩
      obtain rfl := eq_of_states_of_read hstates hread
      obtain ⟨before', after', hbefore, rfl, hsame'⟩ | ⟨items, hitems, -⟩ := add_cases hadd
      · obtain rfl := Json.obj.inj hbefore
        obtain rfl := Json.obj.inj hafter
        exact (sameBut_rewritten_iff hsame').1 hsame
      · cases hitems
  · intro hw
    apply available_of_inv
    intro c hc
    exact Inv.step (Or.inl hc) hw

end

def rewritten : JsonFile → JsonFile
  | .json v => .json v.rewritten
  | file => file

/-- The same file, but for how often a property is bound. -/
def SameJson (a b : JsonFile) : Prop :=
  a = b ∨ ∃ fields fields', a = .json (.obj fields) ∧ b = .json (.obj fields') ∧
    ∀ key, Json.lookup fields key = Json.lookup fields' key

section
variable (parse : Text → Option Json)

def asJson (file : Option Contents) : JsonFile :=
  match file with
  | none => .absent
  | some c =>
    match c.read parse true with
    | none => .invalid
    | some v => .json v

def existingOf (t : Target) : Json :=
  match t.file with
  | none => .obj []
  | some c => (c.read parse true).getD (.obj [])

theorem existingJson_asJson (t : Target) :
    existingJson (asJson parse t.file) = existingOf parse t := by
  rw [existingOf]
  cases t.file with
  | none => rfl
  | some c =>
    simp only [asJson]
    cases c.read parse true <;> rfl

theorem asJson_of_existing {t : Target} {v : Json} (h : existingOf parse t = v)
    (hne : v ≠ .obj []) : asJson parse t.file = .json v := by
  rw [existingOf] at h
  cases hfile : t.file with
  | none =>
    rw [hfile] at h
    exact absurd h.symm hne
  | some c =>
    rw [hfile] at h
    cases hread : c.read parse true with
    | none =>
      simp only [hread, Option.getD_none] at h
      exact absurd h.symm hne
    | some v' =>
      simp only [hread, Option.getD_some] at h
      rw [← h]
      simp only [asJson, hread]

theorem rewritten_asJson_written (t : Target) (v : Json) :
    rewritten (asJson parse (t.update .works (some v)).file) = rewritten (.json v) :=
  congrArg JsonFile.json (Json.rewritten_rewritten v)

/-- On a file that can be read and written, the merge does what it does on JSON files. -/
theorem sameJson_mergeJsonFile {luck : Lucks} (hreads : luck.reads = true)
    (hwrite : luck.write = .works) (value : Json) (t : Target) :
    SameJson (rewritten (asJson parse (mergeJsonFile parse value luck t).file))
      (rewritten (Identity.mergeJsonFile "agentvalet" value (asJson parse t.file))) := by
  have hrun : mergeJsonFile parse value luck t =
      t.update .works (addServer value (existingOf parse t)) := by
    rw [mergeJsonFile, hreads, hwrite]
    rfl
  rw [hrun, Identity.mergeJsonFile, existingJson_asJson]
  cases hexisting : existingOf parse t with
  | obj fields =>
    have hlookup : property (.obj fields) "mcpServers" =
        some (Json.lookup fields "mcpServers") := rfl
    simp only [addServer, hlookup, Option.bind_eq_bind, Option.bind_some]
    cases hservers : Json.lookup fields "mcpServers" with
    | none => exact Or.inl (rewritten_asJson_written parse t _)
    | some servers =>
      cases servers with
      | null => exact Or.inl (rewritten_asJson_written parse t _)
      | obj servers => exact Or.inl (rewritten_asJson_written parse t _)
      | arr items =>
        right
        have hne : Json.obj fields ≠ .obj [] := by
          rintro ⟨⟩
          cases hservers
        refine ⟨_, Json.rewrittenFields fields, rewritten_asJson_written parse t _, ?_,
          fun key => ?_⟩
        · rw [asJson_of_existing parse hexisting hne]
          rfl
        · rw [Json.lookup_rewrittenFields, Json.lookup_rewrittenFields]
          by_cases hkey : key = "mcpServers"
          · rw [hkey, lookup_set_self, hservers]
          · rw [lookup_set_of_ne _ _ hkey]
      | _ => exact Or.inl rfl
  | arr items =>
    left
    rw [asJson_of_existing parse hexisting (by simp)]
    exact rewritten_asJson_written parse t (.arr items)
  | _ => exact Or.inl rfl

end

def ascii (s : String) : Bytes := s.toList.map fun c => UInt8.ofNat c.toNat

end AgentValet.Identity.ConfigWrites
