import AgentValet.Base.Runs
import AgentValet.Identity.Store
import AgentValet.Lang.Disk
import AgentValet.Lang.Replace
import AgentValet.Lang.Rewriting

namespace AgentValet.Identity.ClaudeSettings
open Base Lang JavaScript

def HOOK_COMMAND : String :=
  "npx @agentvalet/register refresh --if-stale --quiet 2>/dev/null || true"

def HOOK_MARKER : Text := "agentvalet/register refresh".toList

def mcpAllows : List String :=
  ["mcp__agentvalet__list_platforms", "mcp__agentvalet__use_platform"]

/-- The fields of an object; `?? \x7b\x7d` for what is not there. -/
def object : Option Json → Fields
  | some (.obj fields) => fields
  | _ => []

/-- The items of an array; `?? []` for what is not there. -/
def array : Option Json → List Json
  | some (.arr items) => items
  | _ => []

def text? : Json → Option String
  | .str s => some s
  | _ => none

def hooksOf (settings : Fields) : Fields := object (storedField settings "hooks")

def entriesOf (settings : Fields) : List Json :=
  array (storedField (hooksOf settings) "UserPromptSubmit")

def permissionsOf (settings : Fields) : Fields := object (storedField settings "permissions")

def allowOf (settings : Fields) : List String :=
  (array (storedField (permissionsOf settings) "allow")).filterMap text?

def commandsIn (entry : Json) : List Text :=
  (array (entry.field? "hooks")).filterMap fun h =>
    ((h.field? "command").bind text?).map String.toList

def marked (command : Text) : Bool := JavaScript.includes command HOOK_MARKER

/-- `e.hooks?.some((h) => h.command?.includes(HOOK_MARKER))` -/
def wired (entry : Json) : Bool := (commandsIn entry).any marked

def arrayOf (p : Json → Bool) : Json → Bool
  | .arr items => items.all p
  | _ => false

def isText (v : Json) : Bool := (text? v).isSome

def hookExpected : Json → Bool
  | .obj hook => (storedField hook "command").all isText
  | _ => false

def entryExpected : Json → Bool
  | .obj entry => (storedField entry "hooks").all (arrayOf hookExpected)
  | _ => false

def hooksExpected : Json → Bool
  | .obj hooks => (storedField hooks "UserPromptSubmit").all (arrayOf entryExpected)
  | _ => false

def permissionsExpected : Json → Bool
  | .obj permissions => (storedField permissions "allow").all (arrayOf isText)
  | _ => false

/-- The properties of the settings, which have the shape that Claude gives them. -/
structure Settings where
  fields : Fields
  hooks : (storedField fields "hooks").all hooksExpected = true
  permissions : (storedField fields "permissions").all permissionsExpected = true

/-- `settings.hooks = \x7b ...hooks, UserPromptSubmit: entries \x7d` -/
def withEntries (settings : Fields) (entries : List Json) : Fields :=
  setFields settings
    [("hooks", .obj (setFields (hooksOf settings) [("UserPromptSubmit", .arr entries)]))]

/-- `perms.allow = allow`, where `perms` is `settings.permissions`. -/
def withAllow (settings : Fields) (allow : List String) : Fields :=
  setFields settings
    [("permissions", .obj (setFields (permissionsOf settings) [("allow", .arr (allow.map .str))]))]

section
variable {settings : Fields} {entries : List Json} {allow : List String} {key : String}

theorem storedField_set_self (fields : Fields) {v : Json} (h : v ≠ .null) :
    storedField (setFields fields [(key, v)]) key = some v := by
  rw [storedField, lookup_set_self]
  cases v with
  | null => exact absurd rfl h
  | _ => rfl

theorem storedField_set_of_ne (fields : Fields) {other : String} (v : Json) (h : other ≠ key) :
    storedField (setFields fields [(key, v)]) other = storedField fields other := by
  rw [storedField, storedField, lookup_set_of_ne fields v h]

theorem hooksOf_withEntries : hooksOf (withEntries settings entries) =
    setFields (hooksOf settings) [("UserPromptSubmit", .arr entries)] := by
  rw [hooksOf, withEntries, storedField_set_self _ (by simp)]
  rfl

@[simp] theorem entriesOf_withEntries : entriesOf (withEntries settings entries) = entries := by
  rw [entriesOf, hooksOf_withEntries, storedField_set_self _ (by simp)]
  rfl

@[simp] theorem permissionsOf_withEntries :
    permissionsOf (withEntries settings entries) = permissionsOf settings := by
  rw [permissionsOf, permissionsOf, withEntries, storedField_set_of_ne _ _ (by decide)]

@[simp] theorem allowOf_withEntries :
    allowOf (withEntries settings entries) = allowOf settings := by
  rw [allowOf, allowOf, permissionsOf_withEntries]

theorem permissionsOf_withAllow : permissionsOf (withAllow settings allow) =
    setFields (permissionsOf settings) [("allow", .arr (allow.map .str))] := by
  rw [permissionsOf, withAllow, storedField_set_self _ (by simp)]
  rfl

@[simp] theorem allowOf_withAllow : allowOf (withAllow settings allow) = allow := by
  rw [allowOf, permissionsOf_withAllow, storedField_set_self _ (by simp), array, List.filterMap_map]
  exact List.filterMap_some

@[simp] theorem hooksOf_withAllow : hooksOf (withAllow settings allow) = hooksOf settings := by
  rw [hooksOf, hooksOf, withAllow, storedField_set_of_ne _ _ (by decide)]

@[simp] theorem entriesOf_withAllow :
    entriesOf (withAllow settings allow) = entriesOf settings := by
  rw [entriesOf, entriesOf, hooksOf_withAllow]

end

namespace Settings

theorem entryExpected_of_mem (s : Settings) : ∀ e ∈ entriesOf s.fields, entryExpected e = true := by
  have hshape := s.hooks
  intro e he
  rw [entriesOf, hooksOf] at he
  cases hhooks : storedField s.fields "hooks" with
  | none =>
    rw [hhooks] at he
    cases he
  | some hooks =>
    rw [hhooks] at he hshape
    cases hooks with
    | obj hooks =>
      rw [Option.all_some, hooksExpected] at hshape
      cases hentries : storedField hooks "UserPromptSubmit" with
      | none =>
        rw [object, hentries] at he
        cases he
      | some entries =>
        rw [object, hentries] at he
        rw [hentries, Option.all_some] at hshape
        cases entries with
        | arr items => exact List.all_eq_true.1 hshape e he
        | _ => cases hshape
    | _ => cases hshape

def setEntries (s : Settings) (entries : List Json)
    (h : ∀ e ∈ entries, entryExpected e = true) : Settings where
  fields := withEntries s.fields entries
  hooks := by
    rw [withEntries, storedField_set_self _ (by simp), Option.all_some, hooksExpected,
      storedField_set_self _ (by simp), Option.all_some, arrayOf, List.all_eq_true]
    exact h
  permissions := by
    rw [withEntries, storedField_set_of_ne _ _ (by decide)]
    exact s.permissions

def setAllow (s : Settings) (allow : List String) : Settings where
  fields := withAllow s.fields allow
  hooks := by
    rw [withAllow, storedField_set_of_ne _ _ (by decide)]
    exact s.hooks
  permissions := by
    rw [withAllow, storedField_set_self _ (by simp), Option.all_some, permissionsExpected,
      storedField_set_self _ (by simp), Option.all_some, arrayOf, List.all_eq_true]
    intro v hv
    obtain ⟨text, -, rfl⟩ := List.mem_map.1 hv
    rfl

end Settings

section
variable (settings fields : Fields) (key : String) (v : Json) (o : Option Json)

theorem object_rewritten : object (o.map Json.rewritten) = Json.rewrittenFields (object o) := by
  cases o with
  | none => rfl
  | some v =>
    cases v with
    | num n =>
      rw [Option.map_some, Json.rewritten]
      cases n.rewritten <;> rfl
    | _ => rfl

theorem array_rewritten : array (o.map Json.rewritten) = (array o).map Json.rewritten := by
  cases o with
  | none => rfl
  | some v =>
    cases v with
    | arr items => exact Json.rewrittenItems_eq items
    | num n =>
      rw [Option.map_some, Json.rewritten]
      cases n.rewritten <;> rfl
    | _ => rfl

theorem text?_rewritten : text? v.rewritten = text? v := by
  cases v with
  | num n =>
    rw [Json.rewritten]
    cases n.rewritten <;> rfl
  | _ => rfl

/-- A number may become null, but neither has properties or items. -/
theorem object_storedField_rewritten :
    object (storedField (Json.rewrittenFields fields) key) =
      Json.rewrittenFields (object (storedField fields key)) := by
  rw [storedField, storedField, Json.lookup_rewrittenFields, ← object_rewritten]
  cases Json.lookup fields key with
  | none => rfl
  | some v =>
    cases v with
    | num n =>
      rw [Option.map_some, Json.rewritten]
      cases hn : n.rewritten with
      | none => simp [Option.filter, Json.rewritten, hn, object]
      | some q => simp [Option.filter, Json.rewritten, hn]
    | _ => rfl

theorem array_storedField_rewritten :
    array (storedField (Json.rewrittenFields fields) key) =
      (array (storedField fields key)).map Json.rewritten := by
  rw [storedField, storedField, Json.lookup_rewrittenFields, ← array_rewritten]
  cases Json.lookup fields key with
  | none => rfl
  | some v =>
    cases v with
    | num n =>
      rw [Option.map_some, Json.rewritten]
      cases hn : n.rewritten with
      | none => simp [Option.filter, Json.rewritten, hn, array]
      | some q => simp [Option.filter, Json.rewritten, hn]
    | _ => rfl

theorem hooksOf_rewritten :
    hooksOf (Json.rewrittenFields settings) = Json.rewrittenFields (hooksOf settings) :=
  object_storedField_rewritten settings "hooks"

theorem entriesOf_rewritten :
    entriesOf (Json.rewrittenFields settings) = (entriesOf settings).map Json.rewritten := by
  rw [entriesOf, hooksOf_rewritten, array_storedField_rewritten, entriesOf]

theorem permissionsOf_rewritten :
    permissionsOf (Json.rewrittenFields settings) = Json.rewrittenFields (permissionsOf settings) :=
  object_storedField_rewritten settings "permissions"

theorem allowOf_rewritten : allowOf (Json.rewrittenFields settings) = allowOf settings := by
  have htext : text? ∘ Json.rewritten = text? := funext text?_rewritten
  rw [allowOf, permissionsOf_rewritten, array_storedField_rewritten, List.filterMap_map, htext,
    allowOf]

theorem commandsIn_rewritten : commandsIn v.rewritten = commandsIn v := by
  rw [commandsIn, commandsIn, Json.field?_rewritten, array_rewritten, List.filterMap_map]
  congr 1
  funext h
  rw [Function.comp_apply, Json.field?_rewritten]
  cases h.field? "command" with
  | none => rfl
  | some c => rw [Option.map_some, Option.bind_some, Option.bind_some, text?_rewritten]

theorem wired_rewritten : wired v.rewritten = wired v := by
  rw [wired, wired, commandsIn_rewritten]

variable {settings fields key v} {p : Json → Bool}

theorem arrayOf_rewritten (hp : ∀ v, p v = true → p v.rewritten = true) :
    arrayOf p v = true → arrayOf p v.rewritten = true := by
  intro h
  cases v with
  | arr items =>
    rw [Json.rewritten, Json.rewrittenItems_eq, arrayOf, List.all_map, List.all_eq_true]
    exact fun v hv => hp v (List.all_eq_true.1 h v hv)
  | _ => cases h

theorem all_storedField_rewritten (hp : ∀ v, p v = true → p v.rewritten = true)
    (h : (storedField fields key).all p = true) :
    (storedField (Json.rewrittenFields fields) key).all p = true := by
  rw [storedField] at h
  rw [storedField, Json.lookup_rewrittenFields]
  cases hlookup : Json.lookup fields key with
  | none => rfl
  | some v =>
    rw [hlookup] at h
    rw [Option.map_some]
    have hv : v.rewritten ≠ .null → p v.rewritten = true := by
      intro hne
      cases v with
      | null => exact absurd rfl hne
      | _ => exact hp _ h
    cases hw : v.rewritten with
    | null => rfl
    | _ => simpa [Option.filter, hw] using hv

theorem isText_rewritten (h : isText v = true) : isText v.rewritten = true := by
  rw [isText, text?_rewritten]
  exact h

theorem hookExpected_rewritten (h : hookExpected v = true) : hookExpected v.rewritten = true := by
  cases v with
  | obj hook => exact all_storedField_rewritten (fun _ => isText_rewritten) h
  | _ => cases h

theorem entryExpected_rewritten (h : entryExpected v = true) :
    entryExpected v.rewritten = true := by
  cases v with
  | obj entry =>
    exact all_storedField_rewritten (fun _ => arrayOf_rewritten fun _ => hookExpected_rewritten) h
  | _ => cases h

theorem hooksExpected_rewritten (h : hooksExpected v = true) :
    hooksExpected v.rewritten = true := by
  cases v with
  | obj hooks =>
    exact all_storedField_rewritten (fun _ => arrayOf_rewritten fun _ => entryExpected_rewritten) h
  | _ => cases h

theorem permissionsExpected_rewritten (h : permissionsExpected v = true) :
    permissionsExpected v.rewritten = true := by
  cases v with
  | obj permissions =>
    exact all_storedField_rewritten (fun _ => arrayOf_rewritten fun _ => isText_rewritten) h
  | _ => cases h

end

/-- The settings as they are written, and read the next time. -/
def Settings.rewritten (s : Settings) : Settings where
  fields := Json.rewrittenFields s.fields
  hooks := all_storedField_rewritten (fun _ => hooksExpected_rewritten) s.hooks
  permissions := all_storedField_rewritten (fun _ => permissionsExpected_rewritten) s.permissions

def newEntry : Json :=
  .obj [("matcher", .str ""),
    ("hooks", .arr [.obj [("type", .str "command"), ("command", .str HOOK_COMMAND)]])]

/-- The hook, unless a command with the marker is there. -/
def wireHook (s : Settings) : Settings :=
  if (entriesOf s.fields).any wired then s
  else
    s.setEntries (entriesOf s.fields ++ [newEntry]) <| by
      intro e he
      obtain he | he := List.mem_append.1 he
      · exact s.entryExpected_of_mem e he
      · rw [List.mem_singleton.1 he]
        decide

def allowTools (s : Settings) : Settings :=
  let missing := mcpAllows.filter fun e => e ∉ allowOf s.fields
  if missing = [] then s else s.setAllow (allowOf s.fields ++ missing)

def Settings.empty : Settings := ⟨[], rfl, rfl⟩

inductive SettingsFile where
  | absent
  /-- It cannot be read, or is no JSON. -/
  | unparseable
  /-- What is read; without `utf8`, bytes of the file were replaced by U+FFFD. -/
  | saved (s : Settings) (utf8 : Bool)

namespace SettingsFile

def fields : SettingsFile → Fields
  | saved s _ => s.fields
  | _ => []

def utf8 : SettingsFile → Bool
  | saved _ utf8 => utf8
  | _ => true

/-- A write that is cut leaves a beginning of the object, which is no JSON. -/
def written (file : SettingsFile) (luck : Luck) (s : Settings) : SettingsFile :=
  match luck with
  | .works => saved s.rewritten true
  | .fails => file
  | .cut _ => unparseable

end SettingsFile

def ensureHook (luck : Luck) (file : SettingsFile) : SettingsFile :=
  match file with
  | .absent => file.written luck (allowTools (wireHook .empty))
  -- left alone
  | .unparseable => file
  | .saved s _ => file.written luck (allowTools (wireHook s))

/-- An entry with the marker goes, and so do the tools on the list. -/
def stripSettings (s : Settings) : Settings :=
  (s.setEntries ((entriesOf s.fields).filter fun e => !wired e) fun e he =>
    s.entryExpected_of_mem e (List.mem_of_mem_filter he)).setAllow
      ((allowOf s.fields).filter fun e => !"mcp__agentvalet__".toList.isPrefixOf e.toList)

def stripSettingsJson (luck : Luck) (file : SettingsFile) : SettingsFile :=
  match file with
  | .saved s _ => file.written luck (stripSettings s)
  | _ => file

def userCommandsIn (entry : Json) : List Text := (commandsIn entry).filter fun c => !marked c

def userCommands (settings : Fields) : List Text := (entriesOf settings).flatMap userCommandsIn

def ours (e : String) : Bool := "mcp__agentvalet__".toList.isPrefixOf e.toList

def userAllow (settings : Fields) : List String := (allowOf settings).filter fun e => !ours e

/-- What is the user's is still there, and in its order: the commands and the entries of the list,
and each of the other properties as `same` says. -/
structure Kept (same : Option Json → Option Json → Prop) (before after : Fields) : Prop where
  commands : userCommands after = userCommands before
  allow : userAllow after = userAllow before
  events : ∀ key, key ≠ "UserPromptSubmit" →
    same (Json.lookup (hooksOf after) key) (Json.lookup (hooksOf before) key)
  permissions : ∀ key, key ≠ "allow" →
    same (Json.lookup (permissionsOf after) key) (Json.lookup (permissionsOf before) key)
  keys : ∀ key, key ≠ "hooks" → key ≠ "permissions" →
    same (Json.lookup after key) (Json.lookup before key)

section
variable {same : Option Json → Option Json → Prop} {before after later : Fields}

theorem Kept.refl (hsame : ∀ v, same v v) (settings : Fields) : Kept same settings settings where
  commands := rfl
  allow := rfl
  events _ _ := hsame _
  permissions _ _ := hsame _
  keys _ _ _ := hsame _

theorem Kept.trans (h : Kept Eq before after) (h' : Kept Eq after later) :
    Kept Eq before later where
  commands := h'.commands.trans h.commands
  allow := h'.allow.trans h.allow
  events key hkey := (h'.events key hkey).trans (h.events key hkey)
  permissions key hkey := (h'.permissions key hkey).trans (h.permissions key hkey)
  keys key hhooks hperms := (h'.keys key hhooks hperms).trans (h.keys key hhooks hperms)

theorem kept_withEntries {entries : List Json}
    (h : entries.flatMap userCommandsIn = userCommands before) :
    Kept Eq before (withEntries before entries) where
  commands := by rw [userCommands, entriesOf_withEntries, h]
  allow := by rw [userAllow, userAllow, allowOf_withEntries]
  events key hkey := by rw [hooksOf_withEntries, lookup_set_of_ne _ _ hkey]
  permissions key _ := by rw [permissionsOf_withEntries]
  keys key hhooks _ := lookup_set_of_ne _ _ hhooks

theorem kept_withAllow {allow : List String}
    (h : (allow.filter fun e => !ours e) = userAllow before) :
    Kept Eq before (withAllow before allow) where
  commands := by rw [userCommands, userCommands, entriesOf_withAllow]
  allow := by rw [userAllow, allowOf_withAllow, h]
  events key _ := by rw [hooksOf_withAllow]
  permissions key hkey := by rw [permissionsOf_withAllow, lookup_set_of_ne _ _ hkey]
  keys key _ hperms := lookup_set_of_ne _ _ hperms

/-- Every number in the user's other properties is written as it was read. -/
structure NumbersKept (settings : Fields) : Prop where
  events : ∀ key, key ≠ "UserPromptSubmit" →
    ∀ v, Json.lookup (hooksOf settings) key = some v → v.NumbersKept
  permissions : ∀ key, key ≠ "allow" →
    ∀ v, Json.lookup (permissionsOf settings) key = some v → v.NumbersKept
  keys : ∀ key, key ≠ "hooks" → key ≠ "permissions" →
    ∀ v, Json.lookup settings key = some v → v.NumbersKept

theorem userCommands_rewritten (settings : Fields) :
    userCommands (Json.rewrittenFields settings) = userCommands settings := by
  rw [userCommands, entriesOf_rewritten, List.flatMap_map, userCommands]
  congr 1
  funext e
  rw [userCommandsIn, commandsIn_rewritten, userCommandsIn]

/-- What was kept up to here is kept in the file if its numbers are. -/
theorem kept_rewritten_iff (h : Kept Eq before after) :
    Kept (Option.Rel Json.Same) before (Json.rewrittenFields after) ↔ NumbersKept before := by
  have hlookup : ∀ {fields fields' : Fields} {key : String},
      Json.lookup fields' key = Json.lookup fields key →
        (Option.Rel Json.Same (Json.lookup (Json.rewrittenFields fields') key)
            (Json.lookup fields key) ↔
          ∀ v, Json.lookup fields key = some v → v.NumbersKept) := by
    intro fields fields' key hkey
    rw [Json.lookup_rewrittenFields, hkey, Json.rel_same_rewritten_iff]
  constructor
  · intro hkept
    have hevents := hkept.events
    have hpermissions := hkept.permissions
    rw [hooksOf_rewritten] at hevents
    rw [permissionsOf_rewritten] at hpermissions
    exact ⟨fun key hkey => (hlookup (h.events key hkey)).1 (hevents key hkey),
      fun key hkey => (hlookup (h.permissions key hkey)).1 (hpermissions key hkey),
      fun key hhooks hperms =>
        (hlookup (h.keys key hhooks hperms)).1 (hkept.keys key hhooks hperms)⟩
  · intro hnumbers
    refine ⟨?_, ?_, fun key hkey => ?_, fun key hkey => ?_, fun key hhooks hperms => ?_⟩
    · rw [userCommands_rewritten, h.commands]
    · rw [userAllow, allowOf_rewritten]
      exact h.allow
    · rw [hooksOf_rewritten]
      exact (hlookup (h.events key hkey)).2 (hnumbers.events key hkey)
    · rw [permissionsOf_rewritten]
      exact (hlookup (h.permissions key hkey)).2 (hnumbers.permissions key hkey)
    · exact (hlookup (h.keys key hhooks hperms)).2 (hnumbers.keys key hhooks hperms)

end

theorem kept_wireHook (s : Settings) : Kept Eq s.fields (wireHook s).fields := by
  unfold wireHook
  split_ifs with hwired
  · exact Kept.refl (fun _ => rfl) _
  · apply kept_withEntries
    have hnew : userCommandsIn newEntry = [] := by decide
    rw [List.flatMap_append, List.flatMap_singleton, hnew, List.append_nil]
    rfl

theorem kept_allowTools (s : Settings) : Kept Eq s.fields (allowTools s).fields := by
  unfold allowTools
  dsimp only
  split_ifs with hmissing
  · exact Kept.refl (fun _ => rfl) _
  · apply kept_withAllow
    have hours : ∀ e ∈ mcpAllows, ours e = true := by decide
    have hmissing : ((mcpAllows.filter fun e => e ∉ allowOf s.fields).filter fun e => !ours e) =
        [] := by
      rw [List.filter_eq_nil_iff]
      intro e he
      simp [hours e (List.mem_of_mem_filter he)]
    rw [List.filter_append, hmissing, List.append_nil, userAllow]

theorem wired_wireHook (s : Settings) : (entriesOf (wireHook s).fields).any wired = true := by
  unfold wireHook
  split_ifs with hwired
  · exact hwired
  · have hnew : wired newEntry = true := by decide
    simp [Settings.setEntries, hnew]

theorem entriesOf_allowTools (s : Settings) :
    entriesOf (allowTools s).fields = entriesOf s.fields := by
  unfold allowTools
  dsimp only
  split_ifs
  · rfl
  · exact entriesOf_withAllow

theorem allowed_allowTools (s : Settings) : ∀ e ∈ mcpAllows, e ∈ allowOf (allowTools s).fields := by
  intro e he
  unfold allowTools
  dsimp only
  split_ifs with hmissing
  · simpa using (List.filter_eq_nil_iff.1 hmissing) e he
  · rw [Settings.setAllow, allowOf_withAllow, List.mem_append, List.mem_filter]
    by_cases hthere : e ∈ allowOf s.fields
    · exact Or.inl hthere
    · exact Or.inr ⟨he, by simpa using hthere⟩

theorem wireHook_of_wired {s : Settings} (h : (entriesOf s.fields).any wired = true) :
    wireHook s = s :=
  if_pos h

theorem allowTools_of_allowed {s : Settings} (h : ∀ e ∈ mcpAllows, e ∈ allowOf s.fields) :
    allowTools s = s := by
  apply if_pos
  rw [List.filter_eq_nil_iff]
  intro e he
  simpa using h e he

theorem rewritten_rewritten (s : Settings) : s.rewritten.rewritten = s.rewritten := by
  have hfields : s.rewritten.rewritten.fields = s.rewritten.fields :=
    Json.rewrittenFields_rewrittenFields s.fields
  rw [Settings.mk.injEq]
  exact hfields

/-- A second refresh changes nothing. -/
theorem ensureHook_ensureHook (file : SettingsFile) :
    ensureHook .works (ensureHook .works file) = ensureHook .works file := by
  have hagain : ∀ s, ensureHook .works (.saved (allowTools (wireHook s)).rewritten true) =
      .saved (allowTools (wireHook s)).rewritten true := by
    intro s
    have hwired : (entriesOf (allowTools (wireHook s)).rewritten.fields).any wired = true := by
      rw [Settings.rewritten, entriesOf_rewritten, List.any_map, entriesOf_allowTools]
      have hany := wired_wireHook s
      rwa [← funext wired_rewritten] at hany
    have hallowed : ∀ e ∈ mcpAllows, e ∈ allowOf (allowTools (wireHook s)).rewritten.fields := by
      rw [Settings.rewritten, allowOf_rewritten]
      exact allowed_allowTools (wireHook s)
    rw [ensureHook, wireHook_of_wired hwired, allowTools_of_allowed hallowed,
      SettingsFile.written, rewritten_rewritten]
  cases file with
  | absent => exact hagain .empty
  | unparseable => rfl
  | saved s utf8 => exact hagain s

theorem filter_flatMap_eq_iff {α β : Type} (p : α → Bool) (f : α → List β) (l : List α) :
    (l.filter p).flatMap f = l.flatMap f ↔ ∀ a ∈ l, p a = false → f a = [] := by
  induction l with
  | nil => simp
  | cons a l ih =>
    rw [List.forall_mem_cons, ← ih, List.flatMap_cons, List.filter_cons]
    cases ha : p a with
    | true => simp
    | false =>
      have hle : ((l.filter p).flatMap f).length ≤ (l.flatMap f).length :=
        (List.filter_sublist.flatMap f).length_le
      simp only [Bool.false_eq_true, if_false, forall_const]
      constructor
      · intro h
        have hlength := congrArg List.length h
        rw [List.length_append] at hlength
        have hnil : f a = [] := List.eq_nil_of_length_eq_zero (by omega)
        rw [hnil, List.nil_append] at h
        exact ⟨hnil, h⟩
      · rintro ⟨hnil, h⟩
        rw [hnil, List.nil_append]
        exact h

/-- No entry with a command of AgentValet has one of the user's. -/
def Unmixed (settings : Fields) : Prop :=
  ∀ e ∈ entriesOf settings, wired e = true → userCommandsIn e = []

theorem stripSettings_commands_iff (s : Settings) :
    userCommands (stripSettings s).fields = userCommands s.fields ↔ Unmixed s.fields := by
  have hentries : entriesOf (stripSettings s).fields =
      (entriesOf s.fields).filter fun e => !wired e := by
    rw [stripSettings, Settings.setAllow, entriesOf_withAllow, Settings.setEntries,
      entriesOf_withEntries]
  rw [userCommands, hentries, userCommands, filter_flatMap_eq_iff, Unmixed]
  simp only [Bool.not_eq_false']

theorem kept_stripSettings_iff (s : Settings) :
    Kept (Option.Rel Json.Same) s.fields (stripSettings s).rewritten.fields ↔
      Unmixed s.fields ∧ NumbersKept s.fields := by
  have hstrip : Unmixed s.fields → Kept Eq s.fields (stripSettings s).fields := by
    intro h
    have hentries : Kept Eq s.fields (withEntries s.fields
        ((entriesOf s.fields).filter fun e => !wired e)) := by
      apply kept_withEntries
      rw [userCommands, filter_flatMap_eq_iff]
      simpa [Unmixed] using h
    refine hentries.trans (kept_withAllow ?_)
    rw [List.filter_filter, userAllow, allowOf_withEntries]
    simp only [ours, Bool.and_self]
  constructor
  · intro h
    have hcommands := h.commands
    rw [Settings.rewritten, userCommands_rewritten, stripSettings_commands_iff] at hcommands
    exact ⟨hcommands, (kept_rewritten_iff (hstrip hcommands)).1 h⟩
  · rintro ⟨hunmixed, hnumbers⟩
    exact (kept_rewritten_iff (hstrip hunmixed)).2 hnumbers

theorem not_marked_iff (fields : Fields) :
    (∀ e ∈ entriesOf fields, ∀ c ∈ commandsIn e, marked c = false) ↔
      ∀ e ∈ entriesOf fields, wired e = false := by
  simp only [wired, List.any_eq_false, Bool.not_eq_true]

theorem not_wired_stripSettings (s : Settings) :
    ∀ e ∈ entriesOf (stripSettings s).rewritten.fields, wired e = false := by
  intro e he
  rw [Settings.rewritten, entriesOf_rewritten, List.mem_map] at he
  obtain ⟨e, he, rfl⟩ := he
  rw [stripSettings, Settings.setAllow, entriesOf_withAllow, Settings.setEntries,
    entriesOf_withEntries, List.mem_filter, Bool.not_eq_true'] at he
  rw [wired_rewritten]
  exact he.2

inductive Action where
  | ensureHook (luck : Luck)
  | stripSettingsJson (luck : Luck)
  /-- The user saves settings of the expected shape. -/
  | edit (s : Settings) (utf8 : Bool)

def step (file : SettingsFile) : Action → SettingsFile
  | .ensureHook luck => ensureHook luck file
  | .stripSettingsJson luck => stripSettingsJson luck file
  | .edit s utf8 => .saved s utf8

/-- The file is the same, or no byte of it was replaced and the user's part is in the new one. -/
def FileKept (before after : SettingsFile) : Prop :=
  after = before ∨
    before.utf8 = true ∧ Kept (Option.Rel Json.Same) before.fields after.fields

theorem FileKept.userCommands_eq {before after : SettingsFile} (h : FileKept before after) :
    userCommands after.fields = userCommands before.fields := by
  obtain rfl | ⟨-, hkept⟩ := h
  · rfl
  · exact hkept.commands

def Preserves (file : SettingsFile) : Action → Prop
  | .ensureHook luck =>
    FileKept file (ensureHook luck file) ∧
      ensureHook .works (ensureHook .works file) = ensureHook .works file
  | .stripSettingsJson luck =>
    FileKept file (stripSettingsJson luck file) ∧
      ∀ e ∈ entriesOf (stripSettingsJson luck file).fields, ∀ c ∈ commandsIn e, marked c = false
  | .edit _ _ => True

structure Bare (settings : Fields) : Prop where
  commands : userCommands settings = []
  allow : userAllow settings = []
  events : ∀ key, key ≠ "UserPromptSubmit" → Json.lookup (hooksOf settings) key = none
  permissions : ∀ key, key ≠ "allow" → Json.lookup (permissionsOf settings) key = none
  keys : ∀ key, key ≠ "hooks" → key ≠ "permissions" → Json.lookup settings key = none

def Writable (luck : Luck) (file : SettingsFile) : Prop :=
  match luck with
  | .works => file.utf8 = true ∧ NumbersKept file.fields
  | .fails => True
  | .cut _ => file.utf8 = true ∧ Bare file.fields

/-- The condition on a step: its write keeps all of the file, and an uninstall that works finds no
entry in which a command of the user's is next to one of AgentValet's. -/
def Harmless (file : SettingsFile) : Action → Prop
  | .ensureHook luck =>
    match file with
    | .unparseable => True
    | _ => Writable luck file
  | .stripSettingsJson luck =>
    match file with
    | .saved s _ =>
      Writable luck file ∧
        match luck with
        | .works => Unmixed s.fields
        | .fails => ∀ e ∈ entriesOf s.fields, wired e = false
        | .cut _ => True
    | _ => True
  | .edit _ _ => True

theorem kept_nil_iff (settings : Fields) :
    Kept (Option.Rel Json.Same) settings [] ↔ Bare settings := by
  have hrel : ∀ o : Option Json, Option.Rel Json.Same none o ↔ o = none := by
    intro o
    constructor
    · rintro ⟨⟩
      rfl
    · rintro rfl
      exact .none
  have hcommands : userCommands [] = [] := rfl
  have hallow : userAllow [] = [] := rfl
  constructor
  · intro h
    exact ⟨h.commands.symm, h.allow.symm, fun key hkey => (hrel _).1 (h.events key hkey),
      fun key hkey => (hrel _).1 (h.permissions key hkey),
      fun key hhooks hperms => (hrel _).1 (h.keys key hhooks hperms)⟩
  · intro h
    exact ⟨h.commands.symm, h.allow.symm, fun key hkey => (hrel _).2 (h.events key hkey),
      fun key hkey => (hrel _).2 (h.permissions key hkey),
      fun key hhooks hperms => (hrel _).2 (h.keys key hhooks hperms)⟩

/-- A file that is the same after a write that works had nothing to lose. -/
theorem fileKept_written_works_iff {file : SettingsFile} {s : Settings} :
    FileKept file (file.written .works s) ↔
      file.utf8 = true ∧ Kept (Option.Rel Json.Same) file.fields s.rewritten.fields := by
  constructor
  · rintro (h | h)
    · have hfields : s.rewritten.fields = file.fields := congrArg SettingsFile.fields h
      rw [hfields]
      refine ⟨?_, Kept.refl Json.rel_same_refl _⟩
      rw [← h]
      rfl
    · exact h
  · exact Or.inr

theorem fileKept_unparseable_iff {file : SettingsFile} (h : file ≠ .unparseable) :
    FileKept file .unparseable ↔ file.utf8 = true ∧ Bare file.fields := by
  rw [FileKept, or_iff_right h.symm]
  exact and_congr_right fun _ => kept_nil_iff _

theorem fileKept_ensureHook_iff {file : SettingsFile} {luck : Luck} {s : Settings}
    (hfile : file ≠ .unparseable) (hs : s.fields = file.fields) :
    FileKept file (file.written luck (allowTools (wireHook s))) ↔ Writable luck file := by
  cases luck with
  | works =>
    rw [fileKept_written_works_iff, Settings.rewritten, ← hs,
      kept_rewritten_iff ((kept_wireHook s).trans (kept_allowTools _)), hs]
    rfl
  | fails => exact iff_of_true (Or.inl rfl) trivial
  | cut n => exact fileKept_unparseable_iff hfile

theorem preserves_iff (file : SettingsFile) (action : Action) :
    Preserves file action ↔ Harmless file action := by
  cases action with
  | ensureHook luck =>
    rw [Preserves, and_iff_left (ensureHook_ensureHook file)]
    cases file with
    | absent => exact fileKept_ensureHook_iff (s := .empty) (fun h => by cases h) rfl
    | unparseable => exact iff_of_true (Or.inl rfl) trivial
    | saved s utf8 => exact fileKept_ensureHook_iff (fun h => by cases h) rfl
  | stripSettingsJson luck =>
    cases file with
    | saved s utf8 =>
      rw [Preserves, not_marked_iff]
      cases luck with
      | works =>
        rw [stripSettingsJson, fileKept_written_works_iff, SettingsFile.fields,
          kept_stripSettings_iff]
        constructor
        · rintro ⟨⟨hutf8, hunmixed, hnumbers⟩, -⟩
          exact ⟨⟨hutf8, hnumbers⟩, hunmixed⟩
        · rintro ⟨⟨hutf8, hnumbers⟩, hunmixed⟩
          exact ⟨⟨hutf8, hunmixed, hnumbers⟩, not_wired_stripSettings s⟩
      | fails => exact and_congr (iff_of_true (Or.inl rfl) trivial) Iff.rfl
      | cut n =>
        refine and_congr (fileKept_unparseable_iff fun h => by cases h) ?_
        exact iff_of_true (fun e he => absurd he List.not_mem_nil) trivial
    | absent =>
      exact iff_of_true ⟨Or.inl rfl, fun e he => absurd he List.not_mem_nil⟩ trivial
    | unparseable =>
      exact iff_of_true ⟨Or.inl rfl, fun e he => absurd he List.not_mem_nil⟩ trivial
  | edit s utf8 => exact Iff.rfl

/-- In a run every step preserves what is the user's exactly if every step meets the condition. -/
theorem along_preserves_iff (file : SettingsFile) (actions : List Action) :
    Along step Preserves file actions ↔ Along step Harmless file actions :=
  Along.congr preserves_iff file actions

/-- What a refresh writes, and a command that the user has added to its entry. -/
def mixedSettings : Settings where
  fields := [("hooks", .obj [("UserPromptSubmit", .arr [.obj [("matcher", .str ""),
      ("hooks", .arr [.obj [("type", .str "command"), ("command", .str HOOK_COMMAND)],
        .obj [("type", .str "command"), ("command", .str "date")]])]])]),
    ("permissions", .obj [("allow", .arr (mcpAllows.map .str))])]
  hooks := by decide
  permissions := by decide

theorem command_lost :
    userCommands mixedSettings.fields = ["date".toList] ∧
      userCommands (stripSettingsJson .works (.saved mixedSettings true)).fields = [] ∧
      ¬ Along step Preserves .absent
        [.ensureHook .works, .edit mixedSettings true, .stripSettingsJson .works] := by
  have hbefore : userCommands mixedSettings.fields = ["date".toList] := by decide
  have hafter :
      userCommands (stripSettingsJson .works (.saved mixedSettings true)).fields = [] := by
    rw [stripSettingsJson, SettingsFile.written, SettingsFile.fields, Settings.rewritten,
      userCommands_rewritten]
    decide
  refine ⟨hbefore, hafter, ?_⟩
  rintro ⟨-, -, ⟨hkept, -⟩, -⟩
  have hcommands : userCommands (stripSettingsJson .works (.saved mixedSettings true)).fields =
      userCommands mixedSettings.fields := hkept.userCommands_eq
  rw [hbefore, hafter] at hcommands
  cases hcommands

end AgentValet.Identity.ClaudeSettings
