import AgentValet.Sdk.SameVariables

namespace AgentValet.Sdk
open Base Lang Identity Mcp
variable {m : Workstation}

def keyVariable (m : Workstation) : Option String :=
  match keySource (TypeScript.readEither m) with
  | .base64 _ => deciding m "AGENT_PRIVATE_KEY_B64"
  | .path _ => deciding m "AGENT_PRIVATE_KEY_PATH"
  | .raw _ => deciding m "AGENT_PRIVATE_KEY"
  | .disk => none

/-- The first difference is in the variable that is read, since those before it are not set. -/
theorem keySource_eq_iff :
    keySource (TypeScript.readEither m) = keySource (Python.readEither m) ↔
      Alike (keyVariable m) := by
  have hunset : ∀ suffix, TypeScript.readEither m suffix = none →
      Python.readEither m suffix = none := by
    intro suffix hnone
    rw [← readEither_of_alike (alike_of_readEither_none hnone), hnone]
  cases hb64 : TypeScript.readEither m "AGENT_PRIVATE_KEY_B64" with
  | some text =>
    simp only [keyVariable, keySource, hb64]
    rw [← readEither_eq_iff, hb64]
    cases Python.readEither m "AGENT_PRIVATE_KEY_B64" with
    | some text' => simp
    | none => grind
  | none =>
    cases hpath : TypeScript.readEither m "AGENT_PRIVATE_KEY_PATH" with
    | some path =>
      simp only [keyVariable, keySource, hb64, hunset _ hb64, hpath]
      rw [← readEither_eq_iff, hpath]
      cases Python.readEither m "AGENT_PRIVATE_KEY_PATH" with
      | some path' => simp
      | none => grind
    | none =>
      cases hraw : TypeScript.readEither m "AGENT_PRIVATE_KEY" with
      | some text =>
        simp only [keyVariable, keySource, hb64, hunset _ hb64, hpath, hunset _ hpath, hraw]
        rw [← readEither_eq_iff, hraw]
        cases Python.readEither m "AGENT_PRIVATE_KEY" with
        | some text' => simp
        | none => simp
      | none =>
        simp only [keyVariable, keySource, hb64, hunset _ hb64, hpath, hunset _ hpath, hraw,
          hunset _ hraw]
        simp [Alike]

def ReadAlike (bytes : Bytes) : Prop :=
  ∃ text, Utf8.strict bytes = some text ∧ AlikeEnds text ∧ '\r' ∉ JavaScript.trim text

/-- Both decode the text, and unless to the same bytes then to bytes of the same key. -/
def Base64Alike (text : List Char) : Prop :=
  ∃ bytes key, Base64.b64decode text = some bytes ∧ Utf8.strict bytes = some key ∧
    if bytes = Base64.fromBase64 text then AlikeEnds key
    else JavaScript.trim (Utf8.lossy (Base64.fromBase64 text)) = Lang.Python.strip key

/-- A path that names no file for TypeScript must name none once `pathlib` has seen it. -/
def SourceAlike (m : Workstation) : KeySource → Prop
  | .base64 text => Base64Alike text.toList
  | .path path =>
    match m.file path with
    | some bytes => ReadAlike bytes
    | none => m.file (pathText path) = none
  | .raw _ => True
  | .disk => ∀ bytes ∈ m.diskKey, ReadAlike bytes

theorem agree_ok_iff {key : String} {x : Except Python.Raised String} :
    Agree (.ok key) x ↔ x = .ok key := by
  cases x with
  | ok key' => exact ⟨fun h => congrArg Except.ok h.symm, fun h => (Except.ok.inj h).symm⟩
  | error e => exact iff_of_false id (by simp)

theorem agree_error_iff {e : ConfigError} {x : Except Python.Raised String} :
    Agree (.error e) x ↔ ∃ e', x = .error (.config e') := by
  cases x with
  | ok key => exact iff_of_false id (by simp)
  | error e' => cases e' <;> simp [Agree]

theorem keyText_ne_config (bytes : Bytes) (e : ConfigError) :
    Python.keyText bytes ≠ .error (.config e) := by
  rw [Python.keyText, Python.decodeUtf8]
  cases Utf8.strict bytes <;> rintro ⟨⟩

/-- Python reads the key that TypeScript reads. -/
theorem keyText_eq_iff (bytes : Bytes) :
    Python.keyText bytes = .ok (TypeScript.keyText bytes) ↔ ReadAlike bytes := by
  rw [Python.keyText, Python.decodeUtf8, TypeScript.keyText, ReadAlike]
  cases hread : Utf8.strict bytes with
  | none => exact iff_of_false (by rintro ⟨⟩) (by rintro ⟨_, ⟨⟩, _⟩)
  | some text =>
    rw [Utf8.lossy_of_strict hread]
    simp only [Option.some.injEq, exists_eq_left', ← trim_eq_strip_universalNewlines_iff]
    constructor
    · intro h
      exact (String.ofList_injective (Except.ok.inj h)).symm
    · intro h
      rw [h]
      rfl

theorem agree_base64_iff (text : String) :
    Agree (TypeScript.keyFrom m (.base64 text)) (Python.keyFrom m (.base64 text)) ↔
      Base64Alike text.toList := by
  rw [TypeScript.keyFrom, agree_ok_iff, Python.keyFrom, Base64Alike]
  cases hdecode : Base64.b64decode text.toList with
  | none => exact iff_of_false (by rintro ⟨⟩) (by rintro ⟨_, _, ⟨⟩, _⟩)
  | some bytes =>
    cases hread : Utf8.strict bytes with
    | none =>
      refine iff_of_false ?_ ?_
      · simp only [Python.decodeUtf8, hread]
        rintro ⟨⟩
      · rintro ⟨_, key, hbytes, hkey, -⟩
        obtain rfl := Option.some.inj hbytes
        rw [hread] at hkey
        cases hkey
    | some key =>
      have hpython : (Except.ok (String.ofList (Lang.Python.strip key)) =
          (Except.ok (TypeScript.keyText (Base64.fromBase64 text.toList)) :
            Except Python.Raised String)) ↔
          JavaScript.trim (Utf8.lossy (Base64.fromBase64 text.toList)) = Lang.Python.strip key := by
        rw [Except.ok.injEq, TypeScript.keyText, String.ofList_inj, eq_comm]
      have hcondition : (if bytes = Base64.fromBase64 text.toList then AlikeEnds key
          else JavaScript.trim (Utf8.lossy (Base64.fromBase64 text.toList)) =
            Lang.Python.strip key) ↔
          JavaScript.trim (Utf8.lossy (Base64.fromBase64 text.toList)) = Lang.Python.strip key := by
        split_ifs with hsame
        · rw [← hsame, Utf8.lossy_of_strict hread, trim_eq_strip_iff]
        · exact Iff.rfl
      simp only [Python.decodeUtf8, hread, Option.some.injEq, exists_and_left, exists_eq_left',
        hcondition]
      exact hpython

theorem agree_path_iff (path : String) :
    Agree (TypeScript.keyFrom m (.path path)) (Python.keyFrom m (.path path)) ↔
      SourceAlike m (.path path) := by
  rw [TypeScript.keyFrom, Python.keyFrom, SourceAlike]
  cases hfile : m.file path with
  | some bytes =>
    simp only [m.file_pathText hfile]
    rw [agree_ok_iff, keyText_eq_iff]
  | none =>
    simp only
    rw [agree_error_iff]
    cases m.file (pathText path) with
    | none => simp
    | some bytes => simp [keyText_ne_config]

/-- An empty file counts as none. -/
theorem typescript_disk {bytes : Bytes} (h : m.diskKey = some bytes) :
    TypeScript.keyFrom m .disk =
      if TypeScript.keyText bytes = "" then .error (noPrivateKey "npx @agentvalet/register")
      else .ok (TypeScript.keyText bytes) := by
  rw [TypeScript.keyFrom, TypeScript.readDiskKey, h, Option.map_some, Option.filter_some]
  by_cases hempty : TypeScript.keyText bytes = ""
  · simp [hempty]
  · simp [hempty]

theorem python_disk {bytes : Bytes} (h : m.diskKey = some bytes) :
    Python.keyFrom m .disk = (Python.keyText bytes).bind fun key =>
      if key = "" then .error (.config (noPrivateKey "agentvalet register")) else .ok key := by
  rw [Python.keyFrom, Python.readDiskKey, h]
  dsimp only
  cases Python.keyText bytes with
  | error e => rfl
  | ok key =>
    by_cases hempty : key = ""
    · subst hempty
      rfl
    · simp only [bind, Except.bind, pure, Except.pure, hempty, if_false]

theorem agree_disk_iff :
    Agree (TypeScript.keyFrom m .disk) (Python.keyFrom m .disk) ↔ SourceAlike m .disk := by
  rw [SourceAlike]
  cases hdisk : m.diskKey with
  | none =>
    rw [TypeScript.keyFrom, TypeScript.readDiskKey, Python.keyFrom, Python.readDiskKey, hdisk]
    exact iff_of_true trivial (by simp)
  | some bytes =>
    rw [typescript_disk hdisk, python_disk hdisk]
    simp only [Option.mem_some_iff, forall_eq', ← keyText_eq_iff]
    cases hkey : Python.keyText bytes with
    | error e =>
      have hne : ∀ e', e ≠ .config e' := by
        rintro e' rfl
        exact keyText_ne_config bytes e' hkey
      split_ifs
      · simp [agree_error_iff, Except.bind, hne]
      · simp [agree_ok_iff, Except.bind]
    | ok key =>
      simp only [Except.bind, Except.ok.injEq]
      split_ifs with hts hpy hpy
      · exact iff_of_true trivial (hpy.trans hts.symm)
      · simp [Agree, hts, hpy]
      · simp [Agree, hpy, Ne.symm hts]
      · exact eq_comm

theorem agree_keyFrom_iff (source : KeySource) :
    Agree (TypeScript.keyFrom m source) (Python.keyFrom m source) ↔ SourceAlike m source := by
  cases source with
  | base64 text => exact agree_base64_iff text
  | path path => exact agree_path_iff path
  | raw text => exact iff_of_true rfl trivial
  | disk => exact agree_disk_iff

/-- Python takes the key from another text, which happens to hold the same one, or none. -/
def SameElsewhere (m : Workstation) : Prop :=
  keySource (TypeScript.readEither m) ≠ keySource (Python.readEither m) ∧
    Agree (TypeScript.keyFrom m (keySource (TypeScript.readEither m)))
      (Python.keyFrom m (keySource (Python.readEither m)))

def SameKey (m : Workstation) : Prop :=
  Alike (keyVariable m) ∧ SourceAlike m (keySource (TypeScript.readEither m)) ∨ SameElsewhere m

theorem agree_privateKeyFromEnv_iff :
    Agree (TypeScript.privateKeyFromEnv m) (Python.privateKeyFromEnv m) ↔ SameKey m := by
  rw [SameKey, SameElsewhere, ← keySource_eq_iff, ← agree_keyFrom_iff, TypeScript.privateKeyFromEnv,
    Python.privateKeyFromEnv]
  by_cases h : keySource (TypeScript.readEither m) = keySource (Python.readEither m)
  · simp only [h, true_and, ne_eq, not_true_eq_false, false_and, or_false]
  · simp only [h, false_and, ne_eq, not_false_eq_true, true_and, false_or]

theorem sameIdentity_iff (m : Workstation) : SameIdentity m ↔
    Alike (deciding m "AGENT_ID") ∧ Alike (deciding m "OWNER_ID") ∧ SameUrl m ∧ SameKey m := by
  rw [← readEither_eq_iff, ← readEither_eq_iff, ← proxyUrlFromEnv_eq_iff,
    ← agree_privateKeyFromEnv_iff]
  exact Iff.rfl

/-- A machine on which the padding of the key has been lost. -/
def unpaddedKey : Workstation where
  env name := if name = "AGENT_PRIVATE_KEY_B64" then some "QQ" else none
  env_ascii := by
    intro name v h c hc
    split_ifs at h
    obtain rfl := Option.some.inj h
    have hq : c = 'Q' := by simpa using hc
    subst hq
    decide
  file _ := none
  file_pathText h := by cases h
  diskKey := none
  nodeReason _ := "ENOENT"
  pythonReason _ := "ENOENT"

theorem unpaddedKey_refused : ¬ SameIdentity unpaddedKey := by
  have hts : TypeScript.privateKeyFromEnv unpaddedKey = .ok "A" := by rfl
  have hpy : Python.privateKeyFromEnv unpaddedKey = .error .binascii := by rfl
  rintro ⟨-, -, -, h⟩
  rw [hts, hpy] at h
  exact h

end AgentValet.Sdk
