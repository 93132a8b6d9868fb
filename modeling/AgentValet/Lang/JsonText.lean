import Mathlib.Data.Fin.Basic
import Mathlib.Data.List.Basic

namespace AgentValet.Lang

abbrev CodeUnit := Fin 65536

abbrev JsString := List CodeUnit

def unit (c : Char) : CodeUnit := Fin.ofNat 65536 c.toNat

def ascii (s : String) : JsString := s.toList.map unit

namespace JavaScript

def isLead (u : CodeUnit) : Bool := 0xD800 ≤ u.val && u.val < 0xDC00

def isTrail (u : CodeUnit) : Bool := 0xDC00 ≤ u.val && u.val < 0xE000

def hexDigit (d : ℕ) : CodeUnit := Fin.ofNat 65536 (if d < 10 then 48 + d else 87 + d)

def hex4 (n : ℕ) : JsString :=
  [hexDigit (n / 4096 % 16), hexDigit (n / 256 % 16), hexDigit (n / 16 % 16), hexDigit (n % 16)]

def escapeLetter? (u : CodeUnit) : Option CodeUnit :=
  if u = 8 then some (unit 'b')
  else if u = 9 then some (unit 't')
  else if u = 10 then some (unit 'n')
  else if u = 12 then some (unit 'f')
  else if u = 13 then some (unit 'r')
  else if u = unit '"' then some (unit '"')
  else if u = unit '\\' then some (unit '\\')
  else none

/-- One code unit in a JSON literal, when it is not half of a surrogate pair. -/
def escapeUnit (u : CodeUnit) : JsString :=
  match escapeLetter? u with
  | some letter => [unit '\\', letter]
  | none =>
    if u.val < 0x20 || isLead u || isTrail u then unit '\\' :: unit 'u' :: hex4 u.val else [u]

def escape : JsString → JsString
  | [] => []
  | [u] => escapeUnit u
  | u :: v :: rest =>
    if isLead u && isTrail v then u :: v :: escape rest else escapeUnit u ++ escape (v :: rest)

/-- `JSON.stringify` of a string. -/
def stringify (s : JsString) : JsString := unit '"' :: escape s ++ [unit '"']

def hexValue (u : CodeUnit) : ℕ := if u.val < 58 then u.val - 48 else u.val - 87

def letterValue (u : CodeUnit) : CodeUnit :=
  if u = unit 'b' then 8
  else if u = unit 't' then 9
  else if u = unit 'n' then 10
  else if u = unit 'f' then 12
  else if u = unit 'r' then 13
  else u

/-- The first unit that the inside of a literal stands for; none at its closing quote. -/
def readUnit : JsString → Option (CodeUnit × JsString)
  | [] => none
  | u :: rest =>
    if u = unit '"' then none
    else if u = unit '\\' then
      match rest with
      | [] => none
      | v :: rest =>
        if v = unit 'u' then
          match rest with
          | a :: b :: c :: d :: rest =>
            some (Fin.ofNat 65536
              (hexValue a * 4096 + hexValue b * 256 + hexValue c * 16 + hexValue d), rest)
          | _ => none
        else some (letterValue v, rest)
    else some (u, rest)

theorem hexValue_hexDigit : ∀ d < 16, hexValue (hexDigit d) = d := by decide

/-- The two-unit escapes are not the hexadecimal one, and name their unit. -/
theorem letterValue_of_escapeLetter? {u v : CodeUnit} (h : escapeLetter? u = some v) :
    v ≠ unit 'u' ∧ letterValue v = u := by
  unfold escapeLetter? at h
  split_ifs at h <;> (obtain rfl := Option.some.inj h; subst_vars; decide)

theorem readUnit_plain {u : CodeUnit} (h : escapeLetter? u = none) (r : JsString) :
    readUnit (u :: r) = some (u, r) := by
  unfold escapeLetter? at h
  split_ifs at h with h1 h2 h3 h4 h5 hquote hback
  simp only [readUnit.eq_def, if_neg hquote, if_neg hback]

theorem readUnit_escapeUnit (u : CodeUnit) (r : JsString) :
    readUnit (escapeUnit u ++ r) = some (u, r) := by
  unfold escapeUnit
  split
  next letter hletter =>
    obtain ⟨hne, hvalue⟩ := letterValue_of_escapeLetter? hletter
    simp only [List.cons_append, List.nil_append, readUnit, if_neg hne, hvalue]
    rfl
  next hletter =>
    split_ifs with hhex
    · have hval : Fin.ofNat 65536 (u.val / 4096 % 16 * 4096 + u.val / 256 % 16 * 256 +
          u.val / 16 % 16 * 16 + u.val % 16) = u := by
        apply Fin.ext
        simp only [Fin.ofNat]
        omega
      have hmod : ∀ n, hexValue (hexDigit (n % 16)) = n % 16 :=
        fun n => hexValue_hexDigit _ (Nat.mod_lt _ (by decide))
      simp only [hex4, List.cons_append, List.nil_append, readUnit, hmod, hval, if_pos]
      rfl
    · exact readUnit_plain hletter r

theorem escapeLetter?_of_surrogate {u : CodeUnit} (h : isLead u = true ∨ isTrail u = true) :
    escapeLetter? u = none := by
  have hval : 0xD800 ≤ u.val := by
    simp only [isLead, isTrail, Bool.and_eq_true, decide_eq_true_eq] at h
    omega
  have hne : ∀ v : CodeUnit, v.val < 0xD800 → u ≠ v := by
    rintro v hv rfl
    omega
  unfold escapeLetter?
  simp only [hne 8 (by decide), hne 9 (by decide), hne 10 (by decide), hne 12 (by decide),
    hne 13 (by decide), hne (unit '"') (by decide), hne (unit '\\') (by decide), if_false]

/-- The rest of a literal says these units, and then its closing quote. -/
inductive Spells : JsString → JsString → JsString → Prop where
  | close (r : JsString) : Spells (unit '"' :: r) [] r
  | next {text text' s r : JsString} {u : CodeUnit} :
      readUnit text = some (u, text') → Spells text' s r → Spells text (u :: s) r

theorem Spells.unique {text s r s' r' : JsString} (h : Spells text s r)
    (h' : Spells text s' r') : s = s' ∧ r = r' := by
  induction h generalizing s' with
  | close r =>
    cases h' with
    | close => exact ⟨rfl, rfl⟩
    | next hread _ => cases hread
  | next hread _ ih =>
    cases h' with
    | close => cases hread
    | next hread' h' =>
      obtain ⟨rfl, rfl⟩ := Prod.mk.inj (Option.some.inj (hread.symm.trans hread'))
      obtain ⟨rfl, rfl⟩ := ih h'
      exact ⟨rfl, rfl⟩

theorem spells_escape (s r : JsString) : Spells (escape s ++ unit '"' :: r) s r := by
  induction s using escape.induct with
  | case1 => exact .close r
  | case2 u => exact .next (readUnit_escapeUnit u _) (.close r)
  | case3 u v rest hpair ih =>
    -- a pair stands in the literal as it is
    have hlead : isLead u = true := (Bool.and_eq_true_iff.1 hpair).1
    have htrail : isTrail v = true := (Bool.and_eq_true_iff.1 hpair).2
    rw [escape, if_pos hpair]
    exact .next (readUnit_plain (escapeLetter?_of_surrogate (.inl hlead)) _)
      (.next (readUnit_plain (escapeLetter?_of_surrogate (.inr htrail)) _) ih)
  | case4 u v rest hpair ih =>
    rw [escape, if_neg hpair, List.append_assoc]
    exact .next (readUnit_escapeUnit u _) ih

/-- A literal says its string and where it ends, whatever follows. -/
theorem stringify_append_inj {s t r r' : JsString}
    (h : stringify s ++ r = stringify t ++ r') : s = t ∧ r = r' := by
  simp only [stringify, List.cons_append, List.append_assoc, List.nil_append, List.cons.injEq,
    true_and] at h
  have hs : Spells (escape s ++ unit '"' :: r) s r := spells_escape s r
  have ht : Spells (escape t ++ unit '"' :: r') t r' := spells_escape t r'
  rw [h] at hs
  exact hs.unique ht

end JavaScript

end AgentValet.Lang
