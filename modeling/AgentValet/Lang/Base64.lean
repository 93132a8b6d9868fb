import AgentValet.Lang.Utf8
import Mathlib.Data.List.DropRight

namespace AgentValet.Lang.Base64

def sextet (c : Char) : Option ℕ :=
  if 'A' ≤ c ∧ c ≤ 'Z' then some (c.toNat - 65)
  else if 'a' ≤ c ∧ c ≤ 'z' then some (c.toNat - 71)
  else if '0' ≤ c ∧ c ≤ '9' then some (c.toNat + 4)
  else if c = '+' then some 62
  else if c = '/' then some 63
  else none

/-- The bytes that sextets `a`, `b`, `c` and `d` make. -/
def byte₁ (a b : ℕ) : UInt8 := UInt8.ofNat (4 * a + b / 16)
def byte₂ (b c : ℕ) : UInt8 := UInt8.ofNat (16 * (b % 16) + c / 4)
def byte₃ (c d : ℕ) : UInt8 := UInt8.ofNat (64 * (c % 4) + d)

def anySextet (c : Char) : Option ℕ :=
  if c = '-' then some 62 else if c = '_' then some 63 else sextet c

/-- A last sextet that makes no byte is dropped. -/
def pack : List ℕ → Bytes
  | a :: b :: c :: d :: rest => byte₁ a b :: byte₂ b c :: byte₃ c d :: pack rest
  | [a, b, c] => [byte₁ a b, byte₂ b c]
  | [a, b] => [byte₁ a b]
  | [_] => []
  | [] => []

def unpadded (t : List Char) : List Char := t.takeWhile (· ≠ '=')

/-- `Buffer.from(t, "base64")` -/
def fromBase64 (t : List Char) : Bytes := pack ((unpadded t).filterMap anySextet)

def letter (v : ℕ) : Char :=
  if v < 26 then Char.ofNat (v + 65)
  else if v < 52 then Char.ofNat (v + 71)
  else if v < 62 then Char.ofNat (v - 4)
  else if v = 62 then '+'
  else '/'

/-- `bytes.toString("base64")` -/
def toBase64 : Bytes → List Char
  | a :: b :: c :: rest =>
    letter (a.toNat / 4) :: letter (16 * (a.toNat % 4) + b.toNat / 16) ::
      letter (4 * (b.toNat % 16) + c.toNat / 64) :: letter (c.toNat % 64) :: toBase64 rest
  | [a, b] =>
    [letter (a.toNat / 4), letter (16 * (a.toNat % 4) + b.toNat / 16),
      letter (4 * (b.toNat % 16)), '=']
  | [a] => [letter (a.toNat / 4), letter (16 * (a.toNat % 4)), '=', '=']
  | [] => []

theorem letter_spec {v : ℕ} (h : v < 64) : letter v ≠ '=' ∧ anySextet (letter v) = some v := by
  have hall : ∀ v < 64, letter v ≠ '=' ∧ anySextet (letter v) = some v := by decide
  exact hall v h

theorem unpadded_letter {v : ℕ} (h : v < 64) (t : List Char) :
    unpadded (letter v :: t) = letter v :: unpadded t :=
  List.takeWhile_cons_of_pos (by simpa using (letter_spec h).1)

theorem filterMap_letter {v : ℕ} (h : v < 64) (t : List Char) :
    (letter v :: t).filterMap anySextet = v :: t.filterMap anySextet :=
  List.filterMap_cons_some (letter_spec h).2

/-- What is written is read back. -/
theorem fromBase64_toBase64 (bytes : Bytes) : fromBase64 (toBase64 bytes) = bytes := by
  have hbyte : ∀ (a : UInt8) {n : ℕ}, n = a.toNat → UInt8.ofNat n = a := by
    rintro a n rfl
    exact UInt8.ofNat_toNat
  have hlt : ∀ a : UInt8, a.toNat < 256 := UInt8.toNat_lt
  induction bytes using toBase64.induct with
  | case1 a b c rest ih =>
    have ha := hlt a
    have hb := hlt b
    have hc := hlt c
    rw [fromBase64] at ih ⊢
    rw [toBase64]
    simp (disch := omega) only [unpadded_letter, filterMap_letter]
    rw [pack, ih, byte₁, byte₂, byte₃, hbyte a (by omega), hbyte b (by omega), hbyte c (by omega)]
  | case2 a b =>
    have ha := hlt a
    have hb := hlt b
    have hnone : unpadded ['='] = [] := rfl
    rw [fromBase64, toBase64]
    simp (disch := omega) only [unpadded_letter, filterMap_letter, hnone, List.filterMap_nil]
    rw [pack, byte₁, byte₂, hbyte a (by omega), hbyte b (by omega)]
  | case3 a =>
    have ha := hlt a
    have hnone : unpadded ['=', '='] = [] := rfl
    rw [fromBase64, toBase64]
    simp (disch := omega) only [unpadded_letter, filterMap_letter, hnone, List.filterMap_nil]
    rw [pack, byte₁, hbyte a (by omega)]
  | case4 => rfl

theorem toBase64_ne_nil {bytes : Bytes} (h : bytes ≠ []) : toBase64 bytes ≠ [] := by
  induction bytes using toBase64.induct with
  | case4 => exact absurd rfl h
  | _ => rw [toBase64]; exact List.cons_ne_nil _ _

/-- What holds of the letters and of the padding holds of all that is written. -/
theorem forall_mem_toBase64 {P : Char → Prop} (hpad : P '=') (hletter : ∀ v < 64, P (letter v))
    (bytes : Bytes) : ∀ c ∈ toBase64 bytes, P c := by
  have hlt : ∀ a : UInt8, a.toNat < 256 := UInt8.toNat_lt
  induction bytes using toBase64.induct with
  | case1 a b c rest ih =>
    have ha := hlt a
    have hb := hlt b
    have hc := hlt c
    rw [toBase64]
    simp only [List.forall_mem_cons]
    exact ⟨hletter _ (by omega), hletter _ (by omega), hletter _ (by omega),
      hletter _ (by omega), ih⟩
  | case2 a b =>
    have ha := hlt a
    have hb := hlt b
    rw [toBase64]
    simp only [List.forall_mem_cons]
    exact ⟨hletter _ (by omega), hletter _ (by omega), hletter _ (by omega), hpad, by simp⟩
  | case3 a =>
    have ha := hlt a
    rw [toBase64]
    simp only [List.forall_mem_cons]
    exact ⟨hletter _ (by omega), hletter _ (by omega), hpad, hpad, by simp⟩
  | case4 => simp [toBase64]

inductive Token where
  | pad
  | data (v : ℕ)

def token (c : Char) : Option Token := if c = '=' then some .pad else (sextet c).map .data

/-- `place` is the place of the next sextet in its group and `left` the sextet before it.  Padding
ends the data where it completes a group; elsewhere it is passed over. -/
def read (place left pads : ℕ) : List Token → Option Bytes
  | [] => if place = 0 then some [] else none
  | .pad :: rest =>
    if place < 2 then read place left pads rest
    else if 4 ≤ place + (pads + 1) then some []
    else read place left (pads + 1) rest
  | .data v :: rest =>
    match place with
    | 0 => read 1 v 0 rest
    | 1 => (read 2 v 0 rest).map (byte₁ left v :: ·)
    | 2 => (read 3 v 0 rest).map (byte₂ left v :: ·)
    | _ => (read 0 v 0 rest).map (byte₃ left v :: ·)

/-- `base64.b64decode(t)`; `none` is the `binascii.Error`. -/
def b64decode (t : List Char) : Option Bytes := read 0 0 0 (t.filterMap token)

end AgentValet.Lang.Base64
