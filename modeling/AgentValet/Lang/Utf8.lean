import Mathlib.Tactic.Common

namespace AgentValet.Lang

abbrev Bytes := List UInt8

namespace Utf8

/-- A character that lacks bytes: its bits so far, what the next byte has to be, and how many
bytes come behind that one. -/
structure Unfinished where
  bits : ℕ
  low : ℕ
  high : ℕ
  more : ℕ

/-- A first byte; `none` stands for what is no character. -/
def first (b : ℕ) : List (Option Char) × Option Unfinished :=
  if b ≤ 0x7F then ([some (Char.ofNat b)], none)
  else if 0xC2 ≤ b ∧ b ≤ 0xDF then ([], some ⟨b - 0xC0, 0x80, 0xBF, 0⟩)
  else if b = 0xE0 then ([], some ⟨0, 0xA0, 0xBF, 1⟩)
  else if b = 0xED then ([], some ⟨0xD, 0x80, 0x9F, 1⟩)
  else if 0xE1 ≤ b ∧ b ≤ 0xEF then ([], some ⟨b - 0xE0, 0x80, 0xBF, 1⟩)
  else if b = 0xF0 then ([], some ⟨0, 0x90, 0xBF, 2⟩)
  else if b = 0xF4 then ([], some ⟨4, 0x80, 0x8F, 2⟩)
  else if 0xF1 ≤ b ∧ b ≤ 0xF3 then ([], some ⟨b - 0xF0, 0x80, 0xBF, 2⟩)
  else ([none], none)

/-- A byte that does not fit is taken for a first one. -/
def step (u : Option Unfinished) (b : ℕ) : List (Option Char) × Option Unfinished :=
  match u with
  | none => first b
  | some u =>
    if u.low ≤ b ∧ b ≤ u.high then
      let bits := 64 * u.bits + (b - 0x80)
      match u.more with
      | 0 => ([some (Char.ofNat bits)], none)
      | more + 1 => ([], some ⟨bits, 0x80, 0xBF, more⟩)
    else (none :: (first b).1, (first b).2)

def decodeFrom (u : Option Unfinished) : Bytes → List (Option Char)
  | [] => if u.isSome then [none] else []
  | b :: rest => (step u b.toNat).1 ++ decodeFrom (step u b.toNat).2 rest

def decode (bytes : Bytes) : List (Option Char) := decodeFrom none bytes

/-- `buffer.toString("utf-8")` -/
def lossy (bytes : Bytes) : List Char := (decode bytes).map (·.getD '\uFFFD')

/-- `bytes.decode("utf-8")`; `none` is the `UnicodeDecodeError`. -/
def strict (bytes : Bytes) : Option (List Char) := (decode bytes).mapM id

theorem eq_map_some_of_mapM {α : Type} {s : List (Option α)} {t : List α}
    (h : s.mapM id = some t) : s = t.map some := by
  induction s generalizing t with
  | nil =>
    obtain rfl : [] = t := Option.some.inj h
    rfl
  | cons a s ih =>
    rw [List.mapM_cons] at h
    cases a with
    | none => cases h
    | some a =>
      cases hs : s.mapM id with
      | none =>
        rw [hs] at h
        cases h
      | some u =>
        rw [hs] at h
        obtain rfl : a :: u = t := Option.some.inj h
        rw [List.map_cons, ← ih hs]

/-- Bytes that are not refused are read alike. -/
theorem lossy_of_strict {bytes : Bytes} {t : List Char} (h : strict bytes = some t) :
    lossy bytes = t := by
  rw [lossy, eq_map_some_of_mapM h, List.map_map]
  exact List.map_id t

/-- ASCII is read byte by byte. -/
theorem lossy_ascii {bytes : Bytes} (h : ∀ b ∈ bytes, b.toNat < 128) :
    lossy bytes = bytes.map fun b => Char.ofNat b.toNat := by
  have hdecode : decodeFrom none bytes = bytes.map fun b => some (Char.ofNat b.toNat) := by
    induction bytes with
    | nil => rfl
    | cons b rest ih =>
      have hb : b.toNat ≤ 0x7F := Nat.le_of_lt_succ (h b List.mem_cons_self)
      have hstep : step none b.toNat = ([some (Char.ofNat b.toNat)], none) := if_pos hb
      rw [decodeFrom, hstep, ih fun c hc => h c (List.mem_cons_of_mem b hc)]
      rfl
  rw [lossy, decode, hdecode, List.map_map]
  rfl

example : lossy [0x41, 0xE2, 0x82, 0x41, 0xC3, 0xA9] = ['A', '\uFFFD', 'A', 'é'] := by decide

end Utf8
end AgentValet.Lang
