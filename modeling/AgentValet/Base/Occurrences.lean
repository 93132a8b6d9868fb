import Mathlib.Data.List.Infix
import Mathlib.Tactic.Common

namespace AgentValet.Base
variable {α : Type*} [DecidableEq α]

/-- At how many places of the list the pattern begins. -/
def occurrences (pat : List α) : List α → ℕ
  | [] => if pat = [] then 1 else 0
  | a :: l => (if pat.isPrefixOf (a :: l) then 1 else 0) + occurrences pat l

/-- What stands before and after the first occurrence. -/
def splitFirst (pat : List α) : List α → Option (List α × List α)
  | [] => if pat = [] then some ([], []) else none
  | a :: l =>
    if pat.isPrefixOf (a :: l) then some ([], (a :: l).drop pat.length)
    else (splitFirst pat l).map fun sides => (a :: sides.1, sides.2)

section
variable {pat x y : List α} {c : α}

omit [DecidableEq α] in
theorem prefix_append_cons_iff (hc : c ∉ pat) : pat <+: x ++ c :: y ↔ pat <+: x := by
  constructor
  · intro h
    obtain hshort | ⟨r, rfl⟩ := List.prefix_or_prefix_of_prefix h (List.prefix_append x (c :: y))
    · exact hshort
    · rw [List.prefix_append_right_inj] at h
      cases r with
      | nil => simp
      | cons a r =>
        obtain ⟨t, ht⟩ := h
        rw [List.cons_append, List.cons.injEq] at ht
        rw [ht.1] at hc
        simp at hc
  · exact fun h => h.trans (List.prefix_append x (c :: y))

omit [DecidableEq α] in
theorem not_prefix_cons (hc : c ∉ pat) (hpat : pat ≠ []) (y : List α) : ¬ pat <+: c :: y := by
  intro h
  have hnil : pat <+: [] := (prefix_append_cons_iff (x := []) (y := y) hc).1 h
  exact hpat (List.prefix_nil.1 hnil)

theorem occurrences_cons_of_not_mem (hc : c ∉ pat) (hpat : pat ≠ []) (y : List α) :
    occurrences pat (c :: y) = occurrences pat y := by
  have hno : ¬ pat.isPrefixOf (c :: y) = true := by
    rw [List.isPrefixOf_iff_prefix]
    exact not_prefix_cons hc hpat y
  rw [occurrences, if_neg hno, Nat.zero_add]

/-- No occurrence reaches over a letter that is not in the pattern. -/
theorem occurrences_append_cons (hc : c ∉ pat) (hpat : pat ≠ []) (x y : List α) :
    occurrences pat (x ++ c :: y) = occurrences pat x + occurrences pat y := by
  induction x with
  | nil => rw [List.nil_append, occurrences_cons_of_not_mem hc hpat, occurrences, if_neg hpat,
      Nat.zero_add]
  | cons a x ih =>
    have hsame : pat.isPrefixOf (a :: x ++ c :: y) = pat.isPrefixOf (a :: x) := by
      rw [Bool.eq_iff_iff, List.isPrefixOf_iff_prefix, List.isPrefixOf_iff_prefix]
      exact prefix_append_cons_iff hc
    rw [List.cons_append] at hsame ⊢
    rw [occurrences, occurrences, hsame, ih, Nat.add_assoc]

theorem occurrences_le_append_left (hpat : pat ≠ []) (x y : List α) :
    occurrences pat x ≤ occurrences pat (x ++ y) := by
  induction x with
  | nil => simp [occurrences, hpat]
  | cons a x ih =>
    have hstep : (if pat.isPrefixOf (a :: x) then 1 else 0) ≤
        if pat.isPrefixOf (a :: (x ++ y)) then 1 else 0 := by
      split_ifs with h h'
      · exact Nat.le_refl 1
      · rw [List.isPrefixOf_iff_prefix] at h h'
        exact absurd (h.trans (List.prefix_append (a :: x) y)) h'
      · exact Nat.zero_le 1
      · exact Nat.le_refl 0
    rw [List.cons_append, occurrences, occurrences]
    omega

theorem occurrences_le_append_right (pat x y : List α) :
    occurrences pat y ≤ occurrences pat (x ++ y) := by
  induction x with
  | nil => exact Nat.le_refl _
  | cons a x ih =>
    rw [List.cons_append, occurrences]
    omega

theorem occurrences_of_not_mem {a : α} (ha : a ∈ pat) (hx : a ∉ x) : occurrences pat x = 0 := by
  have hpat : pat ≠ [] := List.ne_nil_of_mem ha
  induction x with
  | nil => rw [occurrences, if_neg hpat]
  | cons b x ih =>
    have hno : ¬ pat.isPrefixOf (b :: x) = true := by
      rw [List.isPrefixOf_iff_prefix]
      exact fun h => hx (h.subset ha)
    rw [occurrences, if_neg hno, ih fun h => hx (List.mem_cons_of_mem b h)]

theorem splitFirst_self (pat y : List α) : splitFirst pat (pat ++ y) = some ([], y) := by
  cases h : pat ++ y with
  | nil =>
    obtain ⟨rfl, rfl⟩ := List.append_eq_nil_iff.1 h
    rfl
  | cons a l =>
    have hbegins : pat.isPrefixOf (a :: l) = true := by
      rw [List.isPrefixOf_iff_prefix, ← h]
      exact List.prefix_append pat y
    rw [splitFirst, if_pos hbegins, ← h, List.drop_left]

/-- Behind such a letter the first occurrence is where one begins. -/
theorem splitFirst_append_cons (hc : c ∉ pat) (hpat : pat ≠ []) (hx : occurrences pat x = 0)
    (y : List α) : splitFirst pat (x ++ c :: (pat ++ y)) = some (x ++ [c], y) := by
  induction x with
  | nil =>
    have hno : ¬ pat.isPrefixOf (c :: (pat ++ y)) = true := by
      rw [List.isPrefixOf_iff_prefix]
      exact not_prefix_cons hc hpat (pat ++ y)
    rw [List.nil_append, splitFirst, if_neg hno, splitFirst_self]
    rfl
  | cons a x ih =>
    rw [occurrences] at hx
    have hno : ¬ pat.isPrefixOf (a :: x) = true := by
      intro h
      rw [if_pos h] at hx
      omega
    have hno' : ¬ pat.isPrefixOf (a :: (x ++ c :: (pat ++ y))) = true := by
      rw [List.isPrefixOf_iff_prefix] at hno ⊢
      exact fun h => hno ((prefix_append_cons_iff (x := a :: x) hc).1 h)
    rw [List.cons_append, splitFirst, if_neg hno', ih (by omega)]
    rfl

theorem splitFirst_eq_none_iff (hpat : pat ≠ []) {l : List α} :
    splitFirst pat l = none ↔ occurrences pat l = 0 := by
  induction l with
  | nil => simp [splitFirst, occurrences, hpat]
  | cons a l ih =>
    rw [splitFirst, occurrences]
    split_ifs with h
    · simp
    · simp [ih]

end
end AgentValet.Base
