import Mathlib.Data.List.DropRight
import Mathlib.Data.List.ModifyLast
import Mathlib.Tactic.Common

namespace AgentValet.Base

/-- Which letters are space, and which of these end a line. -/
structure Layout (α : Type*) where
  sep : α → Bool
  space : α → Bool
  space_of_sep : ∀ a, sep a = true → space a = true

namespace Layout
variable {α : Type*} (L : Layout α)

def blank (line : List α) : Bool := line.all L.space

def lines (t : List α) : List (List α) := (t.splitOnP L.sep).filter fun line => !L.blank line

def trimStart (t : List α) : List α := t.dropWhile L.space

def trimEnd (t : List α) : List α := t.rdropWhile L.space

section
variable {c : α} {t a b ws : List α}

theorem lines_append_cons (hc : L.sep c = true) (a b : List α) :
    L.lines (a ++ c :: b) = L.lines a ++ L.lines b := by
  rw [lines, List.splitOnP_append_cons a b hc, List.filter_append]
  rfl

theorem lines_of_no_sep (h : ∀ x ∈ t, L.sep x = false) :
    L.lines t = if L.blank t then [] else [t] := by
  rw [lines, List.splitOnP_eq_singleton h]
  cases hblank : L.blank t <;> simp [hblank]

theorem blank_append (a b : List α) : L.blank (a ++ b) = (L.blank a && L.blank b) :=
  List.all_append

theorem sep_of_not_space (hc : L.space c = false) : L.sep c = false := by
  cases h : L.sep c with
  | false => rfl
  | true => exact absurd (L.space_of_sep c h) (by simp [hc])

theorem lines_nil : L.lines [] = [] := L.lines_of_no_sep (by simp)

theorem lines_cons (hc : L.sep c = true) (b : List α) : L.lines (c :: b) = L.lines b := by
  have h := L.lines_append_cons hc [] b
  rwa [L.lines_nil, List.nil_append, List.nil_append] at h

/-- A list is its first line, and nothing or a separator and the rest. -/
theorem exists_first_line (t : List α) :
    ∃ line rest, t = line ++ rest ∧ (∀ x ∈ line, L.sep x = false) ∧
      (rest = [] ∨ ∃ c rest', rest = c :: rest' ∧ L.sep c = true) := by
  induction t with
  | nil => exact ⟨[], [], rfl, by simp, Or.inl rfl⟩
  | cons a t ih =>
    cases ha : L.sep a with
    | true => exact ⟨[], a :: t, rfl, by simp, Or.inr ⟨a, t, rfl, ha⟩⟩
    | false =>
      obtain ⟨line, rest, rfl, hline, hrest⟩ := ih
      refine ⟨a :: line, rest, rfl, ?_, hrest⟩
      simpa [ha] using hline

/-- A list is nothing or a text that a separator ends, and its last line. -/
theorem exists_last_line (t : List α) :
    ∃ front line, t = front ++ line ∧ (∀ x ∈ line, L.sep x = false) ∧
      (front = [] ∨ ∃ front' c, front = front' ++ [c] ∧ L.sep c = true) := by
  induction t using List.reverseRecOn with
  | nil => exact ⟨[], [], rfl, by simp, Or.inl rfl⟩
  | append_singleton t a ih =>
    cases ha : L.sep a with
    | true => exact ⟨t ++ [a], [], by simp, by simp, Or.inr ⟨t, a, rfl, ha⟩⟩
    | false =>
      obtain ⟨front, line, rfl, hline, hfront⟩ := ih
      refine ⟨front, line ++ [a], by simp, ?_, hfront⟩
      intro x hx
      rw [List.mem_append, List.mem_singleton] at hx
      obtain hx | rfl := hx
      · exact hline x hx
      · exact ha

/-- What a separator ends, or the beginning, leaves the lines after it whole. -/
theorem lines_append_of_front (hfront : a = [] ∨ ∃ a' c, a = a' ++ [c] ∧ L.sep c = true)
    (b : List α) : L.lines (a ++ b) = L.lines a ++ L.lines b := by
  obtain rfl | ⟨a', c, rfl, hc⟩ := hfront
  · rw [L.lines_nil, List.nil_append, List.nil_append]
  · rw [List.append_assoc, List.singleton_append, L.lines_append_cons hc, L.lines_append_cons hc,
      L.lines_nil, List.append_nil]

theorem lines_append_of_rest (hrest : b = [] ∨ ∃ c b', b = c :: b' ∧ L.sep c = true)
    (a : List α) : L.lines (a ++ b) = L.lines a ++ L.lines b := by
  obtain rfl | ⟨c, b', rfl, hc⟩ := hrest
  · rw [L.lines_nil, List.append_nil, List.append_nil]
  · rw [L.lines_append_cons hc, L.lines_cons hc]

theorem lines_of_blank (h : L.blank t = true) : L.lines t = [] := by
  induction hn : t.length using Nat.strongRecOn generalizing t with
  | ind n ih =>
    obtain ⟨line, rest, rfl, hline, hrest⟩ := L.exists_first_line t
    rw [blank_append, Bool.and_eq_true] at h
    rw [L.lines_append_of_rest hrest, L.lines_of_no_sep hline, if_pos h.1, List.nil_append]
    obtain rfl | ⟨c, rest', rfl, hc⟩ := hrest
    · exact L.lines_nil
    · rw [L.lines_cons hc]
      rw [blank, blank, List.all_cons, Bool.and_eq_true] at h
      refine ih rest'.length ?_ h.2.2 rfl
      rw [← hn, List.length_append, List.length_cons]
      omega

theorem trimEnd_append_blank (h : L.blank ws = true) (t : List α) :
    L.trimEnd (t ++ ws) = L.trimEnd t := by
  have hall : ∀ x ∈ ws.reverse, L.space x = true := by
    simpa [blank] using h
  simp only [trimEnd, List.rdropWhile, List.reverse_append, List.dropWhile_append_of_pos hall]

theorem trimEnd_concat (t : List α) (hc : L.space c = false) : L.trimEnd (t ++ [c]) = t ++ [c] :=
  List.rdropWhile_concat_neg L.space t c (by simp [hc])

theorem trimEnd_append_cons (t b : List α) (hc : L.space c = false) :
    L.trimEnd (t ++ c :: b) = t ++ c :: L.trimEnd b := by
  induction b using List.reverseRecOn with
  | nil => exact L.trimEnd_concat t hc
  | append_singleton b e ih =>
    have hassoc : t ++ c :: (b ++ [e]) = (t ++ c :: b) ++ [e] := by simp
    cases he : L.space e with
    | true =>
      have hblank : L.blank [e] = true := by simp [blank, he]
      rw [hassoc, L.trimEnd_append_blank hblank, ih, L.trimEnd_append_blank hblank]
    | false => rw [hassoc, L.trimEnd_concat _ he, L.trimEnd_concat _ he, ← hassoc]

/-- A list is blank, or it ends in a letter that is not space and some space. -/
theorem blank_or_exists_last (t : List α) :
    L.blank t = true ∨ ∃ t₀ c ws, t = (t₀ ++ [c]) ++ ws ∧ L.space c = false ∧
      L.blank ws = true := by
  induction t using List.reverseRecOn with
  | nil => exact Or.inl rfl
  | append_singleton t a ih =>
    cases ha : L.space a with
    | false => exact Or.inr ⟨t, a, [], by simp, ha, rfl⟩
    | true =>
      obtain hblank | ⟨t₀, c, ws, rfl, hc, hws⟩ := ih
      · left
        rw [blank_append, hblank]
        simp [blank, ha]
      · right
        refine ⟨t₀, c, ws ++ [a], by simp, hc, ?_⟩
        rw [blank_append, hws]
        simp [blank, ha]

theorem trimEnd_of_blank (h : L.blank t = true) : L.trimEnd t = [] :=
  L.trimEnd_append_blank h []

/-- Space at the end is space at the end of the last line. -/
theorem lines_trimEnd (t : List α) : L.lines (L.trimEnd t) = (L.lines t).modifyLast L.trimEnd := by
  obtain hblank | ⟨t₀, c, ws, rfl, hc, hws⟩ := L.blank_or_exists_last t
  · rw [L.trimEnd_of_blank hblank, L.lines_of_blank hblank, L.lines_nil]
    rfl
  · rw [L.trimEnd_append_blank hws, L.trimEnd_concat t₀ hc]
    have hsep := L.sep_of_not_space hc
    obtain ⟨front, line, rfl, hline, hfront⟩ := L.exists_last_line t₀
    obtain ⟨w₁, rest, rfl, hw₁, hrest⟩ := L.exists_first_line ws
    rw [blank_append, Bool.and_eq_true] at hws
    have hfull : ∀ w : List α, (∀ x ∈ w, L.sep x = false) →
        L.lines (front ++ (line ++ [c] ++ w)) = L.lines front ++ [line ++ [c] ++ w] := by
      intro w hw
      have hno : ∀ x ∈ line ++ [c] ++ w, L.sep x = false := by
        intro x hx
        simp only [List.mem_append, List.mem_singleton] at hx
        obtain (hx | rfl) | hx := hx
        · exact hline x hx
        · exact hsep
        · exact hw x hx
      rw [L.lines_append_of_front hfront, L.lines_of_no_sep hno, if_neg]
      simp [blank, hc]
    have hleft := hfull [] (by simp)
    rw [List.append_nil] at hleft
    have hright : L.lines (front ++ line ++ [c] ++ (w₁ ++ rest)) =
        L.lines front ++ [line ++ [c] ++ w₁] := by
      have hassoc : front ++ line ++ [c] ++ (w₁ ++ rest) =
          (front ++ (line ++ [c] ++ w₁)) ++ rest := by simp
      rw [hassoc, L.lines_append_of_rest hrest, hfull w₁ hw₁, L.lines_of_blank hws.2,
        List.append_nil]
    rw [hright, List.modifyLast_concat, L.trimEnd_append_blank hws.1, L.trimEnd_concat line hc,
      List.append_assoc, hleft]

theorem trimStart_append_blank (h : L.blank ws = true) (t : List α) :
    L.trimStart (ws ++ t) = L.trimStart t :=
  List.dropWhile_append_of_pos (List.all_eq_true.1 h)

theorem trimStart_cons (t : List α) (hc : L.space c = false) : L.trimStart (c :: t) = c :: t :=
  List.dropWhile_cons_of_neg (by simp [hc])

theorem exists_trimStart (t : List α) :
    ∃ ws t₀, t = ws ++ t₀ ∧ L.blank ws = true ∧
      (t₀ = [] ∨ ∃ c t₁, t₀ = c :: t₁ ∧ L.space c = false) := by
  induction t with
  | nil => exact ⟨[], [], rfl, rfl, Or.inl rfl⟩
  | cons a t ih =>
    cases ha : L.space a with
    | false => exact ⟨[], a :: t, rfl, rfl, Or.inr ⟨a, t, rfl, ha⟩⟩
    | true =>
      obtain ⟨ws, t₀, rfl, hws, ht₀⟩ := ih
      refine ⟨a :: ws, t₀, rfl, ?_, ht₀⟩
      rw [blank] at hws ⊢
      rw [List.all_cons, ha, hws]
      rfl

/-- Space at the beginning is space at the beginning of the first line. -/
theorem lines_trimStart (t : List α) :
    L.lines (L.trimStart t) = (L.lines t).modifyHead L.trimStart := by
  obtain ⟨ws, t₀, rfl, hws, ht₀⟩ := L.exists_trimStart t
  rw [L.trimStart_append_blank hws]
  obtain rfl | ⟨c, t₁, rfl, hc⟩ := ht₀
  · rw [List.append_nil, L.lines_of_blank hws]
    exact L.lines_nil
  · have hsep := L.sep_of_not_space hc
    obtain ⟨front, w, rfl, hw, hfront⟩ := L.exists_last_line ws
    obtain ⟨line, rest, rfl, hline, hrest⟩ := L.exists_first_line t₁
    rw [blank_append, Bool.and_eq_true] at hws
    have hfull : ∀ w : List α, (∀ x ∈ w, L.sep x = false) →
        L.lines (w ++ c :: (line ++ rest)) = (w ++ c :: line) :: L.lines rest := by
      intro w hw
      have hno : ∀ x ∈ w ++ c :: line, L.sep x = false := by
        intro x hx
        simp only [List.mem_append, List.mem_cons] at hx
        obtain hx | rfl | hx := hx
        · exact hw x hx
        · exact hsep
        · exact hline x hx
      have hassoc : w ++ c :: (line ++ rest) = (w ++ c :: line) ++ rest := by simp
      rw [hassoc, L.lines_append_of_rest hrest, L.lines_of_no_sep hno, if_neg]
      · rfl
      · simp [blank, hc]
    have hbare := hfull [] (by simp)
    rw [List.nil_append, List.nil_append] at hbare
    rw [List.append_assoc, L.lines_append_of_front hfront, L.lines_of_blank hws.1, List.nil_append,
      hfull w hw, List.modifyHead_cons, L.trimStart_append_blank hws.2, L.trimStart_cons line hc,
      L.trimStart_cons (line ++ rest) hc, hbare]

/-- Nothing that stands before can tell the two texts apart. -/
def Alike (t t' : List α) : Prop := ∀ front, L.lines (front ++ t) = L.lines (front ++ t')

theorem Alike.lines {t t' : List α} (h : L.Alike t t') : L.lines t = L.lines t' := h []

theorem Alike.cons {t t' : List α} (h : L.Alike t t') (x : α) : L.Alike (x :: t) (x :: t') := by
  intro front
  have h' := h (front ++ [x])
  rwa [List.append_assoc, List.append_assoc] at h'

/-- Line ends are as good as any others. -/
theorem alike_of_seps {run run' t t' : List α} (hrun : run ≠ []) (hrun' : run' ≠ [])
    (hsep : ∀ x ∈ run, L.sep x = true) (hsep' : ∀ x ∈ run', L.sep x = true)
    (h : L.lines t = L.lines t') : L.Alike (run ++ t) (run' ++ t') := by
  have hcut : ∀ {r : List α} {u : List α}, r ≠ [] → (∀ x ∈ r, L.sep x = true) → ∀ front,
      L.lines (front ++ (r ++ u)) = L.lines front ++ L.lines u := by
    intro r u hr hall front
    obtain ⟨c, r', rfl⟩ := List.exists_cons_of_ne_nil hr
    have hblank : L.blank r' = true := by
      rw [blank, List.all_eq_true]
      intro x hx
      exact L.space_of_sep x (hall x (List.mem_cons_of_mem c hx))
    have hfront : r' = [] ∨ ∃ a' c, r' = a' ++ [c] ∧ L.sep c = true := by
      obtain rfl | ⟨a', e, rfl⟩ := List.eq_nil_or_concat r'
      · exact Or.inl rfl
      · exact Or.inr ⟨a', e, by simp, hall e (by simp)⟩
    rw [List.cons_append, L.lines_append_cons (hall c List.mem_cons_self),
      L.lines_append_of_front hfront, L.lines_of_blank hblank, List.nil_append]
  intro front
  rw [hcut hrun hsep, hcut hrun' hsep', h]

end
end Layout
end AgentValet.Base
