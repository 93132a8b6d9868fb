import Mathlib.Data.List.Infix
import Mathlib.Tactic.Common

namespace AgentValet.Base

section
variable {α : Type} {sep : α}

theorem infix_intercalate {line : List α} {ls : List (List α)} (h : line ∈ ls) :
    line <:+: [sep].intercalate ls := by
  induction ls with
  | nil => cases h
  | cons first ls ih =>
    cases ls with
    | nil =>
      obtain rfl := List.mem_singleton.1 h
      rw [List.intercalate_singleton]
    | cons second ls =>
      rw [List.intercalate_cons_cons]
      obtain rfl | h := List.mem_cons.1 h
      · exact ⟨[], [sep] ++ [sep].intercalate (second :: ls), by simp⟩
      · exact (ih h).trans (List.suffix_append _ _).isInfix

variable [DecidableEq α]

def filledLines (sep : α) (t : List α) : List (List α) := (t.splitOn sep).filter (· ≠ [])

theorem filledLines_append_cons (a b : List α) :
    filledLines sep (a ++ sep :: b) = filledLines sep a ++ filledLines sep b := by
  rw [filledLines, List.splitOn_append_cons_self, List.filter_append]
  rfl

theorem filledLines_of_notMem {line : List α} (hline : sep ∉ line) (hne : line ≠ []) :
    filledLines sep line = [line] := by
  rw [filledLines, List.splitOn_eq_singleton hline, List.filter_cons_of_pos (by simpa using hne),
    List.filter_nil]

@[simp] theorem filledLines_nil : filledLines sep [] = [] := by
  simp [filledLines]

theorem notMem_of_mem_splitOn {t line : List α} (h : line ∈ t.splitOn sep) : sep ∉ line := by
  induction t generalizing line with
  | nil =>
    obtain rfl : line = [] := by simpa using h
    exact List.not_mem_nil
  | cons a t ih =>
    rw [List.splitOn_cons_eq_if_modifyHead] at h
    split_ifs at h with ha
    · obtain rfl | h := List.mem_cons.1 h
      · exact List.not_mem_nil
      · exact ih h
    · obtain ⟨first, rest, hsplit⟩ := List.exists_cons_of_ne_nil (List.splitOn_ne_nil sep t)
      rw [hsplit, List.modifyHead_cons] at h
      have hne : sep ≠ a := fun hsep => ha (by simp [hsep])
      obtain rfl | h := List.mem_cons.1 h
      · exact List.not_mem_cons_of_ne_of_not_mem hne (ih (hsplit ▸ List.mem_cons_self))
      · exact ih (hsplit ▸ List.mem_cons_of_mem _ h)

/-- A line stands in the text. -/
theorem infix_of_mem_splitOn {t line : List α} (h : line ∈ t.splitOn sep) : line <:+: t := by
  have hinfix : line <:+: [sep].intercalate (t.splitOn sep) := infix_intercalate h
  rwa [List.intercalate_splitOn] at hinfix

theorem filledLines_intercalate {ls : List (List α)} (h : ∀ line ∈ ls, sep ∉ line) :
    filledLines sep ([sep].intercalate ls) = ls.filter (· ≠ []) := by
  cases ls with
  | nil => simp
  | cons first ls => rw [filledLines, List.splitOn_intercalate sep h (List.cons_ne_nil _ _)]

/-- Lines that are dropped from a text. -/
theorem filledLines_drop (p : List α → Bool) (t : List α) :
    filledLines sep ([sep].intercalate ((t.splitOn sep).filter p)) =
      (filledLines sep t).filter p := by
  have hlines : ∀ line ∈ (t.splitOn sep).filter p, sep ∉ line :=
    fun line hline => notMem_of_mem_splitOn (List.mem_of_mem_filter hline)
  rw [filledLines_intercalate hlines, filledLines, List.filter_filter, List.filter_filter]
  exact List.filter_congr fun line _ => Bool.and_comm _ _

end

section
variable {κ β ω : Type} (owns : κ → β → Bool) (key : ω → κ) (own : ω → List β)

def update (ls : List β) (w : ω) : List β := ls.filter (fun l => !owns (key w) l) ++ own w

/-- What later updates leave of the lines that each has written. -/
def leftOf : List ω → List β
  | [] => []
  | w :: later => (own w).filter (fun l => !later.any fun v => owns (key v) l) ++ leftOf later

/-- A run of updates keeps what none of them owns, in its order. -/
theorem foldl_update (ls : List β) (ws : List ω) :
    ws.foldl (update owns key own) ls =
      ls.filter (fun l => !ws.any fun w => owns (key w) l) ++ leftOf owns key own ws := by
  induction ws generalizing ls with
  | nil => simp [leftOf]
  | cons w ws ih =>
    rw [List.foldl_cons, ih, update, List.filter_append, List.filter_filter, leftOf,
      List.append_assoc]
    congr 1
    refine List.filter_congr fun l _ => ?_
    rw [List.any_cons, Bool.not_or, Bool.and_comm]

end
end AgentValet.Base
