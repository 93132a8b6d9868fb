import AgentValet.Base.Trimming
import AgentValet.Lang.JavaScript

namespace AgentValet.Lang.JavaScript
open Base
variable {s t ws : List Char}

def allSpace (s : List Char) : Prop := ∀ c ∈ s, isSpace c = true

/-- The text neither starts nor ends with white space. -/
def Tight (t : List Char) : Prop :=
  (∀ c ∈ t.head?, isSpace c = false) ∧ ∀ c ∈ t.getLast?, isSpace c = false

theorem trim_append_space (s : List Char) (hws : allSpace ws) : trim (s ++ ws) = trim s :=
  @dropEnds_append _ _ [] ws (by simp) hws s

theorem trim_space_append (s : List Char) (hws : allSpace ws) : trim (ws ++ s) = trim s := by
  have h := @dropEnds_append _ _ ws [] hws (by simp) s
  rwa [List.append_nil] at h

theorem trim_of_tight (ht : Tight t) : trim t = t := dropEnds_of_bareEnds ht

theorem tight_trim (s : List Char) : Tight (trim s) := bareEnds_dropEnds isSpace s

theorem trim_trim (s : List Char) : trim (trim s) = trim s := trim_of_tight (tight_trim s)

theorem trim_eq_nil_iff : trim s = [] ↔ allSpace s := by
  constructor
  · intro h
    rw [trim, List.rdropWhile_eq_nil_iff] at h
    by_cases hs : s.dropWhile isSpace = []
    · exact List.dropWhile_eq_nil_iff.1 hs
    · have hfirst := List.head_dropWhile_not isSpace hs
      exact absurd (h _ (List.head_mem hs)) (by simp [hfirst])
  · exact dropEnds_of_all

theorem mem_dropWhile_isSpace {c : Char} (h : c ∈ s) (hc : isSpace c = false) :
    c ∈ s.dropWhile isSpace := by
  rw [← List.takeWhile_append_dropWhile (p := isSpace) (l := s), List.mem_append] at h
  obtain h | h := h
  · rw [List.mem_takeWhile_imp h] at hc
    cases hc
  · exact h

theorem mem_trim {c : Char} (h : c ∈ s) (hc : isSpace c = false) : c ∈ trim s := by
  have hdrop := List.mem_reverse.2 (mem_dropWhile_isSpace h hc)
  exact List.mem_reverse.2 (mem_dropWhile_isSpace hdrop hc)

/-- A text that does not end in white space keeps its end. -/
theorem trim_concat {c : Char} (t : List Char) (hc : isSpace c = false) :
    ∃ u, trim (t ++ [c]) = u ++ [c] ∧ ∀ d ∈ t, isSpace d = false → d ∈ u := by
  have hne : ¬ isSpace c = true := by simp [hc]
  refine ⟨t.dropWhile isSpace, ?_, fun d hd hspace => mem_dropWhile_isSpace hd hspace⟩
  have hdrop : (t ++ [c]).dropWhile isSpace = t.dropWhile isSpace ++ [c] := by
    rw [List.dropWhile_append]
    split_ifs with hempty
    · rw [List.isEmpty_iff.1 hempty, List.dropWhile_cons_of_neg hne, List.nil_append]
    · rfl
  rw [trim, hdrop, List.rdropWhile_concat_neg _ _ _ hne]

end AgentValet.Lang.JavaScript
