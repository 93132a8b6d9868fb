import AgentValet.Base.Trimming
import AgentValet.Lang.JavaScript
import AgentValet.Lang.Python

namespace AgentValet.Lang
open Base

namespace Python

/-- What `str.strip` drops. -/
def strips (c : Char) : Bool := isSpace c || (0x1C ≤ c.toNat && c.toNat ≤ 0x1F)

theorem strip_eq_dropEnds (s : List Char) : strip s = dropEnds strips s := rfl

/-- A text file as it is read: `\r\n` and `\r` end a line as `\n` does. -/
def universalNewlines : List Char → List Char
  | [] => []
  | c :: rest =>
    if c = '\r' ∧ rest.head? = some '\n' then universalNewlines rest
    else (if c = '\r' then '\n' else c) :: universalNewlines rest

section
variable {s t : List Char}

theorem mem_universalNewlines {c : Char} (h : c ∈ universalNewlines s) :
    c ≠ '\r' ∧ (c = '\n' ∨ c ∈ s) := by
  induction s with
  | nil => cases h
  | cons a s ih =>
    rw [universalNewlines] at h
    have htail : c ∈ universalNewlines s → c ≠ '\r' ∧ (c = '\n' ∨ c ∈ a :: s) := by
      intro hc
      obtain ⟨hne, hnl | hmem⟩ := ih hc
      · exact ⟨hne, Or.inl hnl⟩
      · exact ⟨hne, Or.inr (List.mem_cons_of_mem a hmem)⟩
    split_ifs at h with hcrlf hcr
    · exact htail h
    · obtain rfl | h := List.mem_cons.1 h
      · exact ⟨by decide, Or.inl rfl⟩
      · exact htail h
    · obtain rfl | h := List.mem_cons.1 h
      · exact ⟨hcr, Or.inr List.mem_cons_self⟩
      · exact htail h

theorem universalNewlines_of_notMem (h : '\r' ∉ s) : universalNewlines s = s := by
  induction s with
  | nil => rfl
  | cons a s ih =>
    have ha : a ≠ '\r' := by
      rintro rfl
      exact h List.mem_cons_self
    rw [universalNewlines, if_neg (fun hcrlf => ha hcrlf.1), if_neg ha,
      ih fun hmem => h (List.mem_cons_of_mem a hmem)]

/-- No end of a line is torn apart. -/
theorem universalNewlines_append (h : s.getLast? = some '\r' → t.head? ≠ some '\n') :
    universalNewlines (s ++ t) = universalNewlines s ++ universalNewlines t := by
  induction s with
  | nil => rfl
  | cons a s ih =>
    cases s with
    | nil =>
      have hno : ¬ (a = '\r' ∧ t.head? = some '\n') := by
        rintro ⟨rfl, hhead⟩
        exact h rfl hhead
      rw [List.singleton_append, universalNewlines, if_neg hno]
      simp [universalNewlines]
    | cons b s =>
      have hrest := ih (by simpa using h)
      rw [List.cons_append, universalNewlines, universalNewlines, hrest, List.cons_append,
        List.head?_cons, List.head?_cons]
      split_ifs <;> rfl

theorem head?_universalNewlines {c : Char} (h : s.head? = some c) (hc : c ≠ '\r') :
    (universalNewlines s).head? = some c := by
  cases s with
  | nil => cases h
  | cons a s =>
    obtain rfl : a = c := Option.some.inj h
    rw [universalNewlines, if_neg (fun hcrlf => hc hcrlf.1), if_neg hc]
    rfl

theorem getLast?_universalNewlines {c : Char} (h : s.getLast? = some c) (hcr : c ≠ '\r')
    (hnl : c ≠ '\n') : (universalNewlines s).getLast? = some c := by
  obtain ⟨u, rfl⟩ := List.getLast?_eq_some_iff.1 h
  have hc : universalNewlines [c] = [c] := universalNewlines_of_notMem (by simpa using hcr.symm)
  rw [universalNewlines_append (by simpa using fun _ => hnl), hc]
  exact List.getLast?_concat

theorem strips_of_mem_universalNewlines (h : ∀ c ∈ s, strips c = true) :
    ∀ c ∈ universalNewlines s, strips c = true := by
  intro c hc
  obtain rfl | hmem := (mem_universalNewlines hc).2
  · decide
  · exact h c hmem

theorem ends_universalNewlines (h : BareEnds strips t) :
    (universalNewlines t).head? = t.head? ∧ (universalNewlines t).getLast? = t.getLast? := by
  cases t with
  | nil => exact ⟨rfl, rfl⟩
  | cons a u =>
    have hlast := List.getLast?_eq_some_getLast (List.cons_ne_nil a u)
    generalize (a :: u).getLast _ = b at hlast
    have ha : strips a = false := h.1 a rfl
    have hb : strips b = false := h.2 b hlast
    rw [hlast, getLast?_universalNewlines hlast (by rintro rfl; cases hb) (by rintro rfl; cases hb)]
    exact ⟨head?_universalNewlines rfl (by rintro rfl; cases ha), rfl⟩

theorem bareEnds_universalNewlines (h : BareEnds strips t) :
    BareEnds strips (universalNewlines t) := by
  obtain ⟨hhead, hlast⟩ := ends_universalNewlines h
  rw [BareEnds, hhead, hlast]
  exact h

theorem strip_universalNewlines (s : List Char) :
    strip (universalNewlines s) = universalNewlines (strip s) := by
  rw [strip_eq_dropEnds, strip_eq_dropEnds]
  obtain ⟨front, back, hs, hfront, hback⟩ := exists_dropEnds strips s
  have hbare := bareEnds_dropEnds strips s
  generalize dropEnds strips s = t at hs hbare ⊢
  subst hs
  have hinner := dropEnds_of_bareEnds (bareEnds_universalNewlines hbare)
  cases t with
  | nil =>
    have hall : ∀ c ∈ front ++ ([] ++ back), strips c = true := by
      intro c hc
      obtain hc | hc := List.mem_append.1 hc
      · exact hfront c hc
      · exact hback c hc
    exact dropEnds_of_all (strips_of_mem_universalNewlines hall)
  | cons a u =>
    have hfirst : (a :: u ++ back).head? ≠ some '\n' := by
      intro hnl
      cases (hbare.1 '\n' hnl : strips '\n' = false)
    have hlast : (a :: u).getLast? ≠ some '\r' := by
      intro hcr
      cases (hbare.2 '\r' hcr : strips '\r' = false)
    rw [universalNewlines_append fun _ => hfirst,
      universalNewlines_append fun hcr => absurd hcr hlast,
      dropEnds_append (strips_of_mem_universalNewlines hfront)
        (strips_of_mem_universalNewlines hback), hinner]

end
end Python

/-- Neither end of a text holds what only one of the languages drops there. -/
abbrev AlikeEnds (s : List Char) : Prop := EvenEnds JavaScript.isSpace Python.strips s

theorem trim_eq_strip_iff (s : List Char) : JavaScript.trim s = Python.strip s ↔ AlikeEnds s :=
  dropEnds_eq_iff

/-- A file reads alike in both languages. -/
theorem trim_eq_strip_universalNewlines_iff (s : List Char) :
    JavaScript.trim s = Python.strip (Python.universalNewlines s) ↔
      AlikeEnds s ∧ '\r' ∉ JavaScript.trim s := by
  rw [Python.strip_universalNewlines]
  constructor
  · intro h
    have hcr : '\r' ∉ JavaScript.trim s := by
      rw [h]
      intro hmem
      exact (Python.mem_universalNewlines hmem).1 rfl
    obtain ⟨hhead, hlast⟩ := Python.ends_universalNewlines (bareEnds_dropEnds Python.strips s)
    exact ⟨evenEnds_of_ends ((congrArg List.head? h).trans hhead)
      ((congrArg List.getLast? h).trans hlast), hcr⟩
  · rintro ⟨hends, hcr⟩
    rw [(trim_eq_strip_iff s).2 hends] at hcr ⊢
    exact (Python.universalNewlines_of_notMem hcr).symm

end AgentValet.Lang
