import AgentValet.Base.Lines
import AgentValet.Base.Occurrences
import AgentValet.Lang.JavaScript

namespace AgentValet.Lang.JavaScript
open Base

abbrev Text := List Char

/-- What `^` and `$` take for the end of a line in a multiline expression. -/
def isLineEnd (c : Char) : Bool := c = '\n' || c = '\r' || c = '\u2028' || c = '\u2029'

def layout : Layout Char where
  sep := isLineEnd
  space := isSpace
  space_of_sep := by
    intro c h
    simp only [isLineEnd, Bool.or_eq_true, decide_eq_true_eq] at h
    obtain ((rfl | rfl) | rfl) | rfl := h <;> decide

def includes (text part : Text) : Bool := (splitFirst part text).isSome

/-- What a replacement stands for where the expression has no groups. -/
def substitution (found before after : Text) : Text → Text
  | '$' :: '$' :: rest => '$' :: substitution found before after rest
  | '$' :: '&' :: rest => found ++ substitution found before after rest
  | '$' :: '\x60' :: rest => before ++ substitution found before after rest
  | '$' :: '\x27' :: rest => after ++ substitution found before after rest
  | c :: rest => c :: substitution found before after rest
  | [] => []

/-- `text.replace(new RegExp(start + "[\\s\\S]*?" + stop), replacement)` -/
def replaceBlock (start stop replacement text : Text) : Text :=
  match splitFirst start text with
  | none => text
  | some (before, rest) =>
    match splitFirst stop rest with
    | none => text
    | some (inner, after) =>
      before ++ substitution (start ++ inner ++ stop) before after replacement ++ after

/-- No part of the replacement stands for something else. -/
def Plain (replacement : Text) : Prop :=
  ∀ c ∈ ['$', '&', '\x60', '\x27'], occurrences ['$', c] replacement = 0

theorem Plain.tail {c : Char} {rest : Text} (h : Plain (c :: rest)) : Plain rest := by
  intro d hd
  have hle := occurrences_le_append_right ['$', d] [c] rest
  rw [List.singleton_append, h d hd] at hle
  exact Nat.le_zero.1 hle

theorem not_plain {c : Char} (hc : c ∈ ['$', '&', '\x60', '\x27']) (rest : Text) :
    ¬ Plain ('$' :: c :: rest) := by
  intro h
  have hzero := h c hc
  rw [occurrences, if_pos (by simp)] at hzero
  omega

theorem substitution_of_plain {replacement : Text} (h : Plain replacement)
    (found before after : Text) : substitution found before after replacement = replacement := by
  induction replacement using substitution.induct with
  | case1 rest ih => exact absurd h (not_plain (by simp) rest)
  | case2 rest ih => exact absurd h (not_plain (by simp) rest)
  | case3 rest ih => exact absurd h (not_plain (by simp) rest)
  | case4 rest ih => exact absurd h (not_plain (by simp) rest)
  | case5 c rest h₁ h₂ h₃ h₄ ih =>
    rw [substitution, ih h.tail]
    · exact h₁
    · exact h₂
    · exact h₃
    · exact h₄
  | case6 => rfl

/-- A replacement is taken for what it is up to its first dollar sign. -/
theorem substitution_append {first : Text} (h : '$' ∉ first) (found before after rest : Text) :
    substitution found before after (first ++ rest) =
      first ++ substitution found before after rest := by
  induction first with
  | nil => rfl
  | cons c first ih =>
    rw [List.mem_cons, not_or] at h
    rw [List.cons_append, substitution, ih h.2]
    · rfl
    all_goals
      rintro rest' rfl
      exact absurd rfl h.1

/-- The pattern for what was found never stands for itself. -/
theorem substitution_ne {first : Text} {c : Char} (h : '$' ∉ first) (hc : c ≠ '$')
    (before after rest found : Text) :
    substitution (c :: found) before after (first ++ '$' :: '&' :: rest) ≠
      first ++ '$' :: '&' :: rest := by
  rw [substitution_append h, substitution, List.cons_append]
  intro heq
  exact hc (List.cons.inj (List.append_cancel_left heq)).1

/-- How many line ends a text begins with, and what follows on them. -/
def lineEnds : Text → ℕ × Text
  | '\n' :: rest => ((lineEnds rest).1 + 1, (lineEnds rest).2)
  | '\r' :: '\n' :: rest => ((lineEnds rest).1 + 1, (lineEnds rest).2)
  | text => (0, text)

theorem length_lineEnds (text : Text) :
    (lineEnds text).1 + (lineEnds text).2.length ≤ text.length := by
  induction text using lineEnds.induct with
  | case1 rest ih =>
    simp only [lineEnds, List.length_cons]
    omega
  | case2 rest ih =>
    simp only [lineEnds, List.length_cons]
    omega
  | case3 text h₁ h₂ =>
    rw [lineEnds]
    · simp
    · exact h₁
    · exact h₂

/-- `text.replace(/(\r?\n){3,}/g, "\n\n")` -/
def collapseLineEnds : Text → Text
  | [] => []
  | c :: rest =>
    if 3 ≤ (lineEnds (c :: rest)).1 then
      '\n' :: '\n' :: collapseLineEnds (lineEnds (c :: rest)).2
    else c :: collapseLineEnds rest
termination_by text => text.length
decreasing_by
  · have h := length_lineEnds (c :: rest)
    omega
  · exact Nat.lt_succ_self _

theorem lineEnds_spec (text : Text) :
    ∃ run, text = run ++ (lineEnds text).2 ∧ (∀ c ∈ run, isLineEnd c = true) ∧
      ((lineEnds text).1 ≠ 0 → run ≠ []) := by
  induction text using lineEnds.induct with
  | case1 rest ih =>
    obtain ⟨run, htext, hrun, -⟩ := ih
    refine ⟨'\n' :: run, ?_, ?_, fun _ => by simp⟩
    · rw [lineEnds, List.cons_append, ← htext]
    · simpa [isLineEnd] using hrun
  | case2 rest ih =>
    obtain ⟨run, htext, hrun, -⟩ := ih
    refine ⟨'\r' :: '\n' :: run, ?_, ?_, fun _ => by simp⟩
    · rw [lineEnds, List.cons_append, List.cons_append, ← htext]
    · simpa [isLineEnd] using hrun
  | case3 text h₁ h₂ =>
    rw [lineEnds]
    · exact ⟨[], rfl, by simp, fun h => absurd rfl h⟩
    · exact h₁
    · exact h₂

theorem alike_collapseLineEnds (text : Text) : layout.Alike (collapseLineEnds text) text := by
  induction text using collapseLineEnds.induct with
  | case1 =>
    rw [collapseLineEnds]
    exact fun front => rfl
  | case2 c rest hrun ih =>
    obtain ⟨run, htext, hseps, hne⟩ := lineEnds_spec (c :: rest)
    have hstep : layout.Alike (['\n', '\n'] ++ collapseLineEnds (lineEnds (c :: rest)).2)
        (run ++ (lineEnds (c :: rest)).2) :=
      layout.alike_of_seps (by simp) (hne (by omega)) (by simp [layout, isLineEnd]) hseps ih.lines
    rw [collapseLineEnds, if_pos hrun]
    rw [← htext] at hstep
    exact hstep
  | case3 c rest hrun ih =>
    rw [collapseLineEnds, if_neg hrun]
    exact ih.cons layout c

/-- Fewer line ends between two lines leave the lines as they are. -/
theorem lines_collapseLineEnds (text : Text) :
    layout.lines (collapseLineEnds text) = layout.lines text :=
  (alike_collapseLineEnds text).lines

/-- What `\s*$` leaves of a text, if it matches: as much as it can is taken. -/
def afterSpace (text : Text) : Option Text :=
  let rest := text.dropWhile isSpace
  if rest = [] then some []
  else
    match (text.takeWhile isSpace).reverse.span fun c => !isLineEnd c with
    | (indent, e :: _) => some (e :: indent.reverse ++ rest)
    | (_, []) => none

/-- What `^line\s*$` leaves of the text that it is matched against. -/
def lineFound (line text : Text) : Option Text :=
  if line.isPrefixOf text then afterSpace (text.drop line.length) else none

/-- `text.replace(/^line\s*$/m, "")`, from a place that is at the start of a line or not. -/
def removeLine (line : Text) (atStart : Bool) : Text → Text
  | [] => []
  | c :: rest =>
    match if atStart then lineFound line (c :: rest) else none with
    | some left => left
    | none => c :: removeLine line (isLineEnd c) rest

/-- The line, with or without space after it. -/
def isLine (line l : Text) : Bool := layout.trimEnd l = line

section
variable {line l rest text left : Text}

theorem afterSpace_spec (h : afterSpace text = some left) :
    ∃ ws, text = ws ++ left ∧ layout.blank ws = true ∧
      (left = [] ∨ ∃ e l, left = e :: l ∧ layout.sep e = true) := by
  have htext : text.takeWhile isSpace ++ text.dropWhile isSpace = text :=
    List.takeWhile_append_dropWhile
  have hblank : layout.blank (text.takeWhile isSpace) = true := by
    rw [Layout.blank, List.all_eq_true]
    exact fun c hc => List.mem_takeWhile_imp hc
  unfold afterSpace at h
  dsimp only at h
  split_ifs at h with hrest
  · cases h
    rw [hrest] at htext
    exact ⟨_, htext.symm, hblank, Or.inl rfl⟩
  · rw [List.span_eq_takeWhile_dropWhile] at h
    split at h
    · rename_i indent e w hspan
      cases h
      obtain ⟨hindent, hw⟩ := Prod.mk.inj hspan
      have hsep : isLineEnd e = true := by
        have hhead := List.head?_dropWhile_not (fun c => !isLineEnd c)
          (text.takeWhile isSpace).reverse
        rw [hw] at hhead
        simpa using hhead
      have hrev : (text.takeWhile isSpace).reverse = indent ++ e :: w := by
        rw [← hindent, ← hw]
        exact List.takeWhile_append_dropWhile.symm
      have hws : text.takeWhile isSpace = w.reverse ++ e :: indent.reverse := by
        rw [← List.reverse_reverse (text.takeWhile isSpace), hrev]
        simp
      refine ⟨w.reverse, ?_, ?_, Or.inr ⟨e, _, rfl, hsep⟩⟩
      · refine htext.symm.trans ?_
        rw [hws]
        simp
      · rw [hws, Layout.blank_append, Bool.and_eq_true] at hblank
        exact hblank.1
    · cases h

/-- Space up to the end of the line is found. -/
theorem afterSpace_isSome_iff (hl : ∀ x ∈ l, layout.sep x = false)
    (hrest : rest = [] ∨ ∃ e rest', rest = e :: rest' ∧ layout.sep e = true) :
    (afterSpace (l ++ rest)).isSome = true ↔ layout.blank l = true := by
  constructor
  · intro h
    obtain ⟨left, hleft⟩ := Option.isSome_iff_exists.1 h
    obtain ⟨ws, htext, hws, hstop⟩ := afterSpace_spec hleft
    obtain ⟨x, rfl, -⟩ | ⟨x, rfl, rfl⟩ := List.append_eq_append_iff.1 htext
    · rw [Layout.blank_append, Bool.and_eq_true] at hws
      exact hws.1
    · cases x with
      | nil => simpa using hws
      | cons e x =>
        obtain hnil | ⟨e', l', hcons, he⟩ := hstop
        · cases hnil
        · rw [List.cons_append, List.cons.injEq] at hcons
          rw [← hcons.1, hl e (by simp)] at he
          cases he
  · intro hblank
    have hspace : ∀ x ∈ l, isSpace x = true := List.all_eq_true.1 hblank
    unfold afterSpace
    dsimp only
    split_ifs with hall
    · rfl
    · rw [List.span_eq_takeWhile_dropWhile]
      split
      · rfl
      · rename_i indent hspan
        have hnone := (Prod.mk.inj hspan).2
        rw [List.dropWhile_eq_nil_iff] at hnone
        obtain rfl | ⟨e, rest', rfl, he⟩ := hrest
        · refine absurd ?_ hall
          rw [List.append_nil, List.dropWhile_eq_nil_iff]
          exact hspace
        · -- the end of the line is among the space that is taken
          have hspace' : isSpace e = true := layout.space_of_sep e he
          have hmem : e ∈ ((l ++ e :: rest').takeWhile isSpace).reverse := by
            rw [List.mem_reverse, List.takeWhile_append_of_pos hspace,
              List.takeWhile_cons_of_pos hspace']
            simp
          have hsep := hnone e hmem
          rw [show isLineEnd e = true from he] at hsep
          cases hsep

theorem removeLine_inside (hl : ∀ x ∈ l, layout.sep x = false) :
    removeLine line false (l ++ rest) = l ++ removeLine line false rest := by
  induction l with
  | nil => rfl
  | cons c l ih =>
    have hc : isLineEnd c = false := hl c List.mem_cons_self
    rw [List.cons_append, removeLine, hc, ih fun x hx => hl x (List.mem_cons_of_mem c hx)]
    rfl

theorem removeLine_next {e : Char} (he : isLineEnd e = true) :
    removeLine line false (e :: rest) = e :: removeLine line true rest := by
  rw [removeLine, he]
  rfl

theorem isPrefixOf_line (hline : ∀ x ∈ line, layout.sep x = false)
    (hrest : rest = [] ∨ ∃ e rest', rest = e :: rest' ∧ layout.sep e = true) :
    line <+: l ++ rest ↔ line <+: l := by
  obtain rfl | ⟨e, rest', rfl, he⟩ := hrest
  · rw [List.append_nil]
  · apply prefix_append_cons_iff
    intro hmem
    rw [hline e hmem] at he
    cases he

/-- A line is found exactly where it stands, at the front of the text. -/
theorem lineFound_isSome_iff (hline : ∀ x ∈ line, layout.sep x = false)
    (hlast : layout.trimEnd line = line) (hl : ∀ x ∈ l, layout.sep x = false)
    (hrest : rest = [] ∨ ∃ e rest', rest = e :: rest' ∧ layout.sep e = true) :
    (lineFound line (l ++ rest)).isSome = true ↔ isLine line l = true := by
  have hbegins : line.isPrefixOf (l ++ rest) = true ↔ line <+: l := by
    rw [List.isPrefixOf_iff_prefix, isPrefixOf_line hline hrest]
  unfold lineFound isLine
  rw [decide_eq_true_eq]
  constructor
  · intro h
    split_ifs at h with hp
    · obtain ⟨ws, rfl⟩ := hbegins.1 hp
      have hws : ∀ x ∈ ws, layout.sep x = false := fun x hx => hl x (List.mem_append_right line hx)
      rw [List.append_assoc, List.drop_left, afterSpace_isSome_iff hws hrest] at h
      rw [layout.trimEnd_append_blank h, hlast]
    · cases h
  · intro h
    have hl' : line <+: l := by
      rw [← h]
      exact List.rdropWhile_prefix isSpace l
    rw [if_pos (hbegins.2 hl')]
    obtain ⟨ws, rfl⟩ := hl'
    have hws : ∀ x ∈ ws, layout.sep x = false := fun x hx => hl x (List.mem_append_right line hx)
    rw [List.append_assoc, List.drop_left, afterSpace_isSome_iff hws hrest]
    have hsplit : layout.trimEnd (line ++ ws) ++ (line ++ ws).rtakeWhile isSpace = line ++ ws :=
      List.rdropWhile_append_rtakeWhile
    rw [h, List.append_cancel_left_eq] at hsplit
    rw [← hsplit, Layout.blank, List.all_eq_true]
    exact fun x hx => List.mem_rtakeWhile_imp hx

theorem lineFound_spec (h : lineFound line text = some left) :
    ∃ ws, text = line ++ ws ++ left ∧ layout.blank ws = true ∧
      (left = [] ∨ ∃ e l, left = e :: l ∧ layout.sep e = true) := by
  unfold lineFound at h
  split_ifs at h with hbegins
  obtain ⟨t, rfl⟩ := List.isPrefixOf_iff_prefix.1 hbegins
  rw [List.drop_left] at h
  obtain ⟨ws, rfl, hws, hstop⟩ := afterSpace_spec h
  exact ⟨ws, by simp, hws, hstop⟩

theorem removeLine_found {left : Text} (hne : text ≠ []) (h : lineFound line text = some left) :
    removeLine line true text = left := by
  obtain ⟨c, rest, rfl⟩ := List.exists_cons_of_ne_nil hne
  rw [removeLine, if_pos rfl, h]

theorem removeLine_not_found (hl : ∀ x ∈ l, layout.sep x = false)
    (h : lineFound line (l ++ rest) = none) :
    removeLine line true (l ++ rest) = l ++ removeLine line false rest := by
  cases l with
  | nil =>
    cases rest with
    | nil => rfl
    | cons e rest =>
      rw [List.nil_append] at h ⊢
      rw [removeLine, if_pos rfl, h]
      rfl
  | cons c l =>
    have hc : isLineEnd c = false := hl c List.mem_cons_self
    rw [List.cons_append] at h ⊢
    rw [removeLine, if_pos rfl, h]
    dsimp only
    rw [hc, removeLine_inside fun x hx => hl x (List.mem_cons_of_mem c hx), List.cons_append]

/-- Of the lines that are not blank, the first one that is the line is removed. -/
theorem lines_removeLine (hne : line ≠ []) (hline : ∀ x ∈ line, layout.sep x = false)
    (hlast : layout.trimEnd line = line) (text : Text) :
    layout.lines (removeLine line true text) = (layout.lines text).eraseP (isLine line) := by
  induction hn : text.length using Nat.strongRecOn generalizing text with
  | ind n ih =>
    obtain ⟨l, rest, rfl, hl, hrest⟩ := layout.exists_first_line text
    have hsome := lineFound_isSome_iff hline hlast hl hrest
    rw [layout.lines_append_of_rest hrest]
    cases hfound : lineFound line (l ++ rest) with
    | some left =>
      have his : isLine line l = true := hsome.1 (by rw [hfound]; rfl)
      have hfull : l ++ rest ≠ [] := by
        intro hnil
        rw [(List.append_eq_nil_iff.1 hnil).1, isLine, decide_eq_true_eq] at his
        exact hne his.symm
      have hblank : ¬ layout.blank l = true := by
        intro hblank
        rw [isLine, decide_eq_true_eq, layout.trimEnd_of_blank hblank] at his
        exact hne his.symm
      rw [removeLine_found hfull hfound, layout.lines_of_no_sep hl, if_neg hblank,
        List.singleton_append, List.eraseP_cons_of_pos his]
      -- what is left begins where the line ends
      obtain ⟨ws, htext, hws, hstop⟩ := lineFound_spec hfound
      have hlines := congrArg layout.lines htext
      obtain ⟨w, front, rfl, hw, hfront⟩ := layout.exists_first_line ws
      rw [Layout.blank_append, Bool.and_eq_true] at hws
      have hw' : ∀ x ∈ line ++ w, layout.sep x = false := by
        intro x hx
        rw [List.mem_append] at hx
        exact hx.elim (hline x) (hw x)
      have hblank' : ¬ layout.blank (line ++ w) = true := by
        intro hblank'
        rw [Layout.blank_append, Bool.and_eq_true] at hblank'
        rw [layout.trimEnd_of_blank hblank'.1] at hlast
        exact hne hlast.symm
      rw [layout.lines_append_of_rest hrest, layout.lines_of_no_sep hl, if_neg hblank,
        layout.lines_append_of_rest hstop, ← List.append_assoc, layout.lines_append_of_rest hfront,
        layout.lines_of_no_sep hw', if_neg hblank', layout.lines_of_blank hws.2] at hlines
      exact (List.cons.inj hlines).2.symm
    | none =>
      have hnot : ¬ isLine line l = true := by
        rw [← hsome, hfound]
        simp
      have hkeep : ∀ x ∈ layout.lines l, ¬ isLine line x = true := by
        intro x hx
        rw [layout.lines_of_no_sep hl] at hx
        split_ifs at hx
        · cases hx
        · rwa [List.mem_singleton.1 hx]
      rw [removeLine_not_found hl hfound, List.eraseP_append_right _ hkeep]
      obtain rfl | ⟨e, rest', rfl, he⟩ := hrest
      · rw [removeLine, List.append_nil, layout.lines_nil, List.eraseP_nil, List.append_nil]
      · have hshorter : rest'.length < n := by
          rw [← hn, List.length_append, List.length_cons]
          omega
        rw [removeLine_next he, layout.lines_append_cons he, layout.lines_cons he,
          ih rest'.length hshorter rest' rfl]

/-- What is removed begins where a line does. -/
theorem removeLine_spec (line : Text) (atStart : Bool) (text : Text) :
    removeLine line atStart text = text ∨
      ∃ front cut left, text = front ++ cut ++ left ∧
        removeLine line atStart text = front ++ left ∧
        (front = [] ∧ atStart = true ∨ ∃ f e, front = f ++ [e] ∧ isLineEnd e = true) := by
  induction text generalizing atStart with
  | nil => exact Or.inl rfl
  | cons c rest ih =>
    rw [removeLine]
    split
    · rename_i left hfound
      right
      split_ifs at hfound with hstart
      obtain ⟨ws, htext, -⟩ := lineFound_spec hfound
      exact ⟨[], line ++ ws, left, htext, rfl, Or.inl ⟨rfl, hstart⟩⟩
    · obtain hsame | ⟨front, cut, left, htext, hleft, hfront⟩ := ih (isLineEnd c)
      · left
        rw [hsame]
      · right
        refine ⟨c :: front, cut, left, by rw [htext]; rfl, by rw [hleft]; rfl, Or.inr ?_⟩
        obtain ⟨rfl, hc⟩ | ⟨f, e, rfl, he⟩ := hfront
        · exact ⟨[], c, rfl, hc⟩
        · exact ⟨c :: f, e, rfl, he⟩

/-- A pattern within a line does not come to be where a line is removed. -/
theorem occurrences_removeLine {pat : Text} (hpat : pat ≠ [])
    (hsep : ∀ x ∈ pat, isLineEnd x = false)
    (h : occurrences pat text = 0) : occurrences pat (removeLine line true text) = 0 := by
  have hout : ∀ {e}, isLineEnd e = true → e ∉ pat := by
    intro e he hmem
    rw [hsep e hmem] at he
    cases he
  obtain hsame | ⟨front, cut, left, rfl, hleft, hfront⟩ := removeLine_spec line true text
  · rw [hsame, h]
  · have hle := occurrences_le_append_right pat (front ++ cut) left
    have hle' := occurrences_le_append_left hpat front (cut ++ left)
    rw [List.append_assoc] at h hle
    rw [hleft]
    obtain ⟨rfl, -⟩ | ⟨f, e, rfl, he⟩ := hfront
    · rw [List.nil_append]
      omega
    · have hle'' := occurrences_le_append_left hpat f [e]
      rw [List.append_assoc, List.singleton_append, occurrences_append_cons (hout he) hpat]
      omega

end

end AgentValet.Lang.JavaScript
