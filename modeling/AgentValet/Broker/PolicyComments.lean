import AgentValet.Broker.PolicyRendering

namespace AgentValet.Broker.PolicyYaml
open Base Lang

/-- The scan of `stripComment` comes to a comment, or to the end outside of quotes. -/
def closedFrom (inSingle inDouble boundary : Bool) : List Char → Bool
  | [] => !inSingle && !inDouble
  | c :: rest =>
    if c == singleQuote && !inDouble then
      closedFrom (!inSingle) inDouble (JavaScript.isSpace c) rest
    else if c == doubleQuote && !inSingle then
      closedFrom inSingle (!inDouble) (JavaScript.isSpace c) rest
    else if c == '#' && !inSingle && !inDouble && boundary then true
    else closedFrom inSingle inDouble (JavaScript.isSpace c) rest

def Closed (line : List Char) : Prop := closedFrom false false true line = true

/-- Nothing but white space, or white space and a comment. -/
def BlankOrComment (line : List Char) : Prop :=
  ∃ space rest, line = space ++ rest ∧ JavaScript.allSpace space ∧
    (rest = [] ∨ rest.head? = some '#')

/-- A comment is put after a line, or a line that says nothing is put in. -/
inductive Edited : List (List Char) → List (List Char) → Prop where
  | comment (before : List (List Char)) (line text : List Char) (after : List (List Char)) :
      Edited (before ++ line :: after) (before ++ (line ++ ' ' :: '#' :: text) :: after)
  | insert (before : List (List Char)) (line : List Char) (after : List (List Char)) :
      BlankOrComment line → Edited (before ++ after) (before ++ line :: after)

/-- Every text that differs in a comment or a blank line has the same document. -/
def Unaffected (source : String) (doc : PolicyDoc) : Prop :=
  ∀ source', Edited (splitLines source.toList) (splitLines source'.toList) →
    parsePolicy source' = .ok doc

theorem head?_dropWhile_append_space (l : List Char) :
    ((l ++ [' ']).dropWhile JavaScript.isSpace).head? =
      (l.dropWhile JavaScript.isSpace).head? := by
  induction l with
  | nil => decide
  | cons c l ih =>
    rw [List.cons_append, List.dropWhile_cons, List.dropWhile_cons]
    split_ifs
    · exact ih
    · rfl

theorem hasAnchor_append_space (boundary : Bool) (raw : List Char) :
    hasAnchor boundary (raw ++ [' ']) = hasAnchor boundary raw := by
  induction raw generalizing boundary with
  | nil => cases boundary <;> decide
  | cons c raw ih =>
    rw [List.cons_append, hasAnchor, hasAnchor, ih]
    cases raw with
    | nil =>
      have hspace : JavaScript.isSpace ' ' = true := by decide
      simp [hspace]
    | cons d raw => rfl

/-- A search for a pattern that does not end in a space. -/
theorem any_tails_append_space {f : List Char → Bool} (hf : ∀ l, f (l ++ [' ']) = f l)
    (raw : List Char) : (raw ++ [' ']).tails.any f = raw.tails.any f := by
  induction raw with
  | nil =>
    have hnil : f [' '] = f [] := hf []
    simp [List.tails, hnil]
  | cons c raw ih =>
    have hcons : f (c :: (raw ++ [' '])) = f (c :: raw) := hf (c :: raw)
    rw [List.cons_append, List.tails_cons, List.tails_cons, List.any_cons, List.any_cons, ih, hcons]

theorem isForbidden_append_space (raw : Line) : isForbidden (raw ++ [' ']) = isForbidden raw := by
  have hmerge : hasMergeKey (raw ++ [' ']) = hasMergeKey raw := by
    refine any_tails_append_space (fun l => ?_) raw
    rcases l with _ | ⟨c, _ | ⟨d, rest⟩⟩
    · rfl
    · simp
    · by_cases hc : c = '<'
      · by_cases hd : d = '<'
        · subst hc hd
          simp only [List.cons_append, head?_dropWhile_append_space]
        · simp [hd]
      · simp [hc]
  have hinter : hasInterpolation (raw ++ [' ']) = hasInterpolation raw := by
    refine any_tails_append_space (fun l => ?_) raw
    rcases l with _ | ⟨c, _ | ⟨d, rest⟩⟩
    · rfl
    · by_cases hc : c = '$'
      · subst hc
        rfl
      · simp [hc]
    · by_cases hc : c = '$'
      · subst hc
        rfl
      · simp [hc]
  have hflow : hasFlowCollection (raw ++ [' ']) = hasFlowCollection raw := by
    refine any_tails_append_space (fun l => ?_) raw
    rcases l with _ | ⟨c, rest⟩
    · rfl
    · by_cases hc : c = ':'
      · subst hc
        simp only [List.cons_append, head?_dropWhile_append_space]
      · simp [hc]
  simp [isForbidden, forbidden, hasAnchor_append_space, hmerge, hinter, hflow]

theorem indentOf_append {raw : Line} (h : ∃ c ∈ raw, c ≠ ' ') (t : List Char) :
    indentOf (raw ++ t) = indentOf raw := by
  induction raw with
  | nil =>
    obtain ⟨c, hc, -⟩ := h
    cases hc
  | cons d raw ih =>
    rw [indentOf, indentOf, List.cons_append, List.takeWhile_cons, List.takeWhile_cons]
    by_cases hd : d = ' '
    · subst hd
      obtain ⟨c, hc, hne⟩ := h
      have hrest := ih ⟨c, List.mem_of_ne_of_mem hne hc, hne⟩
      rw [indentOf, indentOf] at hrest
      simpa using hrest
    · simp [hd]

theorem bodyOf_append {raw : Line} (h : ∃ c ∈ raw, c ≠ ' ') (t : List Char) :
    bodyOf (raw ++ t) = bodyOf raw ++ t := by
  have hle : indentOf raw ≤ raw.length := (List.takeWhile_sublist _).length_le
  rw [bodyOf, indentOf_append h, List.drop_append_of_le_length hle, bodyOf]

/-- What is not a leading space is in the body. -/
theorem mem_bodyOf {raw : Line} {c : Char} (hc : c ∈ raw) (hne : c ≠ ' ') : c ∈ bodyOf raw := by
  induction raw with
  | nil => cases hc
  | cons d raw ih =>
    by_cases hd : d = ' '
    · subst hd
      have hbody : bodyOf (' ' :: raw) = bodyOf raw := by
        simp [bodyOf, indentOf]
      rw [hbody]
      exact ih (List.mem_of_ne_of_mem hne hc)
    · have hbody : bodyOf (d :: raw) = d :: raw := by
        simp [bodyOf, indentOf, hd]
      rwa [hbody]

theorem allSpace_single : JavaScript.allSpace [' '] := by
  intro c hc
  rw [List.mem_singleton.1 hc]
  rfl

theorem keyOf_append_space {body : List Char} (h : ':' ∈ body) :
    keyOf (body ++ [' ']) = keyOf body := by
  obtain ⟨key, rest, rfl, hkey⟩ := List.eq_append_cons_of_mem h
  rw [List.append_assoc, List.cons_append, keyOf_append hkey, keyOf_append hkey]

theorem valueOf_append_space {body : List Char} (h : ':' ∈ body) :
    valueOf (body ++ [' ']) = valueOf body := by
  obtain ⟨key, rest, rfl, hkey⟩ := List.eq_append_cons_of_mem h
  rw [List.append_assoc, List.cons_append, valueOf_append hkey, valueOf_append hkey,
    JavaScript.trim_append_space rest allSpace_single]

/-- What is read behind a colon is read of the key and the value only. -/
theorem ite_colon_append_space {α : Type} {body : List Char} {x y z : α}
    (h : ':' ∈ body → x = y) :
    (if (body ++ [' ']).contains ':' then x else z) = if body.contains ':' then y else z := by
  have hcontains : (body ++ [' ']).contains ':' = body.contains ':' := by simp
  rw [hcontains]
  split_ifs with hcolon
  · exact h (List.contains_iff_mem.1 hcolon)
  · rfl

theorem ruleField?_append_space (body : List Char) :
    ruleField? (body ++ [' ']) = ruleField? body := by
  unfold ruleField?
  apply ite_colon_append_space
  intro h
  rw [keyOf_append_space h, valueOf_append_space h]

theorem defaultEffect?_append_space (body : List Char) :
    defaultEffect? (body ++ [' ']) = defaultEffect? body := by
  unfold defaultEffect?
  apply ite_colon_append_space
  intro h
  rw [keyOf_append_space h, valueOf_append_space h]

theorem topKey?_append_space (body : List Char) : topKey? (body ++ [' ']) = topKey? body := by
  unfold topKey?
  apply ite_colon_append_space
  intro h
  rw [keyOf_append_space h, valueOf_append_space h]

theorem dashFields?_append_space {body : List Char} (h : body ≠ []) :
    dashFields? (body ++ [' ']) = dashFields? body := by
  rw [dashFields?, dashFields?, List.tail_append_of_ne_nil h,
    JavaScript.trim_append_space _ allSpace_single]

theorem isDash_append_space {raw : Line} (h : ∃ c ∈ raw, c ≠ ' ') :
    isDash (raw ++ [' ']) = isDash raw := by
  rw [isDash, isDash, bodyOf_append h]
  rcases bodyOf raw with _ | ⟨c, _ | ⟨d, body⟩⟩ <;> simp

/-- A space at its end does not change what a line does. -/
theorem enterLine_append_space {raw : Line} (h : ∃ c ∈ raw, c ≠ ' ') (state : ParseState) :
    enterLine state (raw ++ [' ']) = enterLine state raw := by
  have hbody : bodyOf raw ≠ [] := by
    obtain ⟨c, hc, hne⟩ := h
    exact List.ne_nil_of_mem (mem_bodyOf hc hne)
  have hmargin : atMargin (raw ++ [' ']) = atMargin raw := by
    simp only [atMargin, indentOf_append h]
  have hrule : ruleLine state (raw ++ [' ']) = ruleLine state raw := by
    unfold ruleLine
    rw [isDash_append_space h, bodyOf_append h, indentOf_append h, dashFields?_append_space hbody,
      ruleField?_append_space]
  rw [enterLine, enterLine, hmargin, hrule, bodyOf_append h, topKey?_append_space,
    defaultEffect?_append_space]

theorem stripCommentFrom_comment {inSingle inDouble boundary : Bool} {line : List Char}
    (h : closedFrom inSingle inDouble boundary line = true) (text : List Char) :
    ∃ t, (t = [] ∨ t = [' ']) ∧
      stripCommentFrom inSingle inDouble boundary (line ++ ' ' :: '#' :: text) =
        stripCommentFrom inSingle inDouble boundary line ++ t := by
  induction line generalizing inSingle inDouble boundary with
  | nil =>
    rw [closedFrom, Bool.and_eq_true, Bool.not_eq_true', Bool.not_eq_true'] at h
    obtain ⟨rfl, rfl⟩ := h
    exact ⟨[' '], .inr rfl, rfl⟩
  | cons c line ih =>
    rw [closedFrom] at h
    rw [List.cons_append, stripCommentFrom, stripCommentFrom]
    split_ifs at h ⊢ with hsingle hdouble hcomment
    · obtain ⟨t, ht, heq⟩ := ih h
      exact ⟨t, ht, congrArg (List.cons c) heq⟩
    · obtain ⟨t, ht, heq⟩ := ih h
      exact ⟨t, ht, congrArg (List.cons c) heq⟩
    · exact ⟨[], .inl rfl, rfl⟩
    · obtain ⟨t, ht, heq⟩ := ih h
      exact ⟨t, ht, congrArg (List.cons c) heq⟩

/-- A line that ends inside quotes has no comment, and cannot be given one. -/
theorem stripCommentFrom_open {inSingle inDouble boundary : Bool} {line : List Char}
    (h : closedFrom inSingle inDouble boundary line = false) :
    stripCommentFrom inSingle inDouble boundary (line ++ [' ', '#']) = line ++ [' ', '#'] ∧
      (inSingle = false → inDouble = false → singleQuote ∈ line ∨ doubleQuote ∈ line) := by
  induction line generalizing inSingle inDouble boundary with
  | nil =>
    cases inSingle <;> cases inDouble <;> cases boundary <;> revert h <;> decide
  | cons c line ih =>
    rw [closedFrom] at h
    rw [List.cons_append, stripCommentFrom]
    split_ifs at h ⊢ with hsingle hdouble hcomment
    · refine ⟨congrArg (List.cons c) (ih h).1, fun _ _ => .inl ?_⟩
      rw [Bool.and_eq_true, beq_iff_eq] at hsingle
      exact hsingle.1 ▸ List.mem_cons_self
    · refine ⟨congrArg (List.cons c) (ih h).1, fun _ _ => .inr ?_⟩
      rw [Bool.and_eq_true, beq_iff_eq] at hdouble
      exact hdouble.1 ▸ List.mem_cons_self
    · refine ⟨congrArg (List.cons c) (ih h).1, fun hs hd => ?_⟩
      exact ((ih h).2 hs hd).imp (List.mem_cons_of_mem c) (List.mem_cons_of_mem c)

theorem stripCommentFrom_space {space : List Char} (h : JavaScript.allSpace space)
    (rest : List Char) :
    stripCommentFrom false false true (space ++ rest) =
      space ++ stripCommentFrom false false true rest := by
  induction space with
  | nil => rfl
  | cons c space ih =>
    have hc : JavaScript.isSpace c = true := h c List.mem_cons_self
    have hne : ∀ {d}, JavaScript.isSpace d = false → c ≠ d := by
      rintro d hd rfl
      rw [hc] at hd
      cases hd
    have hsingle : c ≠ singleQuote := hne (by decide)
    have hdouble : c ≠ doubleQuote := hne (by decide)
    have hhash : c ≠ '#' := hne (by decide)
    rw [List.cons_append, stripCommentFrom]
    simp [hsingle, hdouble, hhash, hc, ih fun d hd => h d (List.mem_cons_of_mem c hd)]

theorem blank_of_blankOrComment {line : List Char} (h : BlankOrComment line) :
    Line.blank (stripComment line) = true := by
  obtain ⟨space, rest, rfl, hspace, hrest⟩ := h
  have hstrip : stripComment (space ++ rest) = space := by
    rw [stripComment, stripCommentFrom_space hspace]
    obtain rfl | hhash := hrest
    · exact List.append_nil space
    · obtain ⟨text, rfl⟩ := List.head?_eq_some_iff.1 hhash
      exact List.append_nil space
  rw [hstrip, Line.blank, JavaScript.trim_eq_nil_iff.2 hspace]
  rfl

/-- The text goes on with a `#` behind a quote, and this `#` is no comment. -/
def HashAfterQuote (text : List Char) : Prop :=
  ∃ t, text = t ++ ['#'] ∧ (singleQuote ∈ t ∨ doubleQuote ∈ t)

theorem not_denotes_of_hash {u : List Char} (h : singleQuote ∈ u ∨ doubleQuote ∈ u) (s : String) :
    ¬ Denotes (u ++ ['#']) s := by
  have hend : ∀ {quote : Char} {w : List Char}, quote ≠ '#' →
      quote :: w ++ [quote] ≠ u ++ ['#'] := by
    intro quote w hne heq
    have hlast := congrArg List.getLast? heq
    rw [List.getLast?_concat, List.getLast?_concat, Option.some.injEq] at hlast
    exact hne hlast
  intro hdenotes
  generalize hv : u ++ ['#'] = v at hdenotes
  cases hdenotes with
  | bare _ hdouble hsingle =>
    subst hv
    obtain h | h := h
    · exact hsingle (List.mem_append_left _ h)
    · exact hdouble (List.mem_append_left _ h)
  | double w => exact hend (by decide) hv.symm
  | single w => exact hend (by decide) hv.symm

/-- The key of a line that reads holds no quote, so the quote would be in the value. -/
theorem not_says_of_hash {text : List Char} (h : HashAfterQuote text) {key : String}
    (hkey : singleQuote ∉ key.toList ∧ doubleQuote ∉ key.toList) (v : String) :
    ¬ Says text key v := by
  obtain ⟨t, rfl, hquote⟩ := h
  rintro ⟨hcolon, hkeyOf, hdenotes⟩
  have hmem : ':' ∈ t := by simpa using hcolon
  obtain ⟨name, rest, rfl, hname⟩ := List.eq_append_cons_of_mem hmem
  rw [List.append_assoc, List.cons_append] at hkeyOf hdenotes
  rw [keyOf_append hname] at hkeyOf
  rw [valueOf_append hname] at hdenotes
  obtain ⟨u, hu, hkept⟩ := JavaScript.trim_concat rest (c := '#') (by decide)
  rw [hu] at hdenotes
  have hvalue : ∀ quote : Char, JavaScript.isSpace quote = false → quote ≠ ':' →
      quote ∉ key.toList → quote ∈ name ++ ':' :: rest → quote ∈ u := by
    intro quote hspace hne hnot hin
    rw [List.mem_append, List.mem_cons] at hin
    obtain hin | rfl | hin := hin
    · have htrim : quote ∈ JavaScript.trim name := JavaScript.mem_trim hin hspace
      rw [← hkeyOf, String.toList_ofList] at hnot
      exact absurd htrim hnot
    · exact absurd rfl hne
    · exact hkept quote hin hspace
  refine not_denotes_of_hash ?_ v hdenotes
  exact hquote.imp (hvalue _ (by decide) (by decide) hkey.1)
    (hvalue _ (by decide) (by decide) hkey.2)

theorem ruleField?_of_hash {text : List Char} (h : HashAfterQuote text) :
    ruleField? text = none := by
  rw [Option.eq_none_iff_forall_ne_some]
  intro field hfield
  rw [ruleField?_eq_some_iff] at hfield
  cases field with
  | tool v => exact not_says_of_hash h (by decide) v hfield
  | effect e => exact not_says_of_hash h (by decide) _ hfield
  | credential v => exact not_says_of_hash h (by decide) v hfield

theorem defaultEffect?_of_hash {text : List Char} (h : HashAfterQuote text) :
    defaultEffect? text = none := by
  rw [Option.eq_none_iff_forall_ne_some]
  intro e he
  rw [defaultEffect?_eq_some_iff] at he
  exact not_says_of_hash h (by decide) _ he

/-- No key at the margin has a value that ends in a hash sign. -/
theorem topKey?_of_hash (t : List Char) : topKey? (t ++ ['#']) = none := by
  unfold topKey?
  by_cases hcolon : ':' ∈ t
  · obtain ⟨name, rest, rfl, hname⟩ := List.eq_append_cons_of_mem hcolon
    obtain ⟨u, hu, -⟩ := JavaScript.trim_concat rest (c := '#') (by decide)
    have hdecimal : decimal? (u ++ ['#']) = none := by
      have hhash : (decide ('0' ≤ '#') && decide ('#' ≤ '9')) = false := by decide
      simp only [decimal?, List.all_append, List.all_cons, hhash, Bool.false_and, Bool.and_false,
        Bool.false_eq_true, if_false]
    have hne : (u ++ ['#']).isEmpty = false := by simp
    rw [List.append_assoc, List.cons_append, valueOf_append hname, hu, hdecimal, hne]
    simp
  · have hcontains : (t ++ ['#']).contains ':' = false := by simpa using hcolon
    rw [hcontains]
    rfl

theorem dashFields?_of_hash {body : List Char} (h : HashAfterQuote body)
    (hdash : body.head? = some '-') : dashFields? body = none := by
  obtain ⟨t, rfl, hquote⟩ := h
  cases t with
  | nil =>
    obtain hquote | hquote := hquote <;> cases hquote
  | cons c t =>
    obtain rfl : c = '-' := Option.some.inj hdash
    obtain ⟨u, hu, hkept⟩ := JavaScript.trim_concat t (c := '#') (by decide)
    have hquote' : singleQuote ∈ t ∨ doubleQuote ∈ t :=
      hquote.imp (List.mem_of_ne_of_mem (by decide)) (List.mem_of_ne_of_mem (by decide))
    have hhash : HashAfterQuote (u ++ ['#']) :=
      ⟨u, rfl, hquote'.imp (fun h => hkept _ h (by decide)) fun h => hkept _ h (by decide)⟩
    rw [dashFields?, List.cons_append, List.tail_cons, hu, ruleField?_of_hash hhash]
    simp

theorem head?_of_isDash {raw : Line} (h : isDash raw = true) : (bodyOf raw).head? = some '-' := by
  rw [isDash, Bool.or_eq_true, decide_eq_true_iff, decide_eq_true_iff] at h
  obtain h | h := h
  · rw [h]
    rfl
  · have htake := congrArg List.head? h
    rwa [List.head?_take, if_neg two_ne_zero] at htake

theorem ruleLine_of_hash {raw : Line} (h : HashAfterQuote (bodyOf raw)) (state : ParseState) :
    ruleLine state raw = none := by
  unfold ruleLine
  rw [ruleField?_of_hash h]
  by_cases hdash : isDash raw = true
  · rw [if_pos hdash, dashFields?_of_hash h (head?_of_isDash hdash)]
    rfl
  · rw [if_neg hdash]
    cases state.current.bind fun i => state.drafts[i]?.map fun rule => (i, rule) with
    | none => rfl
    | some found => simp

theorem enterLine_of_hash {raw : Line} (h : HashAfterQuote raw) (state : ParseState) :
    enterLine state raw = none := by
  obtain ⟨t, rfl, hquote⟩ := h
  have hnotSpace : ∃ c ∈ t, c ≠ ' ' := by
    obtain hquote | hquote := hquote
    · exact ⟨_, hquote, by decide⟩
    · exact ⟨_, hquote, by decide⟩
  have hbody : bodyOf (t ++ ['#']) = bodyOf t ++ ['#'] := bodyOf_append hnotSpace _
  have hhash : HashAfterQuote (bodyOf (t ++ ['#'])) :=
    ⟨_, hbody, hquote.imp (fun h => mem_bodyOf h (by decide)) fun h => mem_bodyOf h (by decide)⟩
  unfold enterLine
  rw [ruleLine_of_hash hhash, defaultEffect?_of_hash hhash, hbody, topKey?_of_hash]
  cases state.place <;> simp

def entered (lines : List (List Char)) : Option ParseState :=
  if (significant lines).any isForbidden then none
  else (significant lines).foldlM enterLine .initial

theorem parsePolicy_congr {source source' : String}
    (h : entered (splitLines source'.toList) = entered (splitLines source.toList)) :
    (parsePolicy source').toOption = (parsePolicy source).toOption := by
  have hlines : (parseLines .initial (splitLines source'.toList) 1).toOption =
      (parseLines .initial (splitLines source.toList) 1).toOption := by
    rw [parseLines_toOption, parseLines_toOption]
    exact h
  rw [parsePolicy, parsePolicy, Fallible.toOption_bind, Fallible.toOption_bind, hlines]

theorem parsePolicy_ne_ok {source : String} {doc : PolicyDoc}
    (h : entered (splitLines source.toList) = none) : parsePolicy source ≠ .ok doc := by
  have hlines : (parseLines .initial (splitLines source.toList) 1).toOption = none := by
    rw [parseLines_toOption]
    exact h
  rw [Ne, ← Fallible.toOption_eq_some_iff, parsePolicy, Fallible.toOption_bind, hlines]
  simp

theorem significant_append (lines lines' : List (List Char)) :
    significant (lines ++ lines') = significant lines ++ significant lines' := by
  rw [significant, List.map_append, List.filter_append, significant, significant]

theorem significant_cons (line : List Char) (lines : List (List Char)) :
    significant (line :: lines) =
      if Line.blank (stripComment line) then significant lines
      else stripComment line :: significant lines := by
  cases h : Line.blank (stripComment line) <;> simp [significant, h]

theorem entered_of_significant {lines lines' : List (List Char)}
    (h : significant lines = significant lines') : entered lines = entered lines' := by
  rw [entered, h, entered]

/-- A comment on a line whose quotes are closed. -/
theorem entered_comment {line : List Char} (h : Closed line) (before : List (List Char))
    (text : List Char) (after : List (List Char)) :
    entered (before ++ (line ++ ' ' :: '#' :: text) :: after) =
      entered (before ++ line :: after) := by
  obtain ⟨t, ht, hstrip⟩ := stripCommentFrom_comment h text
  change stripComment _ = stripComment line ++ t at hstrip
  obtain rfl | rfl := ht
  · rw [List.append_nil] at hstrip
    refine entered_of_significant ?_
    rw [significant_append, significant_append, significant_cons, significant_cons, hstrip]
  · have hblank : Line.blank (stripComment line ++ [' ']) = Line.blank (stripComment line) := by
      rw [Line.blank, JavaScript.trim_append_space _ allSpace_single, Line.blank]
    by_cases hempty : Line.blank (stripComment line) = true
    · refine entered_of_significant ?_
      rw [significant_append, significant_append, significant_cons, significant_cons, hstrip,
        hblank, if_pos hempty, if_pos hempty]
    · have hnotSpace : ∃ c ∈ stripComment line, c ≠ ' ' := by
        by_contra hall
        push Not at hall
        refine hempty (List.isEmpty_iff.2 (JavaScript.trim_eq_nil_iff.2 ?_))
        intro c hc
        rw [hall c hc]
        rfl
      rw [entered, entered, significant_append, significant_append, significant_cons,
        significant_cons, hstrip, hblank, if_neg hempty, if_neg hempty]
      simp only [List.any_append, List.any_cons, isForbidden_append_space, List.foldlM_append,
        List.foldlM_cons, enterLine_append_space hnotSpace]

theorem entered_insert {line : List Char} (h : BlankOrComment line)
    (before after : List (List Char)) :
    entered (before ++ line :: after) = entered (before ++ after) := by
  refine entered_of_significant ?_
  rw [significant_append, significant_append, significant_cons, if_pos (blank_of_blankOrComment h)]

/-- A hash sign after a line that ends inside quotes becomes part of the line, and is refused. -/
theorem entered_open {line : List Char} (h : ¬ Closed line) (before after : List (List Char)) :
    entered (before ++ (line ++ [' ', '#']) :: after) = none := by
  obtain ⟨hstrip, hquote⟩ := stripCommentFrom_open (Bool.eq_false_of_not_eq_true h)
  change stripComment _ = _ at hstrip
  have hhash : HashAfterQuote (line ++ [' ', '#']) :=
    ⟨line ++ [' '], by simp, (hquote rfl rfl).imp (List.mem_append_left _) (List.mem_append_left _)⟩
  have hblank : Line.blank (line ++ [' ', '#']) = false := by
    rw [Line.blank, List.isEmpty_eq_false_iff]
    have hmem : '#' ∈ line ++ [' ', '#'] := by simp
    exact List.ne_nil_of_mem (JavaScript.mem_trim hmem (by decide))
  rw [entered, significant_append, significant_cons, hstrip, hblank, if_neg Bool.false_ne_true,
    List.foldlM_append]
  simp only [List.foldlM_cons, enterLine_of_hash hhash]
  cases (significant before).foldlM enterLine .initial <;> simp

theorem no_break_of_mem_splitLines {text line : List Char} (h : line ∈ splitLines text) :
    '\n' ∉ line := by
  induction text using splitLines.induct generalizing line with
  | case1 =>
    rw [splitLines, List.mem_singleton] at h
    simp [h]
  | case2 rest ih =>
    rw [splitLines, List.mem_cons] at h
    obtain rfl | h := h
    · exact List.not_mem_nil
    · exact ih h
  | case3 rest ih =>
    rw [splitLines, List.mem_cons] at h
    obtain rfl | h := h
    · exact List.not_mem_nil
    · exact ih h
  | case4 c rest hlf hcrlf hnil ih =>
    rw [splitLines, hnil, List.mem_singleton] at h
    · subst h
      simpa [eq_comm] using hlf
    · exact hlf
    · exact hcrlf
  | case5 c rest hlf hcrlf first lines hrest ih =>
    rw [splitLines, hrest, List.mem_cons] at h
    · obtain rfl | h := h
      · rw [List.mem_cons, not_or]
        exact ⟨fun hc => hlf hc.symm, ih (hrest ▸ List.mem_cons_self)⟩
      · exact ih (hrest ▸ List.mem_cons_of_mem first h)
    · exact hlf
    · exact hcrlf

theorem no_break_of_edited {line : List Char} {before after : List (List Char)}
    (h : ∀ l ∈ before ++ line :: after, '\n' ∉ l) :
    ∀ l ∈ before ++ (line ++ [' ', '#']) :: after, '\n' ∉ l := by
  intro l hl
  rw [List.mem_append, List.mem_cons] at hl
  obtain hl | rfl | hl := hl
  · exact h l (by simp [hl])
  · simpa using h line (by simp)
  · exact h l (by simp [hl])

/-- The text with a bare hash sign after the line is refused. -/
theorem not_unaffected_of_open {source : String} (doc : PolicyDoc) {line : List Char}
    (hline : line ∈ splitLines source.toList) (hopen : ¬ Closed line) :
    ¬ Unaffected source doc := by
  intro hun
  obtain ⟨before, after, hlines⟩ := List.append_of_mem hline
  have hbreak : ∀ l ∈ before ++ line :: after, '\n' ∉ l := by
    intro l hl
    exact no_break_of_mem_splitLines (hlines ▸ hl)
  let edited := before ++ (line ++ [' ', '#']) :: after
  have hsplit : splitLines (String.ofList (joinLines (fun _ => true) edited)).toList = edited := by
    rw [String.toList_ofList]
    exact splitLines_joinLines (by simp [edited]) (no_break_of_edited hbreak) fun _ _ _ _ => rfl
  have hedited : Edited (splitLines source.toList)
      (splitLines (String.ofList (joinLines (fun _ => true) edited)).toList) := by
    rw [hsplit, hlines]
    exact .comment before line [] after
  refine parsePolicy_ne_ok ?_ (hun _ hedited)
  rw [hsplit]
  exact entered_open hopen before after

/-- A comment or a blank line changes nothing, unless a line ends inside quotes. -/
theorem unaffected_iff {source : String} {doc : PolicyDoc} (h : parsePolicy source = .ok doc) :
    Unaffected source doc ↔ ∀ line ∈ splitLines source.toList, Closed line := by
  constructor
  · intro hun line hline
    by_contra hopen
    exact not_unaffected_of_open doc hline hopen hun
  · intro hclosed source' hedited
    rw [← Fallible.toOption_eq_some_iff] at h ⊢
    rw [← h]
    apply parsePolicy_congr
    generalize splitLines source'.toList = lines' at hedited
    generalize splitLines source.toList = lines at hedited hclosed
    cases hedited with
    | comment before line text after =>
      exact entered_comment (hclosed line (by simp)) before text after
    | insert before line after hblank => exact entered_insert hblank before after

def oneRule (tool : String) : String :=
  String.ofList (joinLines (fun _ => false) ["version: 1".toList, "rules:".toList,
    " - tool: ".toList ++ tool.toList])

/-- The hash sign of this name is in quotes, and so it stays in the name. -/
theorem unaffected_quotedHash :
    Unaffected (oneRule "\"a # b\"") ⟨1, .deny, [⟨"a # b", .deny, none⟩]⟩ :=
  (unaffected_iff (by decide)).2 (List.all_eq_true.1 (by decide))

/-- A name in quotes that holds one quote more. -/
theorem oneQuoteMore_affected :
    parsePolicy (oneRule "\"a\"b\"") = .ok ⟨1, .deny, [⟨"a\"b", .deny, none⟩]⟩ ∧
      ¬ Unaffected (oneRule "\"a\"b\"") ⟨1, .deny, [⟨"a\"b", .deny, none⟩]⟩ := by
  have hopen : ¬ Closed " - tool: \"a\"b\"".toList := by
    rw [Closed]
    decide
  exact ⟨by decide, not_unaffected_of_open _ (by decide) hopen⟩

end AgentValet.Broker.PolicyYaml
