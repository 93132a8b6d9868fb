import AgentValet.Broker.PolicyLines

namespace AgentValet.Broker.PolicyYaml
open Base Lang

def belowDash (indent : ℕ) (raw : Line) : Option RuleField :=
  if indentOf raw ≤ indent then none else ruleField? (bodyOf raw)

def readItem (item : Line × List Line) : Option DraftRule := do
  let first ← dashFields? (bodyOf item.1)
  let rest ← item.2.mapM (belowDash (indentOf item.1))
  return (first ++ rest).foldl RuleField.fill (emptyDraft (indentOf item.1))

inductive BlockDoc where
  | version (n : ℕ)
  | defaults (effects : List DefaultEffect)
  | rules (drafts : List DraftRule)

def readBlock (block : Line × List Line) : Option BlockDoc :=
  match topKey? (bodyOf block.1) with
  | none => none
  | some (.version n) => if block.2.isEmpty then some (.version n) else none
  | some .defaults => (block.2.mapM fun raw => defaultEffect? (bodyOf raw)).map .defaults
  | some .rules =>
    if (Segments.preamble isDash block.2).isEmpty then
      ((Segments.segments isDash block.2).mapM readItem).map .rules
    else none

structure Content where
  version : Option ℕ
  defaultsEffect : Option DefaultEffect
  drafts : List DraftRule

def ParseState.content (state : ParseState) : Content :=
  ⟨state.version, state.defaultsEffect, state.drafts⟩

/-- A block adds to what is gathered, or replaces it. -/
def Content.add (c : Content) : BlockDoc → Content
  | .version n => { c with version := some n }
  | .defaults effects => { c with defaultsEffect := effects.getLast?.or c.defaultsEffect }
  | .rules drafts => { c with drafts := c.drafts ++ drafts }

def readBlocks (lines : List Line) : Option (List BlockDoc) :=
  if lines.any isForbidden then none
  else if (Segments.preamble atMargin lines).isEmpty then
    (Segments.segments atMargin lines).mapM readBlock
  else none

def Content.empty : Content := ⟨none, none, []⟩

def Content.doc? (c : Content) : Option PolicyDoc :=
  if c.version = some 1 then
    (collectRules [] c.drafts).toOption.map fun rules => ⟨1, c.defaultsEffect.getD .deny, rules⟩
  else none

def document? (source : String) : Option PolicyDoc :=
  (readBlocks (significant (splitLines source.toList))).bind fun blocks =>
    (blocks.foldl Content.add .empty).doc?

theorem fill_indent (rule : DraftRule) (field : RuleField) :
    (field.fill rule).indent = rule.indent := by
  cases field <;> rfl

theorem foldl_fill_indent (fields : List RuleField) (rule : DraftRule) :
    (fields.foldl RuleField.fill rule).indent = rule.indent := by
  induction fields generalizing rule with
  | nil => rfl
  | cons field fields ih => rw [List.foldl_cons, ih, fill_indent]

/-- The lines of an item after its first fill in the rule that the first one has started. -/
theorem foldlM_item_rest (state : ParseState) (hplace : state.place = .rules)
    {drafts : List DraftRule} {rule : DraftRule} (hdrafts : state.drafts = drafts ++ [rule])
    (hcurrent : state.current = some drafts.length) {rest : List Line}
    (hindented : ∀ raw ∈ rest, atMargin raw = false) (hdash : ∀ raw ∈ rest, isDash raw = false) :
    rest.foldlM enterLine state = (rest.mapM (belowDash rule.indent)).map fun fields =>
      { state with drafts := drafts ++ [fields.foldl RuleField.fill rule] } := by
  induction rest generalizing state rule with
  | nil =>
    simp only [List.foldlM_nil, List.mapM_nil, Option.pure_def, Option.map_some, List.foldl_nil,
      ← hdrafts]
  | cons raw rest ih =>
    have hfound : (state.current.bind fun i => state.drafts[i]?.map fun rule => (i, rule)) =
        some (drafts.length, rule) := by
      rw [hcurrent, hdrafts, Option.bind_some, List.getElem?_concat_length, Option.map_some]
    have hstep : enterLine state raw = (belowDash rule.indent raw).map fun field =>
        { state with drafts := drafts ++ [field.fill rule] } := by
      simp only [enterLine, hindented raw List.mem_cons_self, hplace, Bool.false_eq_true, if_false,
        ruleLine, hdash raw List.mem_cons_self, hfound, belowDash]
      split_ifs
      · rfl
      · simp only [hdrafts, List.set_append_right _ _ (le_refl _), Nat.sub_self, List.set_cons_zero]
    rw [List.foldlM_cons, List.mapM_cons, hstep]
    cases belowDash rule.indent raw with
    | none => rfl
    | some field =>
      simp only [Option.map_some, Option.bind_eq_bind, Option.bind_some, Option.pure_def]
      rw [ih { state with drafts := drafts ++ [field.fill rule] } hplace rfl hcurrent
        (fun r hr => hindented r (List.mem_cons_of_mem raw hr))
        (fun r hr => hdash r (List.mem_cons_of_mem raw hr)), fill_indent]
      cases rest.mapM (belowDash rule.indent) <;> rfl

/-- An item adds its rule. -/
theorem foldlM_item {state : ParseState} (hplace : state.place = .rules) {item : Line × List Line}
    (hhead : atMargin item.1 = false) (hdash : isDash item.1 = true)
    (hindented : ∀ raw ∈ item.2, atMargin raw = false)
    (hrest : ∀ raw ∈ item.2, isDash raw = false) :
    (Segments.elements item).foldlM enterLine state = (readItem item).map fun rule =>
      { state with drafts := state.drafts ++ [rule], current := some state.drafts.length } := by
  rw [Segments.elements, List.foldlM_cons, enterLine, hhead, hplace]
  simp only [Bool.false_eq_true, if_false, ruleLine, if_pos hdash, readItem]
  cases dashFields? (bodyOf item.1) with
  | none => rfl
  | some first =>
    simp only [Option.map_some, Option.bind_eq_bind, Option.bind_some]
    let started : DraftRule := first.foldl RuleField.fill (emptyDraft (indentOf item.1))
    let entered : ParseState :=
      { state with drafts := state.drafts ++ [started], current := some state.drafts.length }
    have hindent : started.indent = indentOf item.1 := foldl_fill_indent first _
    rw [foldlM_item_rest entered hplace rfl rfl hindented hrest, hindent]
    cases item.2.mapM (belowDash (indentOf item.1)) with
    | none => rfl
    | some rest =>
      simp only [Option.map_some, Option.bind_some, Option.pure_def, List.foldl_append, entered,
        started, hplace]

/-- Below `defaults:` every line sets the effect. -/
theorem foldlM_defaults {state : ParseState} (hplace : state.place = .defaults) {body : List Line}
    (hindented : ∀ raw ∈ body, atMargin raw = false) :
    (body.foldlM enterLine state).map ParseState.content =
      (body.mapM fun raw => defaultEffect? (bodyOf raw)).map fun effects =>
        state.content.add (.defaults effects) := by
  induction body generalizing state with
  | nil => rfl
  | cons raw body ih =>
    have hstep : enterLine state raw = (defaultEffect? (bodyOf raw)).map fun e =>
        { state with defaultsEffect := some e } := by
      simp only [enterLine, hindented raw List.mem_cons_self, hplace, Bool.false_eq_true, if_false]
    rw [List.foldlM_cons, List.mapM_cons, hstep]
    cases defaultEffect? (bodyOf raw) with
    | none => rfl
    | some e =>
      simp only [Option.map_some, Option.bind_eq_bind, Option.bind_some, Option.pure_def]
      let entered : ParseState := { state with defaultsEffect := some e }
      have hplace' : entered.place = .defaults := hplace
      rw [ih hplace' fun r hr => hindented r (List.mem_cons_of_mem raw hr)]
      cases body.mapM fun raw => defaultEffect? (bodyOf raw) with
      | none => rfl
      | some effects =>
        cases effects <;> rfl

/-- A line before the first dash has no rule to fill in. -/
theorem enterLine_before_dash {state : ParseState} (hplace : state.place = .rules)
    (hcurrent : state.current = none) {raw : Line} (hmargin : atMargin raw = false)
    (hdash : isDash raw = false) : enterLine state raw = none := by
  simp only [enterLine, hmargin, hplace, Bool.false_eq_true, if_false, ruleLine, hdash, hcurrent,
    Option.bind_none]

/-- Rules that are added one by one are added together. -/
theorem foldl_add_rules (drafts : List DraftRule) (c : Content) :
    drafts.foldl (fun c rule => c.add (.rules [rule])) c = c.add (.rules drafts) := by
  induction drafts generalizing c with
  | nil => simp only [List.foldl_nil, Content.add, List.append_nil]
  | cons rule drafts ih =>
    rw [List.foldl_cons, ih]
    simp only [Content.add, List.append_assoc, List.singleton_append]

/-- Below `rules:` every item adds its rule. -/
theorem foldlM_rules {state : ParseState} (hplace : state.place = .rules)
    (hcurrent : state.current = none) {body : List Line}
    (hindented : ∀ raw ∈ body, atMargin raw = false) :
    (body.foldlM enterLine state).map ParseState.content =
      (if (Segments.preamble isDash body).isEmpty then
        (Segments.segments isDash body).mapM readItem else none).map fun drafts =>
        state.content.add (.rules drafts) := by
  have hbody := Segments.preamble_append_flatMap (p := isDash) body
  cases hpre : Segments.preamble isDash body with
  | cons raw rest =>
    rw [hpre] at hbody
    have hraw : isDash raw = false :=
      Segments.preamble_forall body raw (hpre ▸ List.mem_cons_self)
    have hmargin : atMargin raw = false := hindented raw (hbody ▸ List.mem_cons_self)
    rw [← hbody, List.cons_append, List.foldlM_cons,
      enterLine_before_dash hplace hcurrent hmargin hraw]
    rfl
  | nil =>
    rw [hpre, List.nil_append] at hbody
    have hitem : ∀ item ∈ Segments.segments isDash body, ∀ s : ParseState, s.place = .rules →
        (Segments.elements item).foldlM enterLine s = (readItem item).map fun rule =>
          { s with drafts := s.drafts ++ [rule], current := some s.drafts.length } := by
      intro item hitem s hs
      have hmem := Segments.mem_of_mem_segments hitem
      exact foldlM_item hs (hindented _ (hmem _ List.mem_cons_self)) (Segments.head_of_mem hitem)
        (fun raw hr => hindented raw (hmem raw (List.mem_cons_of_mem _ hr)))
        (Segments.tail_of_mem hitem)
    have hview : ∀ item ∈ Segments.segments isDash body, ∀ s : ParseState, s.place = .rules →
        ((Segments.elements item).foldlM enterLine s).map ParseState.content =
          (readItem item).map fun rule => s.content.add (.rules [rule]) := by
      intro item hmem s hs
      rw [hitem item hmem s hs, Option.map_map]
      rfl
    have hinv : ∀ item ∈ Segments.segments isDash body, ∀ s s' : ParseState, s.place = .rules →
        (Segments.elements item).foldlM enterLine s = some s' → s'.place = .rules := by
      intro item hmem s s' hs h
      rw [hitem item hmem s hs, Option.map_eq_some_iff] at h
      obtain ⟨rule, -, rfl⟩ := h
      exact hs
    have hfold := Segments.foldlM_segments enterLine ParseState.content readItem
      (fun c rule => c.add (.rules [rule])) (fun s => s.place = .rules) _ hview hinv hplace
    rw [hbody] at hfold
    rw [hfold]
    simp only [List.isEmpty_nil, if_true, foldl_add_rules]

/-- What a block adds does not depend on what stands before it. -/
theorem foldlM_block (state : ParseState) {block : Line × List Line}
    (hhead : atMargin block.1 = true) (hindented : ∀ raw ∈ block.2, atMargin raw = false) :
    ((Segments.elements block).foldlM enterLine state).map ParseState.content =
      (readBlock block).map (Content.add state.content) := by
  rw [Segments.elements, List.foldlM_cons, enterLine, if_pos hhead, readBlock]
  cases topKey? (bodyOf block.1) with
  | none => rfl
  | some key =>
    simp only [Option.map_some, Option.bind_eq_bind, Option.bind_some]
    cases key with
    | version n =>
      cases hbody : block.2 with
      | nil => rfl
      | cons raw rest =>
        have hraw : atMargin raw = false := hindented raw (hbody ▸ List.mem_cons_self)
        rw [List.foldlM_cons, enterLine, hraw]
        rfl
    | defaults =>
      have hplace : (TopKey.defaults.enter state).place = .defaults := rfl
      rw [foldlM_defaults hplace hindented]
      cases block.2.mapM fun raw => defaultEffect? (bodyOf raw) <;> rfl
    | rules =>
      have hplace : (TopKey.rules.enter state).place = .rules := rfl
      rw [foldlM_rules hplace rfl hindented]
      simp only
      cases (Segments.preamble isDash block.2).isEmpty with
      | true => cases (Segments.segments isDash block.2).mapM readItem <;> rfl
      | false => rfl

/-- Indented content before the first block is refused; the blocks add up. -/
theorem foldlM_blocks (lines : List Line) :
    (lines.foldlM enterLine .initial).map ParseState.content =
      (if (Segments.preamble atMargin lines).isEmpty then
        (Segments.segments atMargin lines).mapM readBlock else none).map fun blocks =>
          blocks.foldl Content.add .empty := by
  have hlines := Segments.preamble_append_flatMap (p := atMargin) lines
  cases hpre : Segments.preamble atMargin lines with
  | cons raw rest =>
    have hraw : atMargin raw = false := by
      refine Segments.preamble_forall lines raw ?_
      rw [hpre]
      exact List.mem_cons_self
    rw [hpre] at hlines
    rw [← hlines, List.cons_append, List.foldlM_cons, enterLine, hraw]
    rfl
  | nil =>
    rw [hpre, List.nil_append] at hlines
    have hview : ∀ block ∈ Segments.segments atMargin lines, ∀ s : ParseState, True →
        ((Segments.elements block).foldlM enterLine s).map ParseState.content =
          (readBlock block).map (Content.add s.content) := by
      intro block hblock s _
      exact foldlM_block s (Segments.head_of_mem hblock) (Segments.tail_of_mem hblock)
    have hfold := Segments.foldlM_segments enterLine ParseState.content readBlock Content.add
      (fun _ => True) _ hview (fun _ _ _ _ _ _ => trivial) (s := ParseState.initial) trivial
    rw [hlines] at hfold
    exact hfold

/-- The parser returns the document of the text, and nothing else. -/
theorem parsePolicy_toOption (source : String) :
    (parsePolicy source).toOption = document? source := by
  rw [parsePolicy, Fallible.toOption_bind, parseLines_toOption, document?, readBlocks]
  cases (significant (splitLines source.toList)).any isForbidden with
  | true => rfl
  | false =>
    have hblocks := foldlM_blocks (significant (splitLines source.toList))
    simp only [Bool.false_eq_true, if_false]
    cases hfold : (significant (splitLines source.toList)).foldlM enterLine .initial with
    | none =>
      rw [hfold, Option.map_none, eq_comm, Option.map_eq_none_iff] at hblocks
      rw [hblocks]
      rfl
    | some state =>
      rw [hfold, Option.map_some, eq_comm, Option.map_eq_some_iff] at hblocks
      obtain ⟨blocks, hblocks, hcontent⟩ := hblocks
      rw [hblocks, Option.bind_some, Option.bind_some, hcontent, Content.doc?, ParseState.content]
      cases state.version with
      | none => rfl
      | some version =>
        simp only [ne_eq, ite_not, Option.some.injEq]
        split_ifs with hone
        · subst hone
          cases collectRules [] state.drafts <;> rfl
        · rfl

theorem parsePolicy_eq_ok_iff {source : String} {doc : PolicyDoc} :
    parsePolicy source = .ok doc ↔ document? source = some doc := by
  rw [← Fallible.toOption_eq_some_iff, parsePolicy_toOption]

end AgentValet.Broker.PolicyYaml
