import AgentValet.Broker.PolicyBlocks

namespace AgentValet.Broker.PolicyYaml
open Base Lang

/-- The lines of a text, without comments and blank lines. -/
def linesOf (source : String) : List Line := significant (splitLines source.toList)

/-- Each line at the margin, with the indented lines up to the next one. -/
def blocks (lines : List Line) : List (Line × List Line) := Segments.segments atMargin lines

def under (key : String) (block : Line × List Line) : Bool := keyOf (bodyOf block.1) = key

/-- Each line with a dash under `rules:`, with the lines up to the next one or the margin. -/
def items (lines : List Line) : List (Line × List Line) :=
  (blocks lines).flatMap fun block =>
    if under "rules" block then Segments.segments isDash block.2 else []

def defaultsLines (lines : List Line) : List Line :=
  (blocks lines).flatMap fun block => if under "defaults" block then block.2 else []

def versionValues (lines : List Line) : List (List Char) :=
  (blocks lines).flatMap fun block =>
    if under "version" block then [valueOf (bodyOf block.1)] else []

/-- The field texts of an item: what follows the dash, if anything does, and the lines below. -/
def fieldTexts (item : Line × List Line) : List (List Char) :=
  [JavaScript.trim (bodyOf item.1).tail].filter (fun text => !text.isEmpty) ++ item.2.map bodyOf

def DraftRule.rule? (d : DraftRule) : Option PolicyRuleDoc :=
  (d.tool.filter (· ≠ "")).map fun tool => ⟨tool, d.effect, d.credential⟩

def itemRule (item : Line × List Line) : Option PolicyRuleDoc :=
  (readItem item).bind DraftRule.rule?

theorem dashFields?_eq_mapM (body : List Char) :
    dashFields? body =
      ([JavaScript.trim body.tail].filter fun text => !text.isEmpty).mapM ruleField? := by
  unfold dashFields?
  cases h : (JavaScript.trim body.tail).isEmpty with
  | true => simp [h]
  | false =>
    rw [if_neg Bool.false_ne_true, List.filter_cons_of_pos (by simp [h]), List.filter_nil,
      List.mapM_cons, List.mapM_nil]
    cases ruleField? (JavaScript.trim body.tail) <;> rfl

theorem mapM_belowDash (indent : ℕ) (rest : List Line) :
    rest.mapM (belowDash indent) =
      if rest.all fun raw => indent < indentOf raw then (rest.map bodyOf).mapM ruleField?
      else none := by
  induction rest with
  | nil => rfl
  | cons raw rest ih =>
    rw [List.mapM_cons, ih, belowDash, List.all_cons]
    by_cases hraw : indentOf raw ≤ indent
    · have hraw' : decide (indent < indentOf raw) = false := decide_eq_false (by omega)
      rw [if_pos hraw, hraw', Bool.false_and, if_neg Bool.false_ne_true]
      rfl
    · have hraw' : decide (indent < indentOf raw) = true := decide_eq_true (by omega)
      rw [if_neg hraw, hraw', Bool.true_and, List.map_cons, List.mapM_cons]
      split_ifs
      · rfl
      · cases ruleField? (bodyOf raw) <;> rfl

/-- An item is read field by field, when its lines stand to the right of the dash. -/
theorem readItem_eq (item : Line × List Line) :
    readItem item = if item.2.all fun raw => indentOf item.1 < indentOf raw then
      ((fieldTexts item).mapM ruleField?).map fun fields =>
        fields.foldl RuleField.fill (emptyDraft (indentOf item.1))
      else none := by
  rw [readItem, dashFields?_eq_mapM, mapM_belowDash, fieldTexts, List.mapM_append]
  split_ifs
  · cases ([JavaScript.trim (bodyOf item.1).tail].filter fun text => !text.isEmpty).mapM
      ruleField? with
    | none => rfl
    | some first =>
      simp only [Option.bind_eq_bind, Option.bind_some]
      cases (item.2.map bodyOf).mapM ruleField? <;> rfl
  · simp only [Option.bind_eq_bind, Option.bind_none, Option.bind_fun_none]

theorem readItem_eq_some_iff {item : Line × List Line} {d : DraftRule} :
    readItem item = some d ↔ (∀ raw ∈ item.2, indentOf item.1 < indentOf raw) ∧
      ∃ fields, List.Forall₂ RuleField.SaidBy (fieldTexts item) fields ∧
        fields.foldl RuleField.fill (emptyDraft (indentOf item.1)) = d := by
  rw [readItem_eq]
  by_cases hindent : ∀ raw ∈ item.2, indentOf item.1 < indentOf raw
  · have hall : (item.2.all fun raw => indentOf item.1 < indentOf raw) = true := by
      simpa using hindent
    rw [if_pos hall, Option.map_eq_some_iff]
    simp only [Fallible.mapM_eq_some_iff, ruleField?_eq_some_iff]
    exact ⟨fun h => ⟨hindent, h⟩, fun h => h.2⟩
  · have hall : ¬ (item.2.all fun raw => indentOf item.1 < indentOf raw) = true := by
      simpa using hindent
    rw [if_neg hall]
    constructor
    · intro h
      cases h
    · intro h
      exact absurd h.1 hindent

def toolSaid (text : List Char) : Option String :=
  if keyOf text = "tool" then scalar? (valueOf text) else none

def toolsNamed (texts : List (List Char)) : List String := texts.filterMap toolSaid

theorem foldl_fill_tool {texts : List (List Char)} {fields : List RuleField}
    (h : List.Forall₂ RuleField.SaidBy texts fields) (d : DraftRule) :
    (fields.foldl RuleField.fill d).tool = (toolsNamed texts).getLast?.or d.tool := by
  induction h generalizing d with
  | nil => rfl
  | @cons text field texts fields hsaid _ ih =>
    rw [List.foldl_cons, ih]
    cases field with
    | tool v =>
      have hsaid' : toolSaid text = some v := by
        rw [toolSaid, if_pos hsaid.2.1, scalar?_eq_some_iff.2 hsaid.2.2]
      have hcons : toolsNamed (text :: texts) = v :: toolsNamed texts :=
        List.filterMap_cons_some hsaid'
      rw [hcons, List.getLast?_cons]
      cases (toolsNamed texts).getLast? <;> rfl
    | effect e =>
      have hsaid' : toolSaid text = none := by rw [toolSaid, hsaid.2.1, if_neg (by decide)]
      have hcons : toolsNamed (text :: texts) = toolsNamed texts := List.filterMap_cons_none hsaid'
      rw [hcons]
      rfl
    | credential v =>
      have hsaid' : toolSaid text = none := by rw [toolSaid, hsaid.2.1, if_neg (by decide)]
      have hcons : toolsNamed (text :: texts) = toolsNamed texts := List.filterMap_cons_none hsaid'
      rw [hcons]
      rfl

/-- An item that says no effect is left with the one it had. -/
theorem foldl_fill_effect (fields : List RuleField) (d : DraftRule) :
    (fields.foldl RuleField.fill d).effect = d.effect ∨
      RuleField.effect (fields.foldl RuleField.fill d).effect ∈ fields := by
  induction fields generalizing d with
  | nil => exact .inl rfl
  | cons field fields ih =>
    rw [List.foldl_cons]
    obtain h | h := ih (field.fill d)
    · rw [h]
      cases field with
      | tool v => exact .inl rfl
      | effect e => exact .inr List.mem_cons_self
      | credential v => exact .inl rfl
    · exact .inr (List.mem_cons_of_mem _ h)

def TopKey.SaidBy (body : List Char) : TopKey → Prop
  | .version n => ':' ∈ body ∧ keyOf body = "version" ∧ decimal? (valueOf body) = some n
  | .defaults => ':' ∈ body ∧ keyOf body = "defaults" ∧ valueOf body = []
  | .rules => ':' ∈ body ∧ keyOf body = "rules" ∧ valueOf body = []

theorem topKey?_eq_some_iff {body : List Char} {key : TopKey} :
    topKey? body = some key ↔ key.SaidBy body := by
  unfold topKey?
  by_cases hcolon : ':' ∈ body
  · rw [if_pos (List.contains_iff_mem.2 hcolon)]
    constructor
    · intro h
      split_ifs at h with hversion hdefaults hvalue hrules hvalue
      · obtain ⟨n, hn, rfl⟩ := Option.map_eq_some_iff.1 h
        exact ⟨hcolon, hversion, hn⟩
      · rw [Option.some.injEq] at h
        subst h
        exact ⟨hcolon, hdefaults, List.isEmpty_iff.1 hvalue⟩
      · rw [Option.some.injEq] at h
        subst h
        exact ⟨hcolon, hrules, List.isEmpty_iff.1 hvalue⟩
    · intro h
      cases key with
      | version n => rw [if_pos h.2.1, h.2.2, Option.map_some]
      | defaults =>
        rw [h.2.1, if_neg (by decide), if_pos rfl, h.2.2]
        rfl
      | rules =>
        rw [h.2.1, if_neg (by decide), if_neg (by decide), if_pos rfl, h.2.2]
        rfl
  · rw [if_neg (by simpa using hcolon)]
    constructor
    · intro h
      cases h
    · intro h
      cases key <;> exact absurd h.1 hcolon

def BlockDoc.versions : BlockDoc → List ℕ
  | .version n => [n]
  | _ => []

def BlockDoc.effects : BlockDoc → List DefaultEffect
  | .defaults effects => effects
  | _ => []

def BlockDoc.drafts : BlockDoc → List DraftRule
  | .rules drafts => drafts
  | _ => []

/-- The last version and the last effect stand, the rules are put together. -/
theorem foldl_add (docs : List BlockDoc) (c : Content) :
    docs.foldl Content.add c =
      { version := (docs.flatMap BlockDoc.versions).getLast?.or c.version
        defaultsEffect := (docs.flatMap BlockDoc.effects).getLast?.or c.defaultsEffect
        drafts := c.drafts ++ docs.flatMap BlockDoc.drafts } := by
  induction docs generalizing c with
  | nil => simp
  | cons doc docs ih =>
    rw [List.foldl_cons, ih]
    simp only [List.flatMap_cons, List.getLast?_append, Option.or_assoc]
    cases doc <;> simp [Content.add, BlockDoc.versions, BlockDoc.effects, BlockDoc.drafts]

theorem under_eq {block : Line × List Line} {name : String}
    (h : keyOf (bodyOf block.1) = name) (key : String) : under key block = decide (name = key) := by
  rw [under, h]

/-- The three blocks that are read, by their keys. -/
theorem readBlock_cases {block : Line × List Line} {doc : BlockDoc}
    (h : readBlock block = some doc) :
    (∃ n, TopKey.SaidBy (bodyOf block.1) (.version n) ∧ block.2 = [] ∧ doc = .version n) ∨
      (∃ effects, TopKey.SaidBy (bodyOf block.1) .defaults ∧
        block.2.mapM (fun raw => defaultEffect? (bodyOf raw)) = some effects ∧
        doc = .defaults effects) ∨
      ∃ drafts, TopKey.SaidBy (bodyOf block.1) .rules ∧ Segments.preamble isDash block.2 = [] ∧
        (Segments.segments isDash block.2).mapM readItem = some drafts ∧ doc = .rules drafts := by
  unfold readBlock at h
  cases hkey : topKey? (bodyOf block.1) with
  | none =>
    rw [hkey] at h
    cases h
  | some key =>
    rw [hkey] at h
    have hsaid := topKey?_eq_some_iff.1 hkey
    cases key with
    | version n =>
      simp only at h
      split_ifs at h with hempty
      exact .inl ⟨n, hsaid, List.isEmpty_iff.1 hempty, (Option.some.inj h).symm⟩
    | defaults =>
      obtain ⟨effects, heffects, rfl⟩ := Option.map_eq_some_iff.1 h
      exact .inr (.inl ⟨effects, hsaid, heffects, rfl⟩)
    | rules =>
      simp only at h
      split_ifs at h with hempty
      obtain ⟨drafts, hdrafts, rfl⟩ := Option.map_eq_some_iff.1 h
      exact .inr (.inr ⟨drafts, hsaid, List.isEmpty_iff.1 hempty, hdrafts, rfl⟩)

theorem readBlock_parts {block : Line × List Line} {doc : BlockDoc}
    (h : readBlock block = some doc) :
    (if under "version" block then [valueOf (bodyOf block.1)] else []).mapM decimal? =
        some doc.versions ∧
      (if under "defaults" block then block.2 else []).mapM
          (fun raw => defaultEffect? (bodyOf raw)) = some doc.effects ∧
      (if under "rules" block then Segments.segments isDash block.2 else []).mapM readItem =
        some doc.drafts := by
  obtain ⟨n, ⟨-, hname, hvalue⟩, -, rfl⟩ | ⟨effects, ⟨-, hname, -⟩, heffects, rfl⟩ |
    ⟨drafts, ⟨-, hname, -⟩, -, hdrafts, rfl⟩ := readBlock_cases h
  · simp [under_eq hname, hvalue, BlockDoc.versions, BlockDoc.effects, BlockDoc.drafts]
  · simp [under_eq hname, heffects, BlockDoc.versions, BlockDoc.effects, BlockDoc.drafts]
  · simp [under_eq hname, hdrafts, BlockDoc.versions, BlockDoc.effects, BlockDoc.drafts]

/-- What is gathered from a text: its last version and its last effect, and a rule of each item. -/
theorem readBlocks_content {lines : List Line} {docs : List BlockDoc}
    (h : readBlocks lines = some docs) :
    (docs.foldl Content.add .empty).version = (versionValues lines).getLast?.bind decimal? ∧
      (docs.foldl Content.add .empty).defaultsEffect =
        ((defaultsLines lines).getLast?.bind fun raw => defaultEffect? (bodyOf raw)) ∧
      (items lines).mapM readItem = some (docs.foldl Content.add .empty).drafts := by
  have hdocs : (blocks lines).mapM readBlock = some docs := by
    unfold readBlocks at h
    split_ifs at h
    exact h
  rw [foldl_add]
  refine ⟨?_, ?_, ?_⟩
  · have hversions := Fallible.mapM_flatMap (fun b doc hb => (readBlock_parts hb).1) hdocs
    simp only [Content.empty, Option.or_none]
    exact Fallible.getLast?_of_mapM hversions
  · have heffects := Fallible.mapM_flatMap (fun b doc hb => (readBlock_parts hb).2.1) hdocs
    simp only [Content.empty, Option.or_none]
    exact Fallible.getLast?_of_mapM heffects
  · have hdrafts := Fallible.mapM_flatMap (fun b doc hb => (readBlock_parts hb).2.2) hdocs
    simp only [Content.empty, List.nil_append]
    exact hdrafts

theorem collectRules_cons_iff {seen : List String} {d : DraftRule} {drafts : List DraftRule}
    {rules : List PolicyRuleDoc} :
    collectRules seen (d :: drafts) = .ok rules ↔
      ∃ rule rest, rules = rule :: rest ∧ d.rule? = some rule ∧ rule.tool ∉ seen ∧
        collectRules (rule.tool :: seen) drafts = .ok rest := by
  rw [collectRules, DraftRule.rule?]
  cases d.tool.filter (· ≠ "") with
  | none => simp
  | some tool =>
    simp only [Option.map_some, Option.some.injEq]
    by_cases hseen : tool ∈ seen
    · rw [if_pos hseen]
      constructor
      · intro h
        cases h
      · rintro ⟨rule, rest, -, rfl, hfresh, -⟩
        exact absurd hseen hfresh
    · rw [if_neg hseen, Fallible.bind_eq_ok]
      simp only [Fallible.pure_eq_ok]
      constructor
      · rintro ⟨rest, hrest, rfl⟩
        exact ⟨_, rest, rfl, rfl, hseen, hrest⟩
      · rintro ⟨rule, rest, rfl, rfl, -, hrest⟩
        exact ⟨rest, hrest, rfl⟩

/-- A rule is new to the rules before it, and the rules after it are new to it. -/
theorem fresh_cons_iff {seen : List String} {rule : PolicyRuleDoc} {rules : List PolicyRuleDoc} :
    (((rule :: rules).map PolicyRuleDoc.tool).Nodup ∧
        ∀ r ∈ rule :: rules, r.tool ∉ seen) ↔
      rule.tool ∉ seen ∧ (rules.map PolicyRuleDoc.tool).Nodup ∧
        ∀ r ∈ rules, r.tool ∉ rule.tool :: seen := by
  rw [List.forall_mem_cons, List.map_cons, List.nodup_cons]
  simp only [List.mem_map, not_exists, not_and, List.mem_cons, not_or]
  constructor
  · rintro ⟨⟨hnew, hnodup⟩, hseen, hrest⟩
    exact ⟨hseen, hnodup, fun r hr => ⟨hnew r hr, hrest r hr⟩⟩
  · rintro ⟨hseen, hnodup, hrest⟩
    exact ⟨⟨fun r hr => (hrest r hr).1, hnodup⟩, hseen, fun r hr => (hrest r hr).2⟩

theorem collectRules_eq_ok_iff {seen : List String} {drafts : List DraftRule}
    {rules : List PolicyRuleDoc} :
    collectRules seen drafts = .ok rules ↔
      drafts.map DraftRule.rule? = rules.map some ∧ (rules.map PolicyRuleDoc.tool).Nodup ∧
        ∀ rule ∈ rules, rule.tool ∉ seen := by
  -- `seen` grows along the drafts: what a rule must be new to
  induction drafts generalizing seen rules with
  | nil =>
    cases rules with
    | nil => simp [collectRules]
    | cons rule rules => simp [collectRules]
  | cons d drafts ih =>
    rw [collectRules_cons_iff]
    simp only [ih]
    cases rules with
    | nil => simp
    | cons rule rules =>
      rw [fresh_cons_iff, List.map_cons, List.map_cons, List.cons.injEq]
      constructor
      · rintro ⟨rule', rest, heq, hrule, hseen, hrest⟩
        obtain ⟨rfl, rfl⟩ := List.cons.inj heq
        exact ⟨⟨hrule, hrest.1⟩, hseen, hrest.2⟩
      · rintro ⟨⟨hrule, hmap⟩, hseen, hrest⟩
        exact ⟨rule, rules, rfl, hrule, hseen, hmap, hrest⟩

/-- Each line of the item is a field, to the right of the dash. -/
structure GoodItem (item : Line × List Line) : Prop where
  indented : ∀ raw ∈ item.2, indentOf item.1 < indentOf raw
  reads : ∀ text ∈ fieldTexts item, ∃ field : RuleField, field.SaidBy text

inductive GoodBlock (block : Line × List Line) : Prop where
  | version (n : ℕ) : TopKey.SaidBy (bodyOf block.1) (.version n) → block.2 = [] → GoodBlock block
  | defaults : TopKey.SaidBy (bodyOf block.1) .defaults →
      (∀ raw ∈ block.2, ∃ e, Says (bodyOf raw) "effect" (defaultText e)) → GoodBlock block
  | rules : TopKey.SaidBy (bodyOf block.1) .rules → Segments.preamble isDash block.2 = [] →
      (∀ item ∈ Segments.segments isDash block.2, GoodItem item) → GoodBlock block

theorem exists_readItem_iff {item : Line × List Line} :
    (∃ d, readItem item = some d) ↔ GoodItem item := by
  simp only [readItem_eq_some_iff]
  constructor
  · rintro ⟨d, hindented, fields, hfields, -⟩
    refine ⟨hindented, fun text htext => ?_⟩
    obtain ⟨field, -, hfield⟩ := Fallible.exists_of_forall₂ hfields htext
    exact ⟨field, hfield⟩
  · rintro ⟨hindented, hreads⟩
    obtain ⟨fields, hfields⟩ := Fallible.exists_forall₂ hreads
    exact ⟨_, hindented, fields, hfields, rfl⟩

theorem goodBlock_of_readBlock {block : Line × List Line} {doc : BlockDoc}
    (h : readBlock block = some doc) : GoodBlock block := by
  obtain ⟨n, hsaid, hempty, -⟩ | ⟨effects, hsaid, heffects, -⟩ |
    ⟨drafts, hsaid, hempty, hdrafts, -⟩ := readBlock_cases h
  · exact .version n hsaid hempty
  · refine .defaults hsaid fun raw hraw => ?_
    obtain ⟨e, -, he⟩ := Fallible.exists_of_forall₂ (Fallible.mapM_eq_some_iff.1 heffects) hraw
    exact ⟨e, defaultEffect?_eq_some_iff.1 he⟩
  · refine .rules hsaid hempty fun item hitem => ?_
    obtain ⟨d, -, hd⟩ := Fallible.exists_of_forall₂ (Fallible.mapM_eq_some_iff.1 hdrafts) hitem
    exact exists_readItem_iff.1 ⟨d, hd⟩

theorem GoodBlock.exists_readBlock {block : Line × List Line} (h : GoodBlock block) :
    ∃ doc, readBlock block = some doc := by
  cases h with
  | version n hsaid hempty =>
    refine ⟨.version n, ?_⟩
    rw [readBlock, topKey?_eq_some_iff.2 hsaid, hempty]
    rfl
  | defaults hsaid heffects =>
    simp only [← defaultEffect?_eq_some_iff] at heffects
    obtain ⟨effects, heffects⟩ := Fallible.exists_forall₂ heffects
    refine ⟨.defaults effects, ?_⟩
    rw [readBlock, topKey?_eq_some_iff.2 hsaid]
    exact Option.map_eq_some_iff.2 ⟨effects, Fallible.mapM_eq_some_iff.2 heffects, rfl⟩
  | rules hsaid hempty hitems =>
    simp only [← exists_readItem_iff] at hitems
    obtain ⟨drafts, hdrafts⟩ := Fallible.exists_forall₂ hitems
    refine ⟨.rules drafts, ?_⟩
    rw [readBlock, topKey?_eq_some_iff.2 hsaid, hempty]
    exact Option.map_eq_some_iff.2 ⟨drafts, Fallible.mapM_eq_some_iff.2 hdrafts, rfl⟩

theorem exists_readBlock_iff {block : Line × List Line} :
    (∃ doc, readBlock block = some doc) ↔ GoodBlock block :=
  ⟨fun ⟨_, h⟩ => goodBlock_of_readBlock h, GoodBlock.exists_readBlock⟩

/-- Nothing is forbidden, and every block reads. -/
structure Readable (lines : List Line) : Prop where
  allowed : ∀ raw ∈ lines, isForbidden raw = false
  starts : Segments.preamble atMargin lines = []
  reads : ∀ block ∈ blocks lines, GoodBlock block

theorem exists_readBlocks_iff {lines : List Line} :
    (∃ docs, readBlocks lines = some docs) ↔ Readable lines := by
  unfold readBlocks
  constructor
  · rintro ⟨docs, h⟩
    split_ifs at h with hallowed hstarts
    refine ⟨?_, List.isEmpty_iff.1 hstarts, fun block hblock => ?_⟩
    · simpa using hallowed
    · obtain ⟨doc, -, hdoc⟩ := Fallible.exists_of_forall₂ (Fallible.mapM_eq_some_iff.1 h) hblock
      exact exists_readBlock_iff.1 ⟨doc, hdoc⟩
  · rintro ⟨hallowed, hstarts, hreads⟩
    simp only [← exists_readBlock_iff] at hreads
    obtain ⟨docs, hdocs⟩ := Fallible.exists_forall₂ hreads
    refine ⟨docs, ?_⟩
    rw [if_neg (by simpa using hallowed), hstarts]
    exact Fallible.mapM_eq_some_iff.2 hdocs

/-- What a text says that the parser accepts. -/
structure Describes (lines : List Line) (doc : PolicyDoc) : Prop where
  readable : Readable lines
  last_version : (versionValues lines).getLast?.bind decimal? = some 1
  version : doc.version = 1
  defaults : doc.defaults =
    (((defaultsLines lines).getLast?.bind fun raw => defaultEffect? (bodyOf raw)).getD .deny)
  rules : (items lines).map itemRule = doc.rules.map some
  tools_nodup : (doc.rules.map PolicyRuleDoc.tool).Nodup

/-- The parser accepts the texts that say a document, and returns that document. -/
theorem parsePolicy_eq_ok_iff_describes {source : String} {doc : PolicyDoc} :
    parsePolicy source = .ok doc ↔ Describes (linesOf source) doc := by
  rw [parsePolicy_eq_ok_iff, document?, Option.bind_eq_some_iff]
  change (∃ docs, readBlocks (linesOf source) = some docs ∧ _) ↔ _
  have hrules : ∀ {drafts : List DraftRule}, (items (linesOf source)).mapM readItem = some drafts →
      (items (linesOf source)).map itemRule = drafts.map DraftRule.rule? := by
    intro drafts h
    rw [Fallible.mapM_eq_some_iff_map] at h
    have hbind := congrArg (List.map fun d => Option.bind d DraftRule.rule?) h
    rw [List.map_map, List.map_map] at hbind
    exact hbind
  constructor
  · rintro ⟨docs, hdocs, hdoc⟩
    obtain ⟨hversion, heffect, hdrafts⟩ := readBlocks_content hdocs
    unfold Content.doc? at hdoc
    split_ifs at hdoc with hone
    obtain ⟨rules, hcollect, rfl⟩ := Option.map_eq_some_iff.1 hdoc
    rw [Fallible.toOption_eq_some_iff, collectRules_eq_ok_iff] at hcollect
    exact {
      readable := exists_readBlocks_iff.1 ⟨docs, hdocs⟩
      last_version := hversion.symm.trans hone
      version := rfl
      defaults := by rw [← heffect]
      rules := (hrules hdrafts).trans hcollect.1
      tools_nodup := hcollect.2.1 }
  · intro h
    obtain ⟨docs, hdocs⟩ := exists_readBlocks_iff.2 h.readable
    obtain ⟨hversion, heffect, hdrafts⟩ := readBlocks_content hdocs
    refine ⟨docs, hdocs, ?_⟩
    have hcollect : collectRules [] (docs.foldl Content.add .empty).drafts = .ok doc.rules :=
      collectRules_eq_ok_iff.2 ⟨(hrules hdrafts).symm.trans h.rules, h.tools_nodup,
        fun _ _ => List.not_mem_nil⟩
    rw [Content.doc?, if_pos (hversion.trans h.last_version), hcollect, heffect, ← h.defaults,
      ← h.version]
    rfl

/-- The rule is read off the lines of the item, and permits what one of them says. -/
structure ComesFrom (item : Line × List Line) (rule : PolicyRuleDoc) : Prop where
  own_lines : itemRule item = some rule
  effect_said : rule.effect = .deny ∨
    ∃ text ∈ fieldTexts item, Says text "effect" (effectText rule.effect)

theorem comesFrom_of_itemRule {item : Line × List Line} {rule : PolicyRuleDoc}
    (h : itemRule item = some rule) : ComesFrom item rule := by
  refine ⟨h, ?_⟩
  obtain ⟨d, hd, hrule⟩ := Option.bind_eq_some_iff.1 h
  obtain ⟨-, fields, hfields, rfl⟩ := readItem_eq_some_iff.1 hd
  obtain ⟨tool, -, rfl⟩ := Option.map_eq_some_iff.1 hrule
  obtain heffect | hmem := foldl_fill_effect fields (emptyDraft (indentOf item.1))
  · exact .inl heffect
  · obtain ⟨text, htext, hsaid⟩ := Fallible.exists_of_forall₂ hfields.flip hmem
    exact .inr ⟨text, htext, hsaid⟩

/-- No permission appears from nothing. -/
theorem parsePolicy_permissions (source : String) :
    (∃ err, parsePolicy source = .error err) ∨
      ∃ doc, parsePolicy source = .ok doc ∧ doc.WellFormed ∧
        List.Forall₂ ComesFrom (items (linesOf source)) doc.rules ∧
        (doc.defaults = .allow →
          ∃ raw ∈ defaultsLines (linesOf source), Says (bodyOf raw) "effect" "allow") := by
  cases hparse : parsePolicy source with
  | error err => exact .inl ⟨err, rfl⟩
  | ok doc =>
    have hdoc := parsePolicy_eq_ok_iff_describes.1 hparse
    refine .inr ⟨doc, rfl, parsePolicy_wellFormed hparse, ?_, ?_⟩
    · have hrules := Fallible.mapM_eq_some_iff.1 (Fallible.mapM_eq_some_iff_map.2 hdoc.rules)
      exact hrules.imp fun item rule => comesFrom_of_itemRule
    · intro hallow
      rw [hdoc.defaults] at hallow
      cases hlast : (defaultsLines (linesOf source)).getLast? with
      | none =>
        rw [hlast] at hallow
        cases hallow
      | some raw =>
        rw [hlast, Option.bind_some] at hallow
        cases heffect : defaultEffect? (bodyOf raw) with
        | none =>
          rw [heffect] at hallow
          cases hallow
        | some e =>
          rw [heffect, Option.getD_some] at hallow
          subst hallow
          exact ⟨raw, List.mem_of_getLast? hlast, defaultEffect?_eq_some_iff.1 heffect⟩

/-- The text reads line by line, its last version is 1 and its items name distinct tools. -/
structure Acceptable (lines : List Line) : Prop where
  readable : Readable lines
  last_version : (versionValues lines).getLast?.bind decimal? = some 1
  tools : ∃ names : List String,
    (items lines).map (fun item => (toolsNamed (fieldTexts item)).getLast?) = names.map some ∧
      names.Nodup ∧ "" ∉ names

theorem itemRule_tool {item : Line × List Line} {rule : PolicyRuleDoc}
    (h : itemRule item = some rule) :
    (toolsNamed (fieldTexts item)).getLast? = some rule.tool ∧ rule.tool ≠ "" := by
  obtain ⟨d, hd, hrule⟩ := Option.bind_eq_some_iff.1 h
  obtain ⟨-, fields, hfields, rfl⟩ := readItem_eq_some_iff.1 hd
  obtain ⟨tool, htool, rfl⟩ := Option.map_eq_some_iff.1 hrule
  rw [foldl_fill_tool hfields, Option.filter_eq_some_iff] at htool
  simpa [emptyDraft] using htool

theorem exists_itemRule {item : Line × List Line} (hitem : GoodItem item) {tool : String}
    (htool : (toolsNamed (fieldTexts item)).getLast? = some tool) (hne : tool ≠ "") :
    ∃ rule, itemRule item = some rule ∧ rule.tool = tool := by
  obtain ⟨d, hd⟩ := exists_readItem_iff.2 hitem
  obtain ⟨-, fields, hfields, hfill⟩ := readItem_eq_some_iff.1 hd
  have hdtool : d.tool = some tool := by
    rw [← hfill, foldl_fill_tool hfields, htool]
    rfl
  refine ⟨⟨tool, d.effect, d.credential⟩, ?_, rfl⟩
  rw [itemRule, hd, Option.bind_some, DraftRule.rule?, hdtool]
  simp [hne]

theorem Readable.item {lines : List Line} (h : Readable lines) {item : Line × List Line}
    (hitem : item ∈ items lines) : GoodItem item := by
  obtain ⟨block, hblock, hmem⟩ := List.mem_flatMap.1 hitem
  split_ifs at hmem with hunder
  · have hname : keyOf (bodyOf block.1) = "rules" := of_decide_eq_true hunder
    cases h.reads block hblock with
    | version n hsaid =>
      rw [hsaid.2.1] at hname
      exact absurd hname (by decide)
    | defaults hsaid =>
      rw [hsaid.2.1] at hname
      exact absurd hname (by decide)
    | rules _ _ hitems => exact hitems item hmem
  · cases hmem

theorem exists_parsePolicy_iff {source : String} :
    (∃ doc, parsePolicy source = .ok doc) ↔ Acceptable (linesOf source) := by
  simp only [parsePolicy_eq_ok_iff_describes]
  constructor
  · rintro ⟨doc, h⟩
    have hrules := Fallible.mapM_eq_some_iff.1 (Fallible.mapM_eq_some_iff_map.2 h.rules)
    refine ⟨h.readable, h.last_version, doc.rules.map PolicyRuleDoc.tool, ?_, h.tools_nodup, ?_⟩
    · rw [List.map_map, ← List.forall₂_eq_eq_eq, List.forall₂_map_left_iff,
        List.forall₂_map_right_iff]
      exact hrules.imp fun item rule hrule => (itemRule_tool hrule).1
    · intro hempty
      obtain ⟨rule, hrule, htool⟩ := List.mem_map.1 hempty
      obtain ⟨item, -, hitem⟩ := Fallible.exists_of_forall₂ hrules.flip hrule
      exact (itemRule_tool hitem).2 htool
  · rintro ⟨hreadable, hversion, names, hnames, hnodup, hempty⟩
    have hlast := Fallible.mapM_eq_some_iff.1 (Fallible.mapM_eq_some_iff_map.2 hnames)
    have hitems : ∀ item ∈ items (linesOf source), ∃ rule, itemRule item = some rule ∧
        (toolsNamed (fieldTexts item)).getLast? = some rule.tool := by
      intro item hitem
      obtain ⟨tool, htool, hlasttool⟩ := Fallible.exists_of_forall₂ hlast hitem
      have hne : tool ≠ "" := fun heq => hempty (heq ▸ htool)
      obtain ⟨rule, hrule, rfl⟩ := exists_itemRule (hreadable.item hitem) hlasttool hne
      exact ⟨rule, hrule, hlasttool⟩
    obtain ⟨rules, hrules⟩ := Fallible.exists_forall₂ hitems
    have htools : (rules.map PolicyRuleDoc.tool).map some = names.map some := by
      rw [← hnames, List.map_map, eq_comm, ← List.forall₂_eq_eq_eq, List.forall₂_map_left_iff,
        List.forall₂_map_right_iff]
      exact hrules.imp fun item rule hrule => hrule.2
    exact ⟨⟨1, _, rules⟩, {
      readable := hreadable
      last_version := hversion
      version := rfl
      defaults := rfl
      rules := Fallible.mapM_eq_some_iff_map.1 (Fallible.mapM_eq_some_iff.2
        (hrules.imp fun item rule hrule => hrule.1))
      tools_nodup := by rwa [List.map_injective_iff.2 (Option.some_injective _) htools] }⟩

/-- No field is given more than once. -/
structure NoRepeat (lines : List Line) : Prop where
  version : (versionValues lines).length ≤ 1
  defaults : ((defaultsLines lines).filter fun raw => keyOf (bodyOf raw) = "effect").length ≤ 1
  item : ∀ item ∈ items lines, ∀ key, key = "tool" ∨ key = "effect" ∨ key = "credential" →
    ((fieldTexts item).filter fun text => keyOf text = key).length ≤ 1

/-- A repetition is rejected when something else is wrong with the text, and not otherwise. -/
theorem rejects_repeats_iff (source : String) :
    ((∃ doc, parsePolicy source = .ok doc) → NoRepeat (linesOf source)) ↔
      (NoRepeat (linesOf source) ∨ ¬ Acceptable (linesOf source)) := by
  rw [exists_parsePolicy_iff]
  tauto

def twoEffects : String :=
  "version: 1\nrules:\n - tool: a\n   effect: deny\n   effect: allow"

theorem twoEffects_accepted :
    parsePolicy twoEffects = .ok ⟨1, .deny, [⟨"a", .allow, none⟩]⟩ ∧
      ¬ NoRepeat (linesOf twoEffects) := by
  refine ⟨by decide, fun h => ?_⟩
  have hitem : items (linesOf twoEffects) =
      [(" - tool: a".toList, ["   effect: deny".toList, "   effect: allow".toList])] := by decide
  have htwo := h.item _ (hitem ▸ List.mem_singleton.2 rfl) "effect" (.inr (.inl rfl))
  exact absurd htwo (by decide)

end AgentValet.Broker.PolicyYaml
