import AgentValet.Broker.PolicyItems

namespace AgentValet.Broker.PolicyYaml
open Base Lang

/-- The lines joined by LF, or by CRLF where `crlf` says so. -/
def joinLines (crlf : ℕ → Bool) : List (List Char) → List Char
  | [] => []
  | [line] => line
  | line :: next :: rest =>
    line ++ (if crlf 0 then ['\r', '\n'] else ['\n']) ++
      joinLines (fun i => crlf (i + 1)) (next :: rest)

theorem splitLines_of_no_break {line : List Char} (h : '\n' ∉ line) : splitLines line = [line] := by
  induction line with
  | nil => rfl
  | cons c line ih =>
    rw [List.mem_cons, not_or] at h
    rw [splitLines, ih h.2]
    · rintro rfl
      exact h.1 rfl
    · rintro rest - rfl
      exact h.2 List.mem_cons_self

theorem splitLines_append_lf {line : List Char} (h : '\n' ∉ line) (hcr : line.getLast? ≠ some '\r')
    (rest : List Char) : splitLines (line ++ '\n' :: rest) = line :: splitLines rest := by
  induction line with
  | nil => rw [List.nil_append, splitLines]
  | cons c line ih =>
    rw [List.mem_cons, not_or] at h
    have hline : line.getLast? ≠ some '\r' := by
      cases line with
      | nil => simp
      | cons d line => simpa [List.getLast?_cons_cons] using hcr
    rw [List.cons_append, splitLines, ih h.2 hline]
    · rintro rfl
      exact h.1 rfl
    · rintro rest' rfl heq
      cases line with
      | nil => exact hcr rfl
      | cons d line =>
        rw [List.cons_append, List.cons.injEq] at heq
        exact h.2 (heq.1 ▸ List.mem_cons_self)

theorem splitLines_append_crlf {line : List Char} (h : '\n' ∉ line) (rest : List Char) :
    splitLines (line ++ '\r' :: '\n' :: rest) = line :: splitLines rest := by
  induction line with
  | nil => rw [List.nil_append, splitLines]
  | cons c line ih =>
    rw [List.mem_cons, not_or] at h
    rw [List.cons_append, splitLines, ih h.2]
    · rintro rfl
      exact h.1 rfl
    · rintro rest' - heq
      cases line with
      | nil => cases heq
      | cons d line =>
        rw [List.cons_append, List.cons.injEq] at heq
        exact h.2 (heq.1 ▸ List.mem_cons_self)

/-- Lines that are joined are split again.  A line that ends in CR needs CRLF after it. -/
theorem splitLines_joinLines {crlf : ℕ → Bool} {lines : List (List Char)} (hne : lines ≠ [])
    (hbreak : ∀ line ∈ lines, '\n' ∉ line)
    (hcr : ∀ line ∈ lines, line.getLast? = some '\r' → ∀ i, crlf i = true) :
    splitLines (joinLines crlf lines) = lines := by
  induction lines generalizing crlf with
  | nil => exact absurd rfl hne
  | cons line lines ih =>
    have hline : '\n' ∉ line := hbreak line List.mem_cons_self
    cases lines with
    | nil => exact splitLines_of_no_break hline
    | cons next rest =>
      have hrest := @ih (fun i => crlf (i + 1)) (List.cons_ne_nil _ _)
        (fun l hl => hbreak l (List.mem_cons_of_mem _ hl))
        (fun l hl hlast i => hcr l (List.mem_cons_of_mem _ hl) hlast (i + 1))
      rw [joinLines, List.append_assoc]
      cases hfirst : crlf 0 with
      | true =>
        rw [if_pos rfl]
        exact (splitLines_append_crlf hline _).trans (congrArg _ hrest)
      | false =>
        have hlast : line.getLast? ≠ some '\r' := by
          intro hlast
          have h := hcr line List.mem_cons_self hlast 0
          rw [hfirst] at h
          cases h
        rw [if_neg Bool.false_ne_true]
        exact (splitLines_append_lf hline hlast _).trans (congrArg _ hrest)

/-- A character that neither quotes nor starts a comment. -/
def Unmarked (c : Char) : Prop := c ≠ singleQuote ∧ c ≠ doubleQuote ∧ c ≠ '#'

theorem stripCommentFrom_unmarked {text : List Char} (h : ∀ c ∈ text, Unmarked c)
    (boundary : Bool) (rest : List Char) :
    ∃ boundary', stripCommentFrom false false boundary (text ++ rest) =
      text ++ stripCommentFrom false false boundary' rest := by
  induction text generalizing boundary with
  | nil => exact ⟨boundary, rfl⟩
  | cons c text ih =>
    obtain ⟨hsingle, hdouble, hhash⟩ := h c List.mem_cons_self
    obtain ⟨boundary', htext⟩ := ih (fun d hd => h d (List.mem_cons_of_mem c hd))
      (JavaScript.isSpace c)
    refine ⟨boundary', ?_⟩
    rw [List.cons_append, stripCommentFrom]
    simp [hsingle, hdouble, hhash, htext]

/-- Inside double quotes nothing is a comment. -/
theorem stripCommentFrom_quoted {name : List Char} (h : doubleQuote ∉ name) (boundary : Bool) :
    stripCommentFrom false true boundary (name ++ [doubleQuote]) = name ++ [doubleQuote] := by
  induction name generalizing boundary with
  | nil =>
    cases boundary <;> decide
  | cons c name ih =>
    rw [List.mem_cons, not_or] at h
    rw [List.cons_append, stripCommentFrom]
    simp [Ne.symm h.1, ih h.2]

theorem stripComment_unmarked {text : List Char} (h : ∀ c ∈ text, Unmarked c) :
    stripComment text = text := by
  obtain ⟨boundary, htext⟩ := stripCommentFrom_unmarked h true []
  rw [List.append_nil, stripCommentFrom, List.append_nil] at htext
  exact htext

theorem stripComment_quoted {text name : List Char} (h : ∀ c ∈ text, Unmarked c)
    (hname : doubleQuote ∉ name) :
    stripComment (text ++ doubleQuote :: name ++ [doubleQuote]) =
      text ++ doubleQuote :: name ++ [doubleQuote] := by
  obtain ⟨boundary, htext⟩ :=
    stripCommentFrom_unmarked h true (doubleQuote :: (name ++ [doubleQuote]))
  have hopen : stripCommentFrom false false boundary (doubleQuote :: (name ++ [doubleQuote])) =
      doubleQuote :: (name ++ [doubleQuote]) :=
    congrArg (List.cons doubleQuote) (stripCommentFrom_quoted hname _)
  rw [List.append_assoc, List.cons_append, stripComment, htext, hopen]

def spaces (n : ℕ) : List Char := List.replicate n ' '

/-- `key: value` -/
def field (key : String) (value : List Char) : List Char := key.toList ++ ':' :: ' ' :: value

def quoted (name : String) : List Char := doubleQuote :: name.toList ++ [doubleQuote]

theorem indentOf_spaces (n : ℕ) {c : Char} (hc : c ≠ ' ') (text : List Char) :
    indentOf (spaces n ++ c :: text) = n := by
  rw [indentOf, spaces, List.takeWhile_append_of_pos fun d hd => by
    rw [List.eq_of_mem_replicate hd]; rfl, List.takeWhile_cons_of_neg (by simpa using hc)]
  simp

theorem bodyOf_spaces (n : ℕ) {c : Char} (hc : c ≠ ' ') (text : List Char) :
    bodyOf (spaces n ++ c :: text) = c :: text := by
  rw [bodyOf, indentOf_spaces n hc, spaces, List.drop_left' List.length_replicate]

theorem keyOf_append {key : List Char} (hcolon : ':' ∉ key) (rest : List Char) :
    keyOf (key ++ ':' :: rest) = String.ofList (JavaScript.trim key) := by
  rw [keyOf, List.takeWhile_append_of_pos fun c hc => by
    simpa using fun h : c = ':' => hcolon (h ▸ hc), List.takeWhile_cons_of_neg (by simp),
    List.append_nil]

theorem valueOf_append {key : List Char} (hcolon : ':' ∉ key) (rest : List Char) :
    valueOf (key ++ ':' :: rest) = JavaScript.trim rest := by
  rw [valueOf, List.dropWhile_append_of_pos fun c hc => by
    simpa using fun h : c = ':' => hcolon (h ▸ hc), List.dropWhile_cons_of_neg (by simp),
    List.tail_cons]

theorem says_field {key : String} (hcolon : ':' ∉ key.toList) (hkey : JavaScript.Tight key.toList)
    {value : List Char} (hvalue : JavaScript.Tight value) {v : String} (h : Denotes value v) :
    Says (field key value) key v := by
  have hspace : JavaScript.allSpace [' '] := by
    intro c hc
    rw [List.mem_singleton.1 hc]
    rfl
  refine ⟨by simp [field], ?_, ?_⟩
  · rw [field, keyOf_append hcolon, JavaScript.trim_of_tight hkey, String.ofList_toList]
  · have htrim : JavaScript.trim (' ' :: value) = value :=
      (JavaScript.trim_space_append value hspace).trans (JavaScript.trim_of_tight hvalue)
    rwa [field, valueOf_append hcolon, htrim]

theorem denotes_quoted (name : String) : Denotes (quoted name) name := by
  have h := Denotes.double name.toList
  rwa [String.ofList_toList] at h

theorem tight_quoted (name : String) : JavaScript.Tight (quoted name) := by
  constructor
  · intro c hc
    obtain rfl : doubleQuote = c := Option.some.inj hc
    decide
  · intro c hc
    rw [quoted, List.getLast?_concat] at hc
    obtain rfl : doubleQuote = c := Option.some.inj hc
    decide

/-- How a rule is laid out: its fields stand to the right of its dash. -/
structure RuleLayout where
  dash : ℕ
  effectIndent : ℕ
  credentialIndent : ℕ
  effectFirst : Bool
  dash_pos : 0 < dash
  effect_right : dash < effectIndent
  credential_right : dash < credentialIndent

inductive TopBlock where
  | version
  | defaults
  | rules
  deriving DecidableEq

structure PolicyLayout where
  order : List TopBlock
  order_perm : order.Perm [.version, .defaults, .rules]
  defaultsIndent : ℕ
  defaultsIndent_pos : 0 < defaultsIndent
  ruleLayout : PolicyRuleDoc → RuleLayout
  crlf : ℕ → Bool

def effectLine (layout : RuleLayout) (rule : PolicyRuleDoc) : List Char :=
  spaces layout.effectIndent ++ field "effect" (effectText rule.effect).toList

def credentialLines (layout : RuleLayout) (rule : PolicyRuleDoc) : List (List Char) :=
  rule.credential.toList.map fun credential =>
    spaces layout.credentialIndent ++ field "credential" (quoted credential)

/-- The line with the dash, and the lines below it. -/
def ruleLines (layout : RuleLayout) (rule : PolicyRuleDoc) : List Char × List (List Char) :=
  (spaces layout.dash ++ '-' :: ' ' :: field "tool" (quoted rule.tool),
    if layout.effectFirst then effectLine layout rule :: credentialLines layout rule
    else credentialLines layout rule ++ [effectLine layout rule])

def TopBlock.head : TopBlock → List Char
  | .version => "version: 1".toList
  | .defaults => "defaults:".toList
  | .rules => "rules:".toList

def TopBlock.body (layout : PolicyLayout) (doc : PolicyDoc) : TopBlock → List (List Char)
  | .version => []
  | .defaults =>
    [spaces layout.defaultsIndent ++ field "effect" (defaultText doc.defaults).toList]
  | .rules =>
    doc.rules.flatMap fun rule => Segments.elements (ruleLines (layout.ruleLayout rule) rule)

/-- The line at the margin, and the lines below it. -/
def blockLines (layout : PolicyLayout) (doc : PolicyDoc) (block : TopBlock) :
    List Char × List (List Char) :=
  (block.head, block.body layout doc)

def renderLines (layout : PolicyLayout) (doc : PolicyDoc) : List (List Char) :=
  layout.order.flatMap fun block => Segments.elements (blockLines layout doc block)

def render (layout : PolicyLayout) (doc : PolicyDoc) : String :=
  String.ofList (joinLines layout.crlf (renderLines layout doc))

def isLetter (c : Char) : Bool := ('a' ≤ c && c ≤ 'z') || c == '_'

/-- The keys and the effects of the grammar are words. -/
def Word (text : List Char) : Prop := text ≠ [] ∧ ∀ c ∈ text, isLetter c = true

theorem isLetter_ne {c d : Char} (hc : isLetter c = true) (hd : isLetter d = false) : c ≠ d := by
  rintro rfl
  rw [hc] at hd
  cases hd

theorem isSpace_of_isLetter {c : Char} (hc : isLetter c = true) :
    JavaScript.isSpace c = false := by
  have hrange : 95 ≤ c.toNat ∧ c.toNat ≤ 122 := by
    rw [isLetter, Bool.or_eq_true, Bool.and_eq_true, decide_eq_true_eq, decide_eq_true_eq,
      beq_iff_eq] at hc
    obtain ⟨hlow, hhigh⟩ | rfl := hc
    · have hlow' : 97 ≤ c.toNat := hlow
      have hhigh' : c.toNat ≤ 122 := hhigh
      omega
    · decide
  simp only [JavaScript.isSpace, Bool.or_eq_false_iff, Bool.and_eq_false_iff,
    decide_eq_false_iff_not, beq_eq_false_iff_ne]
  omega

theorem unmarked_of_isLetter {c : Char} (hc : isLetter c = true) : Unmarked c :=
  ⟨isLetter_ne hc (by decide), isLetter_ne hc (by decide), isLetter_ne hc (by decide)⟩

theorem word_of_all {text : List Char} (h : (!text.isEmpty && text.all isLetter) = true) :
    Word text := by
  rw [Bool.and_eq_true, List.all_eq_true] at h
  exact ⟨by simpa using h.1, h.2⟩

theorem Word.not_mem {text : List Char} (h : Word text) {d : Char} (hd : isLetter d = false) :
    d ∉ text := fun hmem => isLetter_ne (h.2 d hmem) hd rfl

theorem Word.tight {text : List Char} (h : Word text) : JavaScript.Tight text :=
  ⟨fun c hc => isSpace_of_isLetter (h.2 c (List.mem_of_head? hc)),
    fun c hc => isSpace_of_isLetter (h.2 c (List.mem_of_getLast? hc))⟩

theorem Word.denotes {s : String} (h : Word s.toList) : Denotes s.toList s := by
  have hbare := Denotes.bare h.1 (h.not_mem (d := doubleQuote) (by decide))
    (h.not_mem (d := singleQuote) (by decide))
  rwa [String.ofList_toList] at hbare

theorem word_tool : Word "tool".toList := word_of_all (by decide)

theorem word_effect : Word "effect".toList := word_of_all (by decide)

theorem word_credential : Word "credential".toList := word_of_all (by decide)

theorem word_effectText (e : Effect) : Word (effectText e).toList := by
  cases e <;> exact word_of_all (by decide)

theorem word_defaultText (e : DefaultEffect) : Word (defaultText e).toList := by
  cases e <;> exact word_of_all (by decide)

theorem says_word {key : String} (hkey : Word key.toList) {v : String} (hv : Word v.toList) :
    Says (field key v.toList) key v :=
  says_field (hkey.not_mem (by decide)) hkey.tight hv.tight hv.denotes

theorem says_quoted {key : String} (hkey : Word key.toList) (name : String) :
    Says (field key (quoted name)) key name :=
  says_field (hkey.not_mem (by decide)) hkey.tight (tight_quoted name) (denotes_quoted name)

theorem exists_field_cons {key : String} (hkey : Word key.toList) (value : List Char) :
    ∃ c text, field key value = c :: text ∧ c ≠ ' ' ∧ c ≠ '-' := by
  obtain ⟨c, rest, hcons⟩ := List.exists_cons_of_ne_nil hkey.1
  have hc : isLetter c = true := hkey.2 c (hcons ▸ List.mem_cons_self)
  exact ⟨c, rest ++ ':' :: ' ' :: value, by rw [field, hcons, List.cons_append],
    isLetter_ne hc (by decide), isLetter_ne hc (by decide)⟩

theorem bodyOf_field (n : ℕ) {key : String} (hkey : Word key.toList) (value : List Char) :
    bodyOf (spaces n ++ field key value) = field key value := by
  obtain ⟨c, text, hcons, hc, -⟩ := exists_field_cons hkey value
  rw [hcons, bodyOf_spaces n hc]

theorem indentOf_field (n : ℕ) {key : String} (hkey : Word key.toList) (value : List Char) :
    indentOf (spaces n ++ field key value) = n := by
  obtain ⟨c, text, hcons, hc, -⟩ := exists_field_cons hkey value
  rw [hcons, indentOf_spaces n hc]

theorem isDash_field (n : ℕ) {key : String} (hkey : Word key.toList) (value : List Char) :
    isDash (spaces n ++ field key value) = false := by
  rw [isDash, bodyOf_field n hkey]
  obtain ⟨c, text, hcons, -, hc⟩ := exists_field_cons hkey value
  rw [hcons]
  cases text <;> simp [hc]

variable {layout : RuleLayout} {rule : PolicyRuleDoc}

theorem bodyOf_dashLine (n : ℕ) (text : List Char) :
    bodyOf (spaces n ++ '-' :: ' ' :: text) = '-' :: ' ' :: text :=
  bodyOf_spaces n (by decide) _

def ruleFields (layout : RuleLayout) (rule : PolicyRuleDoc) : List RuleField :=
  .tool rule.tool ::
    if layout.effectFirst then .effect rule.effect :: rule.credential.toList.map .credential
    else rule.credential.toList.map .credential ++ [.effect rule.effect]

theorem tight_field {key : String} (hkey : Word key.toList) {value : List Char} (hne : value ≠ [])
    (hvalue : JavaScript.Tight value) : JavaScript.Tight (field key value) := by
  constructor
  · obtain ⟨c, rest, hcons⟩ := List.exists_cons_of_ne_nil hkey.1
    rw [field, hcons]
    intro d hd
    obtain rfl : c = d := Option.some.inj hd
    exact isSpace_of_isLetter (hkey.2 c (hcons ▸ List.mem_cons_self))
  · have hlast : (field key value).getLast? = value.getLast? := by
      rw [field, List.getLast?_append, List.getLast?_cons_cons, List.getLast?_cons,
        List.getLast?_eq_some_getLast hne]
      rfl
    rw [hlast]
    exact hvalue.2

theorem dashText (n : ℕ) (name : String) :
    JavaScript.trim (bodyOf (spaces n ++ '-' :: ' ' :: field "tool" (quoted name))).tail =
      field "tool" (quoted name) := by
  have hspace : JavaScript.allSpace [' '] := by
    intro c hc
    rw [List.mem_singleton.1 hc]
    rfl
  have htight := tight_field word_tool (List.cons_ne_nil _ _) (tight_quoted name)
  rw [bodyOf_dashLine, List.tail_cons]
  exact (JavaScript.trim_space_append _ hspace).trans (JavaScript.trim_of_tight htight)

theorem fieldTexts_ruleLines (layout : RuleLayout) (rule : PolicyRuleDoc) :
    fieldTexts (ruleLines layout rule) =
      field "tool" (quoted rule.tool) :: (ruleLines layout rule).2.map bodyOf := by
  have hne : (!(field "tool" (quoted rule.tool)).isEmpty) = true := by
    obtain ⟨c, text, hcons, -⟩ := exists_field_cons word_tool (quoted rule.tool)
    rw [hcons]
    rfl
  rw [fieldTexts, ruleLines, dashText,
    List.filter_cons_of_pos (p := fun text : List Char => !text.isEmpty) hne]
  rfl

theorem ruleLines_said (layout : RuleLayout) (rule : PolicyRuleDoc) :
    List.Forall₂ RuleField.SaidBy (fieldTexts (ruleLines layout rule))
      (ruleFields layout rule) := by
  have heffect : RuleField.SaidBy (bodyOf (effectLine layout rule)) (.effect rule.effect) := by
    rw [effectLine, bodyOf_field _ word_effect]
    exact says_word word_effect (word_effectText rule.effect)
  have hcredentials : List.Forall₂ RuleField.SaidBy ((credentialLines layout rule).map bodyOf)
      (rule.credential.toList.map .credential) := by
    rw [credentialLines, List.map_map, List.forall₂_map_left_iff, List.forall₂_map_right_iff,
      List.forall₂_same]
    intro credential _
    rw [Function.comp_apply, bodyOf_field _ word_credential]
    exact says_quoted word_credential credential
  rw [fieldTexts_ruleLines, ruleFields, ruleLines]
  refine .cons (says_quoted word_tool rule.tool) ?_
  cases layout.effectFirst with
  | true => exact .cons heffect hcredentials
  | false =>
    simp only [Bool.false_eq_true, if_false, List.map_append, List.map_singleton]
    exact List.rel_append hcredentials (.cons heffect .nil)

theorem mem_ruleLines {raw : Line} :
    raw ∈ (ruleLines layout rule).2 ↔
      raw = effectLine layout rule ∨ raw ∈ credentialLines layout rule := by
  rw [ruleLines]
  cases layout.effectFirst with
  | true => exact List.mem_cons
  | false =>
    rw [if_neg Bool.false_ne_true, List.mem_append, List.mem_singleton]
    exact or_comm

theorem ruleLines_below (layout : RuleLayout) (rule : PolicyRuleDoc) :
    ∀ raw ∈ (ruleLines layout rule).2, layout.dash < indentOf raw ∧ isDash raw = false := by
  have heffect : layout.dash < indentOf (effectLine layout rule) ∧
      isDash (effectLine layout rule) = false := by
    rw [effectLine, indentOf_field _ word_effect, isDash_field _ word_effect]
    exact ⟨layout.effect_right, rfl⟩
  have hcredentials : ∀ raw ∈ credentialLines layout rule,
      layout.dash < indentOf raw ∧ isDash raw = false := by
    intro raw hraw
    obtain ⟨credential, -, rfl⟩ := List.mem_map.1 hraw
    rw [indentOf_field _ word_credential, isDash_field _ word_credential]
    exact ⟨layout.credential_right, rfl⟩
  intro raw hraw
  obtain rfl | hmem := mem_ruleLines.1 hraw
  · exact heffect
  · exact hcredentials raw hmem

theorem indentOf_ruleLines (layout : RuleLayout) (rule : PolicyRuleDoc) :
    indentOf (ruleLines layout rule).1 = layout.dash :=
  indentOf_spaces layout.dash (by decide) _

theorem isDash_ruleLines (layout : RuleLayout) (rule : PolicyRuleDoc) :
    isDash (ruleLines layout rule).1 = true := by
  rw [isDash, ruleLines, bodyOf_dashLine]
  simp

theorem goodItem_ruleLines (layout : RuleLayout) (rule : PolicyRuleDoc) :
    GoodItem (ruleLines layout rule) where
  indented := by
    intro raw hraw
    rw [indentOf_ruleLines]
    exact (ruleLines_below layout rule raw hraw).1
  reads := by
    intro text htext
    obtain ⟨field, -, hfield⟩ := Fallible.exists_of_forall₂ (ruleLines_said layout rule) htext
    exact ⟨field, hfield⟩

/-- The item of a rule is read as that rule. -/
theorem itemRule_ruleLines (layout : RuleLayout) (hrule : rule.tool ≠ "") :
    itemRule (ruleLines layout rule) = some rule := by
  have hread := readItem_eq_some_iff.2
    ⟨(goodItem_ruleLines layout rule).indented, _, ruleLines_said layout rule, rfl⟩
  rw [itemRule, hread, Option.bind_some]
  obtain ⟨tool, effect, credential⟩ := rule
  have hfilter : (some tool).filter (fun t => decide (t ≠ "")) = some tool := by
    simpa using hrule
  have hfill : (ruleFields layout ⟨tool, effect, credential⟩).foldl RuleField.fill
      (emptyDraft (indentOf (ruleLines layout ⟨tool, effect, credential⟩).1)) =
        ⟨some tool, effect, credential, layout.dash⟩ := by
    rw [indentOf_ruleLines, ruleFields]
    cases layout.effectFirst <;> cases credential <;> rfl
  rw [hfill, DraftRule.rule?, hfilter, Option.map_some]

/-- A line that the splitting and the stripping of comments leave as it is. -/
structure Kept (line : List Char) : Prop where
  stripped : stripComment line = line
  not_blank : Line.blank line = false
  no_lf : '\n' ∉ line
  no_cr : line.getLast? ≠ some '\r'

theorem blank_eq_false {line : List Char} {c : Char} (hc : c ∈ line)
    (hspace : JavaScript.isSpace c = false) : Line.blank line = false := by
  rw [Line.blank, List.isEmpty_eq_false_iff, ne_eq, JavaScript.trim_eq_nil_iff]
  intro hall
  rw [hall c hc] at hspace
  cases hspace

theorem unmarked_indented (n : ℕ) {key : String} (hkey : Word key.toList) :
    ∀ c ∈ spaces n ++ (key.toList ++ [':', ' ']), Unmarked c ∧ c ≠ '\n' := by
  intro c hc
  rw [List.mem_append, List.mem_append] at hc
  obtain hc | hc | hc := hc
  · rw [List.eq_of_mem_replicate hc]
    exact ⟨⟨by decide, by decide, by decide⟩, by decide⟩
  · have hletter := hkey.2 c hc
    exact ⟨unmarked_of_isLetter hletter, isLetter_ne hletter (by decide)⟩
  · rw [List.mem_cons, List.mem_singleton] at hc
    obtain rfl | rfl := hc
    · exact ⟨⟨by decide, by decide, by decide⟩, by decide⟩
    · exact ⟨⟨by decide, by decide, by decide⟩, by decide⟩

/-- A text without marks that ends in something. -/
theorem kept_unmarked {text : List Char} (h : ∀ c ∈ text, Unmarked c ∧ c ≠ '\n') {c : Char}
    (hlast : text.getLast? = some c) (hc : JavaScript.isSpace c = false) : Kept text where
  stripped := stripComment_unmarked fun d hd => (h d hd).1
  not_blank := blank_eq_false (List.mem_of_getLast? hlast) hc
  no_lf := fun hmem => (h _ hmem).2 rfl
  no_cr := by
    rw [hlast]
    intro heq
    rw [Option.some.inj heq] at hc
    exact absurd hc (by decide)

theorem kept_quoted {text : List Char} (h : ∀ c ∈ text, Unmarked c ∧ c ≠ '\n') {name : String}
    (hquote : doubleQuote ∉ name.toList) (hbreak : '\n' ∉ name.toList) :
    Kept (text ++ quoted name) where
  stripped := by
    have hstrip := stripComment_quoted (fun d hd => (h d hd).1) hquote
    rwa [List.append_assoc] at hstrip
  not_blank := by
    refine blank_eq_false (c := doubleQuote) ?_ (by decide)
    exact List.mem_append_right _ List.mem_cons_self
  no_lf := by
    rw [quoted, List.mem_append, List.mem_append, List.mem_cons, List.mem_singleton]
    rintro (hmem | (hmem | hmem) | hmem)
    · exact (h _ hmem).2 rfl
    · exact absurd hmem (by decide)
    · exact hbreak hmem
    · exact absurd hmem (by decide)
  no_cr := by
    rw [quoted, ← List.append_assoc, List.getLast?_concat]
    decide

theorem spaces_append_field (n : ℕ) (key : String) (value : List Char) :
    spaces n ++ field key value = (spaces n ++ (key.toList ++ [':', ' '])) ++ value := by
  simp [field]

theorem kept_word (n : ℕ) {key : String} (hkey : Word key.toList) {value : List Char}
    (hvalue : Word value) : Kept (spaces n ++ field key value) := by
  have hlast : (spaces n ++ field key value).getLast? = some (value.getLast hvalue.1) := by
    rw [spaces_append_field, List.getLast?_append, List.getLast?_eq_some_getLast hvalue.1,
      Option.some_or]
  refine kept_unmarked ?_ hlast (isSpace_of_isLetter (hvalue.2 _ (List.getLast_mem hvalue.1)))
  intro c hc
  rw [spaces_append_field, List.mem_append] at hc
  obtain hc | hc := hc
  · exact unmarked_indented n hkey c hc
  · have hletter := hvalue.2 c hc
    exact ⟨unmarked_of_isLetter hletter, isLetter_ne hletter (by decide)⟩

def PlainName (name : String) : Prop := doubleQuote ∉ name.toList ∧ '\n' ∉ name.toList

theorem kept_name (n : ℕ) {key : String} (hkey : Word key.toList) {name : String}
    (hname : PlainName name) : Kept (spaces n ++ field key (quoted name)) := by
  rw [spaces_append_field]
  exact kept_quoted (unmarked_indented n hkey) hname.1 hname.2

theorem kept_dashLine (n : ℕ) {name : String} (hname : PlainName name) :
    Kept (spaces n ++ '-' :: ' ' :: field "tool" (quoted name)) := by
  have hsplit : spaces n ++ '-' :: ' ' :: field "tool" (quoted name) =
      (spaces n ++ (['-', ' '] ++ ("tool".toList ++ [':', ' ']))) ++ quoted name := by
    simp [field]
  rw [hsplit]
  refine kept_quoted ?_ hname.1 hname.2
  intro c hc
  rw [List.mem_append, List.mem_append] at hc
  obtain hc | hc | hc := hc
  · exact unmarked_indented n word_tool c (List.mem_append_left _ hc)
  · rw [List.mem_cons, List.mem_singleton] at hc
    obtain rfl | rfl := hc
    · exact ⟨⟨by decide, by decide, by decide⟩, by decide⟩
    · exact ⟨⟨by decide, by decide, by decide⟩, by decide⟩
  · exact unmarked_indented n word_tool c (List.mem_append_right _ hc)

/-- Lines that are kept are the lines of the text that they are joined to. -/
theorem linesOf_joinLines {crlf : ℕ → Bool} {lines : List (List Char)} (hne : lines ≠ [])
    (h : ∀ line ∈ lines, Kept line) : linesOf (String.ofList (joinLines crlf lines)) = lines := by
  have hsplit : splitLines (joinLines crlf lines) = lines :=
    splitLines_joinLines hne (fun line hline => (h line hline).no_lf)
      fun line hline hcr => absurd hcr (h line hline).no_cr
  have hstrip : lines.map stripComment = lines := by
    conv_rhs => rw [← List.map_id lines]
    exact List.map_congr_left fun line hline => (h line hline).stripped
  rw [linesOf, String.toList_ofList, hsplit, significant, hstrip, List.filter_eq_self]
  intro line hline
  rw [(h line hline).not_blank]
  rfl

section
variable (layout : PolicyLayout) (doc : PolicyDoc)

def TopBlock.key : TopBlock → TopKey
  | .version => .version 1
  | .defaults => .defaults
  | .rules => .rules

theorem head_said (block : TopBlock) : TopKey.SaidBy (bodyOf block.head) block.key := by
  cases block <;> exact ⟨by decide, by decide, by decide⟩

theorem atMargin_head (block : TopBlock) : atMargin block.head = true := by
  cases block <;> decide

def TopBlock.name : TopBlock → String
  | .version => "version"
  | .defaults => "defaults"
  | .rules => "rules"

theorem under_blockLines (key : String) (block : TopBlock) :
    under key (blockLines layout doc block) = decide (block.name = key) := by
  refine under_eq ?_ key
  have hsaid := head_said block
  cases block
  · exact hsaid.2.1
  · exact hsaid.2.1
  · exact hsaid.2.1

theorem atMargin_eq_false {raw : Line} {n : ℕ} (h : n < indentOf raw) : atMargin raw = false :=
  decide_eq_false (by omega)

theorem body_indented (block : TopBlock) :
    ∀ raw ∈ block.body layout doc, atMargin raw = false := by
  intro raw hraw
  cases block with
  | version => cases hraw
  | defaults =>
    rw [List.mem_singleton.1 hraw]
    refine atMargin_eq_false (n := 0) ?_
    rw [indentOf_field _ word_effect]
    exact layout.defaultsIndent_pos
  | rules =>
    obtain ⟨rule, -, hmem⟩ := List.mem_flatMap.1 hraw
    have hpos := (layout.ruleLayout rule).dash_pos
    obtain rfl | hmem := List.mem_cons.1 hmem
    · exact atMargin_eq_false ((indentOf_ruleLines _ rule).symm ▸ hpos)
    · exact atMargin_eq_false (ruleLines_below _ rule raw hmem).1

theorem segments_renderLines :
    Segments.preamble atMargin (renderLines layout doc) = [] ∧
      blocks (renderLines layout doc) = layout.order.map (blockLines layout doc) :=
  Segments.segments_flatMap (fun block _ => atMargin_head block)
    fun block _ => body_indented layout doc block

theorem segments_rules :
    Segments.preamble isDash (TopBlock.rules.body layout doc) = [] ∧
      Segments.segments isDash (TopBlock.rules.body layout doc) =
        doc.rules.map fun rule => ruleLines (layout.ruleLayout rule) rule :=
  Segments.segments_flatMap (fun rule _ => isDash_ruleLines _ rule)
    fun rule _ raw hraw => (ruleLines_below _ rule raw hraw).2

theorem mem_order (block : TopBlock) : block ∈ layout.order := by
  rw [layout.order_perm.mem_iff]
  cases block <;> decide

/-- What only one kind of block has is had once. -/
theorem flatMap_blocks {α : Type} {f : List Char × List (List Char) → List α} (block : TopBlock)
    (hf : ∀ other, other ≠ block → f (blockLines layout doc other) = []) :
    (blocks (renderLines layout doc)).flatMap f = f (blockLines layout doc block) := by
  have hnodup : layout.order.Nodup := layout.order_perm.nodup_iff.2 (by decide)
  rw [(segments_renderLines layout doc).2, List.flatMap_map]
  exact Segments.flatMap_eq_of_nodup hnodup (mem_order layout block) hf

theorem flatMap_under {α : Type} (part : List Char × List (List Char) → List α)
    (block : TopBlock) :
    ((blocks (renderLines layout doc)).flatMap fun b => if under block.name b then part b else []) =
      part (blockLines layout doc block) := by
  rw [flatMap_blocks layout doc block]
  · rw [under_blockLines, if_pos (decide_eq_true rfl)]
  · intro other hother
    rw [under_blockLines, if_neg]
    simp only [decide_eq_true_eq]
    cases other <;> cases block <;> first | exact absurd rfl hother | decide

theorem goodBlock_blockLines (block : TopBlock) : GoodBlock (blockLines layout doc block) := by
  have hsaid := head_said block
  cases block with
  | version => exact .version 1 hsaid rfl
  | defaults =>
    refine .defaults hsaid fun raw hraw => ⟨doc.defaults, ?_⟩
    rw [List.mem_singleton.1 hraw, bodyOf_field _ word_effect]
    exact says_word word_effect (word_defaultText doc.defaults)
  | rules =>
    obtain ⟨hpre, hitems⟩ := segments_rules layout doc
    refine .rules hsaid hpre fun item hitem => ?_
    rw [blockLines, hitems] at hitem
    obtain ⟨rule, -, rfl⟩ := List.mem_map.1 hitem
    exact goodItem_ruleLines _ rule

/-- What a name of the document may be. -/
def PlainNames : Prop :=
  ∀ rule ∈ doc.rules, PlainName rule.tool ∧ ∀ credential ∈ rule.credential, PlainName credential

theorem kept_head (block : TopBlock) : Kept block.head := by
  have hplain : ∀ c ∈ block.head, Unmarked c ∧ c ≠ '\n' := by
    have hall : (block.head.all fun c =>
        c != singleQuote && c != doubleQuote && c != '#' && c != '\n') = true := by
      cases block <;> decide
    intro c hc
    have h := List.all_eq_true.1 hall c hc
    simp only [Bool.and_eq_true, bne_iff_ne] at h
    exact ⟨⟨h.1.1.1, h.1.1.2, h.1.2⟩, h.2⟩
  cases block
  · exact kept_unmarked (c := '1') hplain (by decide) (by decide)
  · exact kept_unmarked (c := ':') hplain (by decide) (by decide)
  · exact kept_unmarked (c := ':') hplain (by decide) (by decide)

variable {layout doc}

theorem kept_renderLines (hplain : PlainNames doc) :
    ∀ line ∈ renderLines layout doc, Kept line := by
  intro line hline
  obtain ⟨block, -, hmem⟩ := List.mem_flatMap.1 hline
  obtain rfl | hmem := List.mem_cons.1 hmem
  · exact kept_head block
  cases block with
  | version => cases hmem
  | defaults =>
    rw [List.mem_singleton.1 hmem]
    exact kept_word _ word_effect (word_defaultText doc.defaults)
  | rules =>
    obtain ⟨rule, hrule, hmem⟩ := List.mem_flatMap.1 hmem
    obtain ⟨htool, hcredential⟩ := hplain rule hrule
    obtain rfl | hmem := List.mem_cons.1 hmem
    · exact kept_dashLine _ htool
    · obtain rfl | hmem := mem_ruleLines.1 hmem
      · exact kept_word _ word_effect (word_effectText rule.effect)
      · obtain ⟨credential, hin, rfl⟩ := List.mem_map.1 hmem
        exact kept_name _ word_credential (hcredential credential (by simpa using hin))

/-- A document that is written out is read back. -/
theorem parsePolicy_render (hdoc : doc.WellFormed) (hplain : PlainNames doc)
    (hallowed : ∀ line ∈ renderLines layout doc, isForbidden line = false) :
    parsePolicy (render layout doc) = .ok doc := by
  have hlines : linesOf (render layout doc) = renderLines layout doc := by
    have hhead : TopBlock.version.head ∈ renderLines layout doc :=
      List.mem_flatMap.2 ⟨.version, mem_order layout .version, List.mem_cons_self⟩
    exact linesOf_joinLines (List.ne_nil_of_mem hhead) (kept_renderLines hplain)
  rw [parsePolicy_eq_ok_iff_describes, hlines]
  obtain ⟨hstarts, hblocks⟩ := segments_renderLines layout doc
  have hversion : versionValues (renderLines layout doc) =
      [valueOf (bodyOf TopBlock.version.head)] :=
    flatMap_under layout doc (fun block => [valueOf (bodyOf block.1)]) .version
  have hdefaults : defaultsLines (renderLines layout doc) = TopBlock.defaults.body layout doc :=
    flatMap_under layout doc (fun block => block.2) .defaults
  have hitems : items (renderLines layout doc) =
      doc.rules.map fun rule => ruleLines (layout.ruleLayout rule) rule :=
    (flatMap_under layout doc (fun block => Segments.segments isDash block.2) .rules).trans
      (segments_rules layout doc).2
  exact {
    readable := {
      allowed := hallowed
      starts := hstarts
      reads := by
        intro block hblock
        rw [hblocks] at hblock
        obtain ⟨top, -, rfl⟩ := List.mem_map.1 hblock
        exact goodBlock_blockLines layout doc top }
    last_version := by
      rw [hversion]
      decide
    version := hdoc.version_eq
    defaults := by
      rw [hdefaults, TopBlock.body, List.getLast?_singleton, Option.bind_some,
        bodyOf_field _ word_effect, defaultEffect?_eq_some_iff.2
          (says_word word_effect (word_defaultText doc.defaults)), Option.getD_some]
    rules := by
      rw [hitems, List.map_map]
      refine List.map_congr_left fun rule hrule => ?_
      exact itemRule_ruleLines _ (hdoc.tool_ne_empty rule hrule)
    tools_nodup := hdoc.tools_nodup }

end

/-- Names that look like comments, fields and quotes of the other kind. -/
def oddNames : PolicyDoc :=
  ⟨1, .allow, [⟨"it's # a: tool", .requireApproval, some " key "⟩, ⟨"b", .allow, none⟩]⟩

def oddLayout : PolicyLayout where
  order := [.rules, .version, .defaults]
  order_perm := by decide
  defaultsIndent := 3
  defaultsIndent_pos := by decide
  ruleLayout _ := ⟨1, 4, 2, false, by decide, by decide, by decide⟩
  crlf i := i % 2 = 0

theorem parsePolicy_render_oddNames :
    parsePolicy (render oddLayout oddNames) = .ok oddNames := by
  refine parsePolicy_render ⟨rfl, by decide, by decide⟩ ?_ (by decide)
  intro rule hrule
  simp only [oddNames, List.mem_cons, List.not_mem_nil, or_false] at hrule
  obtain rfl | rfl := hrule
  · refine ⟨⟨by decide, by decide⟩, fun credential hcredential => ?_⟩
    obtain rfl := Option.some.inj hcredential
    exact ⟨by decide, by decide⟩
  · refine ⟨⟨by decide, by decide⟩, fun credential hcredential => ?_⟩
    cases hcredential

end AgentValet.Broker.PolicyYaml
