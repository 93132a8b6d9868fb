import AgentValet.Base.Segments
import AgentValet.Broker.PolicyYaml
import AgentValet.Lang.Trim

namespace AgentValet.Broker.PolicyYaml
open Base Lang

abbrev Line := List Char

def Line.blank (raw : Line) : Bool := (JavaScript.trim raw).isEmpty

/-- The lines that are not blank once their comments are gone. -/
def significant (lines : List (List Char)) : List Line :=
  (lines.map stripComment).filter fun raw => !Line.blank raw

def isForbidden (raw : Line) : Bool := forbidden.any fun f => f.1 raw

def bodyOf (raw : Line) : List Char := raw.drop (indentOf raw)

/-- The line is not indented, and so heads a block. -/
def atMargin (raw : Line) : Bool := indentOf raw = 0

def isDash (raw : Line) : Bool := bodyOf raw = ['-'] || (bodyOf raw).take 2 = ['-', ' ']

def keyOf (body : List Char) : String := String.ofList (JavaScript.trim (body.takeWhile (· != ':')))

def valueOf (body : List Char) : List Char := JavaScript.trim (body.dropWhile (· != ':')).tail

/-- The text that a value stands for, bare or in quotes. -/
inductive Denotes : List Char → String → Prop where
  | bare {v : List Char} : v ≠ [] → doubleQuote ∉ v → singleQuote ∉ v → Denotes v (String.ofList v)
  | double (v : List Char) : Denotes (doubleQuote :: v ++ [doubleQuote]) (String.ofList v)
  | single (v : List Char) : Denotes (singleQuote :: v ++ [singleQuote]) (String.ofList v)

def quotedBy (quote : Char) (v : List Char) : Bool :=
  v.head? == some quote && v.getLast? == some quote

def scalar? (v : List Char) : Option String :=
  if v.isEmpty then none
  else if quotedBy doubleQuote v || quotedBy singleQuote v then
    if v.length < 2 then none else some (String.ofList v.tail.dropLast)
  else if v.contains doubleQuote || v.contains singleQuote then none
  else some (String.ofList v)

inductive RuleField where
  | tool (v : String)
  | effect (e : Effect)
  | credential (v : String)
  deriving DecidableEq

def RuleField.fill (rule : DraftRule) : RuleField → DraftRule
  | .tool v => { rule with tool := some v }
  | .effect e => { rule with effect := e }
  | .credential v => { rule with credential := some v }

def ruleField? (body : List Char) : Option RuleField :=
  if body.contains ':' then
    (scalar? (valueOf body)).bind fun v =>
      if keyOf body = "tool" then some (.tool v)
      else if keyOf body = "effect" then (ruleEffect v).map .effect
      else if keyOf body = "credential" then some (.credential v)
      else none
  else none

/-- The field on the line of the dash, if there is one. -/
def dashFields? (body : List Char) : Option (List RuleField) :=
  if (JavaScript.trim body.tail).isEmpty then some []
  else (ruleField? (JavaScript.trim body.tail)).map fun field => [field]

def defaultEffectOf (v : String) : Option DefaultEffect :=
  if v = "allow" then some .allow else if v = "deny" then some .deny else none

def defaultEffect? (body : List Char) : Option DefaultEffect :=
  if body.contains ':' then
    if keyOf body = "effect" then (scalar? (valueOf body)).bind defaultEffectOf else none
  else none

inductive TopKey where
  | version (n : ℕ)
  | defaults
  | rules
  deriving DecidableEq

def topKey? (body : List Char) : Option TopKey :=
  if body.contains ':' then
    if keyOf body = "version" then (decimal? (valueOf body)).map .version
    else if keyOf body = "defaults" then
      if (valueOf body).isEmpty then some .defaults else none
    else if keyOf body = "rules" then if (valueOf body).isEmpty then some .rules else none
    else none
  else none

/-- The text is a key, a colon and a value that stands for `v`. -/
def Says (text : List Char) (key v : String) : Prop :=
  ':' ∈ text ∧ keyOf text = key ∧ Denotes (valueOf text) v

theorem quotedBy_iff {quote : Char} {v : List Char} :
    quotedBy quote v = true ∧ ¬ v.length < 2 ↔ ∃ w, v = quote :: w ++ [quote] := by
  rw [quotedBy, Bool.and_eq_true, beq_iff_eq, beq_iff_eq]
  constructor
  · rintro ⟨⟨hhead, hlast⟩, hlength⟩
    cases v with
    | nil => cases hhead
    | cons c t =>
      obtain rfl : c = quote := Option.some.inj hhead
      have ht : t ≠ [] := by
        rintro rfl
        exact hlength Nat.one_lt_two
      rw [List.getLast?_cons, List.getLast?_eq_some_getLast ht, Option.getD_some,
        Option.some.injEq] at hlast
      exact ⟨t.dropLast, by rw [List.cons_append, ← hlast, List.dropLast_append_getLast ht]⟩
  · rintro ⟨w, rfl⟩
    refine ⟨⟨rfl, ?_⟩, ?_⟩
    · rw [List.getLast?_concat]
    · rw [List.length_append, List.length_cons, List.length_singleton]
      omega

theorem scalar?_eq_some_iff {v : List Char} {s : String} : scalar? v = some s ↔ Denotes v s := by
  have hne : doubleQuote ≠ singleQuote := by decide
  constructor
  · intro h
    unfold scalar? at h
    split_ifs at h with hempty hquoted hlength hstray
    · rw [Option.some.injEq] at h
      subst h
      rw [Bool.or_eq_true] at hquoted
      obtain hquoted | hquoted := hquoted
      · obtain ⟨w, rfl⟩ := quotedBy_iff.1 ⟨hquoted, hlength⟩
        simpa using Denotes.double w
      · obtain ⟨w, rfl⟩ := quotedBy_iff.1 ⟨hquoted, hlength⟩
        simpa using Denotes.single w
    · rw [Option.some.injEq] at h
      subst h
      rw [Bool.or_eq_true, not_or, List.contains_iff_mem, List.contains_iff_mem] at hstray
      exact .bare (by simpa using hempty) hstray.1 hstray.2
  · intro h
    unfold scalar?
    cases h with
    | bare hv hdouble hsingle =>
      have hquoted : ∀ quote, quote ∉ v → quotedBy quote v = false := by
        intro quote hquote
        rw [quotedBy, Bool.and_eq_false_iff, beq_eq_false_iff_ne]
        exact .inl fun hhead => hquote (List.mem_of_head? hhead)
      rw [if_neg (by simpa using hv), hquoted _ hdouble, hquoted _ hsingle]
      simp [hdouble, hsingle]
    | double w =>
      obtain ⟨hquoted, hlength⟩ := quotedBy_iff.2 ⟨w, rfl⟩
      rw [if_neg (by simp), hquoted, Bool.true_or, if_pos rfl, if_neg hlength]
      simp
    | single w =>
      obtain ⟨hquoted, hlength⟩ := quotedBy_iff.2 ⟨w, rfl⟩
      rw [if_neg (by simp), hquoted, Bool.or_true, if_pos rfl, if_neg hlength]
      simp

def effectText : Effect → String
  | .allow => "allow"
  | .deny => "deny"
  | .requireApproval => "require_approval"

theorem ruleEffect_eq_some_iff {v : String} {e : Effect} :
    ruleEffect v = some e ↔ v = effectText e := by
  constructor
  · intro h
    unfold ruleEffect at h
    split_ifs at h with hallow hdeny happroval <;> rw [Option.some.injEq] at h <;> subst h
    · exact hallow
    · exact hdeny
    · exact happroval
  · rintro rfl
    cases e <;> rfl

def RuleField.SaidBy (text : List Char) : RuleField → Prop
  | .tool v => Says text "tool" v
  | .effect e => Says text "effect" (effectText e)
  | .credential v => Says text "credential" v

theorem ruleField?_eq_some_iff {text : List Char} {field : RuleField} :
    ruleField? text = some field ↔ field.SaidBy text := by
  unfold ruleField?
  by_cases hcolon : ':' ∈ text
  · rw [if_pos (List.contains_iff_mem.2 hcolon), Option.bind_eq_some_iff]
    constructor
    · rintro ⟨v, hv, hfield⟩
      rw [scalar?_eq_some_iff] at hv
      split_ifs at hfield with htool heffect hcredential
      · rw [Option.some.injEq] at hfield
        subst hfield
        exact ⟨hcolon, htool, hv⟩
      · obtain ⟨e, he, rfl⟩ := Option.map_eq_some_iff.1 hfield
        rw [ruleEffect_eq_some_iff] at he
        subst he
        exact ⟨hcolon, heffect, hv⟩
      · rw [Option.some.injEq] at hfield
        subst hfield
        exact ⟨hcolon, hcredential, hv⟩
    · intro h
      cases field with
      | tool v => exact ⟨v, scalar?_eq_some_iff.2 h.2.2, by rw [if_pos h.2.1]⟩
      | effect e =>
        refine ⟨effectText e, scalar?_eq_some_iff.2 h.2.2, ?_⟩
        rw [h.2.1, if_neg (by decide), if_pos rfl, ruleEffect_eq_some_iff.2 rfl]
        rfl
      | credential v =>
        refine ⟨v, scalar?_eq_some_iff.2 h.2.2, ?_⟩
        rw [h.2.1, if_neg (by decide), if_neg (by decide), if_pos rfl]
  · rw [if_neg (by simpa using hcolon)]
    constructor
    · intro h
      cases h
    · intro h
      cases field <;> exact absurd h.1 hcolon

def defaultText : DefaultEffect → String
  | .allow => "allow"
  | .deny => "deny"

theorem defaultEffect?_eq_some_iff {text : List Char} {e : DefaultEffect} :
    defaultEffect? text = some e ↔ Says text "effect" (defaultText e) := by
  unfold defaultEffect?
  by_cases hcolon : ':' ∈ text
  · rw [if_pos (List.contains_iff_mem.2 hcolon)]
    by_cases hkey : keyOf text = "effect"
    · rw [if_pos hkey, Option.bind_eq_some_iff]
      constructor
      · rintro ⟨v, hv, he⟩
        rw [scalar?_eq_some_iff] at hv
        unfold defaultEffectOf at he
        split_ifs at he with hallow hdeny <;> rw [Option.some.injEq] at he
        · subst hallow he
          exact ⟨hcolon, hkey, hv⟩
        · subst hdeny he
          exact ⟨hcolon, hkey, hv⟩
      · intro h
        refine ⟨defaultText e, scalar?_eq_some_iff.2 h.2.2, ?_⟩
        cases e <;> rfl
    · rw [if_neg hkey]
      constructor
      · intro h
        cases h
      · intro h
        exact absurd h.2.1 hkey
  · rw [if_neg (by simpa using hcolon)]
    constructor
    · intro h
      cases h
    · intro h
      exact absurd h.1 hcolon

variable (line : ℕ)

theorem splitKeyValue_toOption (body : List Char) :
    (splitKeyValue body line).toOption = if body.contains ':' then
      some ⟨JavaScript.trim (body.takeWhile (· != ':')), valueOf body⟩ else none := by
  unfold splitKeyValue
  split_ifs <;> rfl

theorem unquote_toOption (v : List Char) :
    (unquote v line).toOption.map String.ofList = scalar? (JavaScript.trim v) := by
  simp only [unquote, scalar?, quotedBy]
  split_ifs <;> rfl

theorem unquote_valueOf (body : List Char) :
    (unquote (valueOf body) line).toOption.map String.ofList = scalar? (valueOf body) := by
  rw [unquote_toOption, valueOf, JavaScript.trim_trim]

theorem applyRuleField_toOption (rule : DraftRule) (body : List Char) :
    (applyRuleField rule body line).toOption = (ruleField? body).map (RuleField.fill rule) := by
  unfold applyRuleField ruleField? keyOf
  rw [Fallible.toOption_bind, splitKeyValue_toOption]
  by_cases hcolon : body.contains ':' = true
  · rw [if_pos hcolon, if_pos hcolon, Option.bind_some, Fallible.toOption_bind,
      ← unquote_valueOf line]
    cases hv : unquote (valueOf body) line with
    | error e => rfl
    | ok v =>
      simp only [Fallible.toOption_ok, Option.bind_some, Option.map_some]
      split_ifs
      · rfl
      · cases ruleEffect (String.ofList v) <;> rfl
      · rfl
      · rfl
  · rw [if_neg hcolon, if_neg hcolon]
    rfl

/-- A key at the margin opens its section. -/
def TopKey.enter (state : ParseState) : TopKey → ParseState
  | .version n => { state with version := some n, place := .top, current := none }
  | .defaults => { state with place := .defaults, current := none }
  | .rules => { state with place := .rules, current := none }

theorem topLine_toOption (state : ParseState) (body : List Char) :
    (topLine state body line).toOption = (topKey? body).map (TopKey.enter state) := by
  unfold topLine topKey? keyOf
  rw [Fallible.toOption_bind, splitKeyValue_toOption]
  by_cases hcolon : body.contains ':' = true
  · rw [if_pos hcolon, if_pos hcolon, Option.bind_some]
    simp only
    split_ifs
    · cases decimal? (valueOf body) <;> rfl
    all_goals rfl
  · rw [if_neg hcolon, if_neg hcolon]
    rfl

theorem defaultsLine_toOption (state : ParseState) (body : List Char) :
    (defaultsLine state body line).toOption =
      (defaultEffect? body).map fun e => { state with defaultsEffect := some e } := by
  unfold defaultsLine defaultEffect? keyOf
  rw [Fallible.toOption_bind, splitKeyValue_toOption]
  by_cases hcolon : body.contains ':' = true
  · rw [if_pos hcolon, if_pos hcolon, Option.bind_some]
    simp only [ne_eq, ite_not]
    split_ifs with hkey
    · rw [Fallible.toOption_bind, ← unquote_valueOf line]
      cases hv : unquote (valueOf body) line with
      | error e => rfl
      | ok v =>
        simp only [Fallible.toOption_ok, Option.bind_some, Option.map_some, defaultEffectOf]
        split_ifs <;> rfl
    · rfl
  · rw [if_neg hcolon, if_neg hcolon]
    rfl

def emptyDraft (indent : ℕ) : DraftRule := ⟨none, .deny, none, indent⟩

def ruleLine (state : ParseState) (raw : Line) : Option ParseState :=
  if isDash raw then
    (dashFields? (bodyOf raw)).map fun fields =>
      { state with
        drafts := state.drafts ++ [fields.foldl RuleField.fill (emptyDraft (indentOf raw))]
        current := some state.drafts.length }
  else
    match state.current.bind fun i => state.drafts[i]?.map fun rule => (i, rule) with
    | none => none
    | some (i, rule) =>
      if indentOf raw ≤ rule.indent then none
      else (ruleField? (bodyOf raw)).map fun field =>
        { state with drafts := state.drafts.set i (field.fill rule) }

theorem rulesLine_toOption (state : ParseState) (raw : Line) :
    (rulesLine state (indentOf raw) (bodyOf raw) line).toOption = ruleLine state raw := by
  have hdash : (decide (bodyOf raw = ['-']) || decide ((bodyOf raw).take 2 = ['-', ' '])) =
      isDash raw := rfl
  unfold rulesLine ruleLine
  rw [hdash]
  by_cases h : isDash raw = true
  · rw [if_pos h, if_pos h]
    simp only [dashFields?]
    split_ifs
    · rfl
    · rw [Fallible.toOption_bind, applyRuleField_toOption]
      cases ruleField? (JavaScript.trim (bodyOf raw).tail) <;> rfl
  · rw [if_neg h, if_neg h]
    cases state.current.bind fun i => state.drafts[i]?.map fun rule => (i, rule) with
    | none => rfl
    | some found =>
      obtain ⟨i, rule⟩ := found
      simp only
      split_ifs
      · rfl
      · rw [Fallible.toOption_bind, applyRuleField_toOption]
        cases ruleField? (bodyOf raw) <;> rfl

/-- What one line that is not blank and holds nothing forbidden does. -/
def enterLine (state : ParseState) (raw : Line) : Option ParseState :=
  if atMargin raw then (topKey? (bodyOf raw)).map (TopKey.enter state)
  else
    match state.place with
    | .defaults =>
      (defaultEffect? (bodyOf raw)).map fun e => { state with defaultsEffect := some e }
    | .rules => ruleLine state raw
    | .top => none

theorem parseLine_toOption (state : ParseState) (text : List Char) :
    (parseLine state text line).toOption =
      if Line.blank (stripComment text) then some state
      else if isForbidden (stripComment text) then none
      else enterLine state (stripComment text) := by
  simp only [parseLine]
  by_cases hempty : (JavaScript.trim (stripComment text)).isEmpty = true
  · have hblank : Line.blank (stripComment text) = true := hempty
    rw [if_pos hempty, if_pos hblank, Fallible.toOption_ok]
  · have hblank : ¬ Line.blank (stripComment text) = true := hempty
    rw [if_neg hempty, if_neg hblank]
    cases hfind : forbidden.find? fun f => f.1 (stripComment text) with
    | some f =>
      have hfound := List.find?_some hfind
      have hforbidden : isForbidden (stripComment text) = true :=
        List.any_eq_true.2 ⟨f, List.mem_of_find?_eq_some hfind, hfound⟩
      rw [if_pos hforbidden]
      rfl
    | none =>
      have hallowed : ¬ isForbidden (stripComment text) = true := by
        rw [isForbidden, List.any_eq_true]
        rintro ⟨f, hf, hfound⟩
        exact List.find?_eq_none.1 hfind f hf hfound
      rw [if_neg hallowed, enterLine]
      by_cases hindent : indentOf (stripComment text) = 0
      · have hmargin : atMargin (stripComment text) = true := decide_eq_true hindent
        simp only [if_pos hindent, if_pos hmargin]
        exact topLine_toOption line state _
      · have hmargin : atMargin (stripComment text) = false := decide_eq_false hindent
        simp only [if_neg hindent, hmargin, Bool.false_eq_true, if_false]
        cases hplace : state.place with
        | top => rfl
        | defaults =>
          have h := defaultsLine_toOption line state (bodyOf (stripComment text))
          rwa [hplace] at h
        | rules => exact rulesLine_toOption line state _

theorem parseLines_toOption (state : ParseState) (lines : List (List Char)) (line : ℕ) :
    (parseLines state lines line).toOption =
      if (significant lines).any isForbidden then none
      else (significant lines).foldlM enterLine state := by
  rw [← Segments.foldlM_guard]
  induction lines generalizing state line with
  | nil => rfl
  | cons text lines ih =>
    rw [parseLines, Fallible.toOption_bind, parseLine_toOption line]
    simp only [ih]
    cases hblank : Line.blank (stripComment text) with
    | true => simp [significant, hblank]
    | false =>
      have hcons : significant (text :: lines) = stripComment text :: significant lines := by
        simp [significant, hblank]
      rw [hcons, List.foldlM_cons]
      rfl

end AgentValet.Broker.PolicyYaml
