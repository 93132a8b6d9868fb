import AgentValet.Base.Fallible
import AgentValet.Broker.Types
import Mathlib.Data.List.Nodup

namespace AgentValet.Broker.PolicyYaml
open Base Lang

structure PolicyRuleDoc where
  tool : String
  effect : Effect
  credential : Option String
  deriving DecidableEq, Repr

inductive DefaultEffect where
  | allow
  | deny
  deriving DecidableEq, Repr

structure PolicyDoc where
  version : ℕ
  defaults : DefaultEffect
  rules : List PolicyRuleDoc
  deriving DecidableEq, Repr

structure PolicyParseError where
  problem : String
  line : ℕ
  deriving DecidableEq, Repr

def PolicyParseError.message (err : PolicyParseError) : String :=
  let line := err.line
  let problem := err.problem
  s!"policy parse error (line {line}): {problem}"

abbrev Parse (α : Type) := Except PolicyParseError α

def singleQuote : Char := Char.ofNat 39

def doubleQuote : Char := Char.ofNat 34

/-- `/(^|\s)[&*]\S/`, scanned with what stands before the rest of the line. -/
def hasAnchor : Bool → List Char → Bool
  | _, [] => false
  | boundary, c :: rest =>
    (boundary && (c == '&' || c == '*') && rest.head?.any (fun d => !JavaScript.isSpace d)) ||
      hasAnchor (JavaScript.isSpace c) rest

/-- `/<<\s*:/` -/
def hasMergeKey (raw : List Char) : Bool :=
  raw.tails.any fun
    | '<' :: '<' :: rest => (rest.dropWhile JavaScript.isSpace).head? == some ':'
    | _ => false

/-- `/\$\{/` -/
def hasInterpolation (raw : List Char) : Bool :=
  raw.tails.any fun
    | '$' :: c :: _ => c == '{'
    | _ => false

/-- `/:\s*[[{]/` -/
def hasFlowCollection (raw : List Char) : Bool :=
  raw.tails.any fun
    | ':' :: rest =>
      (rest.dropWhile JavaScript.isSpace).head?.any fun c => c == '[' || c == '{'
    | _ => false

/-- `FORBIDDEN`, in its order. -/
def forbidden : List ((List Char → Bool) × String) :=
  [(fun raw => raw.contains '\t', "tabs are not allowed; indent with spaces"),
    (hasAnchor true, "anchors and aliases are not allowed"),
    (hasMergeKey, "merge keys are not allowed"),
    (hasInterpolation, "interpolation is not allowed"),
    (hasFlowCollection, "flow collections are not allowed")]

/-- The loop of `stripComment`; `boundary` tells whether a `#` may start a comment here. -/
def stripCommentFrom (inSingle inDouble boundary : Bool) : List Char → List Char
  | [] => []
  | c :: rest =>
    if c == singleQuote && !inDouble then
      c :: stripCommentFrom (!inSingle) inDouble (JavaScript.isSpace c) rest
    else if c == doubleQuote && !inSingle then
      c :: stripCommentFrom inSingle (!inDouble) (JavaScript.isSpace c) rest
    else if c == '#' && !inSingle && !inDouble && boundary then []
    else c :: stripCommentFrom inSingle inDouble (JavaScript.isSpace c) rest

def stripComment (raw : List Char) : List Char := stripCommentFrom false false true raw

def unquote (value : List Char) (line : ℕ) : Parse (List Char) :=
  let v := JavaScript.trim value
  if v.isEmpty then .error ⟨"empty value", line⟩
  else if (v.head? == some doubleQuote && v.getLast? == some doubleQuote) ||
      (v.head? == some singleQuote && v.getLast? == some singleQuote) then
    if v.length < 2 then .error ⟨"unterminated quote", line⟩ else .ok v.tail.dropLast
  else if v.contains doubleQuote || v.contains singleQuote then
    .error ⟨"stray quote in unquoted scalar", line⟩
  else .ok v

def indentOf (raw : List Char) : ℕ := (raw.takeWhile (· == ' ')).length

structure KeyValue where
  key : List Char
  value : List Char

def splitKeyValue (body : List Char) (line : ℕ) : Parse KeyValue :=
  if body.contains ':' then
    .ok
      { key := JavaScript.trim (body.takeWhile (· != ':'))
        value := JavaScript.trim (body.dropWhile (· != ':')).tail }
  else
    let text := String.ofList (JavaScript.trim body)
    .error ⟨s!"expected \"key: value\", got \"{text}\"", line⟩

/-- `source.split(/\r?\n/)` -/
def splitLines : List Char → List (List Char)
  | [] => [[]]
  | '\n' :: rest => [] :: splitLines rest
  | '\r' :: '\n' :: rest => [] :: splitLines rest
  | c :: rest =>
    match splitLines rest with
    | [] => [[c]]
    | line :: lines => (c :: line) :: lines

structure DraftRule where
  tool : Option String
  effect : Effect
  credential : Option String
  indent : ℕ
  deriving DecidableEq, Repr

def ruleEffect (v : String) : Option Effect :=
  if v = "allow" then some .allow
  else if v = "deny" then some .deny
  else if v = "require_approval" then some .requireApproval
  else none

def applyRuleField (rule : DraftRule) (body : List Char) (line : ℕ) : Parse DraftRule := do
  let field ← splitKeyValue body line
  let v := String.ofList (← unquote field.value line)
  let key := String.ofList field.key
  if key = "tool" then pure { rule with tool := some v }
  else if key = "effect" then
    match ruleEffect v with
    | none => .error ⟨"effect must be one of allow, deny, require_approval", line⟩
    | some effect => pure { rule with effect := effect }
  else if key = "credential" then pure { rule with credential := some v }
  else .error ⟨s!"unknown rule key \"{key}\"", line⟩

inductive Section where
  | top
  | defaults
  | rules
  deriving DecidableEq, Repr

structure ParseState where
  version : Option ℕ
  defaultsEffect : Option DefaultEffect
  drafts : List DraftRule
  place : Section
  current : Option ℕ
  deriving DecidableEq, Repr

def ParseState.initial : ParseState := ⟨none, none, [], .top, none⟩

/-- `Number(value)` of a value that matched `/^\d+$/`. -/
def decimal? (value : List Char) : Option ℕ :=
  if !value.isEmpty && value.all (fun c => '0' ≤ c && c ≤ '9') then
    some (value.foldl (fun n c => 10 * n + (c.toNat - 48)) 0)
  else none

def topLine (state : ParseState) (body : List Char) (line : ℕ) : Parse ParseState := do
  let field ← splitKeyValue body line
  let key := String.ofList field.key
  if key = "version" then
    match decimal? field.value with
    | none => .error ⟨"version must be a non-negative integer", line⟩
    | some version => pure { state with version := some version, place := .top, current := none }
  else if key = "defaults" then
    if field.value.isEmpty then pure { state with place := .defaults, current := none }
    else .error ⟨"\"defaults:\" takes no inline value", line⟩
  else if key = "rules" then
    if field.value.isEmpty then pure { state with place := .rules, current := none }
    else .error ⟨"\"rules:\" takes no inline value", line⟩
  else .error ⟨s!"unknown top-level key \"{key}\"", line⟩

def defaultsLine (state : ParseState) (body : List Char) (line : ℕ) : Parse ParseState := do
  let field ← splitKeyValue body line
  let key := String.ofList field.key
  if key ≠ "effect" then .error ⟨s!"unknown defaults key \"{key}\"", line⟩
  else
    let v := String.ofList (← unquote field.value line)
    if v = "allow" then pure { state with defaultsEffect := some .allow }
    else if v = "deny" then pure { state with defaultsEffect := some .deny }
    else .error ⟨"defaults.effect must be \"allow\" or \"deny\"", line⟩

def rulesLine (state : ParseState) (indent : ℕ) (body : List Char) (line : ℕ) :
    Parse ParseState := do
  if body = ['-'] || body.take 2 = ['-', ' '] then
    -- the effect of an item that names none stays deny
    let draft : DraftRule := ⟨none, .deny, none, indent⟩
    let after := JavaScript.trim body.tail
    let filled ← if after.isEmpty then pure draft else applyRuleField draft after line
    pure { state with drafts := state.drafts ++ [filled], current := some state.drafts.length }
  else
    match state.current.bind fun i => state.drafts[i]?.map fun rule => (i, rule) with
    | none => .error ⟨"expected a \"- tool:\" list item under \"rules:\"", line⟩
    | some (i, rule) =>
      if indent ≤ rule.indent then
        .error ⟨"rule field must be indented past its list item", line⟩
      else
        let rule ← applyRuleField rule body line
        pure { state with drafts := state.drafts.set i rule }

def parseLine (state : ParseState) (text : List Char) (line : ℕ) : Parse ParseState :=
  let raw := stripComment text
  if (JavaScript.trim raw).isEmpty then .ok state
  else
    match forbidden.find? fun f => f.1 raw with
    | some f => .error ⟨f.2, line⟩
    | none =>
      let indent := indentOf raw
      let body := raw.drop indent
      -- only a line at the margin can leave a section
      if indent = 0 then topLine state body line
      else
        match state.place with
        | .defaults => defaultsLine state body line
        | .rules => rulesLine state indent body line
        | .top => .error ⟨"unexpected indented content at top level", line⟩

def parseLines (state : ParseState) : List (List Char) → ℕ → Parse ParseState
  | [], _ => .ok state
  | text :: rest, line => do
    let state ← parseLine state text line
    parseLines state rest (line + 1)

/-- The loop over the drafts; `seen` holds the tools of the rules before. -/
def collectRules (seen : List String) : List DraftRule → Parse (List PolicyRuleDoc)
  | [] => .ok []
  | d :: rest =>
    match d.tool.filter (· ≠ "") with
    | none => .error ⟨"rule is missing \"tool:\"", 0⟩
    | some tool =>
      if tool ∈ seen then .error ⟨s!"duplicate rule for tool \"{tool}\"", 0⟩
      else do
        let rules ← collectRules (tool :: seen) rest
        pure (⟨tool, d.effect, d.credential⟩ :: rules)

def parsePolicy (source : String) : Parse PolicyDoc := do
  let state ← parseLines .initial (splitLines source.toList) 1
  match state.version with
  | none => .error ⟨"missing required \"version\"", 0⟩
  | some version =>
    if version ≠ 1 then
      .error ⟨s!"unsupported policy version {version}; only version 1 is supported", 0⟩
    else
      let rules ← collectRules [] state.drafts
      pure ⟨version, state.defaultsEffect.getD .deny, rules⟩

/-- What the parser promises of a document it returns. -/
structure PolicyDoc.WellFormed (doc : PolicyDoc) : Prop where
  version_eq : doc.version = 1
  tool_ne_empty : ∀ rule ∈ doc.rules, rule.tool ≠ ""
  tools_nodup : (doc.rules.map PolicyRuleDoc.tool).Nodup

theorem collectRules_spec {seen : List String} {drafts : List DraftRule}
    {rules : List PolicyRuleDoc} (h : collectRules seen drafts = .ok rules) :
    (∀ rule ∈ rules, rule.tool ≠ "" ∧ rule.tool ∉ seen) ∧
      (rules.map PolicyRuleDoc.tool).Nodup := by
  -- `seen` grows along the drafts: a rule's tool is new to the rules before it
  induction drafts generalizing seen rules with
  | nil =>
    cases h
    simp
  | cons d rest ih =>
    unfold collectRules at h
    split at h
    · cases h
    · next tool htool =>
      split at h
      · cases h
      · next hseen =>
        obtain ⟨rules', hrest, hrules⟩ := Fallible.bind_eq_ok.1 h
        rw [Fallible.pure_eq_ok] at hrules
        subst hrules
        have hne : tool ≠ "" := by
          have hfilter := Option.filter_eq_some_iff.1 htool
          simpa using hfilter.2
        obtain ⟨hfresh, hnodup⟩ := ih hrest
        constructor
        · intro rule hrule
          rcases List.mem_cons.1 hrule with rfl | hrule
          · exact ⟨hne, hseen⟩
          · obtain ⟨hrule_ne, hrule_seen⟩ := hfresh rule hrule
            exact ⟨hrule_ne, fun hin => hrule_seen (List.mem_cons_of_mem _ hin)⟩
        · rw [List.map_cons, List.nodup_cons]
          refine ⟨?_, hnodup⟩
          intro hin
          obtain ⟨rule, hrule, heq⟩ := List.mem_map.1 hin
          exact (hfresh rule hrule).2 (heq ▸ List.mem_cons_self)

/-- An accepted text names each tool at most once. -/
theorem parsePolicy_wellFormed {source : String} {doc : PolicyDoc}
    (h : parsePolicy source = .ok doc) : doc.WellFormed := by
  obtain ⟨state, -, h⟩ := Fallible.bind_eq_ok.1 h
  split at h
  · cases h
  · next version hversion =>
    split at h
    · cases h
    · next hone =>
      obtain ⟨rules, hrules, hdoc⟩ := Fallible.bind_eq_ok.1 h
      rw [Fallible.pure_eq_ok] at hdoc
      subst hdoc
      obtain ⟨hfresh, hnodup⟩ := collectRules_spec hrules
      exact ⟨not_not.1 hone, fun rule hrule => (hfresh rule hrule).1, hnodup⟩

end AgentValet.Broker.PolicyYaml
