import AgentValet.Broker.PolicyYaml
import AgentValet.Lang.Replace
import AgentValet.Lang.Trim
import Mathlib

namespace AgentValet.Scripts.NoSecrets
open Base Lang JavaScript
open Broker.PolicyYaml (splitLines)

def MIN_ENV_VALUE_LEN : ℕ := 12

def ENV_VALUE_DENYLIST : List Text :=
  ["true".toList, "false".toList, "localhost".toList, "development".toList, "production".toList]

/-- `text.length`, in UTF-16 code units. -/
def length16 (text : Text) : ℕ := (text.map fun c => if c.toNat < 0x10000 then 1 else 2).sum

def isQuote (c : Char) : Bool := c = '\x22' || c = '\x27'

def isNameStart (c : Char) : Bool := c.isAlpha || c = '_'

def isNameChar (c : Char) : Bool := c.isAlphanum || c = '_'

def dropOpening (value : Text) : Text :=
  match value with
  | c :: rest => if isQuote c then rest else value
  | [] => []

def dropClosing (value : Text) : Text :=
  match value.getLast? with
  | some c => if isQuote c then value.dropLast else value
  | none => value

/-- `value.replace(/^["']|["']$/g, "")` -/
def dropQuotes (value : Text) : Text := dropClosing (dropOpening value)

/-- `line.match(/^\s*([A-Za-z_][A-Za-z0-9_]*)\s*=\s*(.*)$/)`, and the value without its quotes. -/
def assignment? (line : Text) : Option (Text × Text) :=
  let start := line.dropWhile isSpace
  let name := start.takeWhile isNameChar
  match name.head?, (start.dropWhile isNameChar).dropWhile isSpace with
  | some c, '=' :: rest =>
    let value := rest.dropWhile isSpace
    if isNameStart c && !value.any isLineEnd then some (name, dropQuotes (trim value)) else none
  | _, _ => none

/-- The letters that a word of the list is made of are those of ASCII. -/
def denied (value : Text) : Bool := ENV_VALUE_DENYLIST.contains (value.map Char.toLower)

def sensitive (value : Text) : Bool := MIN_ENV_VALUE_LEN ≤ length16 value && !denied value

structure Secret where
  name : Text
  value : Text

/-- Without the file there is nothing to search for. -/
def envSecrets (env : Option Text) : List Secret :=
  match env with
  | none => []
  | some env =>
    (splitLines env).filterMap fun line =>
      (assignment? line).bind fun m => if sensitive m.2 then some ⟨m.1, m.2⟩ else none

def SCAN_EXT : List Text :=
  ["md".toList, "json".toList, "js".toList, "mjs".toList, "cjs".toList, "ts".toList, "tsx".toList,
    "map".toList, "yaml".toList, "yml".toList, "txt".toList, "py".toList, "toml".toList,
    "sh".toList, "html".toList, "css".toList]

/-- `SCAN_EXT.test(file)` -/
def scanned (file : Text) : Bool :=
  SCAN_EXT.any fun ext => ('.' :: ext).isSuffixOf (file.map Char.toLower)

/-- A shape that is looked for, in both cases or not. -/
structure Pattern where
  what : String
  test : Text → Bool

inductive Finding where
  | pattern (what : String)
  | envValue (name : Text)

def Finding.what : Finding → Text
  | .pattern what => what.toList
  | .envValue name => "literal value of ".toList ++ name ++ " from .env".toList

structure Hit where
  file : Text
  found : Finding

/-- What the script is run on: the files of the tarball, what they hold, and `.env`. -/
structure Package where
  shipping : List Text
  read : Text → Option Text
  env : Option Text

section
variable (PATTERNS : List Pattern) (pkg : Package)

def hitsIn (rel text : Text) : List Hit :=
  ((PATTERNS.filter fun p => p.test text).map fun p => ⟨rel, .pattern p.what⟩) ++
    ((envSecrets pkg.env).filter fun s => includes text s.value).map
      fun s => ⟨rel, .envValue s.name⟩

def hits : List Hit :=
  (pkg.shipping.filter scanned).flatMap fun rel =>
    match pkg.read rel with
    | none => []
    | some text => hitsIn PATTERNS pkg rel text

def exitCode : ℕ := if (hits PATTERNS pkg).isEmpty then 0 else 1

def Blank (c : Char) : Prop := c = ' ' ∨ c = '\t'

structure Name (name : Text) : Prop where
  start : ∀ c ∈ name.head?, isNameStart c = true
  ne : name ≠ []
  chars : ∀ c ∈ name, isNameChar c = true

/-- How a value may be written: as it is, or in quotes. -/
inductive Written (value : Text) : Text → Prop where
  | bare (tight : Tight value) (unquoted : ∀ c ∈ value.head?, isQuote c = false)
      (uncommented : ∀ a b rest, Blank b → value ≠ a ++ b :: '#' :: rest) : Written value value
  | quoted {q : Char} (quote : isQuote q = true) (free : q ∉ value) :
      Written value (q :: (value ++ [q]))

inductive Exported : Text → Prop where
  | no : Exported []
  | yes {blanks : Text} (ne : blanks ≠ []) (all : ∀ c ∈ blanks, Blank c) :
      Exported ("export".toList ++ blanks)

inductive Comment : Text → Prop where
  | no : Comment []
  | yes {blanks : Text} (ne : blanks ≠ []) (all : ∀ c ∈ blanks, Blank c) (rest : Text) :
      Comment (blanks ++ '#' :: rest)

inductive Assigns (name value : Text) : Text → Prop where
  | line {exported written comment : Text} (hexported : Exported exported) (hname : Name name)
      (hwritten : Written value written) (hcomment : Comment comment) :
      Assigns name value (exported ++ (name ++ '=' :: (written ++ comment)))

/-- The line of `.env` assigns a value to the variable that a shipping file holds. -/
structure Exposed (name value line rel text : Text) : Prop where
  assigned : ∃ env, pkg.env = some env ∧ line ∈ splitLines env ∧ Assigns name value line
  sensitive : sensitive value = true
  ships : rel ∈ pkg.shipping
  holds : pkg.read rel = some text ∧ includes text value = true

/-- No value that is assigned gets through, and no file that cannot be read. -/
structure Complete : Prop where
  values : ∀ name value line rel text, Exposed pkg name value line rel text →
    hits PATTERNS pkg ≠ [] ∧ exitCode PATTERNS pkg = 1
  unreadable : ∀ rel ∈ pkg.shipping, pkg.read rel = none → exitCode PATTERNS pkg ≠ 0

/-- The name of the file ends with one of the extensions, in whatever case. -/
def HasExtension (rel : Text) : Prop :=
  ∃ stem ext, rel = stem ++ '.' :: ext ∧ ext.map Char.toLower ∈ SCAN_EXT

/-- An end of a value: a quote that is dropped, or nothing beside a character that is no quote. -/
inductive QuoteEnd (beside : Option Char) : Text → Prop where
  | quote {q : Char} (hq : isQuote q = true) : QuoteEnd beside [q]
  | bare (h : ∀ c ∈ beside, isQuote c = false) : QuoteEnd beside []

/-- The line is taken for this value of the variable: there may be white space around the name and
the value, a comment belongs to the value, and `export` may not stand before the name. -/
inductive ReadAs (name v : Text) : Text → Prop where
  | line {before between after opening closing trailing : Text} (hbefore : allSpace before)
      (hname : Name name) (hbetween : allSpace between) (hafter : allSpace after)
      (hopening : QuoteEnd (v ++ closing).head? opening) (hclosing : QuoteEnd v.getLast? closing)
      (htight : Tight (opening ++ (v ++ closing))) (htrailing : allSpace trailing)
      (hline : ∀ c ∈ opening ++ (v ++ closing) ++ trailing, isLineEnd c = false) :
      ReadAs name v (before ++ (name ++ (between ++ '=' ::
        (after ++ (opening ++ (v ++ closing) ++ trailing)))))

/-- A file with one of the extensions matches a pattern, or holds a value as a line of `.env` is
taken. -/
inductive Found : Prop where
  | pattern {rel text : Text} {p : Pattern} (hships : rel ∈ pkg.shipping)
      (hextension : HasExtension rel) (hread : pkg.read rel = some text) (hp : p ∈ PATTERNS)
      (htest : p.test text = true)
  | value {rel text env line name v : Text} (hships : rel ∈ pkg.shipping)
      (hextension : HasExtension rel) (hread : pkg.read rel = some text)
      (henv : pkg.env = some env) (hline : line ∈ splitLines env) (hreads : ReadAs name v line)
      (hsensitive : sensitive v = true) (hincludes : includes text v = true)

/-- The line assigns the value without `export`, comment or line separator, and a bare value does
not end with a quote. -/
inductive PlainLine (name value : Text) : Text → Prop where
  | line {written : Text} (hname : Name name) (hwritten : Written value written)
      (hline : ∀ c ∈ written, isLineEnd c = false)
      (hlast : written = value → ∀ c ∈ value.getLast?, isQuote c = false) :
      PlainLine name value (name ++ '=' :: written)

/-- A value stands on a plain line and in a file with one of the extensions, or something else is
found, as it must be beside a file that cannot be read. -/
structure Covered : Prop where
  values : ∀ name value line rel text, Exposed pkg name value line rel text →
    PlainLine name value line ∧ HasExtension rel ∨ Found PATTERNS pkg
  unreadable : ∀ rel ∈ pkg.shipping, pkg.read rel = none → Found PATTERNS pkg

end

theorem eq_dot_of_toLower {c : Char} (h : c.toLower = '.') : c = '.' := by
  have halpha : c.isAlpha = false := by
    rw [← Char.isLower_toLower_eq_isAlpha, h]
    rfl
  have hup : ¬ c.isUpper = true := fun hup => by simp [Char.isAlpha, hup] at halpha
  rwa [Char.toLower_eq_of_not_isUpper hup] at h

theorem scanned_iff {rel : Text} : scanned rel = true ↔ HasExtension rel := by
  rw [scanned, List.any_eq_true]
  constructor
  · rintro ⟨ext, hmem, hsuffix⟩
    obtain ⟨stem', hstem⟩ := List.isSuffixOf_iff_suffix.1 hsuffix
    obtain ⟨stem, tail, rfl, -, htail⟩ := List.map_eq_append_iff.1 hstem.symm
    obtain ⟨c, ext', rfl, hc, rfl⟩ := List.map_eq_cons_iff.1 htail
    exact ⟨stem, ext', by rw [eq_dot_of_toLower hc], hmem⟩
  · rintro ⟨stem, ext, rfl, hmem⟩
    refine ⟨_, hmem, List.isSuffixOf_iff_suffix.2 ⟨stem.map Char.toLower, ?_⟩⟩
    rw [List.map_append, List.map_cons]
    rfl

theorem dropOpening_eq_iff {t u : Text} :
    dropOpening t = u ↔ ∃ opening, t = opening ++ u ∧ QuoteEnd u.head? opening := by
  constructor
  · rintro rfl
    cases t with
    | nil => exact ⟨[], rfl, .bare fun c hc => by cases hc⟩
    | cons c rest =>
      by_cases hq : isQuote c = true
      · rw [dropOpening, if_pos hq]
        exact ⟨[c], rfl, .quote hq⟩
      · rw [dropOpening, if_neg hq]
        refine ⟨[], rfl, .bare fun d hd => ?_⟩
        cases hd
        exact Bool.not_eq_true _ ▸ hq
  · rintro ⟨opening, rfl, hopening⟩
    cases hopening with
    | quote hq => rw [List.singleton_append, dropOpening, if_pos hq]
    | bare h =>
      cases u with
      | nil => rfl
      | cons c rest =>
        rw [List.nil_append, dropOpening, if_neg]
        rw [h c rfl]
        exact Bool.false_ne_true

theorem dropClosing_eq_iff {u v : Text} :
    dropClosing u = v ↔ ∃ closing, u = v ++ closing ∧ QuoteEnd v.getLast? closing := by
  constructor
  · rintro rfl
    obtain rfl | ⟨w, c, rfl⟩ := List.eq_nil_or_concat' u
    · exact ⟨[], rfl, .bare fun c hc => by cases hc⟩
    · by_cases hq : isQuote c = true
      · have hdrop : dropClosing (w ++ [c]) = w := by simp [dropClosing, hq]
        rw [hdrop]
        exact ⟨[c], rfl, .quote hq⟩
      · have hdrop : dropClosing (w ++ [c]) = w ++ [c] := by simp [dropClosing, hq]
        rw [hdrop]
        refine ⟨[], (List.append_nil _).symm, .bare fun d hd => ?_⟩
        rw [List.getLast?_concat] at hd
        cases hd
        exact Bool.not_eq_true _ ▸ hq
  · rintro ⟨closing, rfl, hclosing⟩
    cases hclosing with
    | quote hq => simp [dropClosing, hq]
    | bare h =>
      rw [List.append_nil, dropClosing]
      cases hlast : v.getLast? with
      | none => rfl
      | some c =>
        rw [hlast] at h
        dsimp only
        rw [if_neg]
        rw [h c rfl]
        exact Bool.false_ne_true

theorem dropQuotes_eq_iff {t v : Text} :
    dropQuotes t = v ↔ ∃ opening closing, t = opening ++ (v ++ closing) ∧
      QuoteEnd (v ++ closing).head? opening ∧ QuoteEnd v.getLast? closing := by
  rw [dropQuotes, dropClosing_eq_iff]
  constructor
  · rintro ⟨closing, hopened, hclosing⟩
    obtain ⟨opening, ht, hopening⟩ := dropOpening_eq_iff.1 hopened
    exact ⟨opening, closing, ht, hopening, hclosing⟩
  · rintro ⟨opening, closing, ht, hopening, hclosing⟩
    exact ⟨closing, dropOpening_eq_iff.2 ⟨opening, ht, hopening⟩, hclosing⟩

theorem not_isSpace_of_isNameChar {c : Char} (h : isNameChar c = true) : isSpace c = false := by
  have hrange : 48 ≤ c.toNat ∧ c.toNat ≤ 122 := by
    simp only [isNameChar, Char.isAlphanum, Char.isAlpha, Char.isUpper, Char.isLower, Char.isDigit,
      Bool.or_eq_true, Bool.and_eq_true, decide_eq_true_eq, UInt32.le_iff_toNat_le, ge_iff_le] at h
    have hval : c.toNat = c.val.toNat := rfl
    obtain ((⟨hlow, hhigh⟩ | ⟨hlow, hhigh⟩) | ⟨hlow, hhigh⟩) | rfl := h
    · exact ⟨by simp at hlow; omega, by simp at hhigh; omega⟩
    · exact ⟨by simp at hlow; omega, by simp at hhigh; omega⟩
    · exact ⟨by simp at hlow; omega, by simp at hhigh; omega⟩
    · decide
  simp only [isSpace, Bool.or_eq_false_iff, Bool.and_eq_false_iff, decide_eq_false_iff_not,
    beq_eq_false_iff_ne]
  omega

theorem not_isNameChar_of_isSpace {c : Char} (h : isSpace c = true) : isNameChar c = false := by
  by_contra hname
  rw [not_isSpace_of_isNameChar (by simpa using hname)] at h
  cases h

theorem Name.exists_cons {name : Text} (hname : Name name) :
    ∃ c rest, name = c :: rest ∧ isNameStart c = true ∧ isSpace c = false := by
  obtain ⟨c, rest, rfl⟩ := List.exists_cons_of_ne_nil hname.ne
  exact ⟨c, rest, rfl, hname.start c rfl,
    not_isSpace_of_isNameChar (hname.chars c List.mem_cons_self)⟩

theorem trim_dropWhile (s : Text) : trim (s.dropWhile isSpace) = trim s := by
  rw [trim, trim, List.dropWhile_idempotent]

/-- The name, an equals sign and the rest are found where they stand. -/
theorem assignment?_parts {before between name : Text} (hbefore : allSpace before)
    (hname : Name name) (hbetween : allSpace between) (rest : Text) :
    assignment? (before ++ (name ++ (between ++ '=' :: rest))) =
      if (rest.dropWhile isSpace).any isLineEnd then none
      else some (name, dropQuotes (trim rest)) := by
  have hspace : ¬ isSpace '=' = true := by decide
  have hstart : (before ++ (name ++ (between ++ '=' :: rest))).dropWhile isSpace =
      name ++ (between ++ '=' :: rest) := by
    obtain ⟨c, tail, rfl, -, hc⟩ := hname.exists_cons
    rw [List.dropWhile_append_of_pos hbefore]
    exact List.dropWhile_cons_of_neg (by simp [hc])
  -- what stands behind the name is white space or the equals sign, and in neither case of a name
  have hend : ∀ c ∈ (between ++ '=' :: rest).head?, ¬ isNameChar c = true := by
    intro c hc
    cases between with
    | nil =>
      cases hc
      decide
    | cons b between =>
      cases hc
      rw [not_isNameChar_of_isSpace (hbetween _ List.mem_cons_self)]
      exact Bool.false_ne_true
  have hnamed : (name ++ (between ++ '=' :: rest)).takeWhile isNameChar = name := by
    rw [List.takeWhile_append_of_pos hname.chars, List.takeWhile_eq_nil_iff.2, List.append_nil]
    intro hpos
    exact hend _ (List.head?_eq_getElem? ▸ List.getElem?_eq_getElem hpos)
  have hbehind : ((name ++ (between ++ '=' :: rest)).dropWhile isNameChar).dropWhile isSpace =
      '=' :: rest := by
    have hkept : (between ++ '=' :: rest).dropWhile isNameChar = between ++ '=' :: rest := by
      rw [List.dropWhile_eq_self_iff]
      intro hpos
      exact hend _ (List.head?_eq_getElem? ▸ List.getElem?_eq_getElem hpos)
    rw [List.dropWhile_append_of_pos hname.chars, hkept, List.dropWhile_append_of_pos hbetween,
      List.dropWhile_cons_of_neg hspace]
  simp only [assignment?, hstart, hnamed, hbehind, trim_dropWhile]
  obtain ⟨c, tail, rfl, hc, -⟩ := hname.exists_cons
  simp only [List.head?_cons, hc, Bool.true_and, Bool.not_eq_true']
  cases (rest.dropWhile isSpace).any isLineEnd <;> rfl

theorem assignment?_of_readAs {name v line : Text} (h : ReadAs name v line) :
    assignment? line = some (name, v) := by
  cases h with
  | @line before between after opening closing trailing hbefore hname hbetween hafter hopening
      hclosing htight htrailing hline =>
    have hread : trim (after ++ (opening ++ (v ++ closing) ++ trailing)) =
        opening ++ (v ++ closing) := by
      rw [trim_space_append _ hafter, trim_append_space _ htrailing, trim_of_tight htight]
    have hno : ¬ ((after ++ (opening ++ (v ++ closing) ++ trailing)).dropWhile isSpace).any
        isLineEnd = true := by
      rw [List.dropWhile_append_of_pos hafter]
      intro hany
      obtain ⟨c, hc, hend⟩ := List.any_eq_true.1 hany
      rw [hline c ((List.dropWhile_suffix _).subset hc)] at hend
      cases hend
    rw [assignment?_parts hbefore hname hbetween, if_neg hno, hread,
      dropQuotes_eq_iff.2 ⟨opening, closing, rfl, hopening, hclosing⟩]

theorem readAs_of_assignment? {name v line : Text} (h : assignment? line = some (name, v)) :
    ReadAs name v line := by
  unfold assignment? at h
  dsimp only at h
  split at h
  · rename_i c rest hc hrest
    split_ifs at h with htest
    obtain ⟨hstart, hends⟩ : isNameStart c = true ∧
        (rest.dropWhile isSpace).any isLineEnd = false := by simpa using htest
    rw [Option.some.injEq, Prod.mk.injEq] at h
    obtain ⟨rfl, hv⟩ := h
    obtain ⟨opening, closing, hcore, hopening, hclosing⟩ := dropQuotes_eq_iff.1 hv
    have htight := tight_trim (rest.dropWhile isSpace)
    have hvalue : rest.dropWhile isSpace =
        opening ++ (v ++ closing) ++ (rest.dropWhile isSpace).rtakeWhile isSpace := by
      rw [← hcore, trim_dropWhile, trim, List.rdropWhile_append_rtakeWhile]
    rw [hcore] at htight
    have hname : Name ((line.dropWhile isSpace).takeWhile isNameChar) := by
      refine ⟨fun d hd => ?_, ?_, fun d hd => List.mem_takeWhile_imp hd⟩
      · cases hc.symm.trans hd
        exact hstart
      · intro hnil
        rw [hnil] at hc
        cases hc
    have hreads := @ReadAs.line _ v (line.takeWhile isSpace)
      (((line.dropWhile isSpace).dropWhile isNameChar).takeWhile isSpace) (rest.takeWhile isSpace)
      opening closing ((rest.dropWhile isSpace).rtakeWhile isSpace)
      (fun d hd => List.mem_takeWhile_imp hd) hname (fun d hd => List.mem_takeWhile_imp hd)
      (fun d hd => List.mem_takeWhile_imp hd) hopening hclosing htight
      (fun d hd => List.mem_rtakeWhile_imp hd) (by
        rw [← hvalue]
        exact fun d hd => by simpa using List.any_eq_false.1 hends d hd)
    rw [← hvalue, List.takeWhile_append_dropWhile, ← hrest, List.takeWhile_append_dropWhile,
      List.takeWhile_append_dropWhile, List.takeWhile_append_dropWhile] at hreads
    exact hreads
  · cases h

/-- The line regex and the clean up behind it take a line for what its form says. -/
theorem assignment?_eq_some_iff {name v line : Text} :
    assignment? line = some (name, v) ↔ ReadAs name v line :=
  ⟨readAs_of_assignment?, assignment?_of_readAs⟩

theorem isQuote_not_isSpace {q : Char} (h : isQuote q = true) : isSpace q = false := by
  rw [isQuote, Bool.or_eq_true, decide_eq_true_eq, decide_eq_true_eq] at h
  obtain rfl | rfl := h <;> decide

/-- A plain line is taken for the value that it assigns. -/
theorem PlainLine.readAs {name value line : Text} (h : PlainLine name value line) :
    ReadAs name value line := by
  have hspace : allSpace [] := fun c hc => by cases hc
  cases h with
  | @line written hname hwritten hline hlast =>
    cases hwritten with
    | bare tight unquoted uncommented =>
      have hreads := @ReadAs.line name value [] [] [] [] [] [] hspace hname hspace hspace
        (.bare (by rwa [List.append_nil])) (.bare (hlast rfl)) (by simpa using tight) hspace
        (by simpa using hline)
      simpa using hreads
    | @quoted q hq free =>
      have htight : Tight ([q] ++ (value ++ [q])) := by
        constructor
        · rintro c ⟨⟩
          exact isQuote_not_isSpace hq
        · intro c hc
          rw [← List.append_assoc, List.getLast?_concat] at hc
          cases hc
          exact isQuote_not_isSpace hq
      have hreads := @ReadAs.line name value [] [] [] [q] [q] [] hspace hname hspace hspace
        (.quote hq) (.quote hq) htight hspace (by simpa using hline)
      simpa using hreads

section
variable {PATTERNS : List Pattern} {pkg : Package}

theorem mem_envSecrets_iff {s : Secret} :
    s ∈ envSecrets pkg.env ↔ ∃ env line, pkg.env = some env ∧ line ∈ splitLines env ∧
      ReadAs s.name s.value line ∧ sensitive s.value = true := by
  cases henv : pkg.env with
  | none => simp [envSecrets]
  | some env =>
    simp only [envSecrets, List.mem_filterMap, Option.bind_eq_some_iff, Option.some.injEq,
      exists_and_left, exists_eq_left', ← assignment?_eq_some_iff]
    constructor
    · rintro ⟨line, hline, m, hm, hs⟩
      split_ifs at hs with hsensitive
      obtain rfl := Option.some.inj hs
      exact ⟨line, hline, hm, hsensitive⟩
    · rintro ⟨line, hline, hm, hsensitive⟩
      exact ⟨line, hline, (s.name, s.value), hm, if_pos hsensitive⟩

theorem hits_ne_nil_iff : hits PATTERNS pkg ≠ [] ↔ Found PATTERNS pkg := by
  have hmem : hits PATTERNS pkg ≠ [] ↔ ∃ rel ∈ pkg.shipping, scanned rel = true ∧
      ∃ text, pkg.read rel = some text ∧ hitsIn PATTERNS pkg rel text ≠ [] := by
    simp only [hits, ne_eq, List.flatMap_eq_nil_iff, List.mem_filter, not_forall, and_imp,
      exists_prop]
    refine exists_congr fun rel => and_congr_right fun _ => and_congr_right fun _ => ?_
    cases pkg.read rel <;> simp
  rw [hmem]
  constructor
  · rintro ⟨rel, hships, hscanned, text, hread, hne⟩
    have hextension := scanned_iff.1 hscanned
    obtain ⟨hit, hhit⟩ := List.exists_mem_of_ne_nil _ hne
    rw [hitsIn, List.mem_append, List.mem_map, List.mem_map] at hhit
    obtain ⟨p, hp, -⟩ | ⟨s, hs, -⟩ := hhit
    · obtain ⟨hp, htest⟩ := List.mem_filter.1 hp
      exact .pattern hships hextension hread hp htest
    · obtain ⟨hs, hincludes⟩ := List.mem_filter.1 hs
      obtain ⟨env, line, henv, hline, hreads, hsensitive⟩ := mem_envSecrets_iff.1 hs
      exact .value hships hextension hread henv hline hreads hsensitive hincludes
  · intro hfound
    cases hfound with
    | @pattern rel text p hships hextension hread hp htest =>
      refine ⟨rel, hships, scanned_iff.2 hextension, text, hread, ?_⟩
      apply List.ne_nil_of_mem
      rw [hitsIn, List.mem_append, List.mem_map]
      exact Or.inl ⟨p, List.mem_filter.2 ⟨hp, htest⟩, rfl⟩
    | @value rel text env line name v hships hextension hread henv hline hreads hsensitive
        hincludes =>
      refine ⟨rel, hships, scanned_iff.2 hextension, text, hread, ?_⟩
      apply List.ne_nil_of_mem
      rw [hitsIn, List.mem_append, List.mem_map, List.mem_map]
      exact Or.inr ⟨⟨name, v⟩, List.mem_filter.2 ⟨mem_envSecrets_iff.2
        ⟨env, line, henv, hline, hreads, hsensitive⟩, hincludes⟩, rfl⟩

theorem exitCode_ne_zero_iff : exitCode PATTERNS pkg ≠ 0 ↔ hits PATTERNS pkg ≠ [] := by
  rw [exitCode]
  cases hits PATTERNS pkg <;> simp

theorem exitCode_eq_one_iff : exitCode PATTERNS pkg = 1 ↔ hits PATTERNS pkg ≠ [] := by
  rw [exitCode]
  cases hits PATTERNS pkg <;> simp

/-- A value on a plain line is found in a file with one of the extensions. -/
theorem found_of_plain {name value line rel text : Text}
    (hexposed : Exposed pkg name value line rel text) (hplain : PlainLine name value line)
    (hextension : HasExtension rel) : Found PATTERNS pkg := by
  obtain ⟨env, henv, hline, -⟩ := hexposed.assigned
  exact .value hexposed.ships hextension hexposed.holds.1 henv hline hplain.readAs
    hexposed.sensitive hexposed.holds.2

/-- The script is complete exactly if every value that ships stands on a plain line and in a file
with one of the extensions, or something else is found, as beside every file that cannot be
read. -/
theorem complete_iff : Complete PATTERNS pkg ↔ Covered PATTERNS pkg := by
  constructor
  · intro h
    constructor
    · intro name value line rel text hexposed
      exact Or.inr (hits_ne_nil_iff.1 (h.values _ _ _ _ _ hexposed).1)
    · intro rel hships hread
      exact hits_ne_nil_iff.1 (exitCode_ne_zero_iff.1 (h.unreadable rel hships hread))
  · intro h
    constructor
    · intro name value line rel text hexposed
      have hfound : Found PATTERNS pkg := by
        obtain ⟨hplain, hextension⟩ | hfound := h.values _ _ _ _ _ hexposed
        · exact found_of_plain hexposed hplain hextension
        · exact hfound
      have hne := hits_ne_nil_iff.2 hfound
      exact ⟨hne, exitCode_eq_one_iff.2 hne⟩
    · intro rel hships hread
      exact exitCode_ne_zero_iff.2 (hits_ne_nil_iff.2 (h.unreadable rel hships hread))

end

def exportedToken : Package where
  shipping := ["index.js".toList]
  read _ := some "const token = 0123456789abcdef".toList
  env := some "export API_TOKEN=0123456789abcdef".toList

/-- The value ships, and the script has nothing to say. -/
theorem exported_value_ships :
    Exposed exportedToken "API_TOKEN".toList "0123456789abcdef".toList
        "export API_TOKEN=0123456789abcdef".toList "index.js".toList
        "const token = 0123456789abcdef".toList ∧
      exitCode [] exportedToken = 0 ∧ ¬ Complete [] exportedToken := by
  have hwritten : Written "0123456789abcdef".toList "0123456789abcdef".toList := by
    refine Written.bare ⟨?_, ?_⟩ ?_ ?_
    · rintro c ⟨⟩
      decide
    · rintro c ⟨⟩
      decide
    · rintro c ⟨⟩
      decide
    · intro a b rest _ hvalue
      have hhash : '#' ∈ "0123456789abcdef".toList := by
        rw [hvalue]
        simp
      exact absurd hhash (by decide)
  have hname : Name "API_TOKEN".toList := by
    refine ⟨?_, by decide, List.all_iff_forall_prop.1 (by decide)⟩
    rintro c ⟨⟩
    decide
  have hassigns : Assigns "API_TOKEN".toList "0123456789abcdef".toList
      ("export".toList ++ [' '] ++ ("API_TOKEN".toList ++ '=' ::
        ("0123456789abcdef".toList ++ []))) :=
    Assigns.line (Exported.yes (by decide) (by simp [Blank])) hname hwritten Comment.no
  have hexposed : Exposed exportedToken "API_TOKEN".toList "0123456789abcdef".toList
      "export API_TOKEN=0123456789abcdef".toList "index.js".toList
      "const token = 0123456789abcdef".toList :=
    ⟨⟨_, rfl, by decide, hassigns⟩, by decide, by decide, rfl, by decide⟩
  have hexit : exitCode [] exportedToken = 0 := by decide
  refine ⟨hexposed, hexit, fun hcomplete => ?_⟩
  have hone := (hcomplete.values _ _ _ _ _ hexposed).2
  rw [hexit] at hone
  cases hone

end AgentValet.Scripts.NoSecrets
