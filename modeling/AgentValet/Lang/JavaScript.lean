import AgentValet.Lang.Json
import Mathlib.Data.List.DropRight

namespace AgentValet.Lang

/-- What is thrown: an `Error` with its message, another value with the text `String` gives it, or
one that has no text, with what `String` throws on it. -/
inductive Thrown where
  | error (message : String)
  | other (text : String)
  | textless (raised : Thrown)
  deriving DecidableEq, Repr

namespace Thrown

/-- `err instanceof Error ? err.message : String(err)` -/
def text : Thrown → Except Thrown String
  | error message => .ok message
  | other text => .ok text
  | textless raised => .error raised

/-- `String` throws on the value. -/
def Textless (err : Thrown) : Prop := ∃ raised, err.text = .error raised

theorem not_textless_iff {err : Thrown} : ¬ err.Textless ↔ ∃ text, err.text = .ok text := by
  cases err <;> simp [Textless, text]

end Thrown

/-- A value as `JSON.stringify` takes it: it may throw, as on a cycle, a `BigInt` or a `toJSON`
that throws. -/
abbrev Serialized := Except Thrown Json

namespace JavaScript

/-- `\s` of a regular expression, which is also what `trim` removes. -/
def isSpace (c : Char) : Bool :=
  (9 ≤ c.toNat && c.toNat ≤ 13) || c.toNat == 0x20 || c.toNat == 0xA0 || c.toNat == 0x1680 ||
    (0x2000 ≤ c.toNat && c.toNat ≤ 0x200A) || c.toNat == 0x2028 || c.toNat == 0x2029 ||
    c.toNat == 0x202F || c.toNat == 0x205F || c.toNat == 0x3000 || c.toNat == 0xFEFF

def trim (s : List Char) : List Char := (s.dropWhile isSpace).rdropWhile isSpace

def truthy : Option Json → Bool
  | none => false
  | some .null => false
  | some (.bool b) => b
  | some (.num n) => n.toDouble != .finite 0
  | some (.str s) => s != ""
  | some (.arr _) => true
  | some (.obj _) => true

mutual

/-- `String(v)` returns.  Only an object with a property `toString` of its own stops it, since no
JSON value is callable; an array converts its items, an object not its fields. -/
def stringable : Json → Bool
  | .obj fields => (Json.lookup fields "toString").isNone
  | .arr items => stringableItems items
  | .null => true
  | .bool _ => true
  | .num _ => true
  | .str _ => true

def stringableItems : List Json → Bool
  | [] => true
  | v :: rest => stringable v && stringableItems rest

end

def digit? (c : Char) : Option ℕ :=
  if '0' ≤ c && c ≤ '9' then some (c.toNat - 48)
  else if 'a' ≤ c && c ≤ 'z' then some (c.toNat - 87)
  else if 'A' ≤ c && c ≤ 'Z' then some (c.toNat - 55)
  else none

/-- The value of digits in a base; no digits count as zero. -/
def digits? (base : ℕ) (s : List Char) : Option ℕ :=
  s.foldlM (fun n c => (digit? c).bind fun d => if d < base then some (base * n + d) else none) 0

def nonEmptyDigits? (base : ℕ) (s : List Char) : Option ℕ :=
  if s.isEmpty then none else digits? base s

/-- What stands before the first character `p` picks, and behind it. -/
def splitAt (p : Char → Bool) (s : List Char) : List Char × Option (List Char) :=
  match s.dropWhile (fun c => !p c) with
  | [] => (s, none)
  | _ :: rest => (s.takeWhile (fun c => !p c), some rest)

def sign : List Char → Bool × List Char
  | '-' :: rest => (true, rest)
  | '+' :: rest => (false, rest)
  | s => (false, s)

def exponent? (s : List Char) : Option ℤ :=
  let (negative, digits) := sign s
  (nonEmptyDigits? 10 digits).map fun (n : ℕ) => if negative then -(n : ℤ) else n

/-- `StrUnsignedDecimalLiteral`, but for `Infinity`. -/
def unsignedDecimal? (s : List Char) : Option ℚ :=
  let (mantissa, exponent) := splitAt (fun c => c == 'e' || c == 'E') s
  let (whole, fraction) := splitAt (· == '.') mantissa
  let digits := whole ++ fraction.getD []
  match nonEmptyDigits? 10 digits, (exponent.map exponent?).getD (some 0) with
  | some n, some e => some (n * 10 ^ (e - (fraction.getD []).length))
  | _, _ => none

def decimalNumber (s : List Char) : Double :=
  let (negative, unsigned) := sign s
  if unsigned == "Infinity".toList then .inf negative
  else
    match unsignedDecimal? unsigned with
    | some q => .ofRat (if negative then -q else q)
    | none => .nan

def radixNumber (base : ℕ) (s : List Char) : Double :=
  match nonEmptyDigits? base s with
  | some n => .ofRat n
  | none => .nan

def stringToNumber (s : String) : Double :=
  match trim s.toList with
  | [] => .finite 0
  | '0' :: c :: rest =>
    if c == 'x' || c == 'X' then radixNumber 16 rest
    else if c == 'o' || c == 'O' then radixNumber 8 rest
    else if c == 'b' || c == 'B' then radixNumber 2 rest
    else decimalNumber ('0' :: c :: rest)
  | s => decimalNumber s

mutual

/-- `Number(String(v))`, for an item of an array: a number survives the way through its text, and a
text with a comma or a bracket in it is no number. -/
def itemToNumber : Json → Double
  | .null => .finite 0
  | .bool _ => .nan
  | .num n => n.toDouble
  | .str s => stringToNumber s
  | .arr items => itemsToNumber items
  | .obj _ => .nan

def itemsToNumber : List Json → Double
  | [] => .finite 0
  | [v] => itemToNumber v
  | _ :: _ :: _ => .nan

end

/-- `Number(v)`; `none` is the `TypeError` of a value that converts to no primitive. -/
def toNumber : Option Json → Option Double
  | none => some .nan
  | some .null => some (.finite 0)
  | some (.bool b) => some (.finite (if b then 1 else 0))
  | some (.num n) => some n.toDouble
  | some (.str s) => some (stringToNumber s)
  | some (.arr items) => if stringableItems items then some (itemsToNumber items) else none
  | some (.obj fields) => if stringable (.obj fields) then some .nan else none

end JavaScript
end AgentValet.Lang
