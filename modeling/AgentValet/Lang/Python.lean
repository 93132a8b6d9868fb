import AgentValet.Lang.Json
import Mathlib.Data.List.DropRight

namespace AgentValet.Lang.Python

/-- What `json.loads` gives: a text that is no JSON, or that has an integer of more than 4300
digits, is a `ValueError`, and nesting too deep for the stack a `RecursionError`. -/
inductive Loaded where
  | value (v : Json)
  | valueError
  | recursionError

/-- The number a JSON number is read as: an integer literal exactly, any other as a double. -/
def number : JsonNumber → Double
  | .int n => .finite n
  | .frac q => .ofRat q

def truthy : Option Json → Bool
  | none => false
  | some .null => false
  | some (.bool b) => b
  | some (.num n) => number n != .finite 0
  | some (.str s) => s != ""
  | some (.arr items) => !items.isEmpty
  | some (.obj fields) => !fields.isEmpty

/-- The white space `int` drops around a string. -/
def isSpace (c : Char) : Bool :=
  (9 ≤ c.toNat && c.toNat ≤ 13) || c.toNat == 0x20 || c.toNat == 0x85 || c.toNat == 0xA0 ||
    c.toNat == 0x1680 || (0x2000 ≤ c.toNat && c.toNat ≤ 0x200A) || c.toNat == 0x2028 ||
    c.toNat == 0x2029 || c.toNat == 0x202F || c.toNat == 0x205F || c.toNat == 0x3000

/-- `str.strip`, which also drops the separators that `int` keeps. -/
def strip (s : List Char) : List Char :=
  let drops := fun c => isSpace c || (0x1C ≤ c.toNat && c.toNat ≤ 0x1F)
  (s.dropWhile drops).rdropWhile drops

/-- The zeros of the decimal digits of Unicode; nine more digits follow each. -/
def decimalZeros : List ℕ :=
  [0x30, 0x660, 0x6F0, 0x7C0, 0x966, 0x9E6, 0xA66, 0xAE6, 0xB66, 0xBE6, 0xC66, 0xCE6, 0xD66, 0xDE6,
    0xE50, 0xED0, 0xF20, 0x1040, 0x1090, 0x17E0, 0x1810, 0x1946, 0x19D0, 0x1A80, 0x1A90, 0x1B50,
    0x1BB0, 0x1C40, 0x1C50, 0xA620, 0xA8D0, 0xA900, 0xA9D0, 0xA9F0, 0xAA50, 0xABF0, 0xFF10,
    0x104A0, 0x10D30, 0x11066, 0x110F0, 0x11136, 0x111D0, 0x112F0, 0x11450, 0x114D0, 0x11650,
    0x116C0, 0x11730, 0x118E0, 0x11950, 0x11C50, 0x11D50, 0x11DA0, 0x11F50, 0x16A60, 0x16AC0,
    0x16B50, 0x1D7CE, 0x1D7D8, 0x1D7E2, 0x1D7EC, 0x1D7F6, 0x1E140, 0x1E2F0, 0x1E4F0, 0x1E950,
    0x1FBF0]

def digit? (c : Char) : Option ℕ :=
  (decimalZeros.find? fun z => z ≤ c.toNat && c.toNat < z + 10).map (c.toNat - ·)

/-- Digits, with single underscores between them. -/
def digits? : List Char → Option (List ℕ)
  | [] => none
  | [c] => (digit? c).map fun d => [d]
  | c :: '_' :: rest => (digit? c).bind fun d => (digits? rest).map (d :: ·)
  | c :: rest => (digit? c).bind fun d => (digits? rest).map (d :: ·)

/-- `int(s)` of a string; `none` is its `ValueError`, also for more than 4300 digits. -/
def intOfString (s : String) : Option ℤ :=
  let body := (s.toList.dropWhile isSpace).rdropWhile isSpace
  let (negative, unsigned) :=
    match body with
    | '-' :: rest => (true, rest)
    | '+' :: rest => (false, rest)
    | _ => (false, body)
  (digits? unsigned).bind fun digits =>
    if digits.length ≤ 4300 then
      let n : ℤ := digits.foldl (fun n d => 10 * n + (d : ℤ)) 0
      some (if negative then -n else n)
    else none

/-- `int(v)`; `none` is the exception it raises. -/
def int : Json → Option ℤ
  | .null => none
  | .bool b => some (if b then 1 else 0)
  | .num n =>
    match number n with
    | .finite q => some (q.num.tdiv q.den)
    | _ => none
  | .str s => intOfString s
  | .arr _ => none
  | .obj _ => none

end AgentValet.Lang.Python
