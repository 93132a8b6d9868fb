import AgentValet.Lang.Double

namespace AgentValet.Lang

/-- A number token: an integer literal, or one with a fraction or an exponent. -/
inductive JsonNumber where
  | int (n : ℤ)
  | frac (q : ℚ)
  deriving DecidableEq, Repr

def JsonNumber.value : JsonNumber → ℚ
  | .int n => n
  | .frac q => q

def JsonNumber.toDouble (n : JsonNumber) : Double := Double.ofRat n.value

theorem JsonNumber.toDouble_int {n : ℤ} (h : |n| < 2 ^ 53) :
    (JsonNumber.int n).toDouble = .finite n :=
  Double.ofRat_intCast h

inductive Json where
  | null
  | bool (b : Bool)
  | num (n : JsonNumber)
  | str (s : String)
  | arr (items : List Json)
  | obj (fields : List (String × Json))
  deriving Repr

namespace Json

/-- The value under `key`: of a repeated key the last binding counts, in both languages. -/
def lookup (fields : List (String × Json)) (key : String) : Option Json :=
  fields.reverse.lookup key

/-- Reading a property of any value; only an object has properties of its own. -/
def field? (key : String) : Json → Option Json
  | .obj fields => lookup fields key
  | _ => none

end Json

end AgentValet.Lang
