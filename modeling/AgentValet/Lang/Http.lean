import AgentValet.Lang.JavaScript

namespace AgentValet.Lang

/-- The body is kept as the value it is written from. -/
structure Request where
  method : String
  url : String
  headers : List (String × String)
  body : Option Json

/-- A reply, whose body may fail to arrive. -/
structure Reply where
  status : ℕ
  text : Except String String

def Reply.ok (r : Reply) : Bool := 200 ≤ r.status && r.status ≤ 299

theorem Reply.ok_iff {r : Reply} : r.ok = true ↔ 200 ≤ r.status ∧ r.status < 300 := by
  simp only [Reply.ok, Bool.and_eq_true, decide_eq_true_eq]
  omega

namespace JavaScript

/-- The properties that can be read on a value; on null there are none. -/
def properties : Json → Option (List (String × Json))
  | .null => none
  | .obj fields => some fields
  | _ => some []

/-- A text that may be an object or an array, without the white space around it. -/
def structured? (text : String) : Option String :=
  let trimmed := trim text.toList
  if trimmed.head? = some '\x7b' || trimmed.head? = some '[' then some (String.ofList trimmed)
  else none

end JavaScript

end AgentValet.Lang
