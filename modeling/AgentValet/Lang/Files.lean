import Mathlib.Tactic.Common

namespace AgentValet.Lang

abbrev Files := String → Option String

namespace Files
variable (files : Files)

def write (path text : String) : Files := fun p => if p = path then some text else files p

@[simp] theorem write_self (path text : String) : files.write path text path = some text :=
  if_pos rfl

theorem write_of_ne {path other : String} (h : other ≠ path) (text : String) :
    files.write path text other = files other :=
  if_neg h

def remove (path : String) : Files := fun p =>
  if p = path ∨ (path ++ "/").toList <+: p.toList then none else files p

/-- A file that is there gets the text that its own gives, unless it gives none. -/
def rewrite (path : String) (f : String → Option String) : Files := fun p =>
  if p = path then (files p).map fun text => (f text).getD text else files p

theorem remove_under (dir rest : String) : files.remove dir (dir ++ "/" ++ rest) = none := by
  apply if_pos
  right
  have happend : (dir ++ "/" ++ rest).toList = (dir ++ "/").toList ++ rest.toList :=
    String.toList_append
  rw [happend]
  exact List.prefix_append _ _

theorem remove_eq_none {p : String} (h : files p = none) (path : String) :
    files.remove path p = none := by
  unfold remove
  rw [h, ite_self]

theorem rewrite_eq_none {p : String} (h : files p = none) (path : String)
    (f : String → Option String) : files.rewrite path f p = none := by
  unfold rewrite
  rw [h, Option.map_none, ite_self]

end Files
end AgentValet.Lang
