import AgentValet.Lang.Json

namespace AgentValet.Lang

/-- The two decimal numbers with so many significant digits between which `x` lies, the nearer one
first. -/
def decimalsNear (x : ℚ) (digits : ℕ) : List ℚ :=
  let unit : ℚ := 10 ^ (Int.log 10 |x| + 1 - digits)
  let nearest := roundHalfEven (x / unit)
  [nearest * unit, (2 * ⌊x / unit⌋ + 1 - nearest) * unit]

/-- The number that `String(x)` denotes: of those that are read as `x`, the one with the fewest
digits.  17 digits always tell a double. -/
def shortest (x : ℚ) : Option ℚ :=
  ((List.range 17).flatMap fun k => decimalsNear x (k + 1)).find? fun q =>
    Double.ofRat q = .finite x

theorem ofRat_of_shortest {x q : ℚ} (h : shortest x = some q) : Double.ofRat q = .finite x := by
  simpa using List.find?_some h

namespace JsonNumber

def ofRat (q : ℚ) : JsonNumber := if q.den = 1 then .int q.num else .frac q

@[simp] theorem value_ofRat (q : ℚ) : (ofRat q).value = q := by
  rw [ofRat]
  split_ifs with h
  · exact Rat.coe_int_num_of_den_eq_one h
  · rfl

/-- What is written of a number that was read; `none` for an infinity, which is written as null. -/
def rewritten (n : JsonNumber) : Option ℚ :=
  match n.toDouble with
  | .finite x => shortest x
  | _ => none

theorem rewritten_ofRat {n : JsonNumber} {q : ℚ} (h : n.rewritten = some q) :
    (ofRat q).rewritten = some q := by
  rw [rewritten] at h
  split at h
  · rename_i x hx
    rw [rewritten, toDouble, value_ofRat, ofRat_of_shortest h]
    exact h
  · cases h

end JsonNumber

namespace Json

abbrev Path := List (String ⊕ ℕ)

def part : Json → String ⊕ ℕ → Option Json
  | .obj fields, .inl key => lookup fields key
  | .arr items, .inr i => items[i]?
  | _, _ => none

def get? : Json → Path → Option Json
  | v, [] => some v
  | v, place :: path => (v.part place).bind fun w => w.get? path

/-- What a value is without what is in it; a number counts for its value. -/
inductive Head where
  | null
  | bool (b : Bool)
  | num (q : ℚ)
  | str (s : String)
  | arr
  | obj

def head : Json → Head
  | .null => .null
  | .bool b => .bool b
  | .num n => .num n.value
  | .str s => .str s
  | .arr _ => .arr
  | .obj _ => .obj

/-- The same JSON value, whatever the order of its keys and the form of its numbers. -/
def Same (v w : Json) : Prop := ∀ path, (v.get? path).map head = (w.get? path).map head

theorem Same.refl (v : Json) : Same v v := fun _ => rfl

theorem Same.trans {u v w : Json} (h : Same u v) (h' : Same v w) : Same u w :=
  fun path => (h path).trans (h' path)

theorem Same.symm {v w : Json} (h : Same v w) : Same w v := fun path => (h path).symm

/-- The same as an object is an object with the same under each key. -/
theorem Same.obj {fields : List (String × Json)} {w : Json} (h : Same (.obj fields) w) :
    ∃ fields', w = .obj fields' ∧
      ∀ key, Option.Rel Same (lookup fields key) (lookup fields' key) := by
  cases w with
  | obj fields' =>
    refine ⟨fields', rfl, fun key => ?_⟩
    have hpath : ∀ path, ((lookup fields key).bind fun v => v.get? path).map head =
        ((lookup fields' key).bind fun v => v.get? path).map head :=
      fun path => h (.inl key :: path)
    cases hv : lookup fields key with
    | none =>
      cases hw : lookup fields' key with
      | none => exact .none
      | some w =>
        have hhead := hpath []
        rw [hv, hw] at hhead
        cases hhead
    | some v =>
      cases hw : lookup fields' key with
      | none =>
        have hhead := hpath []
        rw [hv, hw] at hhead
        cases hhead
      | some w =>
        refine .some fun path => ?_
        have hhead := hpath path
        rwa [hv, hw] at hhead
  | _ => cases h []

theorem rel_same_refl (o : Option Json) : Option.Rel Same o o := by
  cases o with
  | none => exact .none
  | some v => exact .some (Same.refl v)

theorem rel_same_trans {o p q : Option Json} (h : Option.Rel Same o p)
    (h' : Option.Rel Same p q) : Option.Rel Same o q := by
  cases h with
  | none =>
    cases h'
    exact .none
  | some h =>
    obtain h' | h' := h'
    exact .some (h.trans h')

theorem rel_same_symm {o p : Option Json} (h : Option.Rel Same o p) : Option.Rel Same p o := by
  cases h with
  | none => exact .none
  | some h => exact .some h.symm

mutual
/-- What `JSON.stringify` writes of what `JSON.parse` has read: every number goes through a
double. -/
def rewritten : Json → Json
  | .null => .null
  | .bool b => .bool b
  | .num n => (n.rewritten.map fun q => num (.ofRat q)).getD null
  | .str s => .str s
  | .arr items => .arr (rewrittenItems items)
  | .obj fields => .obj (rewrittenFields fields)

def rewrittenItems : List Json → List Json
  | [] => []
  | v :: rest => v.rewritten :: rewrittenItems rest

def rewrittenFields : List (String × Json) → List (String × Json)
  | [] => []
  | (key, v) :: rest => (key, v.rewritten) :: rewrittenFields rest
end

theorem rewrittenItems_eq (items : List Json) : rewrittenItems items = items.map rewritten := by
  induction items with
  | nil => rfl
  | cons v rest ih => rw [rewrittenItems, ih, List.map_cons]

theorem rewrittenFields_eq (fields : List (String × Json)) :
    rewrittenFields fields = fields.map fun p => (p.1, p.2.rewritten) := by
  induction fields with
  | nil => rfl
  | cons p rest ih =>
    obtain ⟨key, v⟩ := p
    rw [rewrittenFields, ih, List.map_cons]

theorem lookup_map {fields : List (String × Json)} (f : Json → Json) (key : String) :
    lookup (fields.map fun p => (p.1, f p.2)) key = (lookup fields key).map f := by
  rw [lookup, lookup, ← List.map_reverse]
  induction fields.reverse with
  | nil => rfl
  | cons p rest ih =>
    obtain ⟨other, v⟩ := p
    rw [List.map_cons, List.lookup_cons, List.lookup_cons]
    cases key == other with
    | true => rfl
    | false => exact ih

@[simp] theorem lookup_rewrittenFields (fields : List (String × Json)) (key : String) :
    lookup (rewrittenFields fields) key = (lookup fields key).map rewritten := by
  rw [rewrittenFields_eq, lookup_map]

@[simp] theorem field?_rewritten (v : Json) (key : String) :
    v.rewritten.field? key = (v.field? key).map rewritten := by
  cases v with
  | obj fields => exact lookup_rewrittenFields fields key
  | num n =>
    rw [rewritten]
    cases n.rewritten <;> rfl
  | _ => rfl

theorem part_rewritten (v : Json) (place : String ⊕ ℕ) :
    v.rewritten.part place = (v.part place).map rewritten := by
  cases v with
  | obj fields =>
    cases place with
    | inl key => exact lookup_rewrittenFields fields key
    | inr i => rfl
  | arr items =>
    cases place with
    | inl key => rfl
    | inr i =>
      rw [rewritten, part, part, rewrittenItems_eq]
      exact List.getElem?_map
  | num n =>
    rw [rewritten]
    cases n.rewritten <;> rfl
  | _ => rfl

theorem get?_rewritten (v : Json) (path : Path) :
    v.rewritten.get? path = (v.get? path).map rewritten := by
  induction path generalizing v with
  | nil => rfl
  | cons place path ih =>
    rw [get?, get?, part_rewritten]
    cases v.part place with
    | none => rfl
    | some w => exact ih w

/-- Every number in the value is written as it was read. -/
def NumbersKept (v : Json) : Prop :=
  ∀ path n, v.get? path = some (.num n) → n.rewritten = some n.value

theorem same_rewritten_iff (v : Json) : Same v v.rewritten ↔ NumbersKept v := by
  constructor
  · intro h path n hn
    have hhead := h path
    rw [get?_rewritten, hn, Option.map_some, Option.map_some, Option.map_some, rewritten] at hhead
    cases hq : n.rewritten with
    | none =>
      rw [hq] at hhead
      cases hhead
    | some q =>
      rw [hq, Option.map_some, Option.getD_some, head, head, JsonNumber.value_ofRat] at hhead
      cases hhead
      rfl
  · intro h path
    rw [get?_rewritten]
    cases hv : v.get? path with
    | none => rfl
    | some w =>
      cases w with
      | num n =>
        rw [Option.map_some, Option.map_some, Option.map_some, rewritten, h path n hv,
          Option.map_some, Option.getD_some, head, head, JsonNumber.value_ofRat]
      | _ => rfl

theorem rel_same_rewritten_iff (o : Option Json) :
    Option.Rel Same (o.map rewritten) o ↔ ∀ v, o = some v → NumbersKept v := by
  cases o with
  | none => exact iff_of_true .none fun v h => by cases h
  | some v =>
    constructor
    · rintro (h | h) w hw
      cases hw
      exact (same_rewritten_iff v).1 fun path => (h path).symm
    · intro h
      exact .some fun path => ((same_rewritten_iff v).2 (h v rfl) path).symm

mutual
/-- What has been written once is written in the same way again. -/
theorem rewritten_rewritten (v : Json) : v.rewritten.rewritten = v.rewritten := by
  cases v with
  | num n =>
    cases hq : n.rewritten with
    | none =>
      have hnull : (num n).rewritten = null := by rw [rewritten, hq]; rfl
      rw [hnull]
      rfl
    | some q =>
      have hnum : (num n).rewritten = num (.ofRat q) := by rw [rewritten, hq]; rfl
      rw [hnum, rewritten, JsonNumber.rewritten_ofRat hq]
      rfl
  | arr items => rw [rewritten, rewritten, rewrittenItems_rewrittenItems items]
  | obj fields => rw [rewritten, rewritten, rewrittenFields_rewrittenFields fields]
  | _ => rfl

theorem rewrittenItems_rewrittenItems (items : List Json) :
    rewrittenItems (rewrittenItems items) = rewrittenItems items := by
  cases items with
  | nil => rfl
  | cons v rest =>
    rw [rewrittenItems, rewrittenItems, rewritten_rewritten v, rewrittenItems_rewrittenItems rest]

theorem rewrittenFields_rewrittenFields (fields : List (String × Json)) :
    rewrittenFields (rewrittenFields fields) = rewrittenFields fields := by
  cases fields with
  | nil => rfl
  | cons p rest =>
    rw [rewrittenFields, rewrittenFields, rewritten_rewritten p.2,
      rewrittenFields_rewrittenFields rest]
end

end Json

end AgentValet.Lang
