import AgentValet.Base.Keyed
import AgentValet.Base.PrefixCode
import AgentValet.Lang.Double
import AgentValet.Lang.JsonText
import Mathlib.Data.Nat.Digits.Defs
import Mathlib.Data.Rat.Encodable

namespace AgentValet.Broker
open Lang Lang.JavaScript Base

/-- Values of any type.  An object has an identity, by which a circular one is found. -/
inductive Value where
  | null
  | undefined
  | function
  | symbol
  | bool (b : Bool)
  | num (d : Double)
  | bigint (n : ℤ)
  | str (s : JsString)
  | arr (items : List Value)
  | obj (ref : ℕ) (fields : List (JsString × Value))

@[elab_as_elim, induction_eliminator]
theorem Value.induction {motive : Value → Prop} (null : motive .null)
    (undefined : motive .undefined) (function : motive .function) (symbol : motive .symbol)
    (bool : ∀ b, motive (.bool b)) (num : ∀ d, motive (.num d)) (bigint : ∀ n, motive (.bigint n))
    (str : ∀ s, motive (.str s)) (arr : ∀ items, (∀ v ∈ items, motive v) → motive (.arr items))
    (obj : ∀ ref fields, (∀ p ∈ fields, motive p.2) → motive (.obj ref fields)) (v : Value) :
    motive v := by
  apply Value.rec (motive_1 := motive) (motive_2 := fun items => ∀ v ∈ items, motive v)
    (motive_3 := fun fields => ∀ p ∈ fields, motive p.2) (motive_4 := fun p => motive p.2)
    null undefined function symbol bool num bigint str arr obj
  · intro v hv
    cases hv
  · intro v items hv hitems
    exact List.forall_mem_cons.2 ⟨hv, hitems⟩
  · intro p hp
    cases hp
  · intro p fields hp hfields
    exact List.forall_mem_cons.2 ⟨hp, hfields⟩
  · intro key v hv
    exact hv

def fieldText (p : JsString × JsString) : JsString := stringify p.1 ++ unit ':' :: p.2

section
variable (stringifyNumber : ℚ → JsString)

mutual

/-- `seen` holds the objects around the value: each is taken out again when its text is done. -/
def canonicalize (seen : List ℕ) : Value → JsString
  | .null => ascii "null"
  | .num (.finite q) => stringifyNumber q
  | .num _ => ascii "\"__nonfinite__\""
  | .bool b => if b then ascii "true" else ascii "false"
  | .str s => stringify s
  | .bigint n => stringify (ascii (toString n ++ "n"))
  | .undefined => ascii "\"__unserializable__\""
  | .function => ascii "\"__unserializable__\""
  | .symbol => ascii "\"__unserializable__\""
  | .arr items =>
    unit '[' :: PrefixCode.joined (unit ',') (canonicalizeItems seen items) ++ [unit ']']
  | .obj ref fields =>
    if ref ∈ seen then ascii "\"__circular__\""
    else
      unit '\x7b' :: PrefixCode.joined (unit ',')
        (((canonicalizeFields (ref :: seen) fields).insertionSort fun p q => p.1 ≤ q.1).map
          fieldText) ++ [unit '\x7d']

def canonicalizeItems (seen : List ℕ) : List Value → List JsString
  | [] => []
  | v :: rest => canonicalize seen v :: canonicalizeItems seen rest

def canonicalizeFields (seen : List ℕ) :
    List (JsString × Value) → List (JsString × JsString)
  | [] => []
  | (key, v) :: rest => (key, canonicalize seen v) :: canonicalizeFields seen rest

end

end

def IsDouble (q : ℚ) : Prop := Double.ofRat q = .finite q

mutual

/-- A finite JSON tree: `above` holds the objects around it, none of which it contains. -/
def IsJson (above : List ℕ) : Value → Prop
  | .null => True
  | .bool _ => True
  | .num (.finite q) => IsDouble q
  | .str _ => True
  | .arr items => ItemsAreJson above items
  | .obj ref fields =>
    ref ∉ above ∧ (fields.map Prod.fst).Nodup ∧ FieldsAreJson (ref :: above) fields
  | _ => False

def ItemsAreJson (above : List ℕ) : List Value → Prop
  | [] => True
  | v :: rest => IsJson above v ∧ ItemsAreJson above rest

def FieldsAreJson (above : List ℕ) : List (JsString × Value) → Prop
  | [] => True
  | (_, v) :: rest => IsJson above v ∧ FieldsAreJson above rest

end

mutual

/-- JSON values that are equal up to the order of object keys, at every depth. -/
def SameUpToKeyOrder : Value → Value → Prop
  | .null, .null => True
  | .bool b, .bool c => b = c
  | .num d, .num d' => d = d'
  | .str s, .str t => s = t
  | .arr xs, .arr ys => SameItems xs ys
  | .obj _ xs, .obj _ ys => ∃ zs : List (JsString × Value), zs.Perm ys ∧ SameFields xs zs
  | _, _ => False

def SameItems : List Value → List Value → Prop
  | [], [] => True
  | v :: xs, w :: ys => SameUpToKeyOrder v w ∧ SameItems xs ys
  | _, _ => False

def SameFields : List (JsString × Value) → List (JsString × Value) → Prop
  | [], [] => True
  | (key, v) :: xs, (key', w) :: ys => (key = key' ∧ SameUpToKeyOrder v w) ∧ SameFields xs ys
  | _, _ => False

end

def numberUnits : JsString := ascii "+-.0123456789Ee"

/-- Numbers are rendered as JSON number tokens, each number as its own. -/
structure NumberTokens (stringifyNumber : ℚ → JsString) : Prop where
  ne_nil : ∀ q, IsDouble q → stringifyNumber q ≠ []
  units : ∀ q, IsDouble q → ∀ u ∈ stringifyNumber q, u ∈ numberUnits
  injective : ∀ p q, IsDouble p → IsDouble q → stringifyNumber p = stringifyNumber q → p = q

variable {stringifyNumber : ℚ → JsString} {seen above : List ℕ}

theorem canonicalizeItems_eq_map (items : List Value) :
    canonicalizeItems stringifyNumber seen items =
      items.map (canonicalize stringifyNumber seen) := by
  induction items with
  | nil => rfl
  | cons v rest ih => rw [canonicalizeItems, ih, List.map_cons]

def renderField (stringifyNumber : ℚ → JsString) (seen : List ℕ) (p : JsString × Value) :
    JsString × JsString :=
  (p.1, canonicalize stringifyNumber seen p.2)

theorem canonicalizeFields_eq_map (fields : List (JsString × Value)) :
    canonicalizeFields stringifyNumber seen fields =
      fields.map (renderField stringifyNumber seen) := by
  induction fields with
  | nil => rfl
  | cons p rest ih => rw [canonicalizeFields, ih, List.map_cons, renderField]

theorem itemsAreJson_iff {items : List Value} :
    ItemsAreJson above items ↔ ∀ v ∈ items, IsJson above v := by
  induction items with
  | nil => simp [ItemsAreJson]
  | cons v rest ih => rw [ItemsAreJson, ih, List.forall_mem_cons]

theorem fieldsAreJson_iff {fields : List (JsString × Value)} :
    FieldsAreJson above fields ↔ ∀ p ∈ fields, IsJson above p.2 := by
  induction fields with
  | nil => simp [FieldsAreJson]
  | cons p rest ih => rw [FieldsAreJson, ih, List.forall_mem_cons]

theorem sameItems_iff {xs ys : List Value} :
    SameItems xs ys ↔ List.Forall₂ SameUpToKeyOrder xs ys := by
  induction xs generalizing ys with
  | nil => cases ys <;> simp [SameItems]
  | cons v xs ih => cases ys <;> simp [SameItems, ih]

def SameField (p q : JsString × Value) : Prop := p.1 = q.1 ∧ SameUpToKeyOrder p.2 q.2

theorem sameFields_iff {xs ys : List (JsString × Value)} :
    SameFields xs ys ↔ List.Forall₂ SameField xs ys := by
  induction xs generalizing ys with
  | nil => cases ys <;> simp [SameFields]
  | cons p xs ih => cases ys <;> simp [SameFields, SameField, ih]

/-- The fields of an object in the order of its text. -/
def sortedFields (fields : List (JsString × Value)) : List (JsString × Value) :=
  fields.insertionSort fun p q => p.1 ≤ q.1

theorem sortedFields_perm (fields : List (JsString × Value)) :
    (sortedFields fields).Perm fields :=
  List.perm_insertionSort _ fields

/-- The text of an object that is not circular. -/
theorem canonicalize_obj {ref : ℕ} (fields : List (JsString × Value)) (h : ref ∉ seen) :
    canonicalize stringifyNumber seen (.obj ref fields) =
      unit '\x7b' :: PrefixCode.joined (unit ',') ((sortedFields fields).map fun p =>
        fieldText (renderField stringifyNumber (ref :: seen) p)) ++ [unit '\x7d'] := by
  have hsort : (canonicalizeFields stringifyNumber (ref :: seen) fields).insertionSort
      (fun p q => p.1 ≤ q.1) =
        (sortedFields fields).map (renderField stringifyNumber (ref :: seen)) := by
    rw [canonicalizeFields_eq_map, sortedFields]
    exact (List.map_insertionSort (fun p q : JsString × Value => p.1 ≤ q.1)
      (fun p q : JsString × JsString => p.1 ≤ q.1) _ fields fun _ _ _ _ => Iff.rfl).symm
  rw [canonicalize, if_neg h, hsort, List.map_map]
  rfl

inductive Kind where
  | null
  | bool (b : Bool)
  | number
  | string
  | array
  | object
  deriving DecidableEq

def kindOf (u : CodeUnit) : Option Kind :=
  if u = unit 'n' then some .null
  else if u = unit 't' then some (.bool true)
  else if u = unit 'f' then some (.bool false)
  else if u = unit '"' then some .string
  else if u = unit '[' then some .array
  else if u = unit '\x7b' then some .object
  else if u ∈ numberUnits then some .number
  else none

def kind : Value → Option Kind
  | .null => some .null
  | .bool b => some (.bool b)
  | .num _ => some .number
  | .str _ => some .string
  | .arr _ => some .array
  | .obj _ _ => some .object
  | _ => none

theorem kindOf_numberUnit : ∀ u ∈ numberUnits, kindOf u = some .number := by
  have hall : numberUnits.all (fun u => kindOf u == some .number) = true := by decide
  intro u hu
  exact eq_of_beq (List.all_eq_true.1 hall u hu)

theorem canonicalize_head (hnum : NumberTokens stringifyNumber) {v : Value}
    (hv : IsJson seen v) :
    ∃ u t, canonicalize stringifyNumber seen v = u :: t ∧ kindOf u = kind v ∧ kind v ≠ none := by
  cases v with
  | null => exact ⟨_, _, rfl, by decide, by decide⟩
  | bool b => cases b <;> exact ⟨_, _, rfl, by decide, by decide⟩
  | num d =>
    cases d with
    | finite q =>
      rw [IsJson] at hv
      obtain ⟨u, t, htoken⟩ := List.exists_cons_of_ne_nil (hnum.ne_nil q hv)
      have hu : u ∈ numberUnits := by
        apply hnum.units q hv u
        rw [htoken]
        exact List.mem_cons_self
      exact ⟨u, t, by rw [canonicalize, htoken], kindOf_numberUnit u hu, Option.some_ne_none _⟩
    | inf negative => exact hv.elim
    | nan => exact hv.elim
  | str s =>
    have hkind : kindOf (unit '"') = some .string := by decide
    exact ⟨_, _, rfl, hkind, Option.some_ne_none _⟩
  | arr items =>
    have hkind : kindOf (unit '[') = some .array := by decide
    exact ⟨_, _, rfl, hkind, Option.some_ne_none _⟩
  | obj ref fields =>
    rw [IsJson] at hv
    have hkind : kindOf (unit '\x7b') = some .object := by decide
    exact ⟨_, _, canonicalize_obj fields hv.1, hkind, Option.some_ne_none _⟩
  | _ => exact hv.elim

/-- No value starts with a closing bracket. -/
theorem canonicalize_append_ne (hnum : NumberTokens stringifyNumber) {v : Value}
    (hv : IsJson seen v) {u : CodeUnit} (hu : kindOf u = none) (t r : JsString) :
    canonicalize stringifyNumber seen v ++ r ≠ u :: t := by
  obtain ⟨w, x, htext, hkind, hne⟩ := canonicalize_head hnum hv
  intro h
  rw [htext] at h
  obtain ⟨rfl, -⟩ := List.cons.inj h
  exact hne (hkind.symm.trans hu)

/-- After a value comes no character of a number. -/
def Ends (r : JsString) : Prop := ∀ u ∈ r.head?, u ∉ numberUnits

theorem ends_cons {u : CodeUnit} (hu : u ∉ numberUnits) (t : JsString) : Ends (u :: t) := by
  intro v hv
  rw [List.head?_cons, Option.mem_some_iff] at hv
  rwa [← hv]

/-- Texts that are equal with some rest are of values of one kind. -/
theorem kind_eq_of_append_eq (hnum : NumberTokens stringifyNumber) {a b : Value}
    (ha : IsJson seen a) (hb : IsJson above b) {r r' : JsString}
    (h : canonicalize stringifyNumber seen a ++ r = canonicalize stringifyNumber above b ++ r') :
    kind a = kind b := by
  obtain ⟨u, t, htext, hkind, -⟩ := canonicalize_head hnum ha
  obtain ⟨u', t', htext', hkind', -⟩ := canonicalize_head hnum hb
  rw [htext, htext'] at h
  obtain ⟨rfl, -⟩ := List.cons.inj h
  exact hkind.symm.trans hkind'

theorem field_reads {p q : JsString × Value}
    (h : PrefixCode.Reads Ends SameUpToKeyOrder (canonicalize stringifyNumber seen)
      (canonicalize stringifyNumber above) p.2 q.2) :
    PrefixCode.Reads Ends SameField (fun p => fieldText (renderField stringifyNumber seen p))
      (fun q => fieldText (renderField stringifyNumber above q)) p q := by
  intro r r' hr hr' heq
  simp only [fieldText, renderField, List.append_assoc, List.cons_append] at heq
  obtain ⟨hkey, hrest⟩ := stringify_append_inj heq
  obtain ⟨hvalue, htail⟩ := h hr hr' (List.cons.inj hrest).2
  exact ⟨⟨hkey, hvalue⟩, htail⟩

theorem canonicalize_reads (hnum : NumberTokens stringifyNumber) (a : Value) {b : Value}
    (ha : IsJson seen a) (hb : IsJson above b) :
    PrefixCode.Reads Ends SameUpToKeyOrder (canonicalize stringifyNumber seen)
      (canonicalize stringifyNumber above) a b := by
  intro r r' hr hr' h
  have hkind : kind a = kind b := kind_eq_of_append_eq hnum ha hb h
  have hcomma : ∀ t, Ends (unit ',' :: t) := ends_cons (by decide)
  induction a generalizing b seen above r r' with
  | null =>
    cases b <;> cases hkind
    exact ⟨trivial, List.append_cancel_left h⟩
  | bool x =>
    cases b <;> cases hkind
    exact ⟨rfl, List.append_cancel_left h⟩
  | num d =>
    cases b <;> cases hkind
    rename_i d'
    cases d <;> cases d' <;> try first | exact ha.elim | exact hb.elim
    rename_i p q
    rw [IsJson] at ha hb
    obtain ⟨htoken, hrest⟩ := PrefixCode.append_inj_of_tokens (hnum.units p ha) (hnum.units q hb)
      hr hr' h
    exact ⟨congrArg Double.finite (hnum.injective p q ha hb htoken), hrest⟩
  | str s =>
    cases b <;> cases hkind
    exact stringify_append_inj h
  | arr xs ih =>
    cases b <;> cases hkind
    rename_i ys
    rw [IsJson, itemsAreJson_iff] at ha hb
    simp only [canonicalize, canonicalizeItems_eq_map, List.cons_append, List.append_assoc,
      List.nil_append, List.cons.injEq, true_and] at h
    obtain ⟨hsame, hrest⟩ := PrefixCode.joined_reads (by decide) hcomma (ends_cons (by decide))
      (fun x hx y hy t t' ht ht' heq => ih x hx (ha x hx) (hb y hy) ht ht' heq
        (kind_eq_of_append_eq hnum (ha x hx) (hb y hy) heq))
      (fun x hx t s => canonicalize_append_ne hnum (ha x hx) (by decide) t s)
      (fun y hy t s => canonicalize_append_ne hnum (hb y hy) (by decide) t s) h
    rw [SameUpToKeyOrder, sameItems_iff]
    exact ⟨hsame, hrest⟩
  | obj ref xs ih =>
    cases b <;> cases hkind
    rename_i ref' ys
    rw [IsJson, fieldsAreJson_iff] at ha hb
    obtain ⟨href, -, hxs⟩ := ha
    obtain ⟨href', -, hys⟩ := hb
    have hmem : ∀ {p}, p ∈ sortedFields xs → p ∈ xs := (sortedFields_perm xs).mem_iff.1
    have hmem' : ∀ {q}, q ∈ sortedFields ys → q ∈ ys := (sortedFields_perm ys).mem_iff.1
    rw [canonicalize_obj xs href, canonicalize_obj ys href'] at h
    simp only [List.cons_append, List.append_assoc, List.nil_append, List.cons.injEq,
      true_and] at h
    have hquote : ∀ (l : List ℕ) (p : JsString × Value) (t s : JsString),
        fieldText (renderField stringifyNumber l p) ++ s ≠ unit '\x7d' :: t := by
      intro l p t s heq
      have hhead : unit '"' = unit '\x7d' := (List.cons.inj heq).1
      exact absurd hhead (by decide)
    obtain ⟨hsame, hrest⟩ := PrefixCode.joined_reads (by decide) hcomma (ends_cons (by decide))
      (fun p hp q hq => field_reads fun t t' ht ht' heq =>
        ih p (hmem hp) (hxs p (hmem hp)) (hys q (hmem' hq)) ht ht' heq
          (kind_eq_of_append_eq hnum (hxs p (hmem hp)) (hys q (hmem' hq)) heq))
      (fun p _ => hquote _ p) (fun q _ => hquote _ q) h
    -- the fields agree in sorted order, so those of one object are rearranged to those of the other
    obtain ⟨zs, hzs, hperm⟩ := List.perm_comp_forall₂ (sortedFields_perm xs).symm hsame
    rw [SameUpToKeyOrder]
    exact ⟨⟨zs, hperm.trans (sortedFields_perm ys), sameFields_iff.2 hzs⟩, hrest⟩
  | _ => exact ha.elim

theorem map_eq_map_of_forall₂ {α β γ : Type} {R : α → β → Prop} {f : α → γ} {g : β → γ}
    {xs : List α} {ys : List β} (h : List.Forall₂ R xs ys)
    (hfg : ∀ x ∈ xs, ∀ y ∈ ys, R x y → f x = g y) : xs.map f = ys.map g := by
  induction h with
  | nil => rfl
  | cons hxy _ ih =>
    rw [List.map_cons, List.map_cons, hfg _ List.mem_cons_self _ List.mem_cons_self hxy,
      ih fun x hx y hy => hfg x (List.mem_cons_of_mem _ hx) y (List.mem_cons_of_mem _ hy)]

theorem canonicalize_congr (stringifyNumber : ℚ → JsString) (a : Value) {b : Value}
    (ha : IsJson seen a) (hb : IsJson above b) (h : SameUpToKeyOrder a b) :
    canonicalize stringifyNumber seen a = canonicalize stringifyNumber above b := by
  induction a generalizing b seen above with
  | arr xs ih =>
    cases b <;> try exact h.elim
    rename_i ys
    rw [IsJson, itemsAreJson_iff] at ha hb
    rw [SameUpToKeyOrder, sameItems_iff] at h
    have htexts : xs.map (canonicalize stringifyNumber seen) =
        ys.map (canonicalize stringifyNumber above) :=
      map_eq_map_of_forall₂ h fun x hx y hy => ih x hx (ha x hx) (hb y hy)
    rw [canonicalize, canonicalize, canonicalizeItems_eq_map, canonicalizeItems_eq_map, htexts]
  | obj ref xs ih =>
    cases b <;> try exact h.elim
    rename_i ref' ys
    rw [IsJson, fieldsAreJson_iff] at ha hb
    obtain ⟨href, -, hxs⟩ := ha
    obtain ⟨href', hkeys, hys⟩ := hb
    rw [SameUpToKeyOrder] at h
    obtain ⟨zs, hperm, hsame⟩ := h
    rw [sameFields_iff] at hsame
    have htexts : xs.map (renderField stringifyNumber (ref :: seen)) =
        zs.map (renderField stringifyNumber (ref' :: above)) := by
      apply map_eq_map_of_forall₂ hsame
      intro p hp q hq hpq
      exact Prod.ext hpq.1 (ih p hp (hxs p hp) (hys q (hperm.mem_iff.1 hq)) hpq.2)
    have hnodup : ((ys.map (renderField stringifyNumber (ref' :: above))).map Prod.fst).Nodup := by
      rw [List.map_map]
      exact hkeys
    rw [canonicalize, canonicalize, if_neg href, if_neg href', canonicalizeFields_eq_map,
      canonicalizeFields_eq_map, htexts,
      Keyed.insertionSort_perm hnodup (hperm.map (renderField stringifyNumber (ref' :: above)))]
  | null =>
    cases b <;> try exact h.elim
    rfl
  | bool x =>
    cases b <;> try exact h.elim
    rw [canonicalize, canonicalize, show x = _ from h]
  | num d =>
    cases b <;> try exact h.elim
    obtain rfl : d = _ := h
    cases d <;> rfl
  | str s =>
    cases b <;> try exact h.elim
    rw [canonicalize, canonicalize, show s = _ from h]
  | _ => exact ha.elim

/-- The canonical text is injective up to key order. -/
theorem canonicalize_eq_iff (hnum : NumberTokens stringifyNumber) {a b : Value}
    (ha : IsJson [] a) (hb : IsJson [] b) :
    canonicalize stringifyNumber [] a = canonicalize stringifyNumber [] b ↔
      SameUpToKeyOrder a b := by
  constructor
  · intro h
    have hend : Ends [] := by
      intro u hu
      cases hu
    exact (canonicalize_reads hnum a ha hb hend hend (congrArg (· ++ []) h)).1
  · exact canonicalize_congr stringifyNumber a ha hb

def decimal (n : ℕ) : JsString :=
  if n = 0 then [hexDigit 0] else (Nat.digits 10 n).reverse.map hexDigit

theorem decimal_digit {n : ℕ} {u : CodeUnit} (hu : u ∈ decimal n) : ∃ d < 10, u = hexDigit d := by
  unfold decimal at hu
  split_ifs at hu
  · exact ⟨0, by decide, List.mem_singleton.1 hu⟩
  · obtain ⟨d, hd, rfl⟩ := List.mem_map.1 hu
    exact ⟨d, Nat.digits_lt_base (by decide) (List.mem_reverse.1 hd), rfl⟩

theorem decimal_injective : Function.Injective decimal := by
  -- a number is read off its digits
  have hvalue : ∀ n, Nat.ofDigits 10 ((decimal n).reverse.map hexValue) = n := by
    intro n
    unfold decimal
    split_ifs with h
    · rw [h]
      decide
    · have hdigits : ((Nat.digits 10 n).reverse.map hexDigit).reverse.map hexValue =
          Nat.digits 10 n := by
        rw [← List.map_reverse, List.reverse_reverse, List.map_map]
        conv_rhs => rw [← List.map_id (Nat.digits 10 n)]
        apply List.map_congr_left
        intro d hd
        have hlt : d < 10 := Nat.digits_lt_base (by decide) hd
        exact hexValue_hexDigit d (by omega)
      rw [hdigits, Nat.ofDigits_digits]
  intro m n h
  rw [← hvalue m, h, hvalue n]

/-- Natural numbers in decimal; any other number under a number of its own. -/
def plainNumber (q : ℚ) : JsString :=
  if q = q.num.toNat then decimal q.num.toNat else unit '-' :: decimal (Encodable.encode q)

theorem plainNumber_tokens : NumberTokens plainNumber := by
  have hdigit : ∀ d < 10, hexDigit d ∈ numberUnits := by decide
  have hminus : unit '-' ∈ numberUnits := by decide
  have hunits : ∀ n, ∀ u ∈ decimal n, u ∈ numberUnits := by
    intro n u hu
    obtain ⟨d, hd, rfl⟩ := decimal_digit hu
    exact hdigit d hd
  have hne : ∀ n, decimal n ≠ [] := by
    intro n
    unfold decimal
    split_ifs with h
    · exact List.cons_ne_nil _ _
    · simpa [Nat.digits_eq_nil_iff_eq_zero] using h
  have hhead : ∀ n m, decimal n ≠ unit '-' :: decimal m := by
    intro n m h
    obtain ⟨d, hd, hu⟩ := decimal_digit (h ▸ List.mem_cons_self)
    have hother : ∀ d < 10, unit '-' ≠ hexDigit d := by decide
    exact hother d hd hu
  constructor
  · intro q _
    unfold plainNumber
    split_ifs
    · exact hne _
    · exact List.cons_ne_nil _ _
  · intro q _ u hu
    unfold plainNumber at hu
    split_ifs at hu
    · exact hunits _ u hu
    · obtain rfl | hu := List.mem_cons.1 hu
      · exact hminus
      · exact hunits _ u hu
  · intro p q _ _ h
    unfold plainNumber at h
    split_ifs at h with hp hq hq
    · rw [hp, hq, decimal_injective h]
    · exact absurd h (hhead _ _)
    · exact absurd h.symm (hhead _ _)
    · exact Encodable.encode_injective (decimal_injective (List.cons.inj h).2)

theorem canonicalize_eq_iff_of_two_orders :
    NumberTokens plainNumber ∧
      (canonicalize plainNumber [] (.obj 0 [(ascii "b", .arr [.num (.finite 1), .bool true]),
          (ascii "a", .obj 1 [])]) =
        canonicalize plainNumber [] (.obj 0 [(ascii "a", .obj 1 []),
          (ascii "b", .arr [.num (.finite 1), .bool true])]) ↔
        SameUpToKeyOrder (.obj 0 [(ascii "b", .arr [.num (.finite 1), .bool true]),
            (ascii "a", .obj 1 [])])
          (.obj 0 [(ascii "a", .obj 1 []),
            (ascii "b", .arr [.num (.finite 1), .bool true])])) := by
  have hone : IsDouble 1 := by
    have h := Double.ofRat_intCast (n := 1) (by decide)
    exact_mod_cast h
  refine ⟨plainNumber_tokens, canonicalize_eq_iff plainNumber_tokens ?_ ?_⟩
  · refine ⟨by decide, by decide, ⟨?_, trivial, trivial⟩, ?_, trivial⟩
    · exact hone
    · exact ⟨by decide, by decide, trivial⟩
  · refine ⟨by decide, by decide, ?_, ⟨?_, trivial, trivial⟩, trivial⟩
    · exact ⟨by decide, by decide, trivial⟩
    · exact hone

end AgentValet.Broker
