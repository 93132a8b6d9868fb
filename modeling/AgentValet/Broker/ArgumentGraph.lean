import AgentValet.Base.Descent
import AgentValet.Base.Fuel
import AgentValet.Broker.Fingerprint

namespace AgentValet.Broker
open Lang Lang.JavaScript Base Relation

inductive Leaf where
  | null
  | undefined
  | function
  | symbol
  | bool (b : Bool)
  | num (d : Double)
  | bigint (n : ℤ)
  | str (s : JsString)

def Leaf.value : Leaf → Value
  | .null => .null
  | .undefined => .undefined
  | .function => .function
  | .symbol => .symbol
  | .bool b => .bool b
  | .num d => .num d
  | .bigint n => .bigint n
  | .str s => .str s

inductive Entry (n : ℕ) where
  | leaf (l : Leaf)
  | ref (i : Fin n)

inductive Node (n : ℕ) where
  | arr (items : List (Entry n))
  | obj (fields : List (JsString × Entry n))

/-- A finite heap.  References lead to its nodes, so that none dangles. -/
abbrev Heap (n : ℕ) := Fin n → Node n

variable {n : ℕ}

def sortedEntries (fields : List (JsString × Entry n)) : List (JsString × Entry n) :=
  fields.insertionSort fun p q => p.1 ≤ q.1

def arrayText (texts : List JsString) : JsString :=
  unit '[' :: PrefixCode.joined (unit ',') texts ++ [unit ']']

def objectText (texts : List JsString) : JsString :=
  unit '\x7b' :: PrefixCode.joined (unit ',') texts ++ [unit '\x7d']

/-- `canonicalize`, from the reference `i` on at most `fuel` calls deep. -/
def canonicalizeIn (stringifyNumber : ℚ → JsString) (heap : Heap n) :
    List (Fin n) → ℕ → Entry n → Option JsString
  | _, _, .leaf l => some (canonicalize stringifyNumber [] l.value)
  | _, 0, .ref _ => none
  | seen, fuel + 1, .ref i =>
    match heap i with
    | .arr items =>
      -- an array is not put into `seen`
      (items.mapM (canonicalizeIn stringifyNumber heap seen fuel)).map arrayText
    | .obj fields =>
      if i ∈ seen then some (ascii "\"__circular__\"")
      else
        ((sortedEntries fields).mapM fun p =>
          (canonicalizeIn stringifyNumber heap (i :: seen) fuel p.2).map fun text =>
            fieldText (p.1, text)).map objectText

def Node.entries : Node n → List (Entry n)
  | .arr items => items
  | .obj fields => fields.map Prod.snd

def Node.IsArray : Node n → Prop
  | .arr _ => True
  | .obj _ => False

/-- The node `i` has a reference to the node `j`. -/
def Refers (heap : Heap n) (i j : Fin n) : Prop := .ref j ∈ (heap i).entries

/-- The value is or contains, at any depth, the node `j`. -/
def Contains (heap : Heap n) : Entry n → Fin n → Prop
  | .leaf _, _ => False
  | .ref i, j => ReflTransGen (Refers heap) i j

/-- Nothing that the value contains contains itself. -/
def Acyclic (heap : Heap n) (e : Entry n) : Prop :=
  ∀ i, Contains heap e i → ¬ TransGen (Refers heap) i i

def ArrayRefers (heap : Heap n) (i j : Fin n) : Prop := (heap i).IsArray ∧ Refers heap i j

/-- The value contains an array that contains itself through arrays alone. -/
def HasArrayCycle (heap : Heap n) (e : Entry n) : Prop :=
  ∃ i, Contains heap e i ∧ TransGen (ArrayRefers heap) i i

mutual

/-- `v` is the tree that the graph unfolds to: each reference by a copy of its node.  A copy of
an object has an identity that no object around it has. -/
def Unfolds (heap : Heap n) (above : List ℕ) : Entry n → Value → Prop
  | .ref i, .arr vs => ∃ items, heap i = .arr items ∧ ItemsUnfold heap above items vs
  | .ref i, .obj ref fs =>
    ref ∉ above ∧ ∃ fields, heap i = .obj fields ∧ FieldsUnfold heap (ref :: above) fields fs
  | .leaf l, v => v = l.value
  | _, _ => False

def ItemsUnfold (heap : Heap n) (above : List ℕ) : List (Entry n) → List Value → Prop
  | [], [] => True
  | e :: items, v :: vs => Unfolds heap above e v ∧ ItemsUnfold heap above items vs
  | _, _ => False

def FieldsUnfold (heap : Heap n) (above : List ℕ) :
    List (JsString × Entry n) → List (JsString × Value) → Prop
  | [], [] => True
  | (key, e) :: fields, (key', v) :: fs =>
    (key = key' ∧ Unfolds heap above e v) ∧ FieldsUnfold heap above fields fs
  | _, _ => False

end

variable {stringifyNumber : ℚ → JsString} {heap : Heap n} {seen : List (Fin n)} {i : Fin n}

@[simp] theorem canonicalizeIn_leaf (fuel : ℕ) (l : Leaf) :
    canonicalizeIn stringifyNumber heap seen fuel (.leaf l) =
      some (canonicalize stringifyNumber [] l.value) := by
  cases fuel <;> rfl

theorem canonicalizeIn_arr {items : List (Entry n)} (hi : heap i = .arr items) (fuel : ℕ) :
    canonicalizeIn stringifyNumber heap seen (fuel + 1) (.ref i) =
      (items.mapM (canonicalizeIn stringifyNumber heap seen fuel)).map arrayText := by
  rw [canonicalizeIn, hi]

/-- A field, with its value at most `fuel` calls deep. -/
def fieldIn (stringifyNumber : ℚ → JsString) (heap : Heap n) (seen : List (Fin n)) (fuel : ℕ)
    (p : JsString × Entry n) : Option JsString :=
  (canonicalizeIn stringifyNumber heap seen fuel p.2).map fun text => fieldText (p.1, text)

theorem canonicalizeIn_obj {fields : List (JsString × Entry n)} (hi : heap i = .obj fields)
    (hseen : i ∉ seen) (fuel : ℕ) :
    canonicalizeIn stringifyNumber heap seen (fuel + 1) (.ref i) =
      ((sortedEntries fields).mapM (fieldIn stringifyNumber heap (i :: seen) fuel)).map
        objectText := by
  rw [canonicalizeIn, hi]
  exact if_neg hseen

theorem canonicalizeIn_circular {fields : List (JsString × Entry n)} (hi : heap i = .obj fields)
    (hseen : i ∈ seen) (fuel : ℕ) :
    canonicalizeIn stringifyNumber heap seen (fuel + 1) (.ref i) =
      some (ascii "\"__circular__\"") := by
  rw [canonicalizeIn, hi]
  exact if_pos hseen

/-- A greater depth keeps the text. -/
theorem canonicalizeIn_grows :
    Fuel.Grows (canonicalizeIn stringifyNumber heap seen) := by
  intro fuel e t h
  induction fuel generalizing seen e t with
  | zero =>
    cases e with
    | leaf l => simpa using h
    | ref i => cases h
  | succ fuel ih =>
    cases e with
    | leaf l => simpa using h
    | ref i =>
      cases hi : heap i with
      | arr items =>
        rw [canonicalizeIn_arr hi, Option.map_eq_some_iff] at h
        obtain ⟨texts, htexts, rfl⟩ := h
        rw [canonicalizeIn_arr hi, Fallible.mapM_eq_some_iff.2
          ((Fallible.mapM_eq_some_iff.1 htexts).imp fun e t => ih e t), Option.map_some]
      | obj fields =>
        by_cases hseen : i ∈ seen
        · rwa [canonicalizeIn_circular hi hseen] at h ⊢
        · rw [canonicalizeIn_obj hi hseen, Option.map_eq_some_iff] at h
          obtain ⟨texts, htexts, rfl⟩ := h
          rw [canonicalizeIn_obj hi hseen, Fallible.mapM_eq_some_iff.2
            ((Fallible.mapM_eq_some_iff.1 htexts).imp fun p t hp => ?_), Option.map_some]
          obtain ⟨text, htext, rfl⟩ := Option.map_eq_some_iff.1 hp
          exact Option.map_eq_some_iff.2 ⟨text, ih p.2 text htext, rfl⟩

/-- `canonicalize` returns the text, at whatever depth. -/
def HasText (stringifyNumber : ℚ → JsString) (heap : Heap n) (seen : List (Fin n)) :
    Entry n → JsString → Prop :=
  Fuel.Gives (canonicalizeIn stringifyNumber heap seen)

theorem HasText.unique {e : Entry n} {t t' : JsString}
    (h : HasText stringifyNumber heap seen e t) (h' : HasText stringifyNumber heap seen e t') :
    t = t' :=
  Fuel.Gives.unique canonicalizeIn_grows h h'

theorem hasText_leaf (l : Leaf) :
    HasText stringifyNumber heap seen (.leaf l) (canonicalize stringifyNumber [] l.value) :=
  ⟨0, canonicalizeIn_leaf 0 l⟩

theorem hasText_arr {items : List (Entry n)} (hi : heap i = .arr items) {texts : List JsString}
    (h : List.Forall₂ (HasText stringifyNumber heap seen) items texts) :
    HasText stringifyNumber heap seen (.ref i) (arrayText texts) := by
  obtain ⟨fuel, hfuel⟩ := Fuel.exists_mapM canonicalizeIn_grows h
  exact ⟨fuel + 1, by rw [canonicalizeIn_arr hi, hfuel, Option.map_some]⟩

def FieldHasText (stringifyNumber : ℚ → JsString) (heap : Heap n) (seen : List (Fin n)) :
    JsString × Entry n → JsString → Prop :=
  Fuel.Gives (fieldIn stringifyNumber heap seen)

theorem HasText.field {p : JsString × Entry n} {t : JsString}
    (h : HasText stringifyNumber heap seen p.2 t) :
    FieldHasText stringifyNumber heap seen p (fieldText (p.1, t)) := by
  obtain ⟨fuel, hfuel⟩ := h
  exact ⟨fuel, by rw [fieldIn, hfuel, Option.map_some]⟩

theorem fieldIn_grows : Fuel.Grows (fieldIn stringifyNumber heap seen) := by
  intro fuel p t h
  obtain ⟨text, htext, rfl⟩ := Option.map_eq_some_iff.1 h
  rw [fieldIn, canonicalizeIn_grows fuel p.2 text htext, Option.map_some]

theorem hasText_obj {fields : List (JsString × Entry n)} (hi : heap i = .obj fields)
    (hseen : i ∉ seen) {texts : List JsString}
    (h : List.Forall₂ (FieldHasText stringifyNumber heap (i :: seen)) (sortedEntries fields)
      texts) :
    HasText stringifyNumber heap seen (.ref i) (objectText texts) := by
  obtain ⟨fuel, hfuel⟩ := Fuel.exists_mapM fieldIn_grows h
  exact ⟨fuel + 1, by rw [canonicalizeIn_obj hi hseen, hfuel, Option.map_some]⟩

theorem hasText_circular {fields : List (JsString × Entry n)} (hi : heap i = .obj fields)
    (hseen : i ∈ seen) :
    HasText stringifyNumber heap seen (.ref i) (ascii "\"__circular__\"") :=
  ⟨1, canonicalizeIn_circular hi hseen 0⟩

/-- The node is an object that is being walked, so that the walk does not enter it again. -/
def Closed (heap : Heap n) (seen : List (Fin n)) (i : Fin n) : Prop :=
  ¬ (heap i).IsArray ∧ i ∈ seen

/-- The walk gets from `i` to `x`. -/
def WalksTo (heap : Heap n) (seen : List (Fin n)) (i x : Fin n) : Prop :=
  ReflTransGen (Descent.StepAvoiding (Refers heap) (Closed heap seen)) i x

theorem mem_sortedEntries {fields : List (JsString × Entry n)} {p : JsString × Entry n} :
    p ∈ sortedEntries fields ↔ p ∈ fields :=
  (List.perm_insertionSort _ fields).mem_iff

theorem canonicalizeIn_eq_none {x : Fin n} (hcycle : TransGen (ArrayRefers heap) x x)
    (fuel : ℕ) (hwalk : WalksTo heap seen i x) :
    canonicalizeIn stringifyNumber heap seen fuel (.ref i) = none := by
  induction fuel generalizing seen i x with
  | zero => rfl
  | succ fuel ih =>
    cases hi : heap i with
    | arr items =>
      -- the next node of the walk, or of the cycle when the walk has come to it
      obtain ⟨c, y, hc, hy, hrest⟩ : ∃ c y, .ref c ∈ items ∧ TransGen (ArrayRefers heap) y y ∧
          WalksTo heap seen c y := by
        obtain rfl | ⟨c, hstep, hrest⟩ := hwalk.cases_head
        · obtain ⟨c, hic, hback⟩ := TransGen.head'_iff.1 hcycle
          have hmem : .ref c ∈ (heap i).entries := hic.2
          rw [hi] at hmem
          exact ⟨c, c, hmem, TransGen.tail' hback hic, .refl⟩
        · have hmem : .ref c ∈ (heap i).entries := hstep.2
          rw [hi] at hmem
          exact ⟨c, x, hmem, hcycle, hrest⟩
      rw [canonicalizeIn_arr hi, Fallible.mapM_eq_none hc (ih hy hrest), Option.map_none]
    | obj fields =>
      have hopen : ∀ {c}, Descent.StepAvoiding (Refers heap) (Closed heap seen) i c → i ∉ seen := by
        intro c hstep hmem
        have hobject : ¬ (heap i).IsArray := by rw [hi]; exact id
        exact hstep.1 ⟨hobject, hmem⟩
      obtain rfl | ⟨c, hstep, hrest⟩ := hwalk.cases_head
      · obtain ⟨c, hic, -⟩ := TransGen.head'_iff.1 hcycle
        have harray : (heap i).IsArray := hic.1
        rw [hi] at harray
        exact harray.elim
      · -- the walk may come by `i` again, and would then stop: it is taken up at its last visit
        obtain ⟨d, hd, hwalk'⟩ : ∃ d, Refers heap i d ∧ WalksTo heap (i :: seen) d x := by
          have hclosed : ∀ {b d}, Descent.StepAvoiding (Refers heap)
              (fun b => Closed heap seen b ∨ b = i) b d →
                Descent.StepAvoiding (Refers heap) (Closed heap (i :: seen)) b d := by
            rintro b d ⟨hfree, href⟩
            refine ⟨fun ⟨hobject, hmem⟩ => hfree ?_, href⟩
            obtain rfl | hmem := List.mem_cons.1 hmem
            · exact .inr rfl
            · exact .inl ⟨hobject, hmem⟩
          obtain hc | ⟨d, hd, hdx⟩ := Descent.avoids_or_from_successor i hrest
          · exact ⟨c, hstep.2, ReflTransGen.mono (fun _ _ => hclosed) _ _ hc⟩
          · exact ⟨d, hd, ReflTransGen.mono (fun _ _ => hclosed) _ _ hdx⟩
        have hmem : .ref d ∈ (heap i).entries := hd
        rw [hi] at hmem
        obtain ⟨p, hp, hpd⟩ := List.mem_map.1 hmem
        have hnone : fieldIn stringifyNumber heap (i :: seen) fuel p = none := by
          rw [fieldIn, hpd, ih hcycle hwalk', Option.map_none]
        rw [canonicalizeIn_obj hi (hopen hstep),
          Fallible.mapM_eq_none (mem_sortedEntries.2 hp) hnone, Option.map_none]

theorem contains_of_mem {e : Entry n} {j : Fin n} (he : e ∈ (heap i).entries)
    (h : Contains heap e j) : Contains heap (.ref i) j := by
  cases e with
  | leaf l => exact h.elim
  | ref c => exact .head he h

theorem contains_of_refers {e : Entry n} {j : Fin n} (h : Contains heap e i)
    (hij : Refers heap i j) : Contains heap e j := by
  cases e with
  | leaf l => exact h.elim
  | ref r => exact ReflTransGen.tail h hij

theorem Acyclic.of_contains {e : Entry n} (hacyclic : Acyclic heap e) (h : Contains heap e i) :
    Acyclic heap (.ref i) := by
  intro j hj
  cases e with
  | leaf l => exact h.elim
  | ref r => exact hacyclic j (ReflTransGen.trans h hj)

/-- What a node refers to does not contain it, when nothing contains itself. -/
theorem Acyclic.not_contains_of_mem {e : Entry n} (hacyclic : Acyclic heap (.ref i))
    (he : e ∈ (heap i).entries) : ¬ Contains heap e i := by
  intro h
  cases e with
  | leaf l => exact h
  | ref c => exact hacyclic i .refl (TransGen.head' he h)

theorem Acyclic.of_mem {e : Entry n} (hacyclic : Acyclic heap (.ref i))
    (he : e ∈ (heap i).entries) : Acyclic heap e :=
  fun j hj => hacyclic j (contains_of_mem he hj)

/-- The nodes that the walk has not put into `seen`. -/
def unseen (seen : List (Fin n)) : Finset (Fin n) := Finset.univ.filter (· ∉ seen)

theorem card_unseen_cons (hseen : i ∉ seen) : (unseen (i :: seen)).card < (unseen seen).card := by
  apply Finset.card_lt_card
  have hmem : i ∈ unseen seen := Finset.mem_filter.2 ⟨Finset.mem_univ i, hseen⟩
  refine Finset.ssubset_iff_subset_ne.2 ⟨fun j hj => ?_, fun heq => ?_⟩
  · have hj' : j ∉ i :: seen := (Finset.mem_filter.1 hj).2
    exact Finset.mem_filter.2 ⟨Finset.mem_univ j, fun h => hj' (List.mem_cons_of_mem i h)⟩
  · rw [← heq] at hmem
    exact (Finset.mem_filter.1 hmem).2 List.mem_cons_self

/-- A node whose references all have their texts has its own. -/
theorem exists_hasText_arr {items : List (Entry n)} (hi : heap i = .arr items)
    (h : ∀ c, Refers heap i c → ∃ t, HasText stringifyNumber heap seen (.ref c) t) :
    ∃ t, HasText stringifyNumber heap seen (.ref i) t := by
  have hitems : ∀ x ∈ items, ∃ t, HasText stringifyNumber heap seen x t := by
    intro x hx
    cases x with
    | leaf l => exact ⟨_, hasText_leaf l⟩
    | ref c => exact h c (by rwa [Refers, hi])
  obtain ⟨texts, htexts⟩ := Fallible.exists_forall₂ hitems
  exact ⟨_, hasText_arr hi htexts⟩

theorem exists_hasText_obj {fields : List (JsString × Entry n)} (hi : heap i = .obj fields)
    (hseen : i ∉ seen)
    (h : ∀ c, Refers heap i c → ∃ t, HasText stringifyNumber heap (i :: seen) (.ref c) t) :
    ∃ t, HasText stringifyNumber heap seen (.ref i) t := by
  have hfields : ∀ p ∈ sortedEntries fields,
      ∃ t, FieldHasText stringifyNumber heap (i :: seen) p t := by
    rintro ⟨key, x⟩ hp
    have hx : x ∈ (heap i).entries := by
      rw [hi]
      exact List.mem_map_of_mem (mem_sortedEntries.1 hp)
    cases x with
    | leaf l => exact ⟨_, HasText.field (hasText_leaf l)⟩
    | ref c =>
      obtain ⟨t, ht⟩ := h c hx
      exact ⟨_, HasText.field ht⟩
  obtain ⟨texts, htexts⟩ := Fallible.exists_forall₂ hfields
  exact ⟨_, hasText_obj hi hseen htexts⟩

/-- Into an object the walk goes with one node less to see, from an array to an array it cannot
go forever. -/
theorem exists_hasText {e : Entry n} (hfree : ¬ HasArrayCycle heap e) :
    ∃ t, HasText stringifyNumber heap [] e t := by
  have hwf : WellFounded fun j i => Contains heap e i ∧ ArrayRefers heap i j :=
    Descent.wellFounded_of_acyclic fun i hi hround => hfree ⟨i, hi, hround⟩
  have hnode : ∀ seen i, Contains heap e i → ∃ t, HasText stringifyNumber heap seen (.ref i) t := by
    intro seen i hi
    induction hm : (unseen seen).card using Nat.strong_induction_on generalizing seen i with
    | _ m ihseen =>
      induction i using hwf.induction with
      | _ i iharray =>
        cases hnode : heap i with
        | arr items =>
          have harray : (heap i).IsArray := by rw [hnode]; trivial
          exact exists_hasText_arr hnode fun c hic =>
            iharray c ⟨hi, harray, hic⟩ (contains_of_refers hi hic)
        | obj fields =>
          by_cases hseen : i ∈ seen
          · exact ⟨_, hasText_circular hnode hseen⟩
          · exact exists_hasText_obj hnode hseen fun c hic =>
              ihseen _ (hm ▸ card_unseen_cons hseen) (i :: seen) c (contains_of_refers hi hic) rfl
  cases e with
  | leaf l => exact ⟨_, hasText_leaf l⟩
  | ref i => exact hnode [] i .refl

variable {above : List ℕ}

theorem itemsUnfold_iff {items : List (Entry n)} {vs : List Value} :
    ItemsUnfold heap above items vs ↔ List.Forall₂ (Unfolds heap above) items vs := by
  induction items generalizing vs with
  | nil => cases vs <;> simp [ItemsUnfold]
  | cons e items ih => cases vs <;> simp [ItemsUnfold, ih]

def FieldUnfolds (heap : Heap n) (above : List ℕ) (p : JsString × Entry n)
    (q : JsString × Value) : Prop :=
  p.1 = q.1 ∧ Unfolds heap above p.2 q.2

theorem fieldsUnfold_iff {fields : List (JsString × Entry n)} {fs : List (JsString × Value)} :
    FieldsUnfold heap above fields fs ↔ List.Forall₂ (FieldUnfolds heap above) fields fs := by
  induction fields generalizing fs with
  | nil => cases fs <;> simp [FieldsUnfold]
  | cons p fields ih => cases fs <;> simp [FieldsUnfold, FieldUnfolds, ih]

theorem canonicalize_leaf (l : Leaf) :
    canonicalize stringifyNumber above l.value = canonicalize stringifyNumber [] l.value := by
  cases l with
  | num d => cases d <;> rfl
  | _ => rfl

theorem unfolds_leaf (l : Leaf) : Unfolds heap above (.leaf l) l.value := by
  cases l <;> rw [Leaf.value, Unfolds, Leaf.value]

theorem eq_of_unfolds_leaf {l : Leaf} {v : Value} (h : Unfolds heap above (.leaf l) v) :
    v = l.value := by
  cases v <;> exact h

/-- The text of the graph is that of the tree. -/
theorem hasText_of_unfolds {e : Entry n} {v : Value} (hv : Unfolds heap above e v)
    (hacyclic : Acyclic heap e) (hseen : ∀ i ∈ seen, ¬ Contains heap e i) :
    HasText stringifyNumber heap seen e (canonicalize stringifyNumber above v) := by
  induction v generalizing e seen above with
  | arr vs ih =>
    cases e with
    | leaf l =>
      rw [eq_of_unfolds_leaf hv, canonicalize_leaf]
      exact hasText_leaf l
    | ref i =>
      rw [Unfolds] at hv
      obtain ⟨items, hi, hitems⟩ := hv
      have hmem : ∀ x ∈ items, x ∈ (heap i).entries := by
        intro x hx
        rwa [hi]
      rw [canonicalize, canonicalizeItems_eq_map]
      refine hasText_arr hi (List.forall₂_map_right_iff.2 ?_)
      refine Fallible.forall₂_imp_of_mem (itemsUnfold_iff.1 hitems) fun x hx w hw hxw => ?_
      exact ih w hw hxw (hacyclic.of_mem (hmem x hx)) fun j hj hcontains =>
        hseen j hj (contains_of_mem (hmem x hx) hcontains)
  | obj ref fs ih =>
    cases e with
    | leaf l =>
      rw [eq_of_unfolds_leaf hv, canonicalize_leaf]
      exact hasText_leaf l
    | ref i =>
      rw [Unfolds] at hv
      obtain ⟨href, fields, hi, hfields⟩ := hv
      have hmem : ∀ p ∈ fields, p.2 ∈ (heap i).entries := by
        intro p hp
        rw [hi]
        exact List.mem_map_of_mem hp
      have htexts : List.Forall₂ (fun p q => p.1 = q.1 ∧ HasText stringifyNumber heap (i :: seen)
          p.2 (canonicalize stringifyNumber (ref :: above) q.2)) fields fs := by
        refine Fallible.forall₂_imp_of_mem (fieldsUnfold_iff.1 hfields) fun p hp q hq hpq => ?_
        refine ⟨hpq.1, ih q hq hpq.2 (hacyclic.of_mem (hmem p hp)) fun j hj hcontains => ?_⟩
        obtain rfl | hj := List.mem_cons.1 hj
        · exact hacyclic.not_contains_of_mem (hmem p hp) hcontains
        · exact hseen j hj (contains_of_mem (hmem p hp) hcontains)
      rw [canonicalize_obj fs href]
      refine hasText_obj hi (fun h => hseen i h .refl) (List.forall₂_map_right_iff.2 ?_)
      refine (Keyed.forall₂_insertionSort (fun p q h => h.1) htexts).imp fun p q hpq => ?_
      rw [renderField, ← hpq.1]
      exact HasText.field hpq.2
  | _ =>
    cases e with
    | leaf l =>
      rw [eq_of_unfolds_leaf hv, canonicalize_leaf]
      exact hasText_leaf l
    | ref i => exact hv.elim

/-- A graph in which nothing contains itself is the graph of a tree. -/
theorem exists_unfolds {e : Entry n} (hacyclic : Acyclic heap e) :
    ∃ v, Unfolds heap [] e v := by
  have hwf : WellFounded fun j i => Contains heap e i ∧ Refers heap i j :=
    Descent.wellFounded_of_acyclic hacyclic
  have hnode : ∀ i above, Contains heap e i →
      (∀ j, Contains heap (.ref i) j → j.val ∉ above) → ∃ v, Unfolds heap above (.ref i) v := by
    intro i
    induction i using hwf.induction with
    | _ i ih =>
      intro above hi habove
      have hentry : ∀ x ∈ (heap i).entries, ∀ l,
          (∀ j, Contains heap x j → j.val ∉ l) → ∃ v, Unfolds heap l x v := by
        intro x hx l hl
        cases x with
        | leaf leaf => exact ⟨_, unfolds_leaf leaf⟩
        | ref c => exact ih c ⟨hi, hx⟩ l (contains_of_refers hi hx) hl
      cases hnode : heap i with
      | arr items =>
        rw [hnode] at hentry
        obtain ⟨vs, hvs⟩ := Fallible.exists_forall₂ fun x hx =>
          hentry x hx above fun j hj => habove j (contains_of_mem (by rwa [hnode]) hj)
        refine ⟨.arr vs, ?_⟩
        rw [Unfolds]
        exact ⟨items, hnode, itemsUnfold_iff.2 hvs⟩
      | obj fields =>
        have hfields : ∀ p ∈ fields, ∃ q, FieldUnfolds heap (i.val :: above) p q := by
          intro p hp
          have hmem : p.2 ∈ (heap i).entries := by
            rw [hnode]
            exact List.mem_map_of_mem hp
          obtain ⟨v, hv⟩ := hentry p.2 hmem (i.val :: above) fun j hj hjabove => by
            obtain heq | hjabove := List.mem_cons.1 hjabove
            · obtain rfl : j = i := Fin.ext heq
              exact (hacyclic.of_contains hi).not_contains_of_mem hmem hj
            · exact habove j (contains_of_mem hmem hj) hjabove
          exact ⟨(p.1, v), rfl, hv⟩
        obtain ⟨fs, hfs⟩ := Fallible.exists_forall₂ hfields
        refine ⟨.obj i.val fs, ?_⟩
        rw [Unfolds]
        exact ⟨habove i .refl, fields, hnode, fieldsUnfold_iff.2 hfs⟩
  cases e with
  | leaf l => exact ⟨_, unfolds_leaf l⟩
  | ref i => exact hnode i [] .refl fun _ _ => List.not_mem_nil

/-- What the fingerprint of a graph is to be: `canonicalize` ends, and a graph in which nothing
contains itself has the text of its tree. -/
structure Fingerprints (stringifyNumber : ℚ → JsString) (heap : Heap n) (e : Entry n) : Prop where
  ends : ∃ t, HasText stringifyNumber heap [] e t
  as_tree : Acyclic heap e → (∃ v, Unfolds heap [] e v) ∧
    ∀ v, Unfolds heap [] e v → HasText stringifyNumber heap [] e (canonicalize stringifyNumber [] v)

/-- Cycles through objects and parts that are shared do no harm.  An array that contains itself
through arrays alone does. -/
theorem fingerprints_iff (stringifyNumber : ℚ → JsString) (heap : Heap n) (e : Entry n) :
    Fingerprints stringifyNumber heap e ↔ ¬ HasArrayCycle heap e := by
  constructor
  · rintro ⟨⟨t, fuel, htext⟩, -⟩ ⟨x, hx, hcycle⟩
    cases e with
    | leaf l => exact hx
    | ref i =>
      -- nothing is seen at the start, so that every walk is open
      have hwalk : WalksTo heap [] i x :=
        Descent.stepAvoiding_of_reaches hx fun b hb => List.not_mem_nil hb.2
      rw [canonicalizeIn_eq_none hcycle fuel hwalk] at htext
      cases htext
  · intro hfree
    exact ⟨exists_hasText hfree, fun hacyclic => ⟨exists_unfolds hacyclic, fun v hv =>
      hasText_of_unfolds hv hacyclic fun i hi => absurd hi List.not_mem_nil⟩⟩

/-- An array whose one element is the array itself. -/
def selfContaining : Heap 1 := fun _ => .arr [.ref 0]

theorem not_fingerprints_selfContaining :
    ¬ Fingerprints plainNumber selfContaining (.ref 0) := by
  rintro ⟨⟨t, fuel, htext⟩, -⟩
  have hcycle : TransGen (ArrayRefers selfContaining) 0 0 :=
    .single ⟨trivial, List.mem_singleton.2 rfl⟩
  rw [canonicalizeIn_eq_none hcycle fuel .refl] at htext
  cases htext

end AgentValet.Broker
