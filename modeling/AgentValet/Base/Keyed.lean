import Mathlib.Data.List.Nodup
import Mathlib.Data.List.Sort

namespace AgentValet.Base.Keyed
variable {α κ : Type} {key : α → κ} {l l' : List α}

theorem eq_of_key_eq (hl : (l.map key).Nodup) {a b : α} (ha : a ∈ l) (hb : b ∈ l)
    (h : key a = key b) : a = b :=
  List.inj_on_of_nodup_map hl ha hb h

/-- What is said of the elements with a key is said of the one that has it. -/
theorem exists_mem_key_iff (hl : (l.map key).Nodup) {a : α} (ha : a ∈ l) (p : α → Prop) :
    (∃ b ∈ l, key b = key a ∧ p b) ↔ p a := by
  constructor
  · rintro ⟨b, hb, hkey, hp⟩
    rwa [← eq_of_key_eq hl hb ha hkey]
  · intro hp
    exact ⟨a, ha, rfl, hp⟩

variable [BEq κ] [LawfulBEq κ]

theorem find?_eq_some_iff (hl : (l.map key).Nodup) {k : κ} {a : α} :
    l.find? (fun x => key x == k) = some a ↔ a ∈ l ∧ key a = k := by
  constructor
  · intro h
    have hkey := List.find?_some h
    exact ⟨List.mem_of_find?_eq_some h, eq_of_beq hkey⟩
  · rintro ⟨ha, rfl⟩
    have hsome : (l.find? fun x => key x == key a).isSome = true :=
      List.find?_isSome.2 ⟨a, ha, beq_self_eq_true _⟩
    obtain ⟨b, hb⟩ := Option.isSome_iff_exists.1 hsome
    have hkey := List.find?_some hb
    rw [hb, eq_of_key_eq hl (List.mem_of_find?_eq_some hb) ha (eq_of_beq hkey)]

theorem find?_eq_none_iff {k : κ} :
    l.find? (fun x => key x == k) = none ↔ ∀ a ∈ l, key a ≠ k := by
  rw [List.find?_eq_none]
  simp only [beq_iff_eq, ne_eq]

/-- Lists of the same elements in two orders are looked up alike. -/
theorem find?_perm (hl : (l.map key).Nodup) (hperm : l'.Perm l) (k : κ) :
    l'.find? (fun x => key x == k) = l.find? (fun x => key x == k) := by
  have hl' : (l'.map key).Nodup := (hperm.map key).nodup_iff.2 hl
  apply Option.ext
  intro a
  rw [find?_eq_some_iff hl', find?_eq_some_iff hl, hperm.mem_iff]

/-- Sorted by key, lists of the same elements in two orders are one list. -/
theorem insertionSort_perm {ι : Type} [LinearOrder ι] {key : α → ι} (hl : (l.map key).Nodup)
    (hperm : l'.Perm l) :
    l'.insertionSort (fun a b => key a ≤ key b) = l.insertionSort (fun a b => key a ≤ key b) := by
  have htotal : Std.Total fun a b : α => key a ≤ key b := ⟨fun a b => le_total (key a) (key b)⟩
  have htrans : IsTrans α fun a b => key a ≤ key b := ⟨fun _ _ _ => le_trans⟩
  have hsorted : (l.insertionSort fun a b => key a ≤ key b).Perm l := List.perm_insertionSort _ l
  have hsorted' : (l'.insertionSort fun a b => key a ≤ key b).Perm l :=
    (List.perm_insertionSort _ l').trans hperm
  apply List.Perm.eq_of_pairwise _ (List.pairwise_insertionSort _ l')
    (List.pairwise_insertionSort _ l) (hsorted'.trans hsorted.symm)
  intro a b ha hb hab hba
  exact eq_of_key_eq hl (hsorted'.mem_iff.1 ha) (hsorted.mem_iff.1 hb) (le_antisymm hab hba)

section
variable {β ι : Type} [LinearOrder ι] {key : α → ι} {key' : β → ι} {R : α → β → Prop}

theorem forall₂_orderedInsert (hkey : ∀ a b, R a b → key a = key' b) {a : α} {b : β}
    (hab : R a b) {xs : List α} {ys : List β} (h : List.Forall₂ R xs ys) :
    List.Forall₂ R (xs.orderedInsert (fun a b => key a ≤ key b) a)
      (ys.orderedInsert (fun a b => key' a ≤ key' b) b) := by
  induction h with
  | nil => exact .cons hab .nil
  | @cons x y xs ys hxy hrest ih =>
    rw [List.orderedInsert, List.orderedInsert, hkey a b hab, hkey x y hxy]
    split_ifs
    · exact .cons hab (.cons hxy hrest)
    · exact .cons hxy ih

theorem forall₂_insertionSort (hkey : ∀ a b, R a b → key a = key' b) {xs : List α}
    {ys : List β} (h : List.Forall₂ R xs ys) :
    List.Forall₂ R (xs.insertionSort fun a b => key a ≤ key b)
      (ys.insertionSort fun a b => key' a ≤ key' b) := by
  induction h with
  | nil => exact .nil
  | cons hxy _ ih => exact forall₂_orderedInsert hkey hxy ih

end

end AgentValet.Base.Keyed
