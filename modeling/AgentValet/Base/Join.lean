import Mathlib.Data.Multiset.Lattice

namespace AgentValet.Base
variable {α β : Type*} [SemilatticeSup β] [OrderBot β] {f : α → β}

def join (f : α → β) (l : List α) : β := ((l : Multiset α).map f).sup

@[simp] theorem join_cons (a : α) (l : List α) : join f (a :: l) = f a ⊔ join f l := by
  rw [join, ← Multiset.cons_coe, Multiset.map_cons, Multiset.sup_cons, join]

theorem join_perm {l l' : List α} (h : l.Perm l') : join f l = join f l' := by
  rw [join, join, Multiset.coe_eq_coe.mpr h]

theorem join_insert (a : α) (pre post : List α) :
    join f (pre ++ a :: post) = f a ⊔ join f (pre ++ post) := by
  rw [join_perm List.perm_middle, join_cons]

theorem join_le_join_insert (a : α) (pre post : List α) :
    join f (pre ++ post) ≤ join f (pre ++ a :: post) := by
  rw [join_insert]
  exact le_sup_right

theorem join_le_iff {l : List α} {b : β} : join f l ≤ b ↔ ∀ a ∈ l, f a ≤ b := by
  rw [join, Multiset.sup_le]
  simp

theorem le_join {l : List α} {a : α} (h : a ∈ l) : f a ≤ join f l :=
  join_le_iff.mp le_rfl a h

end AgentValet.Base
