import AgentValet.Base.Fallible
import Mathlib.Algebra.Order.Group.Nat
import Mathlib.Order.Lattice
import Mathlib.Tactic.Common

namespace AgentValet.Base.Fuel
variable {α β : Type} {f : ℕ → α → Option β}

def Grows (f : ℕ → α → Option β) : Prop := ∀ n a b, f n a = some b → f (n + 1) a = some b

/-- At some depth the recursion comes to an end, with this result. -/
def Gives (f : ℕ → α → Option β) (a : α) (b : β) : Prop := ∃ n, f n a = some b

theorem Grows.le (hf : Grows f) {m n : ℕ} (hmn : m ≤ n) {a : α} {b : β} (h : f m a = some b) :
    f n a = some b := by
  induction hmn with
  | refl => exact h
  | step _ ih => exact hf _ a b ih

theorem Gives.unique (hf : Grows f) {a : α} {b c : β} (hb : Gives f a b) (hc : Gives f a c) :
    b = c := by
  obtain ⟨m, hm⟩ := hb
  obtain ⟨n, hn⟩ := hc
  have h := (hf.le (le_max_left m n) hm).symm.trans (hf.le (le_max_right m n) hn)
  exact Option.some.inj h

theorem Grows.mapM_le (hf : Grows f) {m n : ℕ} (hmn : m ≤ n) {l : List α} {bs : List β}
    (h : l.mapM (f m) = some bs) : l.mapM (f n) = some bs :=
  Fallible.mapM_eq_some_iff.2 ((Fallible.mapM_eq_some_iff.1 h).imp fun _ _ hab => hf.le hmn hab)

/-- Items that each come to an end do so together, at the greatest of their depths. -/
theorem exists_mapM (hf : Grows f) {l : List α} {bs : List β}
    (h : List.Forall₂ (Gives f) l bs) : ∃ n, l.mapM (f n) = some bs := by
  induction h with
  | nil => exact ⟨0, rfl⟩
  | cons hab _ ih =>
    obtain ⟨m, hm⟩ := hab
    obtain ⟨n, hn⟩ := ih
    refine ⟨max m n, Fallible.mapM_eq_some_iff.2 (.cons (hf.le (le_max_left m n) hm) ?_)⟩
    exact Fallible.mapM_eq_some_iff.1 (hf.mapM_le (le_max_right m n) hn)

end AgentValet.Base.Fuel
