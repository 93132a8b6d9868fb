import Mathlib.Data.Fintype.EquivFin
import Mathlib.Logic.Relation
import Mathlib.Order.WellFounded
import Mathlib.Tactic.Common

namespace AgentValet.Base.Descent
open Relation
variable {α : Type} {R : α → α → Prop} {barred P : α → Prop}

def StepAvoiding (R : α → α → Prop) (barred : α → Prop) (a b : α) : Prop := ¬ barred a ∧ R a b

/-- A walk that passes through `o` again can be taken up at the last time that it leaves `o`. -/
theorem avoids_or_from_successor (o : α) {a x : α}
    (h : ReflTransGen (StepAvoiding R barred) a x) :
    ReflTransGen (StepAvoiding R fun b => barred b ∨ b = o) a x ∨
      ∃ c, R o c ∧ ReflTransGen (StepAvoiding R fun b => barred b ∨ b = o) c x := by
  induction h using ReflTransGen.head_induction_on with
  | refl => exact .inl .refl
  | @head a d had _ ih =>
    obtain hd | hc := ih
    · by_cases ha : a = o
      · exact .inr ⟨d, ha ▸ had.2, hd⟩
      · exact .inl (.head ⟨not_or.2 ⟨had.1, ha⟩, had.2⟩ hd)
    · exact .inr hc

/-- Every walk is one that avoids nothing. -/
theorem stepAvoiding_of_reaches {a x : α} (h : ReflTransGen R a x) (hfree : ∀ b, ¬ barred b) :
    ReflTransGen (StepAvoiding R barred) a x :=
  ReflTransGen.mono (fun b _ hstep => ⟨hfree b, hstep⟩) _ _ h

/-- Among finitely many nodes a descent that never comes back ends. -/
theorem wellFounded_of_acyclic [Finite α] (h : ∀ a, P a → ¬ TransGen R a a) :
    WellFounded fun b a => P a ∧ R a b := by
  let back : α → α → Prop := fun b a => P a ∧ R a b
  have hirrefl : Std.Irrefl (TransGen back) := by
    constructor
    intro a ha
    have hround : TransGen (fun a b => P a ∧ R a b) a a := transGen_swap.1 ha
    have hP : P a := by
      obtain ⟨b, hab, -⟩ := TransGen.head'_iff.1 hround
      exact hab.1
    exact h a hP (TransGen.mono (fun _ _ hab => hab.2) _ _ hround)
  have hwf : WellFounded (TransGen back) := Finite.wellFounded_of_trans_of_irrefl _
  have hsub : Subrelation back (TransGen back) := TransGen.single
  exact hsub.wf hwf

end AgentValet.Base.Descent
