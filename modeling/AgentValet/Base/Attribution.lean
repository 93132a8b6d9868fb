import Mathlib.Data.Finset.Card
import Mathlib.Data.Set.Function
import Mathlib.Tactic.Common

namespace AgentValet.Base

/-- A machine with an invariant, the agents that hold something, and what an event gives. -/
structure GrantMachine (State Event Agent : Type) where
  initial : State
  step : State → Event → State
  Inv : State → Prop
  Holds : State → Agent → Prop
  Gives : State → Event → Agent → Prop
  inv_initial : Inv initial
  inv_step : ∀ s e, Inv s → Inv (step s e)
  not_holds_initial : ∀ i, ¬ Holds initial i
  holds_step : ∀ s e i, Inv s → (Holds (step s e) i ↔ Holds s i ∨ Gives s e i)
  not_holds_of_gives : ∀ s e i, Inv s → Gives s e i → ¬ Holds s i

namespace GrantMachine
variable {State Event Agent : Type} (m : GrantMachine State Event Agent)

def run (events : List Event) : State := events.foldl m.step m.initial

theorem run_concat (events : List Event) (e : Event) :
    m.run (events ++ [e]) = m.step (m.run events) e := by
  simp only [run, List.foldl_append, List.foldl_cons, List.foldl_nil]

theorem inv_run (events : List Event) : m.Inv (m.run events) := by
  induction events using List.reverseRecOn with
  | nil => exact m.inv_initial
  | append_singleton events e ih =>
    rw [run_concat]
    exact m.inv_step _ e ih

def GivenAt (events : List Event) (k : ℕ) (i : Agent) : Prop :=
  ∃ e, events[k]? = some e ∧ m.Gives (m.run (events.take k)) e i

theorem givenAt_concat_of_lt {events : List Event} {e : Event} {k : ℕ} (hk : k < events.length)
    (i : Agent) : m.GivenAt (events ++ [e]) k i ↔ m.GivenAt events k i := by
  unfold GivenAt
  rw [List.getElem?_append_left hk, List.take_append_of_le_length (Nat.le_of_lt hk)]

theorem givenAt_concat_length (events : List Event) (e : Event) (i : Agent) :
    m.GivenAt (events ++ [e]) events.length i ↔ m.Gives (m.run events) e i := by
  unfold GivenAt
  simp

theorem lt_length_of_givenAt {events : List Event} {k : ℕ} {i : Agent}
    (h : m.GivenAt events k i) : k < events.length := by
  obtain ⟨e, he, -⟩ := h
  exact (List.getElem?_eq_some_iff.1 he).1

theorem holds_run_iff (events : List Event) (i : Agent) :
    m.Holds (m.run events) i ↔ ∃ k, m.GivenAt events k i := by
  induction events using List.reverseRecOn with
  | nil =>
    constructor
    · intro h
      exact absurd h (m.not_holds_initial i)
    · rintro ⟨k, hk⟩
      exact absurd (m.lt_length_of_givenAt hk) (Nat.not_lt_zero k)
  | append_singleton events e ih =>
    rw [run_concat, m.holds_step _ e i (m.inv_run events), ih]
    constructor
    · rintro (⟨k, hk⟩ | hgives)
      · exact ⟨k, (m.givenAt_concat_of_lt (m.lt_length_of_givenAt hk) i).2 hk⟩
      · exact ⟨events.length, (m.givenAt_concat_length events e i).2 hgives⟩
    · rintro ⟨k, hk⟩
      -- the gift is made by the last event or was there before it
      have hlt := m.lt_length_of_givenAt hk
      rw [List.length_append, List.length_singleton] at hlt
      by_cases hlast : k = events.length
      · subst hlast
        exact Or.inr ((m.givenAt_concat_length events e i).1 hk)
      · have hk' : k < events.length := by omega
        exact Or.inl ⟨k, (m.givenAt_concat_of_lt hk' i).1 hk⟩

theorem givenAt_unique {events : List Event} {k l : ℕ} {i : Agent}
    (hk : m.GivenAt events k i) (hl : m.GivenAt events l i) : k = l := by
  -- an earlier gift is still held at the later one
  have hearlier {k l : ℕ} (hk : m.GivenAt events k i) (hl : m.GivenAt events l i) : ¬ k < l := by
    intro hlt
    obtain ⟨e, he, hgives⟩ := hl
    apply m.not_holds_of_gives _ e i (m.inv_run _) hgives
    rw [holds_run_iff]
    obtain ⟨e', he', hgives'⟩ := hk
    refine ⟨k, e', ?_, ?_⟩
    · rw [List.getElem?_take_of_lt hlt, he']
    · rwa [List.take_take, Nat.min_eq_left (Nat.le_of_lt hlt)]
  have h₁ := hearlier hk hl
  have h₂ := hearlier hl hk
  omega

def Attributable (events : List Event) : Prop :=
  ∃ attributed : Agent → ℕ,
    (∀ i, m.Holds (m.run events) i → m.GivenAt events (attributed i) i) ∧
      Set.InjOn attributed {i | m.Holds (m.run events) i}

def OneAtATime (events : List Event) : Prop :=
  ∀ k i j, m.GivenAt events k i → m.GivenAt events k j → i = j

theorem attributable_iff_oneAtATime (events : List Event) :
    m.Attributable events ↔ m.OneAtATime events := by
  constructor
  · rintro ⟨attributed, hgiven, hinj⟩ k i j hi hj
    have hholds {i : Agent} (hi : m.GivenAt events k i) : m.Holds (m.run events) i :=
      (m.holds_run_iff events i).2 ⟨k, hi⟩
    have hat {i : Agent} (hi : m.GivenAt events k i) : attributed i = k :=
      m.givenAt_unique (hgiven i (hholds hi)) hi
    exact hinj (hholds hi) (hholds hj) ((hat hi).trans (hat hj).symm)
  · intro hone
    classical
    -- each holder goes to some place it was given at; no place serves two
    refine ⟨fun i => if h : ∃ k, m.GivenAt events k i then h.choose else 0, ?_, ?_⟩
    · intro i hi
      have hex := (m.holds_run_iff events i).1 hi
      simpa only [dif_pos hex] using hex.choose_spec
    · intro i hi j hj heq
      have hexi := (m.holds_run_iff events i).1 hi
      have hexj := (m.holds_run_iff events j).1 hj
      simp only [dif_pos hexi, dif_pos hexj] at heq
      exact hone _ i j hexi.choose_spec (heq ▸ hexj.choose_spec)

/-- With an event of its own for every holder, there are no more holders than such events. -/
theorem card_le_of_attributable {events : List Event} (h : m.Attributable events)
    (holders : Finset Agent) (givers : Finset ℕ)
    (hholders : ∀ i ∈ holders, m.Holds (m.run events) i)
    (hgivers : ∀ k i, m.GivenAt events k i → k ∈ givers) : holders.card ≤ givers.card := by
  obtain ⟨attributed, hgiven, hinj⟩ := h
  apply Finset.card_le_card_of_injOn attributed
  · intro i hi
    exact hgivers _ i (hgiven i (hholders i hi))
  · intro i hi j hj heq
    exact hinj (hholders i hi) (hholders j hj) heq

end GrantMachine
end AgentValet.Base
