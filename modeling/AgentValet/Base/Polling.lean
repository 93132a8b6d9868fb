import Mathlib.Tactic.Common
import Mathlib.Data.Option.Basic

namespace AgentValet.Base

/-- A polling loop with verdicts `V`, and a state that undecided polls write to. -/
structure PollLoop (V σ : Type) where
  running : ℕ → Bool
  poll : ℕ → Option V
  advance : ℕ → σ → σ
  late : V

structure Stopped (V σ : Type) where
  poll : ℕ
  verdict : V
  state : σ

namespace PollLoop
variable {V W σ τ : Type}

def run (L : PollLoop V σ) : ℕ → ℕ → σ → Option (Stopped V σ)
  | 0, _, _ => none
  | fuel + 1, k, s =>
    if L.running k then
      match L.poll k with
      | some v => some ⟨k, v, s⟩
      | none => L.run fuel (k + 1) (L.advance k s)
    else some ⟨k, L.late, s⟩

section Single
variable (L : PollLoop V σ)

theorem run_of_decided {k : ℕ} {v : V} (hrunning : L.running k = true) (hpoll : L.poll k = some v)
    (fuel : ℕ) (s : σ) : L.run (fuel + 1) k s = some ⟨k, v, s⟩ := by
  simp only [run, hrunning, hpoll, if_true]

theorem run_of_undecided {k : ℕ} (hrunning : L.running k = true) (hpoll : L.poll k = none)
    (fuel : ℕ) (s : σ) : L.run (fuel + 1) k s = L.run fuel (k + 1) (L.advance k s) := by
  simp only [run, hrunning, hpoll, if_true]

theorem run_of_late {k : ℕ} (hrunning : L.running k = false) (fuel : ℕ) (s : σ) :
    L.run (fuel + 1) k s = some ⟨k, L.late, s⟩ := by
  simp only [run, hrunning, Bool.false_eq_true, if_false]

/-- Once the clock runs out the loop stops. -/
theorem run_isSome_of_late {n k : ℕ} (h : L.running (k + n) = false) (s : σ) :
    (L.run (n + 1) k s).isSome = true := by
  induction n generalizing k s with
  | zero =>
    have hlate : L.running k = false := h
    rw [L.run_of_late hlate]
    rfl
  | succ n ih =>
    cases hrunning : L.running k with
    | false => simp [L.run_of_late hrunning]
    | true =>
      cases hpoll : L.poll k with
      | some v => simp [L.run_of_decided hrunning hpoll]
      | none =>
        rw [L.run_of_undecided hrunning hpoll]
        apply ih
        rwa [show k + 1 + n = k + (n + 1) by omega]

theorem run_start_isSome {n : ℕ} (h : L.running n = false) (s : σ) :
    (L.run (n + 1) 0 s).isSome = true := by
  apply L.run_isSome_of_late
  rwa [Nat.zero_add]

def Reaches (k : ℕ) : Prop := (∀ j ≤ k, L.running j = true) ∧ ∀ j < k, L.poll j = none

def Passes (k : ℕ) : Prop := ∀ j < k, L.running j = true ∧ L.poll j = none

variable {L}

theorem Passes.succ {k : ℕ} (h : L.Passes k) (hrunning : L.running k = true)
    (hpoll : L.poll k = none) : L.Passes (k + 1) := by
  intro j hj
  rcases Nat.lt_succ_iff_lt_or_eq.1 hj with hlt | rfl
  · exact h j hlt
  · exact ⟨hrunning, hpoll⟩

theorem Passes.reaches {k : ℕ} (h : L.Passes k) (hrunning : L.running k = true) : L.Reaches k := by
  refine ⟨fun j hj => ?_, fun j hj => (h j hj).2⟩
  rcases Nat.lt_or_eq_of_le hj with hlt | rfl
  · exact (h j hlt).1
  · exact hrunning

theorem Reaches.passes {k : ℕ} (h : L.Reaches k) : L.Passes k :=
  fun j hj => ⟨h.1 j (Nat.le_of_lt hj), h.2 j hj⟩

variable (L)

theorem run_of_passes {k : ℕ} (h : L.Passes k) (fuel : ℕ) (s : σ) :
    ∃ s', L.run (k + fuel) 0 s = L.run fuel k s' := by
  induction k generalizing fuel with
  | zero => exact ⟨s, by rw [Nat.zero_add]⟩
  | succ k ih =>
    obtain ⟨hrunning, hpoll⟩ := h k (Nat.lt_succ_self k)
    obtain ⟨s', hs'⟩ := ih (fun j hj => h j (Nat.lt_succ_of_lt hj)) (fuel + 1)
    refine ⟨L.advance k s', ?_⟩
    rw [show k + 1 + fuel = k + (fuel + 1) by omega, hs']
    exact L.run_of_undecided hrunning hpoll fuel s'

theorem run_of_reaches {k : ℕ} (h : L.Reaches k) (fuel : ℕ) (s : σ) :
    ∃ s', L.run (k + fuel) 0 s = L.run fuel k s' :=
  L.run_of_passes h.passes fuel s

/-- Where a loop stops, every poll before was undecided, and this one decides or comes too late. -/
theorem run_spec {fuel k : ℕ} {s : σ} {x : Stopped V σ} (hk : L.Passes k)
    (h : L.run fuel k s = some x) :
    k ≤ x.poll ∧ L.Passes x.poll ∧
      (L.running x.poll = true ∧ L.poll x.poll = some x.verdict ∨
        L.running x.poll = false ∧ x.verdict = L.late) := by
  induction fuel generalizing k s with
  | zero => cases h
  | succ fuel ih =>
    cases hrunning : L.running k with
    | false =>
      rw [L.run_of_late hrunning] at h
      cases h
      exact ⟨Nat.le_refl k, hk, Or.inr ⟨hrunning, rfl⟩⟩
    | true =>
      cases hpoll : L.poll k with
      | some v =>
        rw [L.run_of_decided hrunning hpoll] at h
        cases h
        exact ⟨Nat.le_refl k, hk, Or.inl ⟨hrunning, hpoll⟩⟩
      | none =>
        rw [L.run_of_undecided hrunning hpoll] at h
        obtain ⟨hle, hrest⟩ := ih (hk.succ hrunning hpoll) h
        exact ⟨Nat.le_of_succ_le hle, hrest⟩

theorem passes_zero : L.Passes 0 := fun j hj => absurd hj (Nat.not_lt_zero j)

def RunsOut : Prop := ∃ k, L.Passes k ∧ L.running k = false

/-- What holds of all a loop can end with holds of the polls it reaches, and of its late end. -/
theorem forall_verdict_iff {P : V → Prop} (s : σ) :
    (∀ fuel x, L.run fuel 0 s = some x → P x.verdict) ↔
      (∀ k, L.Reaches k → ∀ v, L.poll k = some v → P v) ∧ (L.RunsOut → P L.late) := by
  constructor
  · intro h
    constructor
    · intro k hk v hv
      obtain ⟨s', hs'⟩ := L.run_of_reaches hk 1 s
      exact h (k + 1) ⟨k, v, s'⟩ (hs'.trans (L.run_of_decided (hk.1 k (Nat.le_refl k)) hv 0 s'))
    · rintro ⟨k, hk, hlate⟩
      obtain ⟨s', hs'⟩ := L.run_of_passes hk 1 s
      exact h (k + 1) ⟨k, L.late, s'⟩ (hs'.trans (L.run_of_late hlate 0 s'))
  · rintro ⟨hpolls, hlate⟩ fuel x hx
    obtain ⟨-, hpasses, ⟨hrunning, hpoll⟩ | ⟨hstopped, hverdict⟩⟩ := L.run_spec L.passes_zero hx
    · exact hpolls x.poll (hpasses.reaches hrunning) x.verdict hpoll
    · rw [hverdict]
      exact hlate ⟨x.poll, hpasses, hstopped⟩

end Single

/-- Both ran out of fuel, or both stopped, at one poll and with related verdicts. -/
def Agree (R : V → W → Prop) : Option (Stopped V σ) → Option (Stopped W τ) → Prop :=
  Option.Rel fun x y => x.poll = y.poll ∧ R x.verdict y.verdict

theorem rel_eq_iff {x y : Option V} : Option.Rel Eq x y ↔ x = y := by
  constructor
  · intro h
    cases h with
    | none => rfl
    | some h => rw [h]
  · rintro rfl
    cases x with
    | none => exact .none
    | some v => exact .some rfl

variable {R : V → W → Prop} {L : PollLoop V σ} {M : PollLoop W τ}

theorem poll_eq_none_of_rel {k : ℕ} (h : Option.Rel R (L.poll k) (M.poll k))
    (hL : L.poll k = none) : M.poll k = none := by
  rw [hL] at h
  cases hM : M.poll k with
  | none => rfl
  | some w =>
    rw [hM] at h
    cases h

theorem agree_of_polls (hrunning : ∀ k, L.running k = M.running k)
    (hlate : L.RunsOut → R L.late M.late)
    (hpolls : ∀ k, L.Reaches k → Option.Rel R (L.poll k) (M.poll k)) (fuel k : ℕ)
    (hbefore : L.Passes k) (s : σ) (t : τ) :
    Agree R (L.run fuel k s) (M.run fuel k t) := by
  -- `hbefore` carries along that poll `k` is reached, where `hpolls` applies
  induction fuel generalizing k s t with
  | zero => exact .none
  | succ fuel ih =>
    cases hr : L.running k with
    | false =>
      rw [L.run_of_late hr, M.run_of_late ((hrunning k).symm.trans hr)]
      exact .some ⟨rfl, hlate ⟨k, hbefore, hr⟩⟩
    | true =>
      have hr' := (hrunning k).symm.trans hr
      have hrel := hpolls k (hbefore.reaches hr)
      cases hL : L.poll k with
      | some v =>
        rw [hL] at hrel
        cases hM : M.poll k with
        | none =>
          rw [hM] at hrel
          cases hrel
        | some w =>
          rw [hM] at hrel
          cases hrel with
          | some hvw =>
            rw [L.run_of_decided hr hL, M.run_of_decided hr' hM]
            exact .some ⟨rfl, hvw⟩
      | none =>
        have hM := poll_eq_none_of_rel hrel hL
        rw [L.run_of_undecided hr hL, M.run_of_undecided hr' hM]
        exact ih (k + 1) (hbefore.succ hr hL) _ _

theorem polls_of_agree (hrunning : ∀ k, L.running k = M.running k) {s : σ} {t : τ}
    (hagree : ∀ fuel, Agree R (L.run fuel 0 s) (M.run fuel 0 t)) (k : ℕ) (hreaches : L.Reaches k) :
    Option.Rel R (L.poll k) (M.poll k) := by
  induction k using Nat.strongRecOn with
  | ind k ih =>
    have hM : M.Reaches k := by
      refine ⟨fun j hj => (hrunning j).symm.trans (hreaches.1 j hj), fun j hj => ?_⟩
      have hj' : L.Reaches j :=
        ⟨fun i hi => hreaches.1 i (by omega), fun i hi => hreaches.2 i (by omega)⟩
      exact poll_eq_none_of_rel (ih j hj hj') (hreaches.2 j hj)
    have hr := hreaches.1 k (Nat.le_refl k)
    have hr' := hM.1 k (Nat.le_refl k)
    obtain ⟨s', hs'⟩ := L.run_of_reaches hreaches 1 s
    obtain ⟨t', ht'⟩ := M.run_of_reaches hM 1 t
    -- fuel for `k + 1` rounds is just enough to see poll `k` decide
    have h := hagree (k + 1)
    rw [hs', ht'] at h
    cases hLk : L.poll k with
    | some v =>
      rw [L.run_of_decided hr hLk] at h
      cases hMk : M.poll k with
      | some w =>
        rw [M.run_of_decided hr' hMk] at h
        cases h with
        | some hvw => exact .some hvw.2
      | none =>
        rw [M.run_of_undecided hr' hMk] at h
        cases h
    | none =>
      rw [L.run_of_undecided hr hLk] at h
      cases hMk : M.poll k with
      | some w =>
        rw [M.run_of_decided hr' hMk] at h
        cases h
      | none => exact .none

theorem late_of_agree (hrunning : ∀ k, L.running k = M.running k) {s : σ} {t : τ}
    (hagree : ∀ fuel, Agree R (L.run fuel 0 s) (M.run fuel 0 t)) (hlate : L.RunsOut) :
    R L.late M.late := by
  obtain ⟨k, hpasses, hr⟩ := hlate
  have hM : M.Passes k := by
    intro j hj
    obtain ⟨hrunning', hpoll⟩ := hpasses j hj
    have hreaches : L.Reaches j :=
      ⟨fun i hi => (hpasses i (by omega)).1, fun i hi => (hpasses i (by omega)).2⟩
    exact ⟨(hrunning j).symm.trans hrunning',
      poll_eq_none_of_rel (polls_of_agree hrunning hagree j hreaches) hpoll⟩
  obtain ⟨s', hs'⟩ := L.run_of_passes hpasses 1 s
  obtain ⟨t', ht'⟩ := M.run_of_passes hM 1 t
  have h := hagree (k + 1)
  rw [hs', ht', L.run_of_late hr, M.run_of_late ((hrunning k).symm.trans hr)] at h
  cases h with
  | some hvw => exact hvw.2

/-- Loops on one clock agree for all time exactly if they agree at every poll the first reaches, and
at the end where it comes to it. -/
theorem agree_iff (hrunning : ∀ k, L.running k = M.running k) (s : σ) (t : τ) :
    (∀ fuel, Agree R (L.run fuel 0 s) (M.run fuel 0 t)) ↔
      (∀ k, L.Reaches k → Option.Rel R (L.poll k) (M.poll k)) ∧
        (L.RunsOut → R L.late M.late) := by
  constructor
  · exact fun h => ⟨fun k => polls_of_agree hrunning h k, late_of_agree hrunning h⟩
  · rintro ⟨hpolls, hlate⟩ fuel
    exact agree_of_polls hrunning hlate hpolls fuel 0 L.passes_zero s t

theorem agree_iff_polls (hrunning : ∀ k, L.running k = M.running k) (hlate : R L.late M.late)
    (s : σ) (t : τ) :
    (∀ fuel, Agree R (L.run fuel 0 s) (M.run fuel 0 t)) ↔
      ∀ k, L.Reaches k → Option.Rel R (L.poll k) (M.poll k) :=
  (agree_iff hrunning s t).trans (and_iff_left fun _ => hlate)

end PollLoop
end AgentValet.Base
