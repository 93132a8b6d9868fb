import Mathlib.Algebra.Order.Floor.Semiring
import Mathlib.Tactic.Linarith

namespace AgentValet.Base
variable {K : Type*} [Field K] [LinearOrder K] [IsStrictOrderedRing K]

/-- The clock does not run back, and from one poll to the next it moves by `step` at least. -/
structure Paced (now : ℕ → K) (step : K) : Prop where
  start : now 0 ≤ now 1
  pace : ∀ k, now (k + 1) + step ≤ now (k + 2)

variable {now : ℕ → K} {step : K}

theorem Paced.le (h : Paced now step) (k : ℕ) : now 0 + k * step ≤ now (k + 1) := by
  induction k with
  | zero => simpa using h.start
  | succ k ih =>
    have hpace := h.pace k
    push_cast
    linarith

theorem Paced.mono (h : Paced now step) (hstep : 0 ≤ step) {j k : ℕ} (hjk : j ≤ k) :
    now (j + 1) ≤ now (k + 1) := by
  induction k, hjk using Nat.le_induction with
  | base => exact le_refl _
  | succ k _ ih =>
    have hpace := h.pace k
    linarith

variable [FloorSemiring K] {timeout : K}

/-- A step that begins before the deadline leaves room for one step less. -/
theorem ceil_after_step {deadline t now : K} (hstep : 0 < step) (htime : t ≤ now)
    (hnow : now < deadline) :
    ⌈(deadline - (now + step)) / step⌉₊ + 1 ≤ ⌈(deadline - t) / step⌉₊ := by
  have hpos : 0 < (deadline - now) / step := div_pos (sub_pos.2 hnow) hstep
  have hless : (deadline - (now + step)) / step = (deadline - now) / step - 1 := by
    rw [← sub_sub, sub_div, div_self hstep.ne']
  have hle : ⌈(deadline - now) / step⌉₊ ≤ ⌈(deadline - t) / step⌉₊ :=
    Nat.ceil_le_ceil (div_le_div_of_nonneg_right (sub_le_sub_left htime deadline) hstep.le)
  have hone : 1 ≤ ⌈(deadline - now) / step⌉₊ := Nat.one_le_ceil_iff.2 hpos
  rw [hless, Nat.ceil_sub_one]
  omega

/-- Poll `k` is made before the deadline only if `k` steps are shorter than the timeout. -/
theorem Paced.lt_ceil (h : Paced now step) (hstep : 0 < step) {k : ℕ}
    (hk : now (k + 1) < now 0 + timeout) : k < ⌈timeout / step⌉₊ := by
  rw [Nat.lt_ceil, lt_div_iff₀ hstep]
  have hle := h.le k
  linarith

theorem Paced.not_lt_at_ceil (h : Paced now step) (hstep : 0 < step) :
    ¬ now (⌈timeout / step⌉₊ + 1) < now 0 + timeout := fun hlt =>
  absurd (h.lt_ceil hstep hlt) (lt_irrefl _)

end AgentValet.Base
