import Mathlib.Data.Int.Log
import Mathlib.Data.Rat.Floor
import Mathlib.Algebra.Order.Field.Power
import Mathlib.Tactic.Positivity
import Mathlib.Tactic.FieldSimp
import Mathlib.Tactic.Linarith
import Mathlib.Tactic.NormNum

namespace AgentValet.Lang

inductive Double where
  | finite (q : ℚ)
  | inf (negative : Bool)
  | nan
  deriving DecidableEq, Repr

/-- Round to the nearest integer, ties to the even one. -/
def roundHalfEven (x : ℚ) : ℤ :=
  if x - ⌊x⌋ < 1 / 2 then ⌊x⌋
  else if 1 / 2 < x - ⌊x⌋ then ⌊x⌋ + 1
  else if ⌊x⌋ % 2 = 0 then ⌊x⌋ else ⌊x⌋ + 1

/-- The distance between the doubles next to `q`: 53 significant bits, `2 ^ (-1074)` at least. -/
def ulp (q : ℚ) : ℚ := 2 ^ max (Int.log 2 |q| - 52) (-1074)

namespace Double

/-- The double nearest to `q`; from `2 ^ 1024 - 2 ^ 970` on, an infinity. -/
def ofRat (q : ℚ) : Double :=
  if 2 ^ 970 * (2 ^ 54 - 1) ≤ |q| then .inf (q < 0) else .finite (roundHalfEven (q / ulp q) * ulp q)

/-- `<` on doubles: false as soon as one side is NaN. -/
def lt : Double → Double → Bool
  | .finite p, .finite q => p < q
  | .finite _, .inf negative => !negative
  | .inf negative, .finite _ => negative
  | .inf true, .inf false => true
  | _, _ => false

/-- `≤` on doubles: false as soon as one side is NaN. -/
def le : Double → Double → Bool
  | .nan, _ => false
  | _, .nan => false
  | x, y => !lt y x

end Double

theorem roundHalfEven_intCast (n : ℤ) : roundHalfEven n = n := by
  simp [roundHalfEven]

theorem ulp_pos (q : ℚ) : 0 < ulp q := zpow_pos (by norm_num) _

/-- A multiple of the spacing at `q` is not rounded. -/
theorem Double.ofRat_of_multiple {q : ℚ} (hq : |q| < 2 ^ 970 * (2 ^ 54 - 1)) {n : ℤ}
    (h : q = n * ulp q) : Double.ofRat q = .finite q := by
  have hn : q / ulp q = n := by
    rw [div_eq_iff (ulp_pos q).ne']
    exact h
  rw [ofRat, if_neg (not_le.mpr hq), hn, roundHalfEven_intCast, ← h]

/-- An integer below `2 ^ 53` is a double. -/
theorem Double.ofRat_intCast {n : ℤ} (h : |n| < 2 ^ 53) : Double.ofRat n = .finite n := by
  have hq : |(n : ℚ)| < 2 ^ 970 * (2 ^ 54 - 1) := by
    have hn : |(n : ℚ)| < 2 ^ 53 := by exact_mod_cast h
    have hpow : (1 : ℚ) ≤ 2 ^ 970 := one_le_pow₀ (by norm_num)
    calc |(n : ℚ)| < 1 * (2 ^ 54 - 1) := hn.trans (by norm_num)
      _ ≤ 2 ^ 970 * (2 ^ 54 - 1) := mul_le_mul_of_nonneg_right hpow (by norm_num)
  have hlog : Int.log 2 |(n : ℚ)| ≤ 52 := by
    have hcast : |(n : ℚ)| = ((n.natAbs : ℕ) : ℚ) := by
      rw [Nat.cast_natAbs, Int.cast_abs]
    rw [hcast, Int.log_natCast]
    have habs : n.natAbs < 2 ^ 53 := by
      rw [Int.abs_eq_natAbs] at h
      omega
    rcases Nat.eq_zero_or_pos n.natAbs with h0 | h0
    · simp [h0]
    · have := Nat.log_lt_of_lt_pow h0.ne' habs
      omega
  -- so the spacing at `n` is a fraction of one, and `n` a multiple of it
  obtain ⟨k, hk⟩ : ∃ k : ℕ, max (Int.log 2 |(n : ℚ)| - 52) (-1074) = -(k : ℤ) :=
    ⟨(-max (Int.log 2 |(n : ℚ)| - 52) (-1074)).toNat, by omega⟩
  apply Double.ofRat_of_multiple hq (n := n * 2 ^ k)
  rw [ulp, hk, zpow_neg, zpow_natCast]
  push_cast
  field_simp

end AgentValet.Lang
