import Mathlib.Algebra.Order.Floor.Ring
import Mathlib.Algebra.Order.Field.Power
import Mathlib.Data.Int.Log
import Mathlib.Data.Rat.Floor
import Mathlib.Tactic.Linarith
import Mathlib.Tactic.Positivity

/-!
# Rounding to a fixed number of significant bits

A binary floating-point result is the exact result rounded to the nearest number with `p`
significant bits, ties going to the even significand.  `roundSig p` is that rounding on exact
rationals, with no bound on the exponent: it is the arithmetic of a binary format wherever neither
overflow nor gradual underflow can happen.

Rounding keeps the sign of a number, in both directions (`roundSig_neg`, `roundSig_pos_iff`).
-/

namespace Rounding

/-- The integer nearest to a rational, ties going to the even one. -/
def nearestEven (x : ℚ) : ℤ :=
  if x - ⌊x⌋ < 1 / 2 then ⌊x⌋
  else if 1 / 2 < x - ⌊x⌋ then ⌊x⌋ + 1
  else ⌊x⌋ + ⌊x⌋ % 2

theorem one_le_nearestEven {x : ℚ} (hx : 1 ≤ x) : 1 ≤ nearestEven x := by
  have hfloor : (1 : ℤ) ≤ ⌊x⌋ := Int.le_floor.mpr (by exact_mod_cast hx)
  unfold nearestEven
  split_ifs
  · exact hfloor
  · omega
  · omega

/-- The exponent of the last of the `p` significant bits of a positive rational. -/
def lastBit (p : ℕ) (x : ℚ) : ℤ :=
  Int.log 2 x - (p - 1)

/-- Rounding of a positive rational to `p` significant bits. -/
def roundPos (p : ℕ) (x : ℚ) : ℚ :=
  nearestEven (x / 2 ^ lastBit p x) * 2 ^ lastBit p x

/-- Rounding to `p` significant bits.  The rounding is symmetric: a negative number is rounded
through its absolute value. -/
def roundSig (p : ℕ) (x : ℚ) : ℚ :=
  if 0 < x then roundPos p x else if x < 0 then -roundPos p (-x) else 0

/-- A significand has its leading bit, so it does not round to zero. -/
theorem one_le_significand {p : ℕ} (hp : 1 ≤ p) {x : ℚ} (hx : 0 < x) :
    1 ≤ x / 2 ^ lastBit p x := by
  have hpow : (0 : ℚ) < 2 ^ lastBit p x := by positivity
  rw [one_le_div hpow]
  have hlog : (2 : ℚ) ^ Int.log 2 x ≤ x := by
    exact_mod_cast Int.zpow_log_le_self (b := 2) (by norm_num) hx
  refine le_trans ?_ hlog
  refine zpow_le_zpow_right₀ (by norm_num) ?_
  have hp' : (1 : ℤ) ≤ p := by exact_mod_cast hp
  unfold lastBit
  omega

theorem roundPos_pos {p : ℕ} (hp : 1 ≤ p) {x : ℚ} (hx : 0 < x) : 0 < roundPos p x := by
  have hone : (1 : ℚ) ≤ nearestEven (x / 2 ^ lastBit p x) := by
    exact_mod_cast one_le_nearestEven (one_le_significand hp hx)
  have hpow : (0 : ℚ) < 2 ^ lastBit p x := by positivity
  exact mul_pos (by linarith) hpow

theorem roundSig_neg (p : ℕ) (x : ℚ) : roundSig p (-x) = -roundSig p x := by
  unfold roundSig
  rcases lt_trichotomy x 0 with hx | hx | hx
  · rw [if_pos (neg_pos.mpr hx), if_neg hx.not_gt, if_pos hx, neg_neg]
  · simp [hx]
  · rw [if_neg (by linarith), if_pos (neg_neg_of_pos hx), if_pos hx, neg_neg]

theorem roundSig_pos_iff {p : ℕ} (hp : 1 ≤ p) (x : ℚ) : 0 < roundSig p x ↔ 0 < x := by
  constructor
  · intro h
    by_contra hx
    rcases lt_or_eq_of_le (not_lt.mp hx) with hneg | hzero
    · have hpos := roundPos_pos hp (neg_pos.mpr hneg)
      rw [roundSig, if_neg hx, if_pos hneg] at h
      linarith
    · rw [roundSig, if_neg hx, if_neg (by simp [hzero])] at h
      exact lt_irrefl 0 h
  · intro hx
    rw [roundSig, if_pos hx]
    exact roundPos_pos hp hx

end Rounding
