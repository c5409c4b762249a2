import Mathlib.Algebra.Order.Ring.Int

/-!
# Timestamps and their differences

`timing/mod.rs`.  An event carries a pair of `u64` clock readings, and every measurement of the
harness is a difference of two monotonic readings.  The source writes each such difference as

    i64::try_from(later).unwrap_or(i64::MAX) - i64::try_from(earlier).unwrap_or(i64::MAX)

so a reading of `2^63` or more is clamped to `i64::MAX` before the subtraction.  `i64OfU64` is that
clamped conversion and `deltaNs` is that difference, on `Int64`, whose subtraction wraps around.
`toInt_deltaNs` says that it never has to: both operands are nonnegative.
-/

namespace GrpcBench

/-- A `(mono_ns, wall_ms)` pair. -/
structure EventTimestamp where
  monoNs : UInt64
  wallMs : UInt64
  deriving DecidableEq, Repr

/-- `i64::try_from(x).unwrap_or(i64::MAX)`. -/
def i64OfU64 (x : UInt64) : Int64 :=
  if x.toNat < 2 ^ 63 then Int64.ofNat x.toNat else Int64.maxValue

/-- The clamped reading, as an integer. -/
def clampNs (x : UInt64) : ℤ :=
  min x.toNat (2 ^ 63 - 1)

/-- The difference of two monotonic readings, with the `i64` subtraction of the source. -/
def deltaNs (later earlier : EventTimestamp) : Int64 :=
  i64OfU64 later.monoNs - i64OfU64 earlier.monoNs

theorem toInt_i64OfU64 (x : UInt64) : (i64OfU64 x).toInt = clampNs x := by
  unfold i64OfU64 clampNs
  split_ifs with h
  · rw [Int64.toInt_ofNat_of_lt h]
    omega
  · have hmax : Int64.maxValue.toInt = 2 ^ 63 - 1 := by decide
    rw [hmax]
    omega

theorem clampNs_nonneg (x : UInt64) : 0 ≤ clampNs x := by
  unfold clampNs
  omega

theorem clampNs_le (x : UInt64) : clampNs x ≤ 2 ^ 63 - 1 := by
  unfold clampNs
  omega

theorem clampNs_of_lt {x : UInt64} (h : x.toNat < 2 ^ 63) : clampNs x = x.toNat := by
  unfold clampNs
  omega

/-- **No difference of two readings overflows.**  The wrapping subtraction is the exact one. -/
theorem toInt_deltaNs (later earlier : EventTimestamp) :
    (deltaNs later earlier).toInt = clampNs later.monoNs - clampNs earlier.monoNs := by
  have h1 := clampNs_nonneg later.monoNs
  have h2 := clampNs_nonneg earlier.monoNs
  have h3 := clampNs_le later.monoNs
  have h4 := clampNs_le earlier.monoNs
  rw [deltaNs, Int64.toInt_sub, toInt_i64OfU64, toInt_i64OfU64]
  exact Int.bmod_eq_of_le (by omega) (by omega)

theorem toInt_deltaNs_swap (t t' : EventTimestamp) :
    (deltaNs t t').toInt = -(deltaNs t' t).toInt := by
  rw [toInt_deltaNs, toInt_deltaNs]
  omega

/-- `a.saturating_sub(b)` on `u64`. -/
def saturatingSub (a b : UInt64) : UInt64 :=
  if b ≤ a then a - b else 0

@[simp] theorem toNat_saturatingSub (a b : UInt64) :
    (saturatingSub a b).toNat = a.toNat - b.toNat := by
  unfold saturatingSub
  split_ifs with h
  · exact UInt64.toNat_sub_of_le _ _ h
  · rw [UInt64.le_iff_toNat_le] at h
    simp
    omega

end GrpcBench
