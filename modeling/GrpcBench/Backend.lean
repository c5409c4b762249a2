import GrpcBench.Library.Rounding
import Mathlib.Data.Finset.Dedup
import Mathlib.Data.Finset.Sort
import Mathlib.Data.Multiset.AddSub
import Mathlib.Data.Rat.Cast.Defs

/-!
# What the harness takes from outside

The trackers compute with three things whose code is not in the repository: `f64` arithmetic, the
`tdigest` crate, and the iteration order of a standard hash map.  A `Backend` bundles them with the
documented behaviour the trackers rely on.

* A sample is `(delta_ns as f64) / 1_000_000.0`.  Both operations are odd and keep the sign, since
  rounding to nearest is symmetric and no nonzero quotient of the two comes near underflow.  Samples
  are finite, so they are rationals; the NaN of an empty digest is `none`.
* `TDigest::merge_unsorted` adds exactly the given samples.  `samples` is the multiset of the
  samples a digest was built from; the code never reads it.
* `takeKeys s n` stands for `keys().take(n)` on a map with key set `s`.

`Backend.binary64` is the backend with binary64 rounding, and `Backend.exact` the one with exact
division; both keep their samples in a list.
-/

namespace GrpcBench

/-- `f64` arithmetic, the `tdigest` crate, and the order of hash map iteration. -/
structure Backend where
  /-- `d as f64`, for an `i64` value `d`. -/
  asF64 : ℤ → ℚ
  /-- `x / 1_000_000.0`. -/
  perMillion : ℚ → ℚ
  asF64_neg : ∀ d, asF64 (-d) = -asF64 d
  asF64_pos : ∀ d, 0 < asF64 d ↔ 0 < d
  perMillion_neg : ∀ x, perMillion (-x) = -perMillion x
  perMillion_pos : ∀ x, 0 < perMillion x ↔ 0 < x
  /-- `tdigest::TDigest`. -/
  TDigest : Type
  newWithSize : ℕ → TDigest
  mergeUnsorted : TDigest → List ℚ → TDigest
  mergeDigests : List TDigest → TDigest
  isEmpty : TDigest → Bool
  estimateQuantile : TDigest → ℚ → ℚ
  /-- The samples a digest was built from. -/
  samples : TDigest → Multiset ℚ
  samples_newWithSize : ∀ n, samples (newWithSize n) = 0
  samples_mergeUnsorted : ∀ d xs, samples (mergeUnsorted d xs) = samples d + (xs : Multiset ℚ)
  /-- The first `n` keys an iteration over a hash map with these keys yields. -/
  takeKeys : {K : Type} → Finset K → ℕ → List K

namespace Backend

variable (B : Backend)

/-- `(d as f64) / 1_000_000.0`: a nanosecond count in milliseconds. -/
def toMs (d : ℤ) : ℚ :=
  B.perMillion (B.asF64 d)

@[simp] theorem toMs_neg (d : ℤ) : B.toMs (-d) = -B.toMs d := by
  rw [toMs, asF64_neg, perMillion_neg, toMs]

@[simp] theorem toMs_pos (d : ℤ) : 0 < B.toMs d ↔ 0 < d := by
  rw [toMs, perMillion_pos, asF64_pos]

/-- A conversion keeps the sign of a negative count as well. -/
@[simp] theorem toMs_neg_iff (d : ℤ) : B.toMs d < 0 ↔ d < 0 := by
  have h := B.toMs_pos (-d)
  rw [toMs_neg] at h
  rw [← neg_pos, h]
  omega

/-! ## Two backends -/

/-- The `i`-th of `n` samples in increasing order, for the nearest-rank quantile. -/
def nearestRank (xs : List ℚ) (q : ℚ) : ℚ :=
  (xs.mergeSort (fun a b => decide (a ≤ b))).getD (⌈q * xs.length⌉.toNat - 1) 0

/-- The arithmetic of binary64: every operation rounds to 53 significant bits. -/
noncomputable def binary64 : Backend where
  asF64 d := Rounding.roundSig 53 d
  perMillion x := Rounding.roundSig 53 (x / 1000000)
  asF64_neg d := by rw [Int.cast_neg, Rounding.roundSig_neg]
  asF64_pos d := by rw [Rounding.roundSig_pos_iff (by norm_num), Int.cast_pos]
  perMillion_neg x := by rw [neg_div, Rounding.roundSig_neg]
  perMillion_pos x := by
    rw [Rounding.roundSig_pos_iff (by norm_num)]
    exact div_pos_iff_of_pos_right (by norm_num)
  TDigest := List ℚ
  newWithSize _ := []
  mergeUnsorted d xs := d ++ xs
  mergeDigests ds := ds.flatten
  isEmpty d := d.isEmpty
  estimateQuantile d q := nearestRank d q
  samples d := d
  samples_newWithSize _ := rfl
  samples_mergeUnsorted _ _ := rfl
  takeKeys s n := s.toList.take n

/-- Exact division, for statements that take milliseconds as exact rationals. -/
noncomputable def exact : Backend :=
  { binary64 with
    asF64 := fun d => d
    perMillion := fun x => x / 1000000
    asF64_neg := fun d => Int.cast_neg d
    asF64_pos := fun _ => Int.cast_pos
    perMillion_neg := fun x => neg_div _ x
    perMillion_pos := fun _ => div_pos_iff_of_pos_right (by norm_num) }

end Backend

end GrpcBench
