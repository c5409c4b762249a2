import GrpcBench.Proto
import Mathlib.Data.Prod.Lex
import Mathlib.Order.Lattice

/-!
# Plugin baselines

Versions are ordered lexicographically, and `SemVer.ord` decides that order.  A server is refused
for an older proto major, or for a plugin below the minimum of its package; the minimum binds the
plugins of its own major only, and nothing is refused that reports no proto version.

* `isRefusal_classify_iff`: the refused servers.
* `classify_enforces_baseline`: what the baseline of a package refuses, and that within its major a
  newer plugin is not refused where an older one is not.
* `not_isRefusal_of_fetch`: a run starts with servers that are not refused.
-/

namespace GrpcBench

namespace SemVer

/-! ## The order of versions -/

/-- The components, ordered lexicographically. -/
def key (v : SemVer) : ℕ ×ₗ ℕ ×ₗ ℕ :=
  toLex (v.major.toNat, toLex (v.minor.toNat, v.patch.toNat))

theorem key_injective : Function.Injective key := by
  intro v w h
  obtain ⟨hmajor, h⟩ := Prod.mk.inj (toLex.injective h)
  obtain ⟨hminor, hpatch⟩ := Prod.mk.inj (toLex.injective h)
  obtain ⟨major, minor, patch⟩ := v
  rw [SemVer.mk.injEq]
  exact ⟨UInt32.toNat_inj.mp hmajor, UInt32.toNat_inj.mp hminor, UInt32.toNat_inj.mp hpatch⟩

instance : PartialOrder SemVer := PartialOrder.lift key key_injective

theorem lt_iff {v w : SemVer} : v < w ↔ v.major < w.major ∨ v.major = w.major ∧
    (v.minor < w.minor ∨ v.minor = w.minor ∧ v.patch < w.patch) := by
  have hkey : v < w ↔ key v < key w := Iff.rfl
  simp only [hkey, key, Prod.Lex.toLex_lt_toLex, UInt32.lt_iff_toNat_lt, UInt32.toNat_inj]

instance : DecidableLT SemVer := fun _ _ => decidable_of_iff _ lt_iff.symm

theorem major_le_of_le {v w : SemVer} (h : v ≤ w) : v.major ≤ w.major :=
  UInt32.le_iff_toNat_le.mpr (Prod.Lex.monotone_fst (key v) (key w) h)

/-- `ord` decides the order. -/
theorem ord_eq_lt_iff {v w : SemVer} : v.ord w = .lt ↔ v < w := by
  simp only [ord, Ordering.then_eq_lt, Std.compare_eq_lt, Std.compare_eq_iff_eq, lt_iff]

end SemVer

/-! ## Refusals -/

variable {harness serverProto : SemVer} {serverPlugin : Option SemVer} {package : Option String}

/-- A package has a minimum that binds the version, and the version is below it. -/
def BelowBaseline (package : Option String) (target : SemVer) : Prop :=
  ∃ pkg minimum, package = some pkg ∧ baseline pkg = some minimum ∧
    target.major = minimum.major ∧ target < minimum

theorem refuseBelowBaseline_eq_some_iff {outcome : Compatibility} :
    refuseBelowBaseline serverProto serverPlugin package = some outcome ↔
      ∃ pkg minimum, package = some pkg ∧ baseline pkg = some minimum ∧
        ((serverPlugin.getD serverProto).major = minimum.major ∧
          serverPlugin.getD serverProto < minimum) ∧
        .refuseBaseline pkg minimum (serverPlugin.getD serverProto) = outcome := by
  simp only [refuseBelowBaseline, Option.bind_eq_some_iff, SemVer.ord_eq_lt_iff,
    Option.ite_none_right_eq_some, Option.some_inj]
  constructor
  · rintro ⟨pkg, hpkg, minimum, hmin, h⟩
    exact ⟨pkg, minimum, hpkg, hmin, h⟩
  · rintro ⟨pkg, minimum, hpkg, hmin, h⟩
    exact ⟨pkg, hpkg, minimum, hmin, h⟩

theorem isRefusal_drift : (drift harness serverProto).isRefusal = false := by
  unfold drift
  split <;> rfl

/-- **The refused servers.** -/
theorem isRefusal_classify_iff :
    (classify harness (some serverProto) serverPlugin package).isRefusal = true ↔
      serverProto.major < harness.major ∨
        BelowBaseline package (serverPlugin.getD serverProto) := by
  rw [classify]
  split_ifs with hmajor
  · exact iff_of_true rfl (Or.inl hmajor)
  · rw [or_iff_right hmajor]
    rcases h : refuseBelowBaseline serverProto serverPlugin package with _ | outcome
    · rw [Option.getD_none, isRefusal_drift]
      refine iff_of_false (by simp) ?_
      rintro ⟨pkg, minimum, hpkg, hmin, hlt⟩
      have hsome := refuseBelowBaseline_eq_some_iff.mpr ⟨pkg, minimum, hpkg, hmin, hlt, rfl⟩
      rw [h] at hsome
      cases hsome
    · obtain ⟨pkg, minimum, hpkg, hmin, hlt, rfl⟩ := refuseBelowBaseline_eq_some_iff.mp h
      exact iff_of_true rfl ⟨pkg, minimum, hpkg, hmin, hlt⟩

theorem isRefusal_classify_none :
    (classify harness none serverPlugin package).isRefusal = false :=
  rfl

/-- A baseline refusal names the package, its minimum and a version below it. -/
theorem classify_eq_refuseBaseline {proto : Option SemVer} {pkg : String}
    {minimum reported : SemVer}
    (h : classify harness proto serverPlugin package = .refuseBaseline pkg minimum reported) :
    package = some pkg ∧ baseline pkg = some minimum ∧ reported < minimum := by
  unfold classify at h
  split at h
  · cases h
  · rename_i serverProto
    split_ifs at h with hmajor
    rcases hbase : refuseBelowBaseline serverProto serverPlugin package with _ | outcome
    · rw [hbase, Option.getD_none] at h
      have hdrift : (drift harness serverProto).isRefusal = false := isRefusal_drift
      rw [h] at hdrift
      cases hdrift
    · rw [hbase, Option.getD_some] at h
      obtain ⟨pkg', minimum', hpkg, hmin, hlt, rfl⟩ := refuseBelowBaseline_eq_some_iff.mp hbase
      cases h
      exact ⟨hpkg, hmin, hlt.2⟩

/-- The verdict on a plugin of a package with a minimum. -/
theorem isRefusal_classify_baseline {proto : Option SemVer} {pkg : String} {minimum p : SemVer}
    (hmin : baseline pkg = some minimum) :
    (classify harness proto (some p) (some pkg)).isRefusal = true ↔
      ∃ s, proto = some s ∧
        (s.major < harness.major ∨ p.major = minimum.major ∧ p < minimum) := by
  rcases proto with _ | s
  · rw [isRefusal_classify_none]
    exact iff_of_false (by simp) (by simp)
  · rw [isRefusal_classify_iff, Option.getD_some]
    constructor
    · rintro (hmajor | ⟨pkg', minimum', hpkg, hmin', hlt⟩)
      · exact ⟨s, rfl, Or.inl hmajor⟩
      · cases hpkg
        rw [hmin, Option.some_inj] at hmin'
        exact ⟨s, rfl, Or.inr (hmin' ▸ hlt)⟩
    · rintro ⟨s', hs, h⟩
      cases hs
      exact h.imp_right fun hlt => ⟨pkg, minimum, rfl, hmin, hlt⟩

/-- **The baseline of a package.**  It refuses the plugins of its major below it, once a proto
version is reported, and within its major or above a newer plugin is not refused where an older one
is not. -/
theorem classify_enforces_baseline {pkg : String} {minimum : SemVer}
    (hmin : baseline pkg = some minimum) (harness : SemVer) (proto : Option SemVer) :
    (∀ p, (classify harness proto (some p) (some pkg)).isRefusal = true ↔
      ∃ s, proto = some s ∧
        (s.major < harness.major ∨ p.major = minimum.major ∧ p < minimum)) ∧
    (∀ plugin pkg' minimum' reported,
      classify harness proto plugin (some pkg) = .refuseBaseline pkg' minimum' reported →
        pkg' = pkg ∧ minimum' = minimum ∧ reported < minimum) ∧
    ∀ p p', p ≤ p' → minimum.major ≤ p.major →
      (classify harness proto (some p) (some pkg)).isRefusal = false →
        (classify harness proto (some p') (some pkg)).isRefusal = false := by
  refine ⟨fun p => isRefusal_classify_baseline hmin, fun plugin pkg' minimum' reported h => ?_,
    fun p p' hle hmajor hp => ?_⟩
  · obtain ⟨hpkg, hmin', hlt⟩ := classify_eq_refuseBaseline h
    cases hpkg
    rw [hmin, Option.some_inj] at hmin'
    exact ⟨rfl, hmin'.symm, hmin' ▸ hlt⟩
  · rw [Bool.eq_false_iff, ne_eq, isRefusal_classify_baseline hmin] at hp ⊢
    rintro ⟨s, hs, hold | ⟨hmajor', hlt⟩⟩
    · exact hp ⟨s, hs, Or.inl hold⟩
    · have hsame : p.major = minimum.major :=
        UInt32.le_antisymm (hmajor' ▸ SemVer.major_le_of_le hle) hmajor
      exact hp ⟨s, hs, Or.inr ⟨hsame, hle.trans_lt hlt⟩⟩

theorem classify_enforces_baseline_richat :
    (classify ⟨12, 3, 0⟩ (some ⟨12, 3, 0⟩) (some ⟨2, 0, 9⟩) (some "richat")).isRefusal = true :=
  have hmin : baseline "richat" = some minRichat := rfl
  ((classify_enforces_baseline hmin ⟨12, 3, 0⟩ (some ⟨12, 3, 0⟩)).1 ⟨2, 0, 9⟩).mpr
    ⟨_, rfl, Or.inr (by decide)⟩

/-- A plugin of an older major is below the minimum and is not refused, while a newer one is; and
without a proto version no plugin is refused. -/
theorem not_isRefusal_older_plugin_major :
    baseline "yellowstone-grpc-geyser" = some ⟨12, 2, 0⟩ ∧
    (⟨11, 9, 9⟩ : SemVer) < ⟨12, 2, 0⟩ ∧
    (classify ⟨12, 3, 0⟩ (some ⟨12, 3, 0⟩) (some ⟨11, 9, 9⟩)
      (some "yellowstone-grpc-geyser")).isRefusal = false ∧
    (⟨11, 9, 9⟩ : SemVer) < ⟨12, 1, 0⟩ ∧
    (classify ⟨12, 3, 0⟩ (some ⟨12, 3, 0⟩) (some ⟨12, 1, 0⟩)
      (some "yellowstone-grpc-geyser")).isRefusal = true ∧
    (classify ⟨12, 3, 0⟩ none (some ⟨12, 1, 0⟩)
      (some "yellowstone-grpc-geyser")).isRefusal = false := by
  decide

/-! ## At startup -/

/-- A refusal ends the call with an error. -/
theorem not_isRefusal_of_fetch {reader : BlobReader} {quoted : String → String} {url : String}
    {response : Except String String} {v : EndpointVersion}
    (h : fetchAndEvaluateVersion reader quoted url response = some (.ok v)) :
    v.compatibility.isRefusal = false := by
  unfold fetchAndEvaluateVersion at h
  split at h
  · cases h
  · obtain ⟨evaluation, -, h⟩ := Option.map_eq_some_iff.mp h
    split at h
    · cases h
    · cases h
    · rename_i hmajor hbase
      cases h
      rcases hc : v.compatibility with _ | _ | ⟨harness, server⟩ | ⟨package, minimum, reported⟩ | _
      · rfl
      · rfl
      · exact absurd hc (hmajor harness server)
      · exact absurd hc (hbase package minimum reported)
      · rfl

end GrpcBench
