import GrpcBench.Collect.Affinity
import Mathlib.Tactic.Linarith

/-!
# The layout for a host

Core 0 and core 1 are left to the kernel, the highest core is the control core, and what lies
between is split between the endpoints, the odd core going to the second.  The source computes the
bounds on `u32`, with half-open and closed ranges mixed.

* `checkedSub_eq`, `checkedAdd_eq`: an operation within the bounds is the exact one.
* `map_toNat_coreRange`, `map_toNat_coreRangeInclusive`: the two kinds of range.
* `IsBalanced` and `autoForCoreCount_balanced`: from six cores on, the layout is a partition.
-/

namespace GrpcBench

namespace AffinitySpec

theorem checkedSub_eq {a b : UInt32} (h : b.toNat ≤ a.toNat) :
    ∃ c, checkedSub a b = some c ∧ c.toNat = a.toNat - b.toNat := by
  have hle : b ≤ a := UInt32.le_iff_toNat_le.mpr h
  exact ⟨a - b, if_pos hle, UInt32.toNat_sub_of_le _ _ hle⟩

theorem checkedAdd_eq {a b : UInt32} (h : a.toNat + b.toNat < UInt32.size) :
    ∃ c, checkedAdd a b = some c ∧ c.toNat = a.toNat + b.toNat := by
  refine ⟨a + b, if_pos h, ?_⟩
  rw [UInt32.toNat_add]
  exact Nat.mod_eq_of_lt h

/-- The core count the layout is made for. -/
theorem toNat_u32OfUsize (n : ℕ) : (u32OfUsize n).toNat = min n (UInt32.size - 1) := by
  unfold u32OfUsize
  split_ifs with h
  · rw [UInt32.toNat_ofNat_of_lt' h]
    omega
  · rw [UInt32.toNat_ofNat_of_lt' (by decide)]
    omega

/-! ## Ranges -/

theorem map_toNat_range' {lo len : ℕ} (h : lo + len ≤ UInt32.size) :
    ((List.range' lo len).map UInt32.ofNat).map UInt32.toNat = List.range' lo len := by
  rw [List.map_map]
  refine (List.map_congr_left fun n hn => ?_).trans (List.map_id _)
  have hlt := (List.mem_range'_1.mp hn).2
  exact UInt32.toNat_ofNat_of_lt' (by omega)

theorem map_toNat_coreRange (lo hi : UInt32) :
    (coreRange lo hi).map UInt32.toNat = List.range' lo.toNat (hi.toNat - lo.toNat) := by
  have hlo := lo.toNat_lt
  have hhi := hi.toNat_lt
  exact map_toNat_range' (by rw [UInt32.size]; omega)

theorem map_toNat_coreRangeInclusive (lo hi : UInt32) :
    (coreRangeInclusive lo hi).map UInt32.toNat =
      List.range' lo.toNat (hi.toNat + 1 - lo.toNat) := by
  have hlo := lo.toNat_lt
  have hhi := hi.toNat_lt
  exact map_toNat_range' (by rw [UInt32.size]; omega)

/-- The cores of a list of consecutive ones. -/
theorem mem_of_map_toNat {cores : List UInt32} {lo len : ℕ}
    (h : cores.map UInt32.toNat = List.range' lo len) (c : UInt32) :
    c ∈ cores ↔ lo ≤ c.toNat ∧ c.toNat < lo + len := by
  rw [← List.mem_range'_1, ← h, List.mem_map_of_injective fun _ _ => UInt32.toNat_inj.mp]

theorem length_of_map_toNat {cores : List UInt32} {lo len : ℕ}
    (h : cores.map UInt32.toNat = List.range' lo len) : cores.length = len := by
  rw [← List.length_map UInt32.toNat, h, List.length_range']

/-! ## The layout -/

/-- The cores 2 to `n - 1` are split into two runs, of lengths that differ by one at most, and the
control core after them. -/
structure IsBalanced (n : ℕ) (spec : AffinitySpec) : Prop where
  run1 : spec.endpoint1.map UInt32.toNat = List.range' 2 spec.endpoint1.length
  run2 : spec.endpoint2.map UInt32.toNat =
    List.range' (2 + spec.endpoint1.length) spec.endpoint2.length
  nonempty : spec.endpoint1 ≠ [] ∧ spec.endpoint2 ≠ []
  balanced : spec.endpoint2.length = spec.endpoint1.length ∨
    spec.endpoint2.length = spec.endpoint1.length + 1
  control : spec.control.map UInt32.toNat = some (n - 1)
  disjoint : (spec.endpoint1 ++ spec.endpoint2 ++ spec.control.toList).Nodup
  union : ∀ c : UInt32, c ∈ spec.endpoint1 ++ spec.endpoint2 ++ spec.control.toList ↔
    2 ≤ c.toNat ∧ c.toNat ≤ n - 1

/-- Two runs one after the other, and the core after them. -/
theorem isBalanced_of_runs {spec : AffinitySpec} {n len1 len2 : ℕ} {control : UInt32}
    (h1 : spec.endpoint1.map UInt32.toNat = List.range' 2 len1)
    (h2 : spec.endpoint2.map UInt32.toNat = List.range' (2 + len1) len2)
    (hcontrol : spec.control = some control) (hn : control.toNat = n - 1)
    (hlen : 2 + len1 + len2 = n - 1) (hpos : 0 < len1)
    (hbalanced : len2 = len1 ∨ len2 = len1 + 1) : spec.IsBalanced n := by
  have hl1 := length_of_map_toNat h1
  have hl2 := length_of_map_toNat h2
  have hall : (spec.endpoint1 ++ spec.endpoint2 ++ spec.control.toList).map UInt32.toNat =
      List.range' 2 (n - 2) := by
    have hlast : n - 1 = 2 + (len1 + len2) := by omega
    have hcount : n - 2 = len1 + len2 + 1 := by omega
    rw [List.map_append, List.map_append, h1, h2, hcontrol, Option.toList_some, List.map_singleton,
      hn, List.range'_append_1, hlast, hcount, List.range'_1_concat]
  refine ⟨by rw [hl1, h1], by rw [hl1, hl2, h2], ⟨?_, ?_⟩, by rw [hl1, hl2]; exact hbalanced,
    by rw [hcontrol, Option.map_some, hn], ?_, fun c => ?_⟩
  · exact List.ne_nil_of_length_pos (by omega)
  · exact List.ne_nil_of_length_pos (by omega)
  · exact List.Nodup.of_map UInt32.toNat (hall ▸ List.nodup_range')
  · rw [mem_of_map_toNat hall]
    omega

/-- **From six cores on, the layout is a balanced partition,** and no operation overflows. -/
theorem exists_autoForCoreCount {nproc : ℕ} (h : 6 ≤ nproc) :
    ∃ spec, autoForCoreCount nproc = some spec ∧
      spec.IsBalanced (min nproc (UInt32.size - 1)) := by
  have hn := toNat_u32OfUsize nproc
  have hmax : UInt32.size - 1 = 4294967295 := rfl
  have htwo : (2 : UInt32).toNat = 2 := rfl
  have hone : (1 : UInt32).toNat = 1 := rfl
  obtain ⟨last, hlast, hlast'⟩ := checkedSub_eq (a := u32OfUsize nproc) (b := 1) (by omega)
  obtain ⟨stop, hstop, hstop'⟩ := checkedSub_eq (a := last) (b := 1) (by omega)
  obtain ⟨span, hspan, hspan'⟩ := checkedSub_eq (a := stop) (b := 2) (by omega)
  obtain ⟨count, hcount, hcount'⟩ := checkedAdd_eq (a := span) (b := 1) (by
    rw [UInt32.size]
    omega)
  have hhalf : (count / 2).toNat = count.toNat / 2 := UInt32.toNat_div count 2
  obtain ⟨split, hsplit, hsplit'⟩ := checkedAdd_eq (a := 2) (b := count / 2) (by
    rw [UInt32.size]
    omega)
  refine ⟨⟨coreRange 2 split, coreRangeInclusive split stop, none, some last⟩, ?_, ?_⟩
  · rw [autoForCoreCount, if_neg (by omega)]
    simp only [hlast, hstop, hspan, hcount, hsplit, Option.bind_eq_bind, Option.bind_some,
      Option.pure_def]
  · have hrun2 : (coreRangeInclusive split stop).map UInt32.toNat =
        List.range' (2 + (split.toNat - 2)) (stop.toNat + 1 - split.toNat) := by
      rw [map_toNat_coreRangeInclusive, show 2 + (split.toNat - 2) = split.toNat by omega]
    exact isBalanced_of_runs (map_toNat_coreRange 2 split) hrun2 rfl (by omega) (by omega)
      (by omega) (by omega)

end AffinitySpec

/-! ## Pins -/

namespace AffinityPlan

/-- An endpoint that has cores pins each of its subscriptions to one of them. -/
theorem exists_coreForSubscription {plan : AffinityPlan} {role : SubscriptionRole}
    (h : plan.coresOf role.endpoint ≠ []) (idx : ℕ) :
    ∃ core ∈ plan.coresOf role.endpoint, plan.coreForSubscription role idx = some core := by
  have hlt := Nat.mod_lt idx (List.length_pos_iff.mpr h)
  refine ⟨_, List.getElem_mem hlt, ?_⟩
  rw [coreForSubscription, if_neg (by simpa using h), List.getElem?_eq_getElem hlt]

end AffinityPlan

/-- **`auto` is a balanced partition.**  From six cores on, no operation overflows, the two
endpoints and the control core share the cores from 2 on, and no receiver is ever pinned to core 0,
core 1, the control core or a core of the other endpoint. -/
theorem AffinitySpec.autoForCoreCount_balanced (nproc : ℕ) (h : 6 ≤ nproc) :
    ∃ spec, autoForCoreCount nproc = some spec ∧
      spec.IsBalanced (min nproc (UInt32.size - 1)) ∧
      ∀ (role : SubscriptionRole) (idx : ℕ), ∃ core,
        (AffinityPlan.fromSpec spec).coreForSubscription role idx = some core ∧
        core ≠ 0 ∧ core ≠ 1 ∧ spec.control ≠ some core ∧
        core ∉ (AffinityPlan.fromSpec spec).coresOf role.endpoint.other := by
  obtain ⟨spec, hspec, hb⟩ := exists_autoForCoreCount h
  refine ⟨spec, hspec, hb, fun role idx => ?_⟩
  have hne : (AffinityPlan.fromSpec spec).coresOf role.endpoint ≠ [] := by
    cases role.endpoint with
    | one => exact hb.nonempty.1
    | two => exact hb.nonempty.2
  obtain ⟨core, hcore, hpin⟩ := AffinityPlan.exists_coreForSubscription hne idx
  obtain ⟨hruns, -, hcontrol⟩ := List.nodup_append.mp hb.disjoint
  have hother := (List.nodup_append.mp hruns).2.2
  have hmem : core ∈ spec.endpoint1 ++ spec.endpoint2 ∧
      core ∉ (AffinityPlan.fromSpec spec).coresOf role.endpoint.other := by
    cases he : role.endpoint with
    | one =>
      rw [he] at hcore
      exact ⟨List.mem_append_left _ hcore, fun h2 => hother core hcore core h2 rfl⟩
    | two =>
      rw [he] at hcore
      exact ⟨List.mem_append_right _ hcore, fun h1 => hother core h1 core hcore rfl⟩
  have hlow := ((hb.union core).mp (List.mem_append_left _ hmem.1)).1
  refine ⟨core, hpin, ?_, ?_, fun hc => ?_, hmem.2⟩
  · rintro rfl
    exact absurd hlow (by decide)
  · rintro rfl
    exact absurd hlow (by decide)
  · exact hcontrol core hmem.1 core (by rw [hc]; exact List.mem_singleton_self core) rfl

/-- The layout of an eight-core host. -/
theorem AffinitySpec.autoForCoreCount_balanced_eight :
    ∃ spec, autoForCoreCount 8 = some spec ∧ spec.IsBalanced (min 8 (UInt32.size - 1)) ∧
      ∀ (role : SubscriptionRole) (idx : ℕ), ∃ core,
        (AffinityPlan.fromSpec spec).coreForSubscription role idx = some core ∧
        core ≠ 0 ∧ core ≠ 1 ∧ spec.control ≠ some core ∧
        core ∉ (AffinityPlan.fromSpec spec).coresOf role.endpoint.other :=
  AffinitySpec.autoForCoreCount_balanced 8 (by decide)

example : AffinitySpec.autoForCoreCount 8 =
    some { endpoint1 := [2, 3], endpoint2 := [4, 5, 6], control := some 7 } := by decide

end GrpcBench
