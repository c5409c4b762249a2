import GrpcBench.Library.Meetings
import GrpcBench.Matching.Sharding

/-!
# Bursts of account updates

A transaction that writes an account several times gives a burst of updates with one identity:
slot, pubkey, signature and owner.  Outside of strict mode they share a key.  What a burst adds to
`matched` depends on how the two endpoints interleave in it: a match removes the pending entry, and
the rest of the burst starts over.

* `AccountMatcher.matched_observeAll`: a burst adds one match for each meeting at its key, whatever
  other updates come in between.
* `AccountMatcher.burstCountsOnce_iff`: it adds exactly one when its updates come from one endpoint,
  then one from the other endpoint, and then from one endpoint again.
-/

namespace GrpcBench

open Rendezvous (Arrival Outcome)

variable {B : Backend}

/-- Slot, pubkey and signature of an update, as the key outside of strict mode, and its owner. -/
def AccountUpdate.identity (u : AccountUpdate) : AccountKey × Pubkey32 :=
  (u.key false, u.owner)

theorem AccountUpdate.identity_eq_iff {u : AccountUpdate} {identity : AccountKey × Pubkey32} :
    u.identity = identity ↔ u.key false = identity.1 ∧ u.owner = identity.2 :=
  Prod.ext_iff

/-- The updates with an identity. -/
def burst (identity : AccountKey × Pubkey32) (us : List AccountUpdate) : List AccountUpdate :=
  us.filter fun u => u.identity = identity

/-- The updates with another identity. -/
def apart (identity : AccountKey × Pubkey32) (us : List AccountUpdate) : List AccountUpdate :=
  us.filter fun u => u.identity ≠ identity

/-! ## One matcher -/

section Run

variable {K : Type} [DecidableEq K]

/-- A run counts the calls that met somebody. -/
theorem PairMatcher.matched_run (m : PairMatcher B K) (cs : List (Call K)) :
    (m.run cs).2.counts.matched =
      m.counts.matched + (m.traceWith batched cs).countP fun x => x.2.met.isSome := by
  rw [run, matched_runWith, fst_runWith, List.reduceOption, List.filterMap_map,
    List.length_filterMap_eq_countP]
  refine congrArg _ (List.countP_congr fun x _ => ?_)
  simp [arrivalResult]

/-- The meetings at a key come on top of the matches of the other calls. -/
theorem PairMatcher.matched_run_apart {window : UInt64} (slotOf : K → UInt64) (k : K)
    {cs : List (Call K)} (hslot : ∀ c ∈ cs, c.slot = slotOf c.key) (hwin : InWindow window 0 cs) :
    ((new B K (.slotWindow window)).run cs).2.counts.matched =
      ((new B K (.slotWindow window)).run (cs.filter fun c => c.key ≠ k)).2.counts.matched +
        (Rendezvous.meetings none ((cs.filter fun c => c.key = k).map fun c =>
          (c.endpoint, (⟨c.ts, c.slot⟩ : MatchPending)))).length := by
  have hall := ((tracks_new slotOf window (B := B)).run batched hslot hwin).1
  have hpart := ((tracks_new slotOf window (B := B)).run batched
    (fun c hc => hslot c (List.mem_of_mem_filter hc))
    (hwin.filter (le_refl _) fun c => decide (c.key ≠ k))).1
  have hlocal := Rendezvous.trace_filter (P := Rendezvous.empty) (Q := Rendezvous.empty)
    (p := fun k' => k' ≠ k) (fun _ _ => rfl) (cs.map Call.arrival)
  have hmeet := congrArg List.length
    (Rendezvous.meetings_trace Rendezvous.empty k (cs.map Call.arrival))
  rw [List.length_filterMap_eq_countP, List.filter_map, List.map_map] at hmeet
  rw [List.filter_map] at hlocal
  have hmet : (Rendezvous.trace Rendezvous.empty (cs.map Call.arrival)).countP
      (fun x => x.2.met.isSome) =
        ((Rendezvous.trace Rendezvous.empty (cs.map Call.arrival)).filter
          fun x => x.1.key = k).countP (fun x => x.2.met.isSome) +
        ((Rendezvous.trace Rendezvous.empty (cs.map Call.arrival)).filter
          fun x => x.1.key ≠ k).countP fun x => x.2.met.isSome := by
    rw [List.countP_eq_countP_filter_add _ _ fun x => decide (x.1.key = k)]
    simp only [decide_not, ne_eq]
  rw [matched_run, matched_run, hall, hpart, hmet, hlocal, Nat.add_comm (List.countP _ _),
    ← Nat.add_assoc]
  refine congrArg _ (Eq.trans ?_ hmeet)
  exact List.countP_congr fun x _ => by simp

end Run

/-! ## The account matcher -/

namespace AccountMatcher

variable {window : UInt64} (names : Finmap fun _ : Pubkey32 => String)

/-- The matches of all shards: `matched` of the overall summary. -/
def matched (m : AccountMatcher B) : ℕ :=
  Finmap.total (fun shard => shard.main.counts.matched) m.shards

/-- The matches of an owner's updates, in a matcher of their own. -/
def ownMatched (B : Backend) (window : UInt64) (owner : Pubkey32) (us : List AccountUpdate) : ℕ :=
  ((PairMatcher.new B AccountKey (.slotWindow window)).run
    ((us.filter fun u => u.owner = owner).map (AccountUpdate.call false))).2.counts.matched

/-- The matches of all shards, owner by owner. -/
theorem matched_eq_sum (us : List AccountUpdate) {owners : Finset Pubkey32}
    (h : ∀ u ∈ us, u.owner ∈ owners) :
    ((start B (.slotWindow window) names false).observeAll us).matched =
      ∑ owner ∈ owners, ownMatched B window owner us := by
  rw [matched, total_shards]
  simp only [main_shardOf_start]
  refine Finset.sum_subset (fun owner hin => ?_) fun owner _ hout => ?_
  · obtain ⟨u, hu, rfl⟩ := (keys_start names false _ us owner).mp hin
    exact h u hu
  · have hnil : us.filter (fun u => decide (u.owner = owner)) = [] := by
      refine List.filter_eq_nil_iff.mpr fun u hu heq => hout ?_
      exact (keys_start names false _ us owner).mpr ⟨u, hu, of_decide_eq_true heq⟩
    rw [hnil]
    rfl

variable (identity : AccountKey × Pubkey32)

/-- A burst leaves the updates of other owners alone. -/
theorem ownMatched_apart_of_ne (us : List AccountUpdate) {owner : Pubkey32}
    (h : owner ≠ identity.2) :
    ownMatched B window owner (apart identity us) = ownMatched B window owner us := by
  have hsame : (apart identity us).filter (fun u => decide (u.owner = owner)) =
      us.filter fun u => decide (u.owner = owner) := by
    rw [apart, List.filter_filter]
    refine List.filter_congr fun u _ => ?_
    by_cases hu : u.owner = owner
    · have hne : u.identity ≠ identity := fun heq =>
        h (hu.symm.trans (congrArg Prod.snd heq))
      simp [hu, hne]
    · simp [hu]
  rw [ownMatched, ownMatched, hsame]

/-- Among the updates of its own owner, a burst adds one match for each meeting. -/
theorem ownMatched_self (us : List AccountUpdate)
    (hwin : InWindow window 0
      ((us.filter fun u => u.owner = identity.2).map (AccountUpdate.call false))) :
    ownMatched B window identity.2 us = ownMatched B window identity.2 (apart identity us) +
      (Rendezvous.meetings none ((burst identity us).map fun u =>
        (u.endpoint, (⟨u.ts, u.slot⟩ : MatchPending)))).length := by
  have hslot : ∀ c ∈ (us.filter fun u => u.owner = identity.2).map (AccountUpdate.call false),
      c.slot = c.key.1 := by
    intro c hc
    obtain ⟨u, -, rfl⟩ := List.mem_map.mp hc
    rfl
  have hrest : ((us.filter fun u => u.owner = identity.2).map (AccountUpdate.call false)).filter
      (fun c => c.key ≠ identity.1) =
        ((apart identity us).filter fun u => u.owner = identity.2).map
          (AccountUpdate.call false) := by
    rw [List.filter_map, apart, List.filter_filter, List.filter_filter]
    refine congrArg _ (List.filter_congr fun u _ => ?_)
    by_cases hk : u.key false = identity.1 <;> by_cases hu : u.owner = identity.2 <;>
      simp [AccountUpdate.identity_eq_iff, hk, hu]
  have hburst : ((us.filter fun u => u.owner = identity.2).map (AccountUpdate.call false)).filter
      (fun c => c.key = identity.1) = (burst identity us).map (AccountUpdate.call false) := by
    rw [List.filter_map, burst, List.filter_filter]
    refine congrArg _ (List.filter_congr fun u _ => ?_)
    by_cases hk : u.key false = identity.1 <;> by_cases hu : u.owner = identity.2 <;>
      simp [AccountUpdate.identity_eq_iff, hk, hu]
  rw [ownMatched, PairMatcher.matched_run_apart Prod.fst identity.1 hslot hwin, hrest, hburst,
    List.map_map]
  rfl

/-- **What a burst adds.**  One match for each meeting at its key. -/
theorem matched_observeAll (us : List AccountUpdate)
    (hwin : InWindow window 0
      ((us.filter fun u => u.owner = identity.2).map (AccountUpdate.call false))) :
    ((start B (.slotWindow window) names false).observeAll us).matched =
      ((start B (.slotWindow window) names false).observeAll (apart identity us)).matched +
        (Rendezvous.meetings none ((burst identity us).map fun u =>
          (u.endpoint, (⟨u.ts, u.slot⟩ : MatchPending)))).length := by
  let owners : Finset Pubkey32 := Insert.insert identity.2 (us.map AccountUpdate.owner).toFinset
  have hmem : identity.2 ∈ owners := Finset.mem_insert_self _ _
  have hus : ∀ u ∈ us, u.owner ∈ owners := fun u hu =>
    Finset.mem_insert_of_mem (List.mem_toFinset.mpr (List.mem_map_of_mem hu))
  rw [matched_eq_sum names us hus,
    matched_eq_sum names (apart identity us) fun u hu => hus u (List.mem_of_mem_filter hu),
    ← Finset.add_sum_erase owners _ hmem,
    ← Finset.add_sum_erase owners (fun owner => ownMatched B window owner (apart identity us)) hmem,
    ownMatched_self identity us hwin, Nat.add_right_comm]
  refine congrArg (_ + · + _) (Finset.sum_congr rfl fun owner hin => ?_)
  exact (ownMatched_apart_of_ne identity us (Finset.ne_of_mem_erase hin)).symm

/-- **When a burst counts once.**  Outside of strict mode, with the updates of its owner inside the
window, a burst adds exactly one to `matched` when its updates come from one endpoint, then one from
the other, and then any number from one endpoint. -/
theorem burstCountsOnce_iff (us : List AccountUpdate)
    (hwin : InWindow window 0
      ((us.filter fun u => u.owner = identity.2).map (AccountUpdate.call false))) :
    ((start B (.slotWindow window) names false).observeAll us).matched =
        ((start B (.slotWindow window) names false).observeAll (apart identity us)).matched + 1 ↔
      ∃ (e e' : EndpointRole) (m n : ℕ), (burst identity us).map AccountUpdate.endpoint =
        List.replicate (m + 1) e ++ e.other :: List.replicate n e' := by
  rw [matched_observeAll names identity us hwin, Nat.add_left_cancel_iff,
    Rendezvous.length_meetings_eq_one_iff, List.map_map]
  constructor
  · rintro ⟨e, b, e', m, n, hb, h⟩
    exact ⟨e, e', m, n, EndpointRole.eq_other_of_ne hb ▸ h⟩
  · rintro ⟨e, e', m, n, h⟩
    exact ⟨e, e.other, e', m, n, e.other_ne, h⟩

/-- The write of an account in slot 9, as an endpoint reports it. -/
def cpiWrite (endpoint : EndpointRole) (writeVersion ns : UInt64) : AccountUpdate :=
  ⟨endpoint, 9, Vector.replicate 32 1, writeVersion, some (Vector.replicate 64 2),
    Vector.replicate 32 3, ⟨ns, 0⟩⟩

/-- Two writes that endpoint 1 reports before endpoint 2 does, with another account's update in
between, count once. -/
theorem burstCountsOnce_two_writes :
    let other : AccountUpdate := { cpiWrite .two 5 250 with pubkey := Vector.replicate 32 4 }
    let us := [cpiWrite .one 1 100, cpiWrite .one 2 200, other, cpiWrite .two 6 300,
      cpiWrite .two 7 400]
    ((start Backend.exact (.slotWindow 64) ∅ false).observeAll us).matched =
      ((start Backend.exact (.slotWindow 64) ∅ false).observeAll [other]).matched + 1 := by
  intro other us
  have hwin : InWindow 64 0 ((us.filter fun u => u.owner = (cpiWrite .one 1 100).identity.2).map
      (AccountUpdate.call false)) := by decide
  have hcount := (burstCountsOnce_iff (B := Backend.exact) ∅ (cpiWrite .one 1 100).identity us
    hwin).mpr ⟨.one, .two, 1, 1, by decide⟩
  have hother : apart (cpiWrite .one 1 100).identity us = [other] := by decide
  rw [hother] at hcount
  exact hcount

/-- The same two writes, reported by the endpoints in turn, count twice. -/
theorem not_burstCountsOnce_in_turn :
    let identity := (cpiWrite .one 1 100).identity
    let us := [cpiWrite .one 1 100, cpiWrite .two 6 200, cpiWrite .one 2 300, cpiWrite .two 7 400]
    burst identity us = us ∧ (us.countP fun u => u.endpoint = .one) = 2 ∧
      (us.countP fun u => u.endpoint = .two) = 2 ∧
      InWindow 64 0 (us.map (AccountUpdate.call false)) ∧
      ((start Backend.exact (.slotWindow 64) ∅ false).observeAll us).matched = 2 ∧
      ((start Backend.exact (.slotWindow 64) ∅ false).observeAll us).matched ≠
        ((start Backend.exact (.slotWindow 64) ∅ false).observeAll (apart identity us)).matched
          + 1 := by
  intro identity us
  have hwin : InWindow 64 0 ((us.filter fun u => u.owner = identity.2).map
      (AccountUpdate.call false)) := by decide
  have hadd := matched_observeAll (B := Backend.exact) ∅ identity us hwin
  have hmeet : (Rendezvous.meetings none ((burst identity us).map fun u =>
      (u.endpoint, (⟨u.ts, u.slot⟩ : MatchPending)))).length = 2 := by decide
  have hnone : ((start Backend.exact (.slotWindow 64) ∅ false).observeAll
      (apart identity us)).matched = 0 := by
    have hnil : apart identity us = [] := by decide
    rw [hnil]
    rfl
  rw [hmeet, hnone] at hadd
  refine ⟨by decide, by decide, by decide, by decide, hadd, ?_⟩
  rw [hadd, hnone]
  decide

end AccountMatcher

end GrpcBench
