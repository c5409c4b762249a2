import GrpcBench.Matching.Sharding

/-!
# Per-program buckets and the overall summary

`per_program_summary` re-keys the shards from the owner to its display name, and it does so by
inserting one summary after the other: of two shards with the same name, the one that is visited
later takes the place of the other.  Owners that are not listed all have the name `"unknown"`, so
two of them are enough to lose matches.

* `BucketsAddUp`: the sums over the buckets are those of the overall summary.
* `bucketsAddUp_iff`: that is so for every order exactly when no owner with a match shares its
  display name with another owner.
* `not_bucketsAddUp_unlisted`: two unlisted programs with one match each.
-/

namespace GrpcBench

namespace AccountMatcher

variable {B : Backend}

/-- The buckets, summed up, are the overall summary, and the bucket of the unlisted owners holds the
matches of all their shards. -/
structure BucketsAddUp (m : AccountMatcher B) (order order' : Finmap.Enumeration m.shards) :
    Prop where
  matched : Finmap.total LatencyDigestSummary.matched (m.perProgramSummary order').1 =
    (m.summary order).1.matched
  ep1Faster : Finmap.total LatencyDigestSummary.ep1Faster (m.perProgramSummary order').1 =
    (m.summary order).1.ep1Faster
  ep2Faster : Finmap.total LatencyDigestSummary.ep2Faster (m.perProgramSummary order').1 =
    (m.summary order).1.ep2Faster
  unknown : ((m.perProgramSummary order').1.lookup "unknown").elim 0 LatencyDigestSummary.matched =
    ((order'.1.filter fun entry => m.bucketName entry.1 = "unknown").map fun entry =>
      entry.2.main.counts.matched).sum

/-- The digest of every shard agrees with its matcher, and no shard has more faster matches than
matches. -/
structure Consistent (m : AccountMatcher B) : Prop where
  agrees : ∀ owner, (m.shardOf owner).Agrees
  ep1Faster_le : ∀ owner, (m.shardOf owner).main.counts.ep1Faster ≤
    (m.shardOf owner).main.counts.matched
  ep2Faster_le : ∀ owner, (m.shardOf owner).main.counts.ep2Faster ≤
    (m.shardOf owner).main.counts.matched

/-- Every run is consistent. -/
theorem consistent_observeAll (eviction : EvictionPolicy)
    (names : Finmap fun _ : Pubkey32 => String) (strict : Bool) (us : List AccountUpdate) :
    ((start B eviction names strict).observeAll us).Consistent where
  agrees owner := agrees_observeAll _ us (agrees_shardOf_new eviction names owner)
  ep1Faster_le owner := by
    rw [main_shardOf_start, PairMatcher.run, PairMatcher.ep1Faster_runWith,
      PairMatcher.matched_runWith]
    exact Nat.add_le_add_left List.countP_le_length _
  ep2Faster_le owner := by
    rw [main_shardOf_start, PairMatcher.run, PairMatcher.ep2Faster_runWith,
      PairMatcher.matched_runWith]
    exact Nat.add_le_add_left List.countP_le_length _

/-- **The two digests of a program shard agree.**  After every run, the digest of an owner's shard
has the counts and the samples of its matcher.  The timestamps are arbitrary, and the conversion to
milliseconds is any that keeps the sign, exact division (`Backend.exact`) among them. -/
theorem digests_agree (B : Backend) (eviction : EvictionPolicy)
    (names : Finmap fun _ : Pubkey32 => String) (strict : Bool) (us : List AccountUpdate)
    (owner : Pubkey32) : (((start B eviction names strict).observeAll us).shardOf owner).Agrees :=
  agrees_observeAll _ us (agrees_shardOf_new eviction names owner)

section Buckets

variable (m : AccountMatcher B) (order : Finmap.Enumeration m.shards)

/-- The buckets in the order of their insertion. -/
def buckets : List (String × LatencyDigestSummary) :=
  order.1.map fun entry => (m.bucketName entry.1, entry.2.digest.summary.1)

theorem fst_perProgramSummary :
    (m.perProgramSummary order).1 = Finmap.collect (m.buckets order) := by
  rw [Finmap.collect, buckets, List.foldl_map]
  rfl

/-- An entry of a visit is the shard of its owner. -/
theorem eq_shardOf {entry : Sigma fun _ : Pubkey32 => PerProgramShard B} (h : entry ∈ order.1) :
    entry.1 ∈ m.shards ∧ entry.2 = m.shardOf entry.1 := by
  have hmem : entry ∈ m.shards.entries := by
    rw [← order.2]
    exact h
  have hlook : m.shards.lookup entry.1 = some entry.2 := Finmap.mem_lookup_iff.mpr hmem
  have hin := Finmap.mem_of_lookup_eq_some hlook
  refine ⟨hin, ?_⟩
  rw [m.lookup_shards hin] at hlook
  exact (Option.some.inj hlook).symm

/-- A visit meets every owner once. -/
theorem pairwise_ne : order.1.Pairwise fun x y => x.1 ≠ y.1 := by
  have h := Multiset.nodup_keys.mpr m.shards.nodupKeys
  rw [← order.2, Multiset.keys, Multiset.map_coe, Multiset.coe_nodup] at h
  exact List.pairwise_map.mp h

/-- The sum of a counter over the buckets before they are collected, from the shards. -/
theorem sum_buckets {f : LatencyDigestSummary → ℕ} {g : PerProgramShard B → ℕ}
    (hfg : ∀ owner, f (m.shardOf owner).digest.summary.1 = g (m.shardOf owner)) :
    ((m.buckets order).map fun x => f x.2).sum = Finmap.total g m.shards := by
  rw [← order.sum_map, buckets, List.map_map]
  refine congrArg List.sum (List.map_congr_left fun entry h => ?_)
  rw [Function.comp_apply, (m.eq_shardOf order h).2, hfg]

variable {m}

theorem Consistent.matched (h : m.Consistent) (owner : Pubkey32) :
    (m.shardOf owner).digest.summary.1.matched = (m.shardOf owner).main.counts.matched :=
  (h.agrees owner).matched

theorem Consistent.ep1Faster (h : m.Consistent) (owner : Pubkey32) :
    (m.shardOf owner).digest.summary.1.ep1Faster = (m.shardOf owner).main.counts.ep1Faster :=
  (h.agrees owner).ep1Faster

theorem Consistent.ep2Faster (h : m.Consistent) (owner : Pubkey32) :
    (m.shardOf owner).digest.summary.1.ep2Faster = (m.shardOf owner).main.counts.ep2Faster :=
  (h.agrees owner).ep2Faster

/-- No owner with a match shares its display name with another owner. -/
def NamesApart (m : AccountMatcher B) : Prop :=
  ∀ owner ∈ m.shards, ∀ owner' ∈ m.shards, owner ≠ owner' →
    m.bucketName owner = m.bucketName owner' → (m.shardOf owner).main.counts.matched = 0

/-- Where the names are apart, an overwritten bucket counts for nothing. -/
theorem NamesApart.pairwise (h : m.NamesApart) {f : LatencyDigestSummary → ℕ}
    (hf : ∀ owner, (m.shardOf owner).main.counts.matched = 0 →
      f (m.shardOf owner).digest.summary.1 = 0) :
    (m.buckets order).Pairwise fun x y => x.1 = y.1 → f x.2 = 0 := by
  rw [buckets, List.pairwise_map]
  refine (m.pairwise_ne order).imp_of_mem fun {x y} hx hy hne hname => ?_
  obtain ⟨hxin, hxs⟩ := m.eq_shardOf order hx
  obtain ⟨hyin, -⟩ := m.eq_shardOf order hy
  rw [hxs]
  exact hf x.1 (h x.1 hxin y.1 hyin hne hname)

theorem forall_bucketsAddUp_iff (hm : m.Consistent) :
    (∀ order order', m.BucketsAddUp order order') ↔ m.NamesApart := by
  constructor
  · -- visit an owner with a match before another owner of its name: its bucket is lost
    intro h owner hin owner' hin' hne hname
    obtain ⟨order, l, horder⟩ := Finmap.exists_enumeration_cons_cons (m.lookup_shards hin)
      (m.lookup_shards hin') hne
    have hsum := (h order order).matched
    rw [summary_matched, ← m.sum_buckets order hm.matched, fst_perProgramSummary,
      Finmap.total_collect_eq_iff, buckets, horder, List.map_cons, List.map_cons,
      List.pairwise_cons] at hsum
    rw [← hm.matched]
    exact hsum.1 _ List.mem_cons_self hname
  · intro h order order'
    have hp := h.pairwise order' (f := LatencyDigestSummary.matched) fun owner h0 => by
      rw [hm.matched, h0]
    refine ⟨?_, ?_, ?_, ?_⟩
    · rw [summary_matched, ← m.sum_buckets order' hm.matched, fst_perProgramSummary]
      exact (Finmap.total_collect_eq_iff _ _).mpr hp
    · rw [summary_ep1Faster, ← m.sum_buckets order' hm.ep1Faster, fst_perProgramSummary]
      refine (Finmap.total_collect_eq_iff _ _).mpr (h.pairwise order' fun owner h0 => ?_)
      have hle := hm.ep1Faster_le owner
      rw [hm.ep1Faster]
      omega
    · rw [summary_ep2Faster, ← m.sum_buckets order' hm.ep2Faster, fst_perProgramSummary]
      refine (Finmap.total_collect_eq_iff _ _).mpr (h.pairwise order' fun owner h0 => ?_)
      have hle := hm.ep2Faster_le owner
      rw [hm.ep2Faster]
      omega
    · rw [fst_perProgramSummary, Finmap.lookup_collect hp, buckets, List.filter_map, List.map_map]
      refine congrArg List.sum (List.map_congr_left fun entry hentry => ?_)
      rw [Function.comp_apply, (m.eq_shardOf order' (List.mem_of_mem_filter hentry)).2, hm.matched]

end Buckets

/-- **When the per-program buckets add up.**  The sums over the buckets equal the overall summary,
for all orders in which the shards are visited, exactly when no owner with a match shares its
display name with another observed owner. -/
theorem bucketsAddUp_iff (eviction : EvictionPolicy) (names : Finmap fun _ : Pubkey32 => String)
    (strict : Bool) (us : List AccountUpdate) :
    let m := (start B eviction names strict).observeAll us
    (∀ order order', m.BucketsAddUp order order') ↔
      ∀ owner ∈ us.map AccountUpdate.owner, ∀ owner' ∈ us.map AccountUpdate.owner,
        owner ≠ owner' →
        (names.lookup owner).getD "unknown" = (names.lookup owner').getD "unknown" →
        (m.shardOf owner).main.counts.matched = 0 := by
  intro m
  have hmem : ∀ owner, owner ∈ m.shards ↔ owner ∈ us.map AccountUpdate.owner := by
    intro owner
    rw [← Finmap.mem_keys, List.mem_map]
    exact keys_start names strict eviction us owner
  have hname : ∀ owner, m.bucketName owner = (names.lookup owner).getD "unknown" := by
    intro owner
    rw [bucketName, ((start B eviction names strict).config_observeAll us).2.2]
    rfl
  have hiff : (∀ order order', m.BucketsAddUp order order') ↔ m.NamesApart :=
    forall_bucketsAddUp_iff (consistent_observeAll eviction names strict us)
  rw [hiff]
  simp only [NamesApart, hmem, hname]

/-- Two programs that are not listed, one match each: for some order the buckets do not add up. -/
theorem not_bucketsAddUp_unlisted :
    let owner := fun n : UInt8 => (Vector.replicate 32 n : Pubkey32)
    let update := fun (e : EndpointRole) (n : UInt8) (ns : UInt64) =>
      (⟨e, 9, owner n, 0, none, owner n, ⟨ns, 0⟩⟩ : AccountUpdate)
    let us := [update .one 1 100, update .two 1 150, update .one 2 300, update .two 2 400]
    let m := (start Backend.exact (.slotWindow 64) ∅ false).observeAll us
    ¬ ∀ order order', m.BucketsAddUp order order' := by
  intro owner update us m h
  have hapart := (forall_bucketsAddUp_iff (consistent_observeAll (.slotWindow 64) ∅ false us)).mp h
  have hin : ∀ u ∈ us, u.owner ∈ m.shards := fun u hu =>
    Finmap.mem_keys.mp ((keys_start ∅ false (.slotWindow 64) us u.owner).mpr ⟨u, hu, rfl⟩)
  have hzero := hapart (owner 1) (hin (update .one 1 100) (by simp [us])) (owner 2)
    (hin (update .one 2 300) (by simp [us])) (by decide) rfl
  rw [main_shardOf_start] at hzero
  revert hzero
  decide

end AccountMatcher

end GrpcBench
