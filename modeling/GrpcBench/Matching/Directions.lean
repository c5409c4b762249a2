import GrpcBench.Matching.Buckets
import GrpcBench.Matching.Soundness
import Mathlib.Algebra.Order.Group.Multiset

/-!
# What the counters say of the samples

A sample is the arrival at endpoint 2 less the arrival at endpoint 1: it is positive if endpoint 1
was first, negative if endpoint 2 was, and zero if they arrived together.  The counters of a matcher
are the numbers of its samples, of those above zero and of those below.

* `MatchCounts.Directed`: what the counters say; `Directed.ties`: the rest are ties.
* `PairMatcher.Directed.stepWith`: one call keeps it.
* `StreamMatchers.Directed`: every matcher of a run.
* `AccountMatcher.directed_summary`, `directed_of_lookup`: the summaries over the shards.
-/

namespace GrpcBench

variable {B : Backend}

/-- The counters are the numbers of all samples, of the positive and of the negative ones. -/
structure MatchCounts.Directed (c : MatchCounts) (samples : Multiset ℚ) : Prop where
  matched : c.matched = Multiset.card samples
  ep1Faster : c.ep1Faster = samples.countP (0 < ·)
  ep2Faster : c.ep2Faster = samples.countP (· < 0)

/-- The counters of a summary. -/
def LatencyDigestSummary.counts (s : LatencyDigestSummary) : MatchCounts :=
  { matched := s.matched, ep1Faster := s.ep1Faster, ep2Faster := s.ep2Faster }

/-- A sample is positive, negative or zero. -/
theorem card_eq_signs (samples : Multiset ℚ) : Multiset.card samples =
    samples.countP (0 < ·) + samples.countP (· < 0) + samples.count 0 := by
  induction samples using Multiset.induction_on with
  | empty => rfl
  | cons x samples ih =>
    rw [Multiset.card_cons, Multiset.countP_cons, Multiset.countP_cons, Multiset.count_cons, ih]
    rcases lt_trichotomy x 0 with hneg | rfl | hpos
    · rw [if_neg hneg.not_gt, if_pos hneg, if_neg hneg.ne']
      omega
    · rw [if_neg (lt_irrefl _), if_pos rfl]
      omega
    · rw [if_pos hpos, if_neg hpos.not_gt, if_neg hpos.ne]
      omega

/-- **The matches are the faster ones of either side and the ties.** -/
theorem MatchCounts.Directed.ties {c : MatchCounts} {samples : Multiset ℚ}
    (h : c.Directed samples) : c.matched = c.ep1Faster + c.ep2Faster + samples.count 0 := by
  rw [h.matched, h.ep1Faster, h.ep2Faster]
  exact card_eq_signs samples

/-! ## One matcher -/

section PairMatcher

variable {K : Type} [DecidableEq K] {m : PairMatcher B K}

/-- The counters of a matcher are those of its samples. -/
def PairMatcher.Directed (m : PairMatcher B K) : Prop :=
  m.counts.Directed m.samples

omit [DecidableEq K] in
theorem PairMatcher.directed_new (eviction : EvictionPolicy) :
    (PairMatcher.new B K eviction).Directed := by
  rw [Directed, samples_new]
  exact ⟨rfl, rfl, rfl⟩

/-- **One call.**  The matcher compares the difference in nanoseconds with zero, and the conversion
to milliseconds keeps the sign. -/
theorem PairMatcher.Directed.stepWith (h : m.Directed) (passDue : UInt64 → Bool) (c : Call K) :
    (m.stepWith passDue c).2.Directed := by
  have hm := matched_stepWith passDue m c
  have h1 := ep1Faster_stepWith passDue m c
  have h2 := ep2Faster_stepWith passDue m c
  have hs := samples_stepWith passDue m c
  rcases hr : (m.stepWith passDue c).1 with _ | r
  · rw [hr] at hm h1 h2 hs
    rw [Directed, hs, Option.toList_none, List.map_nil, Multiset.coe_nil, zero_add]
    exact ⟨hm.trans h.matched, h1.trans h.ep1Faster, h2.trans h.ep2Faster⟩
  · have hms := deltaMs_of_stepWith hr
    rw [hr] at hm h1 h2 hs
    simp only [Option.toList_some, List.length_singleton, List.countP_singleton,
      decide_eq_true_eq, List.map_singleton, Multiset.coe_singleton,
      Multiset.singleton_add] at hm h1 h2 hs
    rw [Directed, hs]
    refine ⟨?_, ?_, ?_⟩
    · rw [hm, h.matched, Multiset.card_cons]
    · rw [h1, h.ep1Faster, Multiset.countP_cons, hms, if_congr (B.toMs_pos _) rfl rfl]
    · rw [h2, h.ep2Faster, Multiset.countP_cons, hms, if_congr (B.toMs_neg_iff _) rfl rfl]

theorem LatencyDigestSummary.directed_fromMatcher (h : m.Directed) :
    (fromMatcher m).1.counts.Directed m.samples :=
  ⟨h.matched, h.ep1Faster, h.ep2Faster⟩

end PairMatcher

/-! ## All matchers -/

/-- Every matcher of a run. -/
structure StreamMatchers.Directed (m : StreamMatchers B) : Prop where
  slots : ∀ stage p, m.slots.matcherFor stage = some p → p.Directed
  accounts : ∀ owner, (m.accounts.shardOf owner).main.Directed
  transactions : m.transactions.inner.Directed
  blocks : m.blocks.inner.Directed

namespace StreamMatchers

theorem directed_start (names : Finmap fun _ : Pubkey32 => String) (strict : Bool) :
    (start B names strict).Directed where
  slots stage p hp := by
    cases stage <;> cases hp <;> exact PairMatcher.directed_new _
  accounts owner := by
    rw [shardOf_start]
    exact PairMatcher.directed_new _
  transactions := PairMatcher.directed_new _
  blocks := PairMatcher.directed_new _

/-- Every event keeps the counters those of the samples. -/
theorem Directed.dispatch {m : StreamMatchers B} (hm : m.Directed) (event : Event) :
    (dispatch m event).Directed where
  slots stage p hp := by
    rw [matcherFor_dispatch] at hp
    rcases hc : event.slotCall stage with _ | c
    · rw [hc] at hp
      exact hm.slots stage p hp
    · rw [hc] at hp
      obtain ⟨q, hq, rfl⟩ := Option.map_eq_some_iff.mp hp
      exact (hm.slots stage q hq).stepWith batched c
  accounts owner := by
    rw [accounts_dispatch]
    rcases event.accountUpdate with _ | u
    · exact hm.accounts owner
    · rw [Option.elim_some, AccountMatcher.observeUpdate, AccountMatcher.shardOf_observe]
      split_ifs
      · rw [PerProgramShard.main_observe]
        exact (hm.accounts owner).stepWith batched ⟨u.endpoint, _, u.ts, u.slot⟩
      · exact hm.accounts owner
  transactions := by
    rw [transactions_dispatch]
    rcases event.txCall with _ | c
    · exact hm.transactions
    · exact hm.transactions.stepWith batched c
  blocks := by
    rw [blocks_dispatch]
    rcases event.blockCall with _ | c
    · exact hm.blocks
    · exact hm.blocks.stepWith batched c

end StreamMatchers

/-! ## The summaries over the shards -/

namespace AccountMatcher

variable {m : AccountMatcher B}

/-- The samples of all shards. -/
def samples (m : AccountMatcher B) : Multiset ℚ :=
  Finmap.total (fun shard => shard.main.samples) m.shards

/-- **The overall summary** has the counters of the samples of all shards. -/
theorem directed_summary (h : ∀ owner, (m.shardOf owner).main.Directed)
    (order : Finmap.Enumeration m.shards) : (m.summary order).1.counts.Directed m.samples := by
  rw [samples, total_shards]
  refine ⟨?_, ?_, ?_⟩
  · refine (m.summary_matched order).trans ?_
    rw [total_shards, Multiset.card_sum]
    exact Finset.sum_congr rfl fun owner _ => (h owner).matched
  · refine (m.summary_ep1Faster order).trans ?_
    rw [total_shards, ← Multiset.coe_countPAddMonoidHom, map_sum]
    exact Finset.sum_congr rfl fun owner _ => (h owner).ep1Faster
  · refine (m.summary_ep2Faster order).trans ?_
    rw [total_shards, ← Multiset.coe_countPAddMonoidHom, map_sum]
    exact Finset.sum_congr rfl fun owner _ => (h owner).ep2Faster

/-- **A bucket** has the counters of the samples of one shard, whose owner has its name. -/
theorem directed_of_lookup (hagrees : ∀ owner, (m.shardOf owner).Agrees)
    (h : ∀ owner, (m.shardOf owner).main.Directed) (order : Finmap.Enumeration m.shards)
    {name : String} {s : LatencyDigestSummary}
    (hs : (m.perProgramSummary order).1.lookup name = some s) :
    ∃ owner ∈ m.shards, m.bucketName owner = name ∧
      s.counts.Directed (m.shardOf owner).main.samples := by
  rw [fst_perProgramSummary] at hs
  obtain ⟨entry, hentry, heq⟩ := List.mem_map.mp (Finmap.mem_of_lookup_collect hs)
  obtain ⟨rfl, rfl⟩ := Prod.mk.inj heq
  obtain ⟨hin, hshard⟩ := m.eq_shardOf order hentry
  refine ⟨entry.1, hin, rfl, ?_⟩
  rw [hshard]
  exact ⟨(hagrees _).matched.trans (h _).matched, (hagrees _).ep1Faster.trans (h _).ep1Faster,
    (hagrees _).ep2Faster.trans (h _).ep2Faster⟩

end AccountMatcher

end GrpcBench
