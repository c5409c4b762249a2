import GrpcBench.Matching.Join

/-!
# Batched eviction refines eager eviction

The source runs an eviction pass on every `EVICT_EVERY`-th observation, not on every one.  A matcher
that waits holds stale entries that an eager one has already dropped.  Inside the window neither can
be seen: both matchers track one ideal board, so they answer alike, and a final pass brings both to
the live part of that board with the same counts.

* `Tracks.agree`: two matchers on one ideal board, each with passes of its own, agree on a run.
* `run_batched_eq_eager`: the batched passes of the source against a pass on every observation.
-/

namespace GrpcBench

open Rendezvous (Board Outcome Arrival)

namespace PairMatcher

variable {B : Backend} {K : Type} [DecidableEq K] {slotOf : K → UInt64} {window : UInt64}

theorem counts_ext {c c' : MatchCounts} (hm : c.matched = c'.matched)
    (h1 : c.ep1Faster = c'.ep1Faster) (h2 : c.ep2Faster = c'.ep2Faster)
    (hu : ∀ e, c.unmatchedEvicted e = c'.unmatchedEvicted e) : c = c' := by
  have hu1 : c.ep1UnmatchedEvicted = c'.ep1UnmatchedEvicted := hu .one
  have hu2 : c.ep2UnmatchedEvicted = c'.ep2UnmatchedEvicted := hu .two
  cases c
  cases c'
  simp_all

/-- **Two matchers on one board.**  Whatever passes each of them runs, they return the same results,
and a final pass leaves them with the same pending maps, counters and samples. -/
theorem Tracks.agree {m m' : PairMatcher B K} {I : Board K EndpointRole MatchPending}
    (h : m.Tracks slotOf window I) (h' : m'.Tracks slotOf window I)
    (hwater : m'.highWaterSlot = m.highWaterSlot) (hcounts : m'.counts = m.counts)
    (hsamples : m'.samples = m.samples) (hbal : ∀ e, m'.balance e = m.balance e)
    (passDue passDue' : UInt64 → Bool) {cs : List (Call K)}
    (hslot : ∀ c ∈ cs, c.slot = slotOf c.key) (hwin : InWindow window m.highWaterSlot cs) :
    (m'.runWith passDue' cs).1 = (m.runWith passDue cs).1 ∧
      (∀ e, (m'.runWith passDue' cs).2.evict.pending e =
        (m.runWith passDue cs).2.evict.pending e) ∧
      (m'.runWith passDue' cs).2.evict.counts = (m.runWith passDue cs).2.evict.counts ∧
      (m'.runWith passDue' cs).2.evict.samples = (m.runWith passDue cs).2.evict.samples := by
  obtain ⟨htrace, htracks⟩ := h.run passDue hslot hwin
  obtain ⟨htrace', htracks'⟩ := h'.run passDue' hslot (by rw [hwater]; exact hwin)
  have hres : (m'.runWith passDue' cs).1 = (m.runWith passDue cs).1 := by
    rw [fst_runWith, fst_runWith, htrace, htrace']
  have hpend : ∀ e, (m'.runWith passDue' cs).2.evict.pending e =
      (m.runWith passDue cs).2.evict.pending e := by
    have hev := htracks.evict
    have hev' := htracks'.evict
    rw [highWaterSlot_runWith] at hev hev'
    rw [hwater] at hev'
    exact hev'.pending_eq hev
  have hmatched : (m'.runWith passDue' cs).2.counts.matched =
      (m.runWith passDue cs).2.counts.matched := by
    rw [matched_runWith, matched_runWith, hres, hcounts]
  refine ⟨hres, hpend, counts_ext ?_ ?_ ?_ fun e => ?_, ?_⟩
  · exact hmatched
  · rw [ep1Faster_evict, ep1Faster_evict, ep1Faster_runWith, ep1Faster_runWith, hres, hcounts]
  · rw [ep2Faster_evict, ep2Faster_evict, ep2Faster_runWith, ep2Faster_runWith, hres, hcounts]
  · -- the traces agree, so equally many entries were replaced, and the books do the rest
    have hb := balance_runWith passDue m cs h.policy e
    have hb' := balance_runWith passDue' m' cs h'.policy e
    rw [htrace, ← balance_evict _ htracks.policy] at hb
    rw [htrace', ← balance_evict _ htracks'.policy, hbal e] at hb'
    rw [balance, matched_evict] at hb hb'
    rw [hpend e, hmatched] at hb'
    omega
  · rw [samples_evict, samples_evict, samples_runWith, samples_runWith, hres, hsamples]

/-- **Batched eviction refines eager eviction.**  Inside the window the source's batched passes
return, call by call, what a pass on every observation returns; after the final pass the pending
maps and all counters are equal, whatever the phases of the two observation counters. -/
theorem run_batched_eq_eager (slotOf : K → UInt64) (n n' : UInt64) {cs : List (Call K)}
    (hslot : ∀ c ∈ cs, c.slot = slotOf c.key) (hwin : InWindow window 0 cs) :
    let batchedRun :=
      ({ new B K (.slotWindow window) with obsCount := n } : PairMatcher B K).runWith batched cs
    let eagerRun :=
      ({ new B K (.slotWindow window) with obsCount := n' } : PairMatcher B K).runWith eager cs
    batchedRun.1 = eagerRun.1 ∧
      (∀ e, batchedRun.2.evict.pending e = eagerRun.2.evict.pending e) ∧
      batchedRun.2.evict.counts = eagerRun.2.evict.counts ∧
      batchedRun.2.evict.samples = eagerRun.2.evict.samples := by
  have htracks : ∀ k : UInt64,
      ({ new B K (.slotWindow window) with obsCount := k } : PairMatcher B K).Tracks slotOf window
        Rendezvous.empty :=
    fun k => tracks_empty rfl fun e => by cases e <;> rfl
  exact (htracks n').agree (htracks n) rfl rfl rfl (fun e => by cases e <;> rfl) eager batched
    hslot hwin

/-- An entry that is out of the window by the end: a batched matcher still holds it before its final
pass, an eager one does not. -/
theorem run_batched_eq_eager_stale :
    let cs : List (Call UInt64) := [⟨.one, 1, ⟨10, 0⟩, 1⟩, ⟨.one, 500, ⟨20, 0⟩, 500⟩]
    let batchedRun := ({ new Backend.exact UInt64 (.slotWindow 64) with obsCount := 3 } :
      PairMatcher Backend.exact UInt64).runWith batched cs
    let eagerRun := ({ new Backend.exact UInt64 (.slotWindow 64) with obsCount := 0 } :
      PairMatcher Backend.exact UInt64).runWith eager cs
    batchedRun.2.evict.counts = eagerRun.2.evict.counts :=
  (run_batched_eq_eager id 3 0 (by decide) (by decide)).2.2.1

end PairMatcher

end GrpcBench
