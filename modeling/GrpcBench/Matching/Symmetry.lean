import GrpcBench.Matching.Lanes

/-!
# The comparison does not favour an endpoint

Exchanging the two endpoints in every event exchanges them in every result: the pending maps, the
directional counters and the evicted counts trade places, and every recorded difference changes
sign.  The two runs are related step by step (`Mirrored`), through the lookup of the other
endpoint's map, the order of the two timestamps, the sign test and the eviction of one map after the
other.

* `Mirrored.step`, `Mirrored.run`: the simulation for one pair matcher.
* `MirroredShard.run`: the same for a shard and its digest.
* `dispatchAll_swap`: the same for all matchers of a run, for arbitrary timestamps.
-/

namespace GrpcBench

/-- The same call, by the other endpoint. -/
def Call.swap {K : Type} (c : Call K) : Call K :=
  { c with endpoint := c.endpoint.other }

/-! ## Digests with negated samples -/

/-- The second digest has the samples of the first, negated, and the same number of them
buffered. -/
structure BufferedDigest.Negates {B : Backend} (d d' : BufferedDigest B) : Prop where
  buffer : d'.buffer = d.buffer.map Neg.neg
  samples : d'.samples = d.samples.map Neg.neg

namespace BufferedDigest

variable {B : Backend} {d d' : BufferedDigest B}

theorem negates_new : Negates (new B) (new B) :=
  ⟨rfl, by rw [samples_new, Multiset.map_zero]⟩

/-- Both digests fill their buffers at the same moment. -/
theorem Negates.push (h : Negates d d') (v : ℚ) : Negates (d.push v) (d'.push (-v)) := by
  refine ⟨?_, by rw [samples_push, samples_push, h.samples, Multiset.map_cons]⟩
  have hbuf : d'.buffer ++ [-v] = (d.buffer ++ [v]).map Neg.neg := by
    rw [h.buffer, List.map_append, List.map_singleton]
  have hlen : (d'.buffer ++ [-v]).length = (d.buffer ++ [v]).length := by
    rw [hbuf, List.length_map]
  have hne : ∀ (l : List ℚ) (x : ℚ), (l ++ [x]).isEmpty = false := fun l x => by simp
  simp only [BufferedDigest.push, hlen]
  split_ifs
  · simp only [flush, hne, Bool.false_eq_true, if_false]
    rfl
  · exact hbuf

end BufferedDigest

variable {B : Backend} {K : Type} [DecidableEq K]

/-! ## One pair matcher -/

/-- The second matcher is the first with the endpoints exchanged. -/
structure Mirrored (m m' : PairMatcher B K) : Prop where
  pending : ∀ e, m'.pending e = m.pending e.other
  matched : m'.counts.matched = m.counts.matched
  ep1Faster : m'.counts.ep1Faster = m.counts.ep2Faster
  ep2Faster : m'.counts.ep2Faster = m.counts.ep1Faster
  evicted : ∀ e, m'.counts.unmatchedEvicted e = m.counts.unmatchedEvicted e.other
  deltas : m.deltas.Negates m'.deltas
  eviction : m'.eviction = m.eviction
  highWaterSlot : m'.highWaterSlot = m.highWaterSlot
  obsCount : m'.obsCount = m.obsCount

namespace Mirrored

open PairMatcher

variable {m m' : PairMatcher B K}

omit [DecidableEq K] in
theorem new (eviction : EvictionPolicy) :
    Mirrored (PairMatcher.new B K eviction) (PairMatcher.new B K eviction) where
  pending e := by rw [pending_new, pending_new]
  matched := rfl
  ep1Faster := rfl
  ep2Faster := rfl
  evicted e := by cases e <;> rfl
  deltas := BufferedDigest.negates_new
  eviction := rfl
  highWaterSlot := rfl
  obsCount := rfl

/-- A pass treats both endpoints alike. -/
theorem evict (h : Mirrored m m') : Mirrored m.evict m'.evict where
  pending e := by
    rw [pending_evict, pending_evict, h.pending, h.eviction, h.highWaterSlot]
  matched := h.matched
  ep1Faster := h.ep1Faster
  ep2Faster := h.ep2Faster
  evicted e := by
    rw [unmatchedEvicted_evict, unmatchedEvicted_evict, h.pending, h.eviction, h.highWaterSlot,
      h.evicted]
  deltas := h.deltas
  eviction := h.eviction
  highWaterSlot := h.highWaterSlot
  obsCount := h.obsCount

theorem admitWith (h : Mirrored m m') (passDue : UInt64 → Bool) (slot : UInt64) :
    Mirrored (m.admitWith passDue slot) (m'.admitWith passDue slot) := by
  obtain ⟨n, hp, hc, hd, hev, hhw, hobs, heq⟩ := m.admitWith_eq passDue slot
  obtain ⟨n', hp', hc', hd', hev', hhw', hobs', heq'⟩ := m'.admitWith_eq passDue slot
  have hn : Mirrored n n' := by
    refine ⟨fun e => ?_, ?_, ?_, ?_, fun e => ?_, ?_, ?_, ?_, ?_⟩
    · rw [hp, hp', h.pending]
    · rw [hc, hc', h.matched]
    · rw [hc, hc', h.ep1Faster]
    · rw [hc, hc', h.ep2Faster]
    · rw [hc, hc', h.evicted]
    · rw [hd, hd']
      exact h.deltas
    · rw [hev, hev', h.eviction]
    · rw [hhw, hhw', h.highWaterSlot]
    · rw [hobs, hobs', h.obsCount]
  rw [heq, heq', h.obsCount]
  split
  · exact hn.evict
  · exact hn

omit [DecidableEq K] in
/-- Exchanging the endpoints of a match negates its difference. -/
theorem matchResult_other (e : EndpointRole) (t t' : EventTimestamp) :
    (matchResult B e.other t t').delta.toInt = -(matchResult B e t t').delta.toInt ∧
      (matchResult B e.other t t').deltaMs = -(matchResult B e t t').deltaMs := by
  have hdelta : (matchResult B e.other t t').delta.toInt =
      -(matchResult B e t t').delta.toInt := by
    cases e
    · exact toInt_deltaNs_swap t t'
    · exact toInt_deltaNs_swap t' t
  rw [deltaMs_matchResult, deltaMs_matchResult, hdelta, Backend.toMs_neg]
  exact ⟨rfl, rfl⟩

omit [DecidableEq K] in
theorem setPending (h : Mirrored m m') (e : EndpointRole) (p : Pending K) :
    Mirrored (m.setPending e p) (m'.setPending e.other p) where
  pending f := by
    by_cases hf : f = e
    · subst hf
      simp [h.pending]
    · have hf' : f = e.other := EndpointRole.eq_other_of_ne hf
      subst hf'
      simp
  matched := by simp [h.matched]
  ep1Faster := by simp [h.ep1Faster]
  ep2Faster := by simp [h.ep2Faster]
  evicted f := by simp [h.evicted]
  deltas := by cases e <;> exact h.deltas
  eviction := by simp [h.eviction]
  highWaterSlot := by simp [h.highWaterSlot]
  obsCount := by simp [h.obsCount]

omit [DecidableEq K] in
theorem recordMatch (h : Mirrored m m') {x : ℚ} {d d' : Int64} (hd : d'.toInt = -d.toInt) :
    Mirrored (m.recordMatch x d) (m'.recordMatch (-x) d') where
  pending e := by simp [h.pending]
  matched := by simp [MatchCounts.record_matched, h.matched]
  ep1Faster := by
    simp only [counts_recordMatch, MatchCounts.record_ep1Faster, MatchCounts.record_ep2Faster,
      h.ep1Faster, hd, Int.neg_pos]
  ep2Faster := by
    simp only [counts_recordMatch, MatchCounts.record_ep1Faster, MatchCounts.record_ep2Faster,
      h.ep2Faster, hd, Int.neg_neg_iff_pos]
  evicted e := by simp [h.evicted]
  deltas := h.deltas.push x
  eviction := h.eviction
  highWaterSlot := h.highWaterSlot
  obsCount := h.obsCount

/-- **One call.**  The results are matches together, with negated differences, and the matchers stay
mirrored. -/
theorem settle (h : Mirrored m m') (c : Call K) :
    Mirrored (m.settleCall c).2 (m'.settleCall c.swap).2 ∧
      (m'.settleCall c.swap).1.map MatchResult.deltaMs =
        (m.settleCall c).1.map fun r => -r.deltaMs := by
  have hother : m'.pending c.swap.endpoint.other = m.pending c.endpoint.other := by
    rw [h.pending]
    exact congrArg (fun e => m.pending e) (EndpointRole.other_other c.endpoint.other)
  have hown : m'.pending c.swap.endpoint = m.pending c.endpoint := by
    rw [h.pending]
    exact congrArg (fun e => m.pending e) (EndpointRole.other_other c.endpoint)
  rcases m.settle_cases c with ⟨other, hlook, -, hset⟩ | ⟨hlook, -, hset⟩
  · rcases m'.settle_cases c.swap with ⟨other', hlook', -, hset'⟩ | ⟨hlook', -, -⟩
    · rw [hother] at hlook'
      have heq : other' = other := Option.some.inj (hlook'.symm.trans hlook)
      subst heq
      obtain ⟨hdelta, hms⟩ := matchResult_other (B := B) c.endpoint c.ts other'.ts
      rw [hset, hset']
      refine ⟨?_, congrArg some hms⟩
      show Mirrored _ ((m'.setPending c.swap.endpoint.other _).recordMatch
        (matchResult B c.endpoint.other c.ts other'.ts).deltaMs _)
      rw [hms, hother]
      exact (h.setPending c.endpoint.other _).recordMatch hdelta
    · rw [hother] at hlook'
      exact absurd (hlook'.symm.trans hlook) (by simp)
  · rcases m'.settle_cases c.swap with ⟨other', hlook', -, -⟩ | ⟨-, -, hset'⟩
    · rw [hother] at hlook'
      exact absurd (hlook'.symm.trans hlook) (by simp)
    · rw [hset, hset', hown]
      exact ⟨h.setPending c.endpoint _, rfl⟩

theorem step (h : Mirrored m m') (c : Call K) :
    Mirrored (m.stepWith batched c).2 (m'.stepWith batched c.swap).2 ∧
      (m'.stepWith batched c.swap).1.map MatchResult.deltaMs =
        (m.stepWith batched c).1.map fun r => -r.deltaMs :=
  (h.admitWith batched c.slot).settle c

/-- **A run of exchanged calls is the exchanged run.** -/
theorem run (h : Mirrored m m') (cs : List (Call K)) :
    Mirrored (m.run cs).2 (m'.run (cs.map Call.swap)).2 := by
  rw [run_eq_foldl, run_eq_foldl]
  exact Folds.foldl_simulation (fun _ _ c hc => (hc.step c).1) cs h

end Mirrored

/-! ## Shards -/

/-- The second shard is the first with the endpoints exchanged. -/
structure MirroredShard (shard shard' : PerProgramShard B) : Prop where
  main : Mirrored shard.main shard'.main
  matched : shard'.digest.counts.matched = shard.digest.counts.matched
  ep1Faster : shard'.digest.counts.ep1Faster = shard.digest.counts.ep2Faster
  ep2Faster : shard'.digest.counts.ep2Faster = shard.digest.counts.ep1Faster
  deltas : shard.digest.deltas.Negates shard'.digest.deltas

namespace MirroredShard

variable {shard shard' : PerProgramShard B}

theorem new (eviction : EvictionPolicy) :
    MirroredShard (PerProgramShard.new B eviction) (PerProgramShard.new B eviction) :=
  ⟨Mirrored.new eviction, rfl, rfl, rfl, BufferedDigest.negates_new⟩

theorem step (h : MirroredShard shard shard') (c : Call AccountKey) :
    MirroredShard (shard.step c) (shard'.step c.swap) := by
  obtain ⟨hmain, hres⟩ := h.main.step c
  rw [PerProgramShard.step_eq, PerProgramShard.step_eq]
  rcases hr : (shard.main.stepWith batched c).1 with _ | r <;>
    rcases hr' : (shard'.main.stepWith batched c.swap).1 with _ | r'
  · exact ⟨hmain, h.matched, h.ep1Faster, h.ep2Faster, h.deltas⟩
  · rw [hr, hr'] at hres
    cases hres
  · rw [hr, hr'] at hres
    cases hres
  · rw [hr, hr'] at hres
    have hms : r'.deltaMs = -r.deltaMs := Option.some.inj hres
    refine ⟨hmain, ?_, ?_, ?_, ?_⟩
    · simp only [Option.elim_some, ProgramDigest.push, ProgramDigest.record]
      split_ifs <;> simp [h.matched]
    · simp only [Option.elim_some, ProgramDigest.push, ProgramDigest.record, hms]
      split_ifs <;> simp [h.ep1Faster] <;> linarith
    · simp only [Option.elim_some, ProgramDigest.push, ProgramDigest.record, hms]
      split_ifs <;> simp [h.ep2Faster] <;> linarith
    · rw [Option.elim_some, Option.elim_some, hms]
      exact h.deltas.push r.deltaMs

theorem run (h : MirroredShard shard shard') (cs : List (Call AccountKey)) :
    MirroredShard (shard.run cs) (shard'.run (cs.map Call.swap)) :=
  Folds.foldl_simulation (fun _ _ c hc => hc.step c) cs h

end MirroredShard

/-! ## All matchers -/

/-- The same update, by the other endpoint. -/
def AccountUpdate.swap (u : AccountUpdate) : AccountUpdate :=
  { u with endpoint := u.endpoint.other }

theorem slotCall_swap (stage : SlotStage) (event : Event) :
    event.swap.slotCall stage = (event.slotCall stage).map Call.swap := by
  obtain ⟨ts, sub, payload⟩ := event
  cases payload with
  | slot slot s =>
    by_cases h : s = stage
    · simp [Event.slotCall, Event.swap, h, Call.swap, Event.endpoint]
    · simp [Event.slotCall, Event.swap, h]
  | _ => rfl

theorem accountUpdate_swap (event : Event) :
    event.swap.accountUpdate = event.accountUpdate.map AccountUpdate.swap := by
  obtain ⟨ts, sub, payload⟩ := event
  cases payload with
  | account => simp [Event.accountUpdate, Event.swap, AccountUpdate.swap, Event.endpoint]
  | _ => rfl

theorem txCall_swap (event : Event) : event.swap.txCall = event.txCall.map Call.swap := by
  obtain ⟨ts, sub, payload⟩ := event
  cases payload with
  | transaction => simp [Event.txCall, Event.swap, Call.swap, Event.endpoint]
  | _ => rfl

theorem blockCall_swap (event : Event) : event.swap.blockCall = event.blockCall.map Call.swap := by
  obtain ⟨ts, sub, payload⟩ := event
  cases payload with
  | block => cases sub <;> rfl
  | _ => rfl

/-- A filter that commutes with an exchange of endpoints picks the exchanged items. -/
theorem filterMap_swap {A C : Type} {f : A → Option C} {swapA : A → A} {swapC : C → C}
    (h : ∀ a, f (swapA a) = (f a).map swapC) (as : List A) :
    (as.map swapA).filterMap f = (as.filterMap f).map swapC := by
  rw [List.filterMap_map, List.map_filterMap]
  exact congrArg (List.filterMap · as) (funext h)

/-- The shards of two runs of the account matcher with exchanged updates. -/
theorem mirroredShard_observeAll {m : AccountMatcher B} (us : List AccountUpdate)
    (hm : ∀ owner, m.shardOf owner = PerProgramShard.new B m.eviction) (owner : Pubkey32) :
    Option.Rel MirroredShard ((m.observeAll us).shards.lookup owner)
      ((m.observeAll (us.map AccountUpdate.swap)).shards.lookup owner) := by
  have hmem : owner ∈ (m.observeAll (us.map AccountUpdate.swap)).shards ↔
      owner ∈ (m.observeAll us).shards := by
    rw [AccountMatcher.mem_shards_observeAll, AccountMatcher.mem_shards_observeAll]
    simp [AccountUpdate.swap]
  by_cases hin : owner ∈ (m.observeAll us).shards
  · rw [AccountMatcher.lookup_shards _ hin, AccountMatcher.lookup_shards _ (hmem.mpr hin),
      AccountMatcher.shardOf_observeAll, AccountMatcher.shardOf_observeAll, hm]
    -- the calls of the exchanged updates of an owner are the exchanged calls
    have hcalls : ((us.map AccountUpdate.swap).filter fun u => u.owner = owner).map
        (AccountUpdate.call m.strictAccountKey) =
          ((us.filter fun u => u.owner = owner).map
            (AccountUpdate.call m.strictAccountKey)).map Call.swap := by
      rw [List.filter_map, List.map_map, List.map_map]
      rfl
    rw [hcalls]
    exact Option.Rel.some ((MirroredShard.new m.eviction).run _)
  · rw [Finmap.lookup_eq_none.mpr hin, Finmap.lookup_eq_none.mpr fun h => hin (hmem.mp h)]
    exact Option.Rel.none

/-- **Endpoint symmetry.**  Exchanging the endpoints of all events leaves every matcher with its
pending maps, directional counters and evicted counts exchanged and its differences negated; and no
`i64` subtraction of two readings overflows, in this run or any other. -/
theorem dispatchAll_swap (names : Finmap fun _ : Pubkey32 => String) (strict : Bool)
    (events : List Event) :
    let start := (StreamMatchers.new B names).withStrictAccountKey strict
    let m := dispatchAll start events
    let m' := dispatchAll start (events.map Event.swap)
    (∀ stage, Option.Rel Mirrored (m.slots.matcherFor stage) (m'.slots.matcherFor stage)) ∧
      (∀ owner, Option.Rel MirroredShard (m.accounts.shards.lookup owner)
        (m'.accounts.shards.lookup owner)) ∧
      Mirrored m.transactions.inner m'.transactions.inner ∧
      Mirrored m.blocks.inner m'.blocks.inner ∧
      ∀ later earlier : EventTimestamp,
        (deltaNs later earlier).toInt = clampNs later.monoNs - clampNs earlier.monoNs := by
  intro start m m'
  refine ⟨fun stage => ?_, fun owner => ?_, ?_, ?_, toInt_deltaNs⟩
  · have h1 : m.slots.matcherFor stage = _ := matcherFor_dispatchAll start events stage
    have h2 : m'.slots.matcherFor stage = _ := matcherFor_dispatchAll start _ stage
    rw [h1, h2, filterMap_swap (slotCall_swap stage)]
    cases stage with
    | dead => exact Option.Rel.none
    | _ => exact Option.Rel.some ((Mirrored.new matchWindow).run _)
  · have h1 : m.accounts = _ := accounts_dispatchAll start events
    have h2 : m'.accounts = _ := accounts_dispatchAll start _
    rw [filterMap_swap accountUpdate_swap] at h2
    have hstart : ∀ owner, start.accounts.shardOf owner =
        PerProgramShard.new B start.accounts.eviction :=
      fun owner => AccountMatcher.shardOf_new matchWindow names owner
    rw [h1, h2]
    exact mirroredShard_observeAll _ hstart owner
  · have h1 : m.transactions.inner = _ := transactions_dispatchAll start events
    have h2 : m'.transactions.inner = _ := transactions_dispatchAll start _
    rw [h1, h2, filterMap_swap txCall_swap]
    exact (Mirrored.new matchWindow).run _
  · have h1 : m.blocks.inner = _ := blocks_dispatchAll start events
    have h2 : m'.blocks.inner = _ := blocks_dispatchAll start _
    rw [h1, h2, filterMap_swap blockCall_swap]
    exact (Mirrored.new matchWindow).run _

end GrpcBench
