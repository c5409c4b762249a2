import GrpcBench.Collect.Event
import GrpcBench.Digest
import GrpcBench.Library.Finmap

/-!
# The pair matcher

`matching/mod.rs`: `PairMatcher`, the generic core of every cross-endpoint measurement.  It keeps
one pending map per endpoint.  An observation looks its key up on the *other* endpoint; on a hit it
takes the entry out and records the difference of the two arrivals, otherwise it leaves its own
entry behind, over an older one of the same key if there is one.

Entries that never match are dropped by eviction passes.  A pass runs on every `EVICT_EVERY`-th
observation, after the high-water slot has been raised and before the lookup.

`observe` is written here as `admitSlot` (high-water slot, counter, pass) followed by `settle`
(lookup and insertion); the source has both in one body.  The counters are natural numbers: they are
`u64` in the source, and no run makes `2^64` observations.
-/

namespace GrpcBench

/-- `EVICT_EVERY`. -/
def evictEvery : UInt64 := 256

/-- Eviction strategy for pending events that never matched. -/
inductive EvictionPolicy where
  | slotWindow (window : UInt64)
  | lru (maxPending : ℕ)
  deriving DecidableEq

/-- Directional counters.  They are `u64` in the source and natural numbers here, as a call adds one
to each at most, or the entries it evicts. -/
structure MatchCounts where
  matched : ℕ := 0
  ep1Faster : ℕ := 0
  ep2Faster : ℕ := 0
  ep1UnmatchedEvicted : ℕ := 0
  ep2UnmatchedEvicted : ℕ := 0
  deriving DecidableEq

/-- An entry that waits for its partner. -/
structure MatchPending where
  ts : EventTimestamp
  slot : UInt64
  deriving DecidableEq

/-- Outcome of a successful identity match. -/
structure MatchResult where
  deltaMs : ℚ
  ep1Ts : EventTimestamp
  ep2Ts : EventTimestamp
  deriving DecidableEq

/-- One endpoint's pending map. -/
abbrev Pending (K : Type) := Finmap fun _ : K => MatchPending

/-- One pair-matcher for a single identity type. -/
structure PairMatcher (B : Backend) (K : Type) where
  pendingEp1 : Pending K
  pendingEp2 : Pending K
  deltas : BufferedDigest B
  counts : MatchCounts
  eviction : EvictionPolicy
  highWaterSlot : UInt64
  obsCount : UInt64

/-- `(ep1_ts, ep2_ts)` of a match: `ts` is the arrival at `endpoint`, `other` the one it met. -/
def orderPair (endpoint : EndpointRole) (ts other : EventTimestamp) :
    EventTimestamp × EventTimestamp :=
  match endpoint with
  | .one => (ts, other)
  | .two => (other, ts)

/-- The match arm's update of the counters. -/
def MatchCounts.record (c : MatchCounts) (delta : Int64) : MatchCounts :=
  if 0 < delta then { c with matched := c.matched + 1, ep1Faster := c.ep1Faster + 1 }
  else if delta < 0 then { c with matched := c.matched + 1, ep2Faster := c.ep2Faster + 1 }
  else { c with matched := c.matched + 1 }

/-- `epN_unmatched_evicted`. -/
def MatchCounts.unmatchedEvicted (c : MatchCounts) : EndpointRole → ℕ
  | .one => c.ep1UnmatchedEvicted
  | .two => c.ep2UnmatchedEvicted

variable {B : Backend} {K : Type} [DecidableEq K]

/-- One endpoint's part of an eviction pass: the entries that are kept, and the number of those that
are not. -/
def EvictionPolicy.pass (B : Backend) (policy : EvictionPolicy) (highWaterSlot : UInt64)
    (pending : Pending K) : Pending K × ℕ :=
  match policy with
  | .slotWindow window =>
    let cutoff := saturatingSub highWaterSlot window
    let kept := pending.retain fun _ v => decide (cutoff ≤ v.slot)
    (kept, pending.size - kept.size)
  | .lru maxPending =>
    if maxPending < pending.size then
      let excess := pending.size - maxPending
      ((B.takeKeys pending.keys excess).foldl (fun p k => p.erase k) pending, excess)
    else (pending, 0)

namespace PairMatcher

omit [DecidableEq K] in
/-- `PairMatcher::new`. -/
def new (B : Backend) (K : Type) (eviction : EvictionPolicy) : PairMatcher B K where
  pendingEp1 := ∅
  pendingEp2 := ∅
  deltas := BufferedDigest.new B
  counts := {}
  eviction := eviction
  highWaterSlot := 0
  obsCount := 0

/-- The pending map of an endpoint. -/
def pending (m : PairMatcher B K) : EndpointRole → Pending K
  | .one => m.pendingEp1
  | .two => m.pendingEp2

/-- Replace the pending map of an endpoint. -/
def setPending (m : PairMatcher B K) (endpoint : EndpointRole) (p : Pending K) :
    PairMatcher B K :=
  match endpoint with
  | .one => { m with pendingEp1 := p }
  | .two => { m with pendingEp2 := p }

/-- `PairMatcher::flush`. -/
def flush (m : PairMatcher B K) : PairMatcher B K :=
  { m with deltas := m.deltas.flush }

/-- `PairMatcher::push_delta`. -/
def pushDelta (m : PairMatcher B K) (deltaMs : ℚ) : PairMatcher B K :=
  { m with deltas := m.deltas.push deltaMs }

/-- `PairMatcher::evict`. -/
def evict (m : PairMatcher B K) : PairMatcher B K :=
  let ep1 := m.eviction.pass B m.highWaterSlot m.pendingEp1
  let ep2 := m.eviction.pass B m.highWaterSlot m.pendingEp2
  { m with
    pendingEp1 := ep1.1
    pendingEp2 := ep2.1
    counts := { m.counts with
      ep1UnmatchedEvicted := m.counts.ep1UnmatchedEvicted + ep1.2
      ep2UnmatchedEvicted := m.counts.ep2UnmatchedEvicted + ep2.2 } }

/-- `observe`, up to the lookup, with the decision whether a pass runs left open. -/
def admitWith (passDue : UInt64 → Bool) (m : PairMatcher B K) (slot : UInt64) : PairMatcher B K :=
  let m := if m.highWaterSlot < slot then { m with highWaterSlot := slot } else m
  let m := { m with obsCount := m.obsCount + 1 }
  if passDue m.obsCount then m.evict else m

/-- `observe`, up to the lookup: a pass runs when the counter is a multiple of `EVICT_EVERY`. -/
def admitSlot (m : PairMatcher B K) (slot : UInt64) : PairMatcher B K :=
  m.admitWith (fun obsCount => obsCount % evictEvery == 0) slot

/-- The match arm's bookkeeping: push the sample, count the match. -/
def recordMatch (m : PairMatcher B K) (deltaMs : ℚ) (delta : Int64) : PairMatcher B K :=
  let m := m.pushDelta deltaMs
  { m with counts := m.counts.record delta }

/-- `observe`, from the lookup on. -/
def settle (m : PairMatcher B K) (endpoint : EndpointRole) (key : K) (ts : EventTimestamp)
    (slot : UInt64) : Option MatchResult × PairMatcher B K :=
  match (m.pending endpoint.other).lookup key with
  | some other =>
    let m := m.setPending endpoint.other ((m.pending endpoint.other).erase key)
    let (ep1Ts, ep2Ts) := orderPair endpoint ts other.ts
    let delta := deltaNs ep2Ts ep1Ts
    let deltaMs := B.toMs delta.toInt
    (some ⟨deltaMs, ep1Ts, ep2Ts⟩, m.recordMatch deltaMs delta)
  | none => (none, m.setPending endpoint ((m.pending endpoint).insert key ⟨ts, slot⟩))

/-- `PairMatcher::observe`. -/
def observe (m : PairMatcher B K) (endpoint : EndpointRole) (key : K) (ts : EventTimestamp)
    (slot : UInt64) : Option MatchResult × PairMatcher B K :=
  (m.admitSlot slot).settle endpoint key ts slot

/-- `PairMatcher::quantile`; `none` is NaN. -/
def quantile (m : PairMatcher B K) (q : ℚ) : Option ℚ × PairMatcher B K :=
  let r := m.deltas.quantile q
  (r.1, { m with deltas := r.2 })

/-- `PairMatcher::snapshot_digest`. -/
def snapshotDigest (m : PairMatcher B K) : B.TDigest × PairMatcher B K :=
  let m := m.flush
  (m.deltas.digest, m)

/-- The samples recorded so far. -/
def samples (m : PairMatcher B K) : Multiset ℚ :=
  m.deltas.samples

end PairMatcher

/-- Per-stream quantile summary. -/
structure LatencyDigestSummary where
  p50 : Option ℚ
  p90 : Option ℚ
  p99 : Option ℚ
  p999 : Option ℚ
  matched : ℕ
  ep1Faster : ℕ
  ep2Faster : ℕ
  deriving DecidableEq

/-- `LatencyDigestSummary::from_matcher`. -/
def LatencyDigestSummary.fromMatcher (m : PairMatcher B K) :
    LatencyDigestSummary × PairMatcher B K :=
  let m := m.evict
  let counts := m.counts
  let (p50, m) := m.quantile 0.50
  let (p90, m) := m.quantile 0.90
  let (p99, m) := m.quantile 0.99
  let (p999, m) := m.quantile 0.999
  ({ p50, p90, p99, p999,
     matched := counts.matched, ep1Faster := counts.ep1Faster, ep2Faster := counts.ep2Faster }, m)

namespace PairMatcher

/-! ## What each operation leaves alone -/

section Fields

omit [DecidableEq K]

@[simp] theorem pending_new (e : EndpointRole) (eviction : EvictionPolicy) :
    (new B K eviction).pending e = ∅ := by
  cases e <;> rfl

@[simp] theorem samples_new (eviction : EvictionPolicy) : (new B K eviction).samples = 0 :=
  BufferedDigest.samples_new

variable (m : PairMatcher B K)

@[simp] theorem pending_setPending_self (e : EndpointRole) (p : Pending K) :
    (m.setPending e p).pending e = p := by
  cases e <;> rfl

@[simp] theorem pending_setPending_other (e : EndpointRole) (p : Pending K) :
    (m.setPending e p).pending e.other = m.pending e.other := by
  cases e <;> rfl

@[simp] theorem pending_setPending_other' (e : EndpointRole) (p : Pending K) :
    (m.setPending e.other p).pending e = m.pending e := by
  cases e <;> rfl

@[simp] theorem counts_setPending (e : EndpointRole) (p : Pending K) :
    (m.setPending e p).counts = m.counts := by
  cases e <;> rfl

@[simp] theorem eviction_setPending (e : EndpointRole) (p : Pending K) :
    (m.setPending e p).eviction = m.eviction := by
  cases e <;> rfl

@[simp] theorem highWaterSlot_setPending (e : EndpointRole) (p : Pending K) :
    (m.setPending e p).highWaterSlot = m.highWaterSlot := by
  cases e <;> rfl

@[simp] theorem obsCount_setPending (e : EndpointRole) (p : Pending K) :
    (m.setPending e p).obsCount = m.obsCount := by
  cases e <;> rfl

@[simp] theorem pending_flush (e : EndpointRole) : m.flush.pending e = m.pending e := by
  cases e <;> rfl

@[simp] theorem counts_flush : m.flush.counts = m.counts := rfl

@[simp] theorem eviction_flush : m.flush.eviction = m.eviction := rfl

@[simp] theorem highWaterSlot_flush : m.flush.highWaterSlot = m.highWaterSlot := rfl

@[simp] theorem obsCount_flush : m.flush.obsCount = m.obsCount := rfl

@[simp] theorem samples_flush : m.flush.samples = m.samples :=
  m.deltas.samples_flush

@[simp] theorem snd_quantile (q : ℚ) : (m.quantile q).2 = m.flush := by
  rw [quantile, flush, BufferedDigest.snd_quantile]

@[simp] theorem flush_flush : m.flush.flush = m.flush := by
  simp [flush]

@[simp] theorem pending_recordMatch (x : ℚ) (d : Int64) (e : EndpointRole) :
    (m.recordMatch x d).pending e = m.pending e := by
  cases e <;> rfl

@[simp] theorem counts_recordMatch (x : ℚ) (d : Int64) :
    (m.recordMatch x d).counts = m.counts.record d := rfl

@[simp] theorem eviction_recordMatch (x : ℚ) (d : Int64) :
    (m.recordMatch x d).eviction = m.eviction := rfl

@[simp] theorem highWaterSlot_recordMatch (x : ℚ) (d : Int64) :
    (m.recordMatch x d).highWaterSlot = m.highWaterSlot := rfl

@[simp] theorem obsCount_recordMatch (x : ℚ) (d : Int64) :
    (m.recordMatch x d).obsCount = m.obsCount := rfl

end Fields

variable (m : PairMatcher B K)

@[simp] theorem eviction_evict : m.evict.eviction = m.eviction := rfl

@[simp] theorem highWaterSlot_evict : m.evict.highWaterSlot = m.highWaterSlot := rfl

@[simp] theorem obsCount_evict : m.evict.obsCount = m.obsCount := rfl

@[simp] theorem samples_evict : m.evict.samples = m.samples := rfl

@[simp] theorem matched_evict : m.evict.counts.matched = m.counts.matched := rfl

@[simp] theorem ep1Faster_evict : m.evict.counts.ep1Faster = m.counts.ep1Faster := rfl

@[simp] theorem ep2Faster_evict : m.evict.counts.ep2Faster = m.counts.ep2Faster := rfl

/-- A lookup after an entry was taken out of the pending map of `e`. -/
theorem lookup_setPending_erase (e f : EndpointRole) (k x : K) :
    ((m.setPending e ((m.pending e).erase k)).pending f).lookup x =
      if x = k ∧ f = e then none else (m.pending f).lookup x := by
  by_cases hf : f = e
  · subst hf
    simp [Finmap.lookup_erase_ite]
  · rw [EndpointRole.eq_other_of_ne hf, pending_setPending_other, if_neg]
    exact fun h => e.other_ne h.2

/-- A lookup after an entry was written into the pending map of `e`. -/
theorem lookup_setPending_insert (e f : EndpointRole) (k x : K) (p : MatchPending) :
    ((m.setPending e ((m.pending e).insert k p)).pending f).lookup x =
      if x = k ∧ f = e then some p else (m.pending f).lookup x := by
  by_cases hf : f = e
  · subst hf
    simp [Finmap.lookup_insert_ite]
  · rw [EndpointRole.eq_other_of_ne hf, pending_setPending_other, if_neg]
    exact fun h => e.other_ne h.2

theorem pending_evict (e : EndpointRole) :
    m.evict.pending e = (m.eviction.pass B m.highWaterSlot (m.pending e)).1 := by
  cases e <;> rfl

theorem unmatchedEvicted_evict (e : EndpointRole) : m.evict.counts.unmatchedEvicted e =
    m.counts.unmatchedEvicted e + (m.eviction.pass B m.highWaterSlot (m.pending e)).2 := by
  cases e <;> rfl

end PairMatcher

end GrpcBench
