import GrpcBench.Library.Folds
import GrpcBench.Matching.Runs
import GrpcBench.Run.Ingest

/-!
# The wall clock does not influence a measurement

Every tracker stores whole timestamps, but subtracts monotonic readings only.  `eraseWall` sets the
wall clock readings of events and of everything the trackers store to zero.  It commutes with every
step of every tracker, so two runs on events that differ in these readings only end in states that
do, too.

* `PairMatcher.observe_eraseWall`, `AccountMatcher.observe_eraseWall`, `dispatch_eraseWall`: the
  matchers.
* `CrossStreamTracker.observe_eraseWall`, `StabilityTracker.observe_eraseWall`: the trackers of an
  endpoint.
* `IngestState.measurements_inputAll`: the counters and samples of two runs that differ in the wall
  clock.
-/

namespace GrpcBench

/-! ## Events -/

/-- The wall clock reading set to zero. -/
def EventTimestamp.eraseWall (ts : EventTimestamp) : EventTimestamp :=
  { ts with wallMs := 0 }

/-- The event at another time of the wall clock. -/
def Event.eraseWall (event : Event) : Event :=
  { event with ts := event.ts.eraseWall }

@[simp] theorem EventTimestamp.monoNs_eraseWall (ts : EventTimestamp) :
    ts.eraseWall.monoNs = ts.monoNs := rfl

@[simp] theorem Event.endpoint_eraseWall (event : Event) :
    event.eraseWall.endpoint = event.endpoint := rfl

@[simp] theorem deltaNs_eraseWall (later earlier : EventTimestamp) :
    deltaNs later.eraseWall earlier.eraseWall = deltaNs later earlier := rfl

variable {B : Backend}

/-! ## The pair matcher -/

/-- A pending entry without its wall clock reading. -/
def MatchPending.eraseWall (p : MatchPending) : MatchPending :=
  { p with ts := p.ts.eraseWall }

/-- A match without its wall clock readings. -/
def MatchResult.eraseWall (r : MatchResult) : MatchResult :=
  { r with ep1Ts := r.ep1Ts.eraseWall, ep2Ts := r.ep2Ts.eraseWall }

section PairMatcher

variable {K : Type} [DecidableEq K]

/-- A pending map without wall clock readings. -/
def Pending.eraseWall (pending : Pending K) : Pending K :=
  Finmap.mapVals (fun _ p => p.eraseWall) pending

theorem Pending.lookup_eraseWall (pending : Pending K) (k : K) :
    pending.eraseWall.lookup k = (pending.lookup k).map MatchPending.eraseWall :=
  Finmap.lookup_mapVals _ pending k

theorem Pending.eraseWall_insert (pending : Pending K) (k : K) (p : MatchPending) :
    Pending.eraseWall (pending.insert k p) = pending.eraseWall.insert k p.eraseWall :=
  Finmap.mapVals_insert _ pending k p

theorem Pending.eraseWall_erase (pending : Pending K) (k : K) :
    Pending.eraseWall (pending.erase k) = pending.eraseWall.erase k :=
  Finmap.mapVals_erase _ pending k

theorem Pending.eraseWall_foldl_erase (ks : List K) (pending : Pending K) :
    (ks.foldl (fun (p : Pending K) k => p.erase k) pending).eraseWall =
      ks.foldl (fun (p : Pending K) k => p.erase k) pending.eraseWall := by
  induction ks generalizing pending with
  | nil => rfl
  | cons k ks ih =>
    rw [List.foldl_cons, List.foldl_cons, ih]
    exact congrArg (fun p : Pending K => ks.foldl (fun (p : Pending K) k => p.erase k) p)
      (pending.eraseWall_erase k)

/-- A pass looks at slots and at keys, not at timestamps. -/
theorem EvictionPolicy.pass_eraseWall (policy : EvictionPolicy) (highWaterSlot : UInt64)
    (pending : Pending K) : policy.pass B highWaterSlot pending.eraseWall =
      ((policy.pass B highWaterSlot pending).1.eraseWall,
        (policy.pass B highWaterSlot pending).2) := by
  have hsize : ∀ p : Pending K, p.eraseWall.size = p.size := fun p => Finmap.size_mapVals _ p
  have hkeys : pending.eraseWall.keys = pending.keys := Finmap.keys_mapVals _ pending
  cases policy with
  | slotWindow window =>
    have hkept : Pending.eraseWall (pending.retain fun _ v =>
        decide (saturatingSub highWaterSlot window ≤ v.slot)) =
          pending.eraseWall.retain fun _ v =>
            decide (saturatingSub highWaterSlot window ≤ v.slot) :=
      Finmap.mapVals_retain (f := fun _ => MatchPending.eraseWall)
        (p := fun _ v => decide (saturatingSub highWaterSlot window ≤ v.slot))
        (q := fun _ v => decide (saturatingSub highWaterSlot window ≤ v.slot))
        (fun _ _ => rfl) pending
    simp only [pass, ← hkept, hsize]
  | lru maxPending =>
    simp only [pass, hsize, hkeys]
    split_ifs
    · rw [Pending.eraseWall_foldl_erase]
    · rfl

namespace PairMatcher

/-- A matcher without the wall clock readings of its pending entries. -/
def eraseWall (m : PairMatcher B K) : PairMatcher B K :=
  { m with pendingEp1 := m.pendingEp1.eraseWall, pendingEp2 := m.pendingEp2.eraseWall }

variable (m : PairMatcher B K)

omit [DecidableEq K] in
theorem pending_eraseWall (e : EndpointRole) : m.eraseWall.pending e = (m.pending e).eraseWall := by
  cases e <;> rfl

omit [DecidableEq K] in
theorem eraseWall_setPending (e : EndpointRole) (p : Pending K) :
    (m.setPending e p).eraseWall = m.eraseWall.setPending e p.eraseWall := by
  cases e <;> rfl

theorem eraseWall_evict : m.evict.eraseWall = m.eraseWall.evict := by
  have h1 := m.eviction.pass_eraseWall (B := B) m.highWaterSlot m.pendingEp1
  have h2 := m.eviction.pass_eraseWall (B := B) m.highWaterSlot m.pendingEp2
  simp only [evict, eraseWall, h1, h2]

/-- Admission, with the high-water slot raised first. -/
theorem admitSlot_eq (slot : UInt64) : m.admitSlot slot =
    let n := { m with
      highWaterSlot := raise m.highWaterSlot slot, obsCount := m.obsCount + 1 }
    if batched n.obsCount then n.evict else n := by
  unfold admitSlot admitWith raise
  dsimp only
  split_ifs <;> first | rfl | contradiction

theorem eraseWall_admitSlot (slot : UInt64) :
    (m.admitSlot slot).eraseWall = m.eraseWall.admitSlot slot := by
  rw [admitSlot_eq, admitSlot_eq]
  dsimp only
  by_cases hdue : batched (m.obsCount + 1) = true
  · rw [if_pos hdue, if_pos (show batched (m.eraseWall.obsCount + 1) = true from hdue)]
    exact eraseWall_evict _
  · rw [if_neg hdue, if_neg (show ¬ batched (m.eraseWall.obsCount + 1) = true from hdue)]
    rfl

/-- **One observation** finds the same, and records the same. -/
theorem observe_eraseWall (e : EndpointRole) (key : K) (ts : EventTimestamp) (slot : UInt64) :
    m.eraseWall.observe e key ts.eraseWall slot =
      ((m.observe e key ts slot).1.map MatchResult.eraseWall,
        (m.observe e key ts slot).2.eraseWall) := by
  rw [observe, observe, ← eraseWall_admitSlot]
  generalize m.admitSlot slot = n
  rcases hlook : (n.pending e.other).lookup key with _ | other
  · have hlook' : (n.pending e.other).eraseWall.lookup key = none := by
      rw [Pending.lookup_eraseWall, hlook, Option.map_none]
    simp only [settle, pending_eraseWall, hlook, hlook', Option.map_none, eraseWall_setPending,
      Pending.eraseWall_insert]
    rfl
  · have hlook' : (n.pending e.other).eraseWall.lookup key = some other.eraseWall := by
      rw [Pending.lookup_eraseWall, hlook, Option.map_some]
    simp only [settle, pending_eraseWall, hlook, hlook', Option.map_some, ← eraseWall_setPending,
      ← Pending.eraseWall_erase]
    cases e <;> rfl

theorem snd_observe_eraseWall (e : EndpointRole) (key : K) (ts : EventTimestamp) (slot : UInt64) :
    (m.eraseWall.observe e key ts.eraseWall slot).2 = (m.observe e key ts slot).2.eraseWall := by
  rw [observe_eraseWall]

end PairMatcher

end PairMatcher

/-! ## The matchers -/

/-- A shard without wall clock readings; its digest has none. -/
def PerProgramShard.eraseWall (shard : PerProgramShard B) : PerProgramShard B :=
  { shard with main := shard.main.eraseWall }

theorem PerProgramShard.observe_eraseWall (shard : PerProgramShard B) (e : EndpointRole)
    (key : AccountKey) (ts : EventTimestamp) (slot : UInt64) :
    shard.eraseWall.observe e key ts.eraseWall slot = (shard.observe e key ts slot).eraseWall := by
  have hmain := shard.main.observe_eraseWall e key ts slot
  unfold observe
  rw [eraseWall, hmain]
  rcases shard.main.observe e key ts slot with ⟨_ | r, main⟩ <;> rfl

namespace AccountMatcher

/-- An account matcher without wall clock readings. -/
def eraseWall (m : AccountMatcher B) : AccountMatcher B :=
  { m with shards := m.shards.mapVals fun _ shard => shard.eraseWall }

theorem shardOf_eraseWall (m : AccountMatcher B) (owner : Pubkey32) :
    m.eraseWall.shardOf owner = (m.shardOf owner).eraseWall := by
  rw [shardOf, shardOf, eraseWall, Finmap.lookup_mapVals]
  cases m.shards.lookup owner <;> rfl

theorem observe_eraseWall (m : AccountMatcher B) (e : EndpointRole) (slot : UInt64)
    (pubkey : Pubkey32) (writeVersion : UInt64) (txnSignature : Option Signature64)
    (owner : Pubkey32) (ts : EventTimestamp) :
    m.eraseWall.observe e slot pubkey writeVersion txnSignature owner ts.eraseWall =
      (m.observe e slot pubkey writeVersion txnSignature owner ts).eraseWall := by
  simp only [observe, shardOf_eraseWall, PerProgramShard.observe_eraseWall]
  simp only [eraseWall, Finmap.mapVals_insert]

end AccountMatcher

/-- A slot matcher without wall clock readings. -/
def SlotMatcher.eraseWall (m : SlotMatcher B) : SlotMatcher B where
  firstShredReceived := m.firstShredReceived.eraseWall
  completed := m.completed.eraseWall
  createdBank := m.createdBank.eraseWall
  processed := m.processed.eraseWall
  confirmed := m.confirmed.eraseWall
  finalized := m.finalized.eraseWall

theorem SlotMatcher.observeStage_eraseWall (m : SlotMatcher B) (e : EndpointRole) (slot : UInt64)
    (stage : SlotStage) (ts : EventTimestamp) :
    m.eraseWall.observeStage e slot stage ts.eraseWall =
      (m.observeStage e slot stage ts).eraseWall := by
  cases stage <;>
    simp [observeStage, matcherFor, setMatcherFor, eraseWall, PairMatcher.snd_observe_eraseWall]

/-- A transaction matcher without wall clock readings. -/
def TransactionMatcher.eraseWall (m : TransactionMatcher B) : TransactionMatcher B where
  inner := m.inner.eraseWall

theorem TransactionMatcher.observe_eraseWall (m : TransactionMatcher B) (e : EndpointRole)
    (slot : UInt64) (signature : Signature64) (ts : EventTimestamp) :
    m.eraseWall.observe e slot signature ts.eraseWall =
      (m.observe e slot signature ts).eraseWall := by
  simp only [observe, eraseWall, PairMatcher.snd_observe_eraseWall]

/-- A block matcher without wall clock readings. -/
def BlockMatcher.eraseWall (m : BlockMatcher B) : BlockMatcher B where
  inner := m.inner.eraseWall

theorem BlockMatcher.observe_eraseWall (m : BlockMatcher B) (e : EndpointRole)
    (commitment : Commitment) (slot : UInt64) (blockhash : Pubkey32) (ts : EventTimestamp) :
    m.eraseWall.observe e commitment slot blockhash ts.eraseWall =
      (m.observe e commitment slot blockhash ts).eraseWall := by
  simp only [observe, eraseWall, PairMatcher.snd_observe_eraseWall]

/-- The matchers of a run without wall clock readings. -/
def StreamMatchers.eraseWall (m : StreamMatchers B) : StreamMatchers B where
  slots := m.slots.eraseWall
  accounts := m.accounts.eraseWall
  transactions := m.transactions.eraseWall
  blocks := m.blocks.eraseWall

/-- **The matchers** do not look at the wall clock. -/
theorem dispatch_eraseWall (m : StreamMatchers B) (event : Event) :
    dispatch m.eraseWall event.eraseWall = (dispatch m event).eraseWall := by
  obtain ⟨ts, subscription, payload⟩ := event
  cases payload with
  | slot slot stage =>
    simp only [dispatch, Event.eraseWall, Event.endpoint, StreamMatchers.eraseWall,
      SlotMatcher.observeStage_eraseWall]
  | account slot pubkey owner writeVersion txnSignature lamports =>
    simp only [dispatch, Event.eraseWall, Event.endpoint, StreamMatchers.eraseWall,
      AccountMatcher.observe_eraseWall]
  | transaction slot signature index =>
    simp only [dispatch, Event.eraseWall, Event.endpoint, StreamMatchers.eraseWall,
      TransactionMatcher.observe_eraseWall]
  | block slot blockhash txCount entriesCount blockSizeBytes =>
    cases subscription with
    | main endpoint commitment stream =>
      simp only [dispatch, Event.eraseWall, Event.endpoint, StreamMatchers.eraseWall,
        BlockMatcher.observe_eraseWall]
    | entries endpoint => rfl
  | entry slot index executedTransactionCount startingTransactionIndex => rfl

/-! ## The trackers of an endpoint -/

section Trackers

/-- Arrivals without wall clock readings. -/
def eraseArrivals {K : Type} (arrivals : Finmap fun _ : K => EventTimestamp) :
    Finmap fun _ : K => EventTimestamp :=
  arrivals.mapVals fun _ ts => ts.eraseWall

variable {K : Type} [DecidableEq K] (arrivals : Finmap fun _ : K => EventTimestamp)

theorem lookup_eraseArrivals (k : K) :
    (eraseArrivals arrivals).lookup k = (arrivals.lookup k).map EventTimestamp.eraseWall :=
  Finmap.lookup_mapVals _ arrivals k

theorem eraseArrivals_insert (k : K) (ts : EventTimestamp) :
    eraseArrivals (arrivals.insert k ts) = (eraseArrivals arrivals).insert k ts.eraseWall :=
  Finmap.mapVals_insert _ arrivals k ts

theorem eraseArrivals_erase (k : K) :
    eraseArrivals (arrivals.erase k) = (eraseArrivals arrivals).erase k :=
  Finmap.mapVals_erase _ arrivals k

theorem eraseArrivals_retain (p : K → Bool) :
    eraseArrivals (arrivals.retain fun k _ => p k) =
      (eraseArrivals arrivals).retain fun k _ => p k :=
  Finmap.mapVals_retain (p := fun k _ => p k) (q := fun k _ => p k) (fun _ _ => rfl) arrivals

theorem mem_eraseArrivals (k : K) : k ∈ eraseArrivals arrivals ↔ k ∈ arrivals :=
  Finmap.mem_mapVals _ arrivals k

end Trackers

namespace TxAccountPairer

/-- A pairer without the wall clock readings of its pending entries. -/
def eraseWall (p : TxAccountPairer B) : TxAccountPairer B :=
  { p with
    pendingTx := eraseArrivals p.pendingTx, pendingAccount := eraseArrivals p.pendingAccount }

variable (p : TxAccountPairer B) (slot : UInt64) (signature : Signature64) (ts : EventTimestamp)

theorem bumpWater_eraseWall : p.eraseWall.bumpWater slot = (p.bumpWater slot).eraseWall := by
  unfold bumpWater
  by_cases h : p.highWaterSlot < slot
  · rw [if_pos h, if_pos (show p.eraseWall.highWaterSlot < slot from h)]
    rfl
  · rw [if_neg h, if_neg (show ¬ p.eraseWall.highWaterSlot < slot from h)]

theorem evict_eraseWall : p.eraseWall.evict = p.evict.eraseWall := by
  simp only [evict, eraseWall, eraseArrivals_retain]
  rfl

theorem observeTx_eraseWall :
    p.eraseWall.observeTx slot signature ts.eraseWall =
      (p.observeTx slot signature ts).eraseWall := by
  simp only [observeTx, bumpWater_eraseWall]
  generalize p.bumpWater slot = q
  rw [← evict_eraseWall]
  rcases h : q.pendingAccount.lookup (slot, signature) with _ | account
  · simp only [eraseWall, lookup_eraseArrivals, h, Option.map_none, eraseArrivals_insert]
  · simp only [eraseWall, lookup_eraseArrivals, h, Option.map_some, eraseArrivals_erase, record,
      deltaNs_eraseWall]

theorem observeAccount_eraseWall :
    p.eraseWall.observeAccount slot signature ts.eraseWall =
      (p.observeAccount slot signature ts).eraseWall := by
  simp only [observeAccount, bumpWater_eraseWall]
  generalize p.bumpWater slot = q
  rw [← evict_eraseWall]
  rcases h : q.pendingTx.lookup (slot, signature) with _ | tx
  · simp only [eraseWall, lookup_eraseArrivals, h, Option.map_none, eraseArrivals_insert]
  · simp only [eraseWall, lookup_eraseArrivals, h, Option.map_some, eraseArrivals_erase, record,
      deltaNs_eraseWall]

end TxAccountPairer

namespace CrossStreamTracker

/-- A cross-stream tracker without wall clock readings. -/
def eraseWall (t : CrossStreamTracker B) : CrossStreamTracker B :=
  { t with txVsAccount := t.txVsAccount.eraseWall }

/-- **The cross-stream tracker** does not look at the wall clock. -/
theorem observe_eraseWall (t : CrossStreamTracker B) (event : Event) :
    t.eraseWall.observe event.eraseWall = (t.observe event).eraseWall := by
  by_cases h : event.endpoint = t.endpoint
  · simp only [observe, Event.endpoint_eraseWall, eraseWall, h, ne_eq, not_true, if_false]
    obtain ⟨ts, subscription, payload⟩ := event
    rcases payload with _ | ⟨_, _, _, _, _ | _, _⟩ | _ | _ | _ <;>
      simp only [Event.eraseWall, TxAccountPairer.observeTx_eraseWall,
        TxAccountPairer.observeAccount_eraseWall]
  · simp only [observe, Event.endpoint_eraseWall, eraseWall, h, ne_eq, not_false_iff, if_true]

end CrossStreamTracker

namespace StabilityTracker

/-- A stability tracker without wall clock readings, those of its stalls included. -/
def eraseWall (t : StabilityTracker B) : StabilityTracker B :=
  { t with
    lastSlotEventTs := t.lastSlotEventTs.map EventTimestamp.eraseWall
    stallEvents := t.stallEvents.map fun stall => { stall with wallMs := 0 }
    processedArrivals := eraseArrivals t.processedArrivals
    confirmedArrivals := eraseArrivals t.confirmedArrivals }

variable (t : StabilityTracker B) (ts : EventTimestamp)

theorem resolveReconnect_eraseWall :
    t.eraseWall.resolveReconnect ts.eraseWall = (t.resolveReconnect ts).eraseWall := by
  rcases h : t.pendingReconnectMonoNs with _ | ns
  · simp only [resolveReconnect, eraseWall, h]
  · simp only [resolveReconnect, eraseWall, h, EventTimestamp.monoNs_eraseWall]

theorem recordGap_eraseWall :
    t.eraseWall.recordGap ts.eraseWall = (t.recordGap ts).eraseWall := by
  rcases h : t.lastSlotEventTs with _ | prev
  · simp only [recordGap, eraseWall, h, Option.map_none, Option.map_some]
  · simp only [recordGap, eraseWall, h, Option.map_some, deltaNs_eraseWall]
    split_ifs
    · simp only [List.map_append, List.map_cons, List.map_nil]
      rfl
    · rfl

theorem orInsert_eraseArrivals (arrivals : Finmap fun _ : UInt64 => EventTimestamp)
    (slot : UInt64) :
    orInsert (eraseArrivals arrivals) slot ts.eraseWall =
      eraseArrivals (orInsert arrivals slot ts) := by
  simp only [orInsert, mem_eraseArrivals]
  split_ifs
  · rfl
  · rw [eraseArrivals_insert]

theorem recordStage_eraseWall (slot : UInt64) (stage : SlotStage)
    (commitment : Option Commitment) :
    t.eraseWall.recordStage slot stage commitment ts.eraseWall =
      (t.recordStage slot stage commitment ts).eraseWall := by
  unfold recordStage
  split
  · rcases h : t.confirmedArrivals.lookup slot with _ | c
    · simp only [eraseWall, lookup_eraseArrivals, h, Option.map_none, orInsert_eraseArrivals]
    · simp only [eraseWall, lookup_eraseArrivals, h, Option.map_some, orInsert_eraseArrivals,
        recordDrift, driftMs, deltaNs_eraseWall, eraseArrivals_erase]
  · rcases h : t.processedArrivals.lookup slot with _ | p
    · simp only [eraseWall, lookup_eraseArrivals, h, Option.map_none, orInsert_eraseArrivals]
    · simp only [eraseWall, lookup_eraseArrivals, h, Option.map_some, orInsert_eraseArrivals,
        recordDrift, driftMs, deltaNs_eraseWall, eraseArrivals_erase]
  · rfl

/-- **The stability tracker** does not look at the wall clock, except to label its stalls. -/
theorem observe_eraseWall (event : Event) :
    t.eraseWall.observe event.eraseWall = (t.observe event).eraseWall := by
  by_cases h : event.endpoint = t.endpoint
  · have hown : event.eraseWall.endpoint = t.eraseWall.endpoint := h
    rw [observe, observe, if_neg (not_not.mpr h), if_neg (not_not.mpr hown)]
    obtain ⟨ts, subscription, payload⟩ := event
    cases payload <;>
      simp only [Event.eraseWall, resolveReconnect_eraseWall, recordGap_eraseWall,
        recordStage_eraseWall]
  · have hother : event.eraseWall.endpoint ≠ t.eraseWall.endpoint := h
    rw [observe, observe, if_pos h, if_pos hother]

end StabilityTracker

/-! ## Runs -/

/-- What reaches the trackers: an event, or a notification about an endpoint's stream. -/
inductive TrackerInput where
  | observed (event : Event)
  | disconnected (endpoint : EndpointRole) (wallMs : UInt64) (status : String)
      (eventsReceivedBefore : UInt64)
  | reconnected (endpoint : EndpointRole) (monoNsAtReconnect : UInt64)

/-- The same input, an event at another time of the wall clock. -/
def TrackerInput.eraseWall : TrackerInput → TrackerInput
  | .observed event => .observed event.eraseWall
  | .disconnected endpoint wallMs status eventsReceivedBefore =>
    .disconnected endpoint wallMs status eventsReceivedBefore
  | .reconnected endpoint monoNsAtReconnect => .reconnected endpoint monoNsAtReconnect

/-- A dispatcher's state without wall clock readings. -/
def DispatcherState.eraseWall (d : DispatcherState B) : DispatcherState B :=
  { d with stability := d.stability.eraseWall, cross := d.cross.eraseWall }

variable {R : RawSink}

/-- The shared state without wall clock readings, and without the raw records. -/
def SharedState.eraseWall (shared : SharedState B R) : SharedState B R :=
  { shared with matchers := shared.matchers.eraseWall, rawWriter := none }

theorem dispatchEvent_eraseWall (event : Event) (shared : SharedState B R)
    (d : DispatcherState B) : dispatchEvent event.eraseWall shared.eraseWall d.eraseWall =
      ((dispatchEvent event shared d).1.eraseWall, (dispatchEvent event shared d).2.eraseWall) := by
  have hcount : ∀ counters totalSlots,
      countEvent event.eraseWall counters totalSlots = countEvent event counters totalSlots :=
    fun _ _ => rfl
  simp only [dispatchEvent, SharedState.eraseWall, DispatcherState.eraseWall, hcount,
    dispatch_eraseWall, StabilityTracker.observe_eraseWall, CrossStreamTracker.observe_eraseWall,
    Option.map_none]

namespace IngestState

/-- A notification to the stability tracker of an endpoint. -/
def notify (s : IngestState B R) (e : EndpointRole)
    (record : StabilityTracker B → StabilityTracker B) : IngestState B R :=
  let d := s.dispatchers e
  { s with dispatchers :=
      Function.update s.dispatchers e { d with stability := record d.stability } }

/-- One input of the trackers. -/
def input (s : IngestState B R) : TrackerInput → IngestState B R
  | .observed event => s.ingest event
  | .disconnected e wallMs status eventsReceivedBefore =>
    s.notify e fun t => t.recordDisconnect wallMs status eventsReceivedBefore
  | .reconnected e monoNsAtReconnect => s.notify e fun t => t.recordReconnect monoNsAtReconnect

/-- A run of the trackers. -/
def inputAll (s : IngestState B R) (inputs : List TrackerInput) : IngestState B R :=
  inputs.foldl input s

/-- A state without wall clock readings, and without the raw records. -/
def eraseWall (s : IngestState B R) : IngestState B R where
  shared := s.shared.eraseWall
  dispatchers e := (s.dispatchers e).eraseWall

theorem eraseWall_update (shared : SharedState B R) (f : EndpointRole → DispatcherState B)
    (e : EndpointRole) (d : DispatcherState B) :
    (IngestState.mk shared (Function.update f e d)).eraseWall =
      ⟨shared.eraseWall, Function.update (fun e' => (f e').eraseWall) e d.eraseWall⟩ := by
  refine congrArg (IngestState.mk shared.eraseWall) (funext fun e' => ?_)
  show (Function.update f e d e').eraseWall = _
  by_cases h : e' = e
  · subst h
    rw [Function.update_self, Function.update_self]
  · rw [Function.update_of_ne h, Function.update_of_ne h]

theorem ingest_eraseWall (s : IngestState B R) (event : Event) :
    s.eraseWall.ingest event.eraseWall = (s.ingest event).eraseWall := by
  have hstep := dispatchEvent_eraseWall event s.shared (s.dispatchers event.endpoint)
  unfold ingest dispatchOn
  dsimp only
  rw [eraseWall_update]
  simp only [Event.endpoint_eraseWall, eraseWall, hstep]

/-- **One input** of the trackers. -/
theorem input_eraseWall (s : IngestState B R) (i : TrackerInput) :
    s.eraseWall.input i.eraseWall = (s.input i).eraseWall := by
  cases i with
  | observed event => exact s.ingest_eraseWall event
  | disconnected e wallMs status eventsReceivedBefore =>
    simp only [input, TrackerInput.eraseWall, notify, eraseWall_update]
    rfl
  | reconnected e monoNsAtReconnect =>
    simp only [input, TrackerInput.eraseWall, notify, eraseWall_update]
    rfl

/-- **Erasing commutes with a run.** -/
theorem inputAll_eraseWall (s : IngestState B R) (inputs : List TrackerInput) :
    s.eraseWall.inputAll (inputs.map TrackerInput.eraseWall) = (s.inputAll inputs).eraseWall :=
  (Folds.foldl_simulation (R := fun (s s' : IngestState B R) => s' = s.eraseWall)
    (fun s s' i h => by rw [h, input_eraseWall]) inputs rfl)

end IngestState

/-! ## Measurements -/

/-- What a matcher has recorded. -/
def PairMatcher.recorded {K : Type} (m : PairMatcher B K) : MatchCounts × BufferedDigest B :=
  (m.counts, m.deltas)

/-- The counters and the samples of a run.  Of a stall, the duration: its wall clock reading is a
label in the report. -/
@[ext]
structure Measurements (B : Backend) where
  slots : SlotStage → Option (MatchCounts × BufferedDigest B)
  transactions : MatchCounts × BufferedDigest B
  blocks : MatchCounts × BufferedDigest B
  programs : Finset Pubkey32
  accounts : Pubkey32 → MatchCounts × BufferedDigest B
  perProgram : Pubkey32 → ProgramDigest B
  crossStream : EndpointRole → StreamingDigest B
  slotGaps : EndpointRole → DistributionDigest B
  drift : EndpointRole → DistributionDigest B
  reconnectTtfm : EndpointRole → DistributionDigest B
  stallMs : EndpointRole → List ℚ
  disconnects : EndpointRole → List DisconnectEvent
  counters : EndpointRole → IngestCountersPartial
  totalSlots : ℕ

namespace IngestState

/-- What a state has measured. -/
def measurements (s : IngestState B R) : Measurements B :=
  let m := s.shared.matchers
  { slots := fun stage => (m.slots.matcherFor stage).map PairMatcher.recorded
    transactions := m.transactions.inner.recorded
    blocks := m.blocks.inner.recorded
    programs := m.accounts.shards.keys
    accounts := fun owner => (m.accounts.shardOf owner).main.recorded
    perProgram := fun owner => (m.accounts.shardOf owner).digest
    crossStream := fun e => (s.dispatchers e).cross.txVsAccount.digest
    slotGaps := fun e => (s.dispatchers e).stability.slotGaps
    drift := fun e => (s.dispatchers e).stability.driftDigest
    reconnectTtfm := fun e => (s.dispatchers e).stability.reconnectTtfm
    stallMs := fun e => (s.dispatchers e).stability.stallEvents.map StallEvent.durationMs
    disconnects := fun e => (s.dispatchers e).stability.disconnects
    counters := fun e => (s.dispatchers e).counters
    totalSlots := s.shared.totalSlots }

/-- **Erasing** the wall clock readings of a state leaves its measurements. -/
theorem measurements_eraseWall (s : IngestState B R) :
    s.eraseWall.measurements = s.measurements := by
  have hshard (owner : Pubkey32) : s.eraseWall.shared.matchers.accounts.shardOf owner =
      (s.shared.matchers.accounts.shardOf owner).eraseWall :=
    AccountMatcher.shardOf_eraseWall _ owner
  refine Measurements.ext (funext fun stage => ?_) rfl rfl ?_ (funext fun owner => ?_)
    (funext fun owner => ?_) rfl rfl rfl rfl (funext fun e => ?_) rfl rfl rfl
  · cases stage <;> rfl
  · exact Finmap.keys_mapVals _ s.shared.matchers.accounts.shards
  · exact (congrArg (fun shard => shard.main.recorded) (hshard owner)).trans rfl
  · exact (congrArg PerProgramShard.digest (hshard owner)).trans rfl
  · show ((s.dispatchers e).stability.stallEvents.map _).map StallEvent.durationMs = _
    rw [List.map_map]
    rfl

/-- **The wall clock never influences a measurement.**  Two runs on inputs that differ in the wall
clock readings of their events only, notifications of disconnects and reconnects at the same places,
count and record the same. -/
theorem measurements_inputAll (s : IngestState B R) {inputs inputs' : List TrackerInput}
    (h : inputs.map TrackerInput.eraseWall = inputs'.map TrackerInput.eraseWall) :
    (s.inputAll inputs).measurements = (s.inputAll inputs').measurements :=
  calc (s.inputAll inputs).measurements
      = (s.eraseWall.inputAll (inputs.map TrackerInput.eraseWall)).measurements := by
        rw [inputAll_eraseWall, measurements_eraseWall]
    _ = (s.eraseWall.inputAll (inputs'.map TrackerInput.eraseWall)).measurements := by rw [h]
    _ = (s.inputAll inputs').measurements := by
        rw [inputAll_eraseWall, measurements_eraseWall]

/-- A slot status, a reconnection, and a slot status 700 milliseconds after the first: where the
wall clock is stepped back in between, the stall has another label. -/
theorem measurements_inputAll_stepped :
    let inputs : UInt64 → List TrackerInput := fun wallMs =>
      [.observed ⟨⟨0, 5000⟩, .main .one .processed .slots, .slot 7 .processed⟩,
        .disconnected .one 5100 "unavailable" 1, .reconnected .one 600000000,
        .observed ⟨⟨700000000, wallMs⟩, .main .one .processed .slots, .slot 8 .processed⟩]
    let run := fun wallMs => (start (R := ⟨List Event, fun events event => events ++ [event]⟩)
      Backend.exact ∅ false (some [])).inputAll (inputs wallMs)
    (run 5700).measurements = (run 1700).measurements ∧
      ((run 5700).dispatchers .one).stability.stallEvents = [⟨5700, 700⟩] ∧
      ((run 1700).dispatchers .one).stability.stallEvents = [⟨1700, 700⟩] := by
  intro inputs run
  exact ⟨measurements_inputAll _ rfl, by decide +kernel, by decide +kernel⟩

end IngestState

end GrpcBench
