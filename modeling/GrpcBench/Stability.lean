import GrpcBench.Collect.Event
import GrpcBench.Digest
import GrpcBench.Library.Finmap

/-!
# Stream stability

`stability.rs`: one tracker per endpoint.  It watches the slot-status stream for gaps and stalls,
pairs the processed and the confirmed arrival of a slot into a drift sample, and keeps a list of
disconnects and the time each reconnect took to its first message.  The last two are explicit
notifications, `recordDisconnect` and `recordReconnect`, that the owner of the tracker makes.

* `observe_cases`: what one event can do to a tracker.
* `disconnects_observe`, `reconnect_observe`: an event adds no disconnect, and no reconnect sample
  unless a reconnect was notified.
* `OneSided.observe`: while all slot events carry one commitment label, no drift is recorded.
-/

namespace GrpcBench

/-- `STALL_THRESHOLD_MS`. -/
def stallThresholdMs : ℚ := 600

/-- `comparative.stability.<endpoint>.stall_events[]` entry. -/
structure StallEvent where
  wallMs : UInt64
  durationMs : ℚ
  deriving DecidableEq

/-- `comparative.stability.<endpoint>.disconnects[]` entry. -/
structure DisconnectEvent where
  wallMs : UInt64
  status : String
  eventsReceivedBefore : UInt64
  deriving DecidableEq

/-- Streaming t-digest distribution and max tracker. -/
structure DistributionDigest (B : Backend) where
  deltas : BufferedDigest B
  max : ℚ

variable {B : Backend}

namespace DistributionDigest

/-- `DistributionDigest::new`. -/
def new (B : Backend) : DistributionDigest B where
  deltas := BufferedDigest.new B
  max := 0

/-- `DistributionDigest::push`. -/
def push (d : DistributionDigest B) (v : ℚ) : DistributionDigest B where
  deltas := d.deltas.push v
  max := if d.max < v then v else d.max

/-- `DistributionDigest::flush`. -/
def flush (d : DistributionDigest B) : DistributionDigest B :=
  { d with deltas := d.deltas.flush }

/-- `DistributionDigest::quantile`. -/
def quantile (d : DistributionDigest B) (q : ℚ) : Option ℚ × DistributionDigest B :=
  let r := d.deltas.quantile q
  (r.1, { d with deltas := r.2 })

/-- The samples recorded so far. -/
def samples (d : DistributionDigest B) : Multiset ℚ :=
  d.deltas.samples

@[simp] theorem samples_new : (new B).samples = 0 :=
  BufferedDigest.samples_new

@[simp] theorem samples_push (d : DistributionDigest B) (v : ℚ) :
    (d.push v).samples = v ::ₘ d.samples :=
  d.deltas.samples_push v

/-- The samples of a list of pushes. -/
theorem samples_foldl_push (d : DistributionDigest B) (vs : List ℚ) :
    (vs.foldl push d).samples = (vs : Multiset ℚ) + d.samples := by
  have hdeltas : (vs.foldl push d).deltas = vs.foldl BufferedDigest.push d.deltas := by
    induction vs generalizing d with
    | nil => rfl
    | cons v vs ih => exact ih (d.push v)
  rw [samples, hdeltas, BufferedDigest.samples_foldl_push, samples]

@[simp] theorem samples_flush (d : DistributionDigest B) : d.flush.samples = d.samples :=
  d.deltas.samples_flush

@[simp] theorem snd_quantile (d : DistributionDigest B) (q : ℚ) : (d.quantile q).2 = d.flush := by
  rw [quantile, flush, BufferedDigest.snd_quantile]

end DistributionDigest

/-- `comparative.stability.<endpoint>.slot_gap_ms` shape; `none` is NaN. -/
structure SlotGapSummary where
  p50 : Option ℚ
  p90 : Option ℚ
  p99 : Option ℚ
  max : ℚ

/-- `comparative.stability.<endpoint>.processed_confirmed_drift_ms` shape. -/
structure DriftSummary where
  p50 : Option ℚ
  p99 : Option ℚ

/-- `comparative.stability.<endpoint>.reconnect_ttfm_ms` shape. -/
structure ReconnectTtfmSummary where
  p50 : Option ℚ
  p99 : Option ℚ
  max : ℚ

/-- `comparative.stability.<endpoint>` shape. -/
structure StabilitySummary where
  slotGapMs : SlotGapSummary
  stallEvents : List StallEvent
  processedConfirmedDriftMs : DriftSummary
  disconnects : List DisconnectEvent
  reconnectTtfmMs : ReconnectTtfmSummary

/-- Per-endpoint stability tracker. -/
structure StabilityTracker (B : Backend) where
  endpoint : EndpointRole
  lastSlotEventTs : Option EventTimestamp
  slotGaps : DistributionDigest B
  stallEvents : List StallEvent
  processedArrivals : Finmap fun _ : UInt64 => EventTimestamp
  confirmedArrivals : Finmap fun _ : UInt64 => EventTimestamp
  driftDigest : DistributionDigest B
  disconnects : List DisconnectEvent
  reconnectTtfm : DistributionDigest B
  pendingReconnectMonoNs : Option UInt64

namespace StabilityTracker

/-- `StabilityTracker::new`. -/
def new (B : Backend) (endpoint : EndpointRole) : StabilityTracker B where
  endpoint := endpoint
  lastSlotEventTs := none
  slotGaps := DistributionDigest.new B
  stallEvents := []
  processedArrivals := ∅
  confirmedArrivals := ∅
  driftDigest := DistributionDigest.new B
  disconnects := []
  reconnectTtfm := DistributionDigest.new B
  pendingReconnectMonoNs := none

/-- The first part of `observe`: resolve the time to first message of a pending reconnect. -/
def resolveReconnect (t : StabilityTracker B) (ts : EventTimestamp) : StabilityTracker B :=
  match t.pendingReconnectMonoNs with
  | none => t
  | some tsAtReconnectNs =>
    let ttfmNs := i64OfU64 ts.monoNs - i64OfU64 tsAtReconnectNs
    { t with
      pendingReconnectMonoNs := none
      reconnectTtfm := t.reconnectTtfm.push (max (B.toMs ttfmNs.toInt) 0) }

/-- A nanosecond difference, floored at zero, in milliseconds. -/
def flooredMs (B : Backend) (d : Int64) : ℚ :=
  B.perMillion (max (B.asF64 d.toInt) 0)

/-- The second part of `observe`: the gap to the previous slot-status event. -/
def recordGap (t : StabilityTracker B) (ts : EventTimestamp) : StabilityTracker B :=
  let t := match t.lastSlotEventTs with
    | none => t
    | some prev =>
      let gapMs := flooredMs B (deltaNs ts prev)
      { t with
        slotGaps := t.slotGaps.push gapMs
        stallEvents := if stallThresholdMs < gapMs then
            t.stallEvents ++ [StallEvent.mk ts.wallMs gapMs]
          else t.stallEvents }
  { t with lastSlotEventTs := some ts }

/-- The drift sample of a slot's two arrivals. -/
def driftMs (B : Backend) (processed confirmed : EventTimestamp) : ℚ :=
  flooredMs B (deltaNs confirmed processed)

/-- `StabilityTracker::record_drift`. -/
def recordDrift (t : StabilityTracker B) (processed confirmed : EventTimestamp) :
    StabilityTracker B :=
  { t with driftDigest := t.driftDigest.push (driftMs B processed confirmed) }

/-- `map.entry(slot).or_insert(ts)`. -/
def orInsert (arrivals : Finmap fun _ : UInt64 => EventTimestamp) (slot : UInt64)
    (ts : EventTimestamp) : Finmap fun _ : UInt64 => EventTimestamp :=
  if slot ∈ arrivals then arrivals else arrivals.insert slot ts

/-- The third part of `observe`: the processed and confirmed arrivals of a slot. -/
def recordStage (t : StabilityTracker B) (slot : UInt64) (stage : SlotStage)
    (commitment : Option Commitment) (ts : EventTimestamp) : StabilityTracker B :=
  match stage, commitment with
  | .processed, some .processed =>
    let t := { t with processedArrivals := orInsert t.processedArrivals slot ts }
    match t.confirmedArrivals.lookup slot with
    | none => t
    | some c =>
      let t := { t with confirmedArrivals := t.confirmedArrivals.erase slot }
      let t := t.recordDrift ts c
      { t with processedArrivals := t.processedArrivals.erase slot }
  | .confirmed, some .confirmed =>
    let t := { t with confirmedArrivals := orInsert t.confirmedArrivals slot ts }
    match t.processedArrivals.lookup slot with
    | none => t
    | some p =>
      let t := { t with processedArrivals := t.processedArrivals.erase slot }
      let t := t.recordDrift p ts
      { t with confirmedArrivals := t.confirmedArrivals.erase slot }
  | _, _ => t

/-- `StabilityTracker::observe`. -/
def observe (t : StabilityTracker B) (event : Event) : StabilityTracker B :=
  if event.endpoint ≠ t.endpoint then t
  else
    let t := t.resolveReconnect event.ts
    match event.payload with
    | .slot slot stage =>
      (t.recordGap event.ts).recordStage slot stage event.subscription.commitment event.ts
    | _ => t

/-- `StabilityTracker::record_disconnect`. -/
def recordDisconnect (t : StabilityTracker B) (wallMs : UInt64) (status : String)
    (eventsReceivedBefore : UInt64) : StabilityTracker B :=
  { t with disconnects := t.disconnects ++ [DisconnectEvent.mk wallMs status eventsReceivedBefore] }

/-- `StabilityTracker::record_reconnect`. -/
def recordReconnect (t : StabilityTracker B) (monoNsAtReconnect : UInt64) : StabilityTracker B :=
  { t with pendingReconnectMonoNs := some monoNsAtReconnect }

/-- `StabilityTracker::summary`. -/
def summary (t : StabilityTracker B) : StabilitySummary × StabilityTracker B :=
  let (gap50, gaps) := t.slotGaps.quantile 0.50
  let (gap90, gaps) := gaps.quantile 0.90
  let (gap99, gaps) := gaps.quantile 0.99
  let (drift50, drift) := t.driftDigest.quantile 0.50
  let (drift99, drift) := drift.quantile 0.99
  let (ttfm50, ttfm) := t.reconnectTtfm.quantile 0.50
  let (ttfm99, ttfm) := ttfm.quantile 0.99
  ({ slotGapMs := ⟨gap50, gap90, gap99, gaps.max⟩
     stallEvents := t.stallEvents
     processedConfirmedDriftMs := ⟨drift50, drift99⟩
     disconnects := t.disconnects
     reconnectTtfmMs := ⟨ttfm50, ttfm99, ttfm.max⟩ },
   { t with slotGaps := gaps, driftDigest := drift, reconnectTtfm := ttfm })

/-! ## What one event does

`observe` is three updates one after the other; each of them has a part of the tracker to itself. -/

section Frame

variable (t : StabilityTracker B) (ts : EventTimestamp) (slot : UInt64) (stage : SlotStage)
  (commitment : Option Commitment)

@[simp] theorem endpoint_resolveReconnect : (t.resolveReconnect ts).endpoint = t.endpoint := by
  unfold resolveReconnect; split <;> rfl

@[simp] theorem disconnects_resolveReconnect :
    (t.resolveReconnect ts).disconnects = t.disconnects := by
  unfold resolveReconnect; split <;> rfl

@[simp] theorem processedArrivals_resolveReconnect :
    (t.resolveReconnect ts).processedArrivals = t.processedArrivals := by
  unfold resolveReconnect; split <;> rfl

@[simp] theorem confirmedArrivals_resolveReconnect :
    (t.resolveReconnect ts).confirmedArrivals = t.confirmedArrivals := by
  unfold resolveReconnect; split <;> rfl

@[simp] theorem driftDigest_resolveReconnect :
    (t.resolveReconnect ts).driftDigest = t.driftDigest := by
  unfold resolveReconnect; split <;> rfl

/-- Without a pending reconnect, no sample is taken. -/
theorem resolveReconnect_of_none (h : t.pendingReconnectMonoNs = none) :
    t.resolveReconnect ts = t := by
  unfold resolveReconnect
  rw [h]

@[simp] theorem endpoint_recordGap : (t.recordGap ts).endpoint = t.endpoint := by
  unfold recordGap; dsimp only; split <;> rfl

@[simp] theorem disconnects_recordGap : (t.recordGap ts).disconnects = t.disconnects := by
  unfold recordGap; dsimp only; split <;> rfl

@[simp] theorem processedArrivals_recordGap :
    (t.recordGap ts).processedArrivals = t.processedArrivals := by
  unfold recordGap; dsimp only; split <;> rfl

@[simp] theorem confirmedArrivals_recordGap :
    (t.recordGap ts).confirmedArrivals = t.confirmedArrivals := by
  unfold recordGap; dsimp only; split <;> rfl

@[simp] theorem driftDigest_recordGap : (t.recordGap ts).driftDigest = t.driftDigest := by
  unfold recordGap; dsimp only; split <;> rfl

@[simp] theorem reconnectTtfm_recordGap : (t.recordGap ts).reconnectTtfm = t.reconnectTtfm := by
  unfold recordGap; dsimp only; split <;> rfl

@[simp] theorem pendingReconnectMonoNs_recordGap :
    (t.recordGap ts).pendingReconnectMonoNs = t.pendingReconnectMonoNs := by
  unfold recordGap; dsimp only; split <;> rfl

/-- A stage touches the two arrival maps and the drift digest. -/
theorem recordStage_eq : ∃ processed confirmed drift,
    t.recordStage slot stage commitment ts =
      { t with
        processedArrivals := processed, confirmedArrivals := confirmed, driftDigest := drift } := by
  unfold recordStage
  split
  · dsimp only
    split <;> exact ⟨_, _, _, rfl⟩
  · dsimp only
    split <;> exact ⟨_, _, _, rfl⟩
  · exact ⟨_, _, _, rfl⟩

/-- A stage that does not carry its own label is not recorded. -/
theorem recordStage_eq_self (hp : ¬ (stage = .processed ∧ commitment = some .processed))
    (hc : ¬ (stage = .confirmed ∧ commitment = some .confirmed)) :
    t.recordStage slot stage commitment ts = t := by
  unfold recordStage
  split
  · exact absurd ⟨rfl, rfl⟩ hp
  · exact absurd ⟨rfl, rfl⟩ hc
  · rfl

@[simp] theorem endpoint_recordStage :
    (t.recordStage slot stage commitment ts).endpoint = t.endpoint := by
  obtain ⟨_, _, _, h⟩ := t.recordStage_eq ts slot stage commitment
  rw [h]

@[simp] theorem disconnects_recordStage :
    (t.recordStage slot stage commitment ts).disconnects = t.disconnects := by
  obtain ⟨_, _, _, h⟩ := t.recordStage_eq ts slot stage commitment
  rw [h]

@[simp] theorem reconnectTtfm_recordStage :
    (t.recordStage slot stage commitment ts).reconnectTtfm = t.reconnectTtfm := by
  obtain ⟨_, _, _, h⟩ := t.recordStage_eq ts slot stage commitment
  rw [h]

@[simp] theorem pendingReconnectMonoNs_recordStage :
    (t.recordStage slot stage commitment ts).pendingReconnectMonoNs =
      t.pendingReconnectMonoNs := by
  obtain ⟨_, _, _, h⟩ := t.recordStage_eq ts slot stage commitment
  rw [h]

end Frame

section Observe

variable (t : StabilityTracker B) (event : Event)

/-- The two ways `observe` can go: the event is another endpoint's or no slot event, and only a
pending reconnect is resolved; or it is a slot event of this endpoint. -/
theorem observe_cases :
    (t.observe event = t ∨ t.observe event = t.resolveReconnect event.ts) ∨
    ∃ slot stage, event.endpoint = t.endpoint ∧ event.payload = .slot slot stage ∧
      t.observe event = ((t.resolveReconnect event.ts).recordGap event.ts).recordStage slot stage
        event.subscription.commitment event.ts := by
  by_cases h : event.endpoint = t.endpoint
  · rcases hp : event.payload with ⟨slot, stage⟩ | _ | _ | _ | _
    · exact Or.inr ⟨slot, stage, h, rfl, by simp only [observe, h, hp, ne_eq, not_true, if_false]⟩
    all_goals exact Or.inl (Or.inr (by simp only [observe, h, hp, ne_eq, not_true, if_false]))
  · exact Or.inl (Or.inl (if_pos h))

@[simp] theorem endpoint_observe : (t.observe event).endpoint = t.endpoint := by
  rcases t.observe_cases event with (h | h) | ⟨slot, stage, -, -, h⟩ <;> simp [h]

/-- **No event adds a disconnect.** -/
@[simp] theorem disconnects_observe : (t.observe event).disconnects = t.disconnects := by
  rcases t.observe_cases event with (h | h) | ⟨slot, stage, -, -, h⟩ <;> simp [h]

/-- **No event adds a reconnect sample**, unless a reconnect was notified before. -/
theorem reconnect_observe (hn : t.pendingReconnectMonoNs = none) :
    (t.observe event).pendingReconnectMonoNs = none ∧
      (t.observe event).reconnectTtfm = t.reconnectTtfm := by
  rcases t.observe_cases event with (h | h) | ⟨slot, stage, -, -, h⟩ <;>
    simp [h, t.resolveReconnect_of_none event.ts hn, hn]

end Observe

/-! ## Slot events with one label

A drift sample needs an arrival in each of the two maps, and a slot event reaches the map of its own
commitment label only. -/

/-- Only the map of one label has been written, and no drift has been recorded. -/
structure OneSided (label : Commitment) (t : StabilityTracker B) : Prop where
  processed : label ≠ .processed → t.processedArrivals = ∅
  confirmed : label ≠ .confirmed → t.confirmedArrivals = ∅
  samples : t.driftDigest.samples = 0

namespace OneSided

variable {t : StabilityTracker B} {label : Commitment}

theorem new (label : Commitment) (endpoint : EndpointRole) :
    (StabilityTracker.new B endpoint).OneSided label :=
  ⟨fun _ => rfl, fun _ => rfl, DistributionDigest.samples_new⟩

theorem resolveReconnect (h : t.OneSided label) (ts : EventTimestamp) :
    (t.resolveReconnect ts).OneSided label :=
  ⟨by simpa using h.processed, by simpa using h.confirmed, by simpa using h.samples⟩

theorem recordGap (h : t.OneSided label) (ts : EventTimestamp) : (t.recordGap ts).OneSided label :=
  ⟨by simpa using h.processed, by simpa using h.confirmed, by simpa using h.samples⟩

theorem recordStage (h : t.OneSided label) (slot : UInt64) (stage : SlotStage)
    {commitment : Option Commitment} (hc : commitment = none ∨ commitment = some label)
    (ts : EventTimestamp) : (t.recordStage slot stage commitment ts).OneSided label := by
  have hlabel : ∀ c, commitment = some c → label = c := by
    intro c hcommitment
    rcases hc with hc | hc
    · cases hc.symm.trans hcommitment
    · exact Option.some.inj (hc.symm.trans hcommitment)
  by_cases hp : stage = .processed ∧ commitment = some .processed
  · -- the other map is empty, so the lookup in it finds nothing
    obtain ⟨rfl, rfl⟩ := hp
    obtain rfl := hlabel _ rfl
    have hempty := h.confirmed (by decide)
    rw [StabilityTracker.recordStage]
    simp only [hempty, Finmap.lookup_empty]
    exact ⟨fun hne => absurd rfl hne, fun _ => rfl, h.samples⟩
  · by_cases hq : stage = .confirmed ∧ commitment = some .confirmed
    · obtain ⟨rfl, rfl⟩ := hq
      obtain rfl := hlabel _ rfl
      have hempty := h.processed (by decide)
      rw [StabilityTracker.recordStage]
      simp only [hempty, Finmap.lookup_empty]
      exact ⟨fun _ => rfl, fun hne => absurd rfl hne, h.samples⟩
    · rw [t.recordStage_eq_self ts slot stage commitment hp hq]
      exact h

/-- **One label, no drift.**  A slot event with the label, or with none, records no drift. -/
theorem observe (h : t.OneSided label) {event : Event}
    (hlabel : ∀ slot stage, event.payload = .slot slot stage →
      event.subscription.commitment = none ∨ event.subscription.commitment = some label) :
    (t.observe event).OneSided label := by
  rcases t.observe_cases event with (hobs | hobs) | ⟨slot, stage, -, hpayload, hobs⟩
  · rw [hobs]
    exact h
  · rw [hobs]
    exact h.resolveReconnect event.ts
  · rw [hobs]
    exact ((h.resolveReconnect event.ts).recordGap event.ts).recordStage slot stage
      (hlabel slot stage hpayload) event.ts

end OneSided

end StabilityTracker

end GrpcBench
