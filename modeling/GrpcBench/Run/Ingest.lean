import GrpcBench.CrossStream
import GrpcBench.Matching.Dispatch
import GrpcBench.Stability

/-!
# Ingest

`run.rs`: what a dispatcher thread does with one event.  The matchers, the raw-record sink and the
slot counter are shared by the two dispatchers; the trackers and the counters belong to the
dispatcher of one endpoint.  `IngestState` has all of it, and `ingest` is one `dispatch_event` by
the dispatcher of the event's endpoint: rings are partitioned by the endpoint of their subscription,
so that is the dispatcher that receives it.

A dispatch is one step here.  In the source its parts take one lock after another, so the parts of
two dispatches can come in turns: `Dispatching` has them one by one, and says what that leaves as it
is here.

The raw-record sink is code of its own; here it is any state with a `write`.  The counters, and the
slot counter among them, are natural numbers: they are `u64` in the source, and no run has `2^64`
events.
-/

namespace GrpcBench

/-- The raw-record writer, as far as the dispatcher uses it. -/
structure RawSink where
  State : Type
  write : State → Event → State

/-- `IngestCountersPartial`: what one dispatcher counts, in `u64`s in the source and in natural
numbers here, as an event adds one to one of them. -/
structure IngestCountersPartial where
  accounts : ℕ := 0
  transactions : ℕ := 0
  blocks : ℕ := 0
  entries : ℕ := 0
  lastCountedSlot : UInt64 := 0
  deriving DecidableEq

/-- What one dispatcher owns. -/
structure DispatcherState (B : Backend) where
  stability : StabilityTracker B
  cross : CrossStreamTracker B
  counters : IngestCountersPartial

/-- A dispatcher's state as it is spawned. -/
def DispatcherState.new (B : Backend) (endpoint : EndpointRole) : DispatcherState B where
  stability := StabilityTracker.new B endpoint
  cross := CrossStreamTracker.new B endpoint
  counters := {}

/-- What the two dispatchers share. -/
structure SharedState (B : Backend) (R : RawSink) where
  matchers : StreamMatchers B
  rawWriter : Option R.State
  totalSlots : ℕ

variable {B : Backend} {R : RawSink}

/-- The counter updates at the end of `dispatch_event`. -/
def countEvent (event : Event) (counters : IngestCountersPartial) (totalSlots : ℕ) :
    IngestCountersPartial × ℕ :=
  match event.payload with
  | .slot slot stage =>
    if event.endpoint = .one ∧ stage = .processed ∧ counters.lastCountedSlot < slot then
      ({ counters with lastCountedSlot := slot }, totalSlots + 1)
    else (counters, totalSlots)
  | .account .. => ({ counters with accounts := counters.accounts + 1 }, totalSlots)
  | .transaction .. => ({ counters with transactions := counters.transactions + 1 }, totalSlots)
  | .block .. => ({ counters with blocks := counters.blocks + 1 }, totalSlots)
  | .entry .. => ({ counters with entries := counters.entries + 1 }, totalSlots)

/-- `dispatch_event`, with no other dispatcher in between.  It lets go of the matchers' lock before
it takes the writer's: `Dispatching` goes through it part by part. -/
def dispatchEvent (event : Event) (shared : SharedState B R) (d : DispatcherState B) :
    SharedState B R × DispatcherState B :=
  let matchers := dispatch shared.matchers event
  let stability := d.stability.observe event
  let cross := d.cross.observe event
  let rawWriter := shared.rawWriter.map fun w => R.write w event
  let r := countEvent event d.counters shared.totalSlots
  ({ matchers, rawWriter, totalSlots := r.2 }, { stability, cross, counters := r.1 })

/-- The shared state and the two dispatchers. -/
structure IngestState (B : Backend) (R : RawSink) where
  shared : SharedState B R
  dispatchers : EndpointRole → DispatcherState B

namespace IngestState

/-- The state in which the dispatchers are spawned. -/
def start (B : Backend) (names : Finmap fun _ : Pubkey32 => String) (strict : Bool)
    (rawWriter : Option R.State) : IngestState B R where
  shared :=
    { matchers := StreamMatchers.start B names strict
      rawWriter := rawWriter
      totalSlots := 0 }
  dispatchers := DispatcherState.new B

/-- One `dispatch_event`, by a dispatcher. -/
def dispatchOn (s : IngestState B R) (e : EndpointRole) (event : Event) : IngestState B R :=
  let r := dispatchEvent event s.shared (s.dispatchers e)
  { shared := r.1, dispatchers := Function.update s.dispatchers e r.2 }

/-- One `dispatch_event`, by the dispatcher of the event's endpoint. -/
def ingest (s : IngestState B R) (event : Event) : IngestState B R :=
  s.dispatchOn event.endpoint event

/-- A run of the two dispatchers, in the order in which their events take effect. -/
def ingestAll (s : IngestState B R) (events : List Event) : IngestState B R :=
  events.foldl ingest s

theorem dispatchers_ingest_self (s : IngestState B R) (event : Event) :
    (s.ingest event).dispatchers event.endpoint =
      (dispatchEvent event s.shared (s.dispatchers event.endpoint)).2 :=
  Function.update_self ..

theorem dispatchers_ingest_of_ne (s : IngestState B R) {event : Event} {e : EndpointRole}
    (h : e ≠ event.endpoint) : (s.ingest event).dispatchers e = s.dispatchers e :=
  Function.update_of_ne h ..

@[simp] theorem matchers_ingest (s : IngestState B R) (event : Event) :
    (s.ingest event).shared.matchers = dispatch s.shared.matchers event := rfl

/-- The tracker of an endpoint observes the events of its own endpoint. -/
theorem stability_ingest (s : IngestState B R) (event : Event) (e : EndpointRole) :
    ((s.ingest event).dispatchers e).stability =
      if event.endpoint = e then (s.dispatchers e).stability.observe event
      else (s.dispatchers e).stability := by
  by_cases h : event.endpoint = e
  · subst h
    rw [dispatchers_ingest_self, if_pos rfl]
    rfl
  · rw [dispatchers_ingest_of_ne s (Ne.symm h), if_neg h]

end IngestState

end GrpcBench
