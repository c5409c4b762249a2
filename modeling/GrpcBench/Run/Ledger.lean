import GrpcBench.Run.Records

/-!
# The parts of a dispatch

`run.rs`: `dispatch_event` does four things one after another.  The matchers observe the event,
under the lock of its kind; the trackers of the dispatcher observe it; the raw-record writer gets
it, under a lock of its own; and it is counted.  Each part has a state of its own, so what a part
comes to depends on the order of the events in that part alone.

* `DispatchPart`, `IngestState.perform`: the parts, and `perform_all`: together they are a dispatch.
* `Ledger`: the events that each part of the ingest state has had.
* `Ledger.perform`: one part of one dispatch.
* `Ledger.withoutWriter_eq`: parts that have had the same events of each endpoint, in the same order
  there, come to what one dispatch after the other comes to.
-/

namespace GrpcBench

variable {B : Backend} {R : RawSink}

/-! ## The parts -/

/-- What `dispatch_event` does, in this order. -/
inductive DispatchPart where
  | matchers | trackers | rawWriter | counters
  deriving DecidableEq

/-- The events of an endpoint. -/
def ownEvents (e : EndpointRole) (events : List Event) : List Event :=
  events.filter fun event => event.endpoint = e

@[simp] theorem ownEvents_append (e : EndpointRole) (l l' : List Event) :
    ownEvents e (l ++ l') = ownEvents e l ++ ownEvents e l' :=
  List.filter_append ..

theorem ownEvents_singleton (e : EndpointRole) (event : Event) :
    ownEvents e [event] = if event.endpoint = e then [event] else [] := by
  by_cases h : event.endpoint = e <;> simp [ownEvents, h]

@[simp] theorem ownEvents_ownEvents (e : EndpointRole) (l : List Event) :
    ownEvents e (ownEvents e l) = ownEvents e l := by
  rw [ownEvents, ownEvents, List.filter_filter]
  simp

namespace IngestState

/-- One part of the dispatch of an event, by the dispatcher of an endpoint. -/
def perform (s : IngestState B R) (e : EndpointRole) (event : Event) :
    DispatchPart → IngestState B R
  | .matchers => { s with shared := { s.shared with matchers := dispatch s.shared.matchers event } }
  | .trackers =>
    let d := s.dispatchers e
    { s with dispatchers := Function.update s.dispatchers e { d with
        stability := d.stability.observe event
        cross := d.cross.observe event } }
  | .rawWriter =>
    { s with shared := { s.shared with
        rawWriter := s.shared.rawWriter.map fun w => R.write w event } }
  | .counters =>
    let d := s.dispatchers e
    let r := countEvent event d.counters s.shared.totalSlots
    { shared := { s.shared with totalSlots := r.2 }
      dispatchers := Function.update s.dispatchers e { d with counters := r.1 } }

/-- The parts of a dispatch, one after the other. -/
theorem perform_all (s : IngestState B R) (e : EndpointRole) (event : Event) :
    (((s.perform e event .matchers).perform e event .trackers).perform e event
      .rawWriter).perform e event .counters = s.dispatchOn e event := by
  simp only [perform, dispatchOn, dispatchEvent, Function.update_self, Function.update_idem]

section Perform

variable (s : IngestState B R) (e : EndpointRole) (event : Event)

theorem dispatchers_trackers_self : (s.perform e event .trackers).dispatchers e =
    { s.dispatchers e with
      stability := (s.dispatchers e).stability.observe event
      cross := (s.dispatchers e).cross.observe event } :=
  Function.update_self ..

theorem dispatchers_counters_self : (s.perform e event .counters).dispatchers e =
    { s.dispatchers e with
      counters := (countEvent event (s.dispatchers e).counters s.shared.totalSlots).1 } :=
  Function.update_self ..

/-- A dispatch leaves the other dispatcher alone. -/
theorem dispatchers_perform_of_ne {f : EndpointRole} (h : f ≠ e) (part : DispatchPart) :
    (s.perform e event part).dispatchers f = s.dispatchers f := by
  cases part with
  | matchers => rfl
  | rawWriter => rfl
  | trackers => exact Function.update_of_ne h ..
  | counters => exact Function.update_of_ne h ..

end Perform

/-- The trackers and counters alone. -/
def withoutWriter (s : IngestState B R) : IngestState B R :=
  { s with shared := { s.shared with rawWriter := none } }

theorem withoutWriter_ingest (s : IngestState B R) (event : Event) :
    (s.ingest event).withoutWriter = s.withoutWriter.ingest event := rfl

/-- **The writer is not seen by the trackers.** -/
theorem withoutWriter_ingestAll (s : IngestState B R) (events : List Event) :
    (s.ingestAll events).withoutWriter = s.withoutWriter.ingestAll events := by
  induction events generalizing s with
  | nil => rfl
  | cons event events ih =>
    rw [ingestAll, List.foldl_cons, ← ingestAll, ih, withoutWriter_ingest]
    rfl

end IngestState

/-! ## The counters -/

/-- The counters of a dispatcher, and the slot counter, after some events. -/
def countAll (r : IngestCountersPartial × ℕ) (events : List Event) : IngestCountersPartial × ℕ :=
  events.foldl (fun r event => countEvent event r.1 r.2) r

theorem countAll_concat (r : IngestCountersPartial × ℕ) (events : List Event) (event : Event) :
    countAll r (events ++ [event]) = countEvent event (countAll r events).1 (countAll r events).2 :=
  List.foldl_append

/-- The counters do not depend on the slot counter. -/
theorem fst_countEvent (event : Event) (counters : IngestCountersPartial) (n n' : ℕ) :
    (countEvent event counters n).1 = (countEvent event counters n').1 := by
  unfold countEvent
  split
  · split_ifs <;> rfl
  all_goals rfl

/-- Only the dispatcher of endpoint 1 counts slots. -/
theorem snd_countEvent_of_two {event : Event} (h : event.endpoint = .two)
    (counters : IngestCountersPartial) (n : ℕ) : (countEvent event counters n).2 = n := by
  unfold countEvent
  split
  · rw [if_neg fun hc => by rw [h] at hc; exact absurd hc.1 (by decide)]
  all_goals rfl

/-! ## The ledger -/

/-- What the parts have had: the events the matchers have observed and those the writer was given,
and for each endpoint those its trackers and its counters have had. -/
structure PartLog where
  observed : List Event := []
  written : List Event := []
  tracked : EndpointRole → List Event := fun _ => []
  counted : EndpointRole → List Event := fun _ => []

namespace PartLog

/-- A part gets an event from the dispatcher of an endpoint. -/
def add (log : PartLog) (e : EndpointRole) (event : Event) : DispatchPart → PartLog
  | .matchers => { log with observed := log.observed ++ [event] }
  | .trackers =>
    { log with tracked := Function.update log.tracked e (log.tracked e ++ [event]) }
  | .rawWriter => { log with written := log.written ++ [event] }
  | .counters =>
    { log with counted := Function.update log.counted e (log.counted e ++ [event]) }

/-- What a part has had of an endpoint. -/
def had (log : PartLog) (e : EndpointRole) : DispatchPart → List Event
  | .matchers => ownEvents e log.observed
  | .trackers => log.tracked e
  | .rawWriter => ownEvents e log.written
  | .counters => log.counted e

/-- Every part has had the events, in their order. -/
def whole (events : List Event) : PartLog where
  observed := events
  written := events
  tracked e := ownEvents e events
  counted e := ownEvents e events

section Add

variable (log : PartLog) {e f : EndpointRole} (event : Event)

theorem tracked_add_self :
    (log.add e event .trackers).tracked e = log.tracked e ++ [event] :=
  Function.update_self ..

theorem tracked_add_of_ne (h : f ≠ e) : (log.add e event .trackers).tracked f = log.tracked f :=
  Function.update_of_ne h ..

theorem counted_add_self :
    (log.add e event .counters).counted e = log.counted e ++ [event] :=
  Function.update_self ..

theorem counted_add_of_ne (h : f ≠ e) : (log.add e event .counters).counted f = log.counted f :=
  Function.update_of_ne h ..

end Add

/-- A part gets an event of an endpoint. -/
theorem had_add (log : PartLog) {event : Event} {e : EndpointRole} (he : event.endpoint = e)
    (part : DispatchPart) (f : EndpointRole) (q : DispatchPart) :
    (log.add e event part).had f q = log.had f q ++ if f = e ∧ q = part then [event] else [] := by
  have hown : ∀ l, ownEvents f (l ++ [event]) = ownEvents f l ++ if f = e then [event] else [] := by
    intro l
    rw [ownEvents_append, ownEvents_singleton, he]
    simp only [eq_comm]
  have hupdate : ∀ l : EndpointRole → List Event, Function.update l e (l e ++ [event]) f =
      l f ++ if f = e then [event] else [] := by
    intro l
    by_cases hf : f = e
    · subst hf
      rw [Function.update_self, if_pos rfl]
    · rw [Function.update_of_ne hf, if_neg hf, List.append_nil]
  cases part <;> cases q <;> simp [add, had, hown, hupdate]

end PartLog

/-- The parts of an ingest state have had what a log says since `s₀`. -/
structure Ledger (s₀ s : IngestState B R) (log : PartLog) : Prop where
  matchers : s.shared.matchers = dispatchAll s₀.shared.matchers log.observed
  rawWriter : s.shared.rawWriter = s₀.shared.rawWriter.map fun w => log.written.foldl R.write w
  stability : ∀ e, (s.dispatchers e).stability =
    (log.tracked e).foldl StabilityTracker.observe (s₀.dispatchers e).stability
  cross : ∀ e, (s.dispatchers e).cross =
    (log.tracked e).foldl CrossStreamTracker.observe (s₀.dispatchers e).cross
  counters : ∀ e, (s.dispatchers e).counters =
    (countAll ((s₀.dispatchers e).counters, s₀.shared.totalSlots) (log.counted e)).1
  totalSlots : s.shared.totalSlots =
    (countAll ((s₀.dispatchers .one).counters, s₀.shared.totalSlots) (log.counted .one)).2

namespace Ledger

variable {s₀ s s' : IngestState B R} {log log' : PartLog}

theorem refl (s₀ : IngestState B R) : Ledger s₀ s₀ {} where
  matchers := rfl
  rawWriter := Option.map_id_fun'.symm ▸ rfl
  stability _ := rfl
  cross _ := rfl
  counters _ := rfl
  totalSlots := rfl

/-- The matchers observe an event. -/
theorem observe (h : Ledger s₀ s log) (e : EndpointRole)
    (event : Event) : Ledger s₀ (s.perform e event .matchers) (log.add e event .matchers) where
  matchers := by
    have hlast : dispatchAll s₀.shared.matchers (log.observed ++ [event]) =
        dispatch (dispatchAll s₀.shared.matchers log.observed) event := List.foldl_append
    rw [PartLog.add, hlast, ← h.matchers]
    rfl
  rawWriter := h.rawWriter
  stability := h.stability
  cross := h.cross
  counters := h.counters
  totalSlots := h.totalSlots

/-- The trackers of a dispatcher observe an event. -/
theorem track (h : Ledger s₀ s log) (e : EndpointRole)
    (event : Event) : Ledger s₀ (s.perform e event .trackers) (log.add e event .trackers) where
  matchers := h.matchers
  rawWriter := h.rawWriter
  stability f := by
    by_cases hf : f = e
    · subst hf
      rw [PartLog.tracked_add_self, s.dispatchers_trackers_self, List.foldl_append, ← h.stability f]
      rfl
    · rw [PartLog.tracked_add_of_ne log event hf, s.dispatchers_perform_of_ne e event hf,
        h.stability f]
  cross f := by
    by_cases hf : f = e
    · subst hf
      rw [PartLog.tracked_add_self, s.dispatchers_trackers_self, List.foldl_append, ← h.cross f]
      rfl
    · rw [PartLog.tracked_add_of_ne log event hf, s.dispatchers_perform_of_ne e event hf,
        h.cross f]
  counters f := by
    refine Eq.trans ?_ (h.counters f)
    by_cases hf : f = e
    · subst hf
      rw [s.dispatchers_trackers_self]
    · rw [s.dispatchers_perform_of_ne e event hf]
  totalSlots := h.totalSlots

/-- The writer gets an event. -/
theorem write (h : Ledger s₀ s log) (e : EndpointRole)
    (event : Event) : Ledger s₀ (s.perform e event .rawWriter) (log.add e event .rawWriter) where
  matchers := h.matchers
  rawWriter := by
    show (s.shared.rawWriter.map fun w => R.write w event) = _
    simp [h.rawWriter, PartLog.add, Function.comp_def]
  stability := h.stability
  cross := h.cross
  counters := h.counters
  totalSlots := h.totalSlots

/-- The dispatcher of an event's endpoint counts it. -/
theorem count (h : Ledger s₀ s log) {e : EndpointRole}
    {event : Event} (he : event.endpoint = e) :
    Ledger s₀ (s.perform e event .counters) (log.add e event .counters) where
  matchers := h.matchers
  rawWriter := h.rawWriter
  stability f := by
    refine Eq.trans ?_ (h.stability f)
    by_cases hf : f = e
    · subst hf
      rw [s.dispatchers_counters_self]
    · rw [s.dispatchers_perform_of_ne e event hf]
  cross f := by
    refine Eq.trans ?_ (h.cross f)
    by_cases hf : f = e
    · subst hf
      rw [s.dispatchers_counters_self]
    · rw [s.dispatchers_perform_of_ne e event hf]
  counters f := by
    by_cases hf : f = e
    · subst hf
      rw [PartLog.counted_add_self, countAll_concat, ← h.counters f, s.dispatchers_counters_self]
      exact fst_countEvent event _ _ _
    · rw [PartLog.counted_add_of_ne log event hf, s.dispatchers_perform_of_ne e event hf,
        h.counters f]
  totalSlots := by
    cases e with
    | one =>
      rw [PartLog.counted_add_self, countAll_concat, ← h.counters .one, ← h.totalSlots]
      rfl
    | two =>
      have hne : EndpointRole.one ≠ .two := by decide
      rw [PartLog.counted_add_of_ne log event hne, ← h.totalSlots]
      exact snd_countEvent_of_two he _ _

/-- **One part of one dispatch.** -/
theorem perform (h : Ledger s₀ s log) {e : EndpointRole} {event : Event} (he : event.endpoint = e)
    (part : DispatchPart) : Ledger s₀ (s.perform e event part) (log.add e event part) := by
  cases part with
  | matchers => exact h.observe e event
  | trackers => exact h.track e event
  | rawWriter => exact h.write e event
  | counters => exact h.count he

/-- Two dispatchers whose parts have had the same. -/
theorem dispatchers_unique (h : Ledger s₀ s log) (h' : Ledger s₀ s' log') {e : EndpointRole}
    (htracked : log.tracked e = log'.tracked e) (hcounted : log.counted e = log'.counted e) :
    s.dispatchers e = s'.dispatchers e := by
  have hstability := h.stability e
  have hcross := h.cross e
  have hcounters := h.counters e
  rw [htracked, ← h'.stability e] at hstability
  rw [htracked, ← h'.cross e] at hcross
  rw [hcounted, ← h'.counters e] at hcounters
  rcases hd : s.dispatchers e with ⟨stability, cross, counters⟩
  rcases hd' : s'.dispatchers e with ⟨stability', cross', counters'⟩
  rw [hd, hd'] at hstability hcross hcounters
  dsimp only at hstability hcross hcounters
  rw [hstability, hcross, hcounters]

/-- Two states whose parts have had the same, up to the writer. -/
theorem withoutWriter_unique (h : Ledger s₀ s log) (h' : Ledger s₀ s' log')
    (hobserved : log.observed = log'.observed) (htracked : ∀ e, log.tracked e = log'.tracked e)
    (hcounted : ∀ e, log.counted e = log'.counted e) : s.withoutWriter = s'.withoutWriter := by
  have hshared : s.withoutWriter.shared = s'.withoutWriter.shared := by
    show SharedState.mk s.shared.matchers none s.shared.totalSlots =
      SharedState.mk s'.shared.matchers none s'.shared.totalSlots
    rw [h.matchers, h'.matchers, h.totalSlots, h'.totalSlots, hobserved, hcounted]
  have hdispatchers : s.dispatchers = s'.dispatchers := by
    funext e
    exact h.dispatchers_unique h' (htracked e) (hcounted e)
  show IngestState.mk s.withoutWriter.shared s.dispatchers =
    IngestState.mk s'.withoutWriter.shared s'.dispatchers
  rw [hshared, hdispatchers]

/-- Whole dispatches, one after the other. -/
theorem ingestAll (s₀ : IngestState B R) (events : List Event) :
    Ledger s₀ (s₀.ingestAll events) (.whole events) := by
  induction events using List.reverseRecOn with
  | nil => exact refl s₀
  | append_singleton events event ih =>
    have hown : Function.update (fun e => ownEvents e events) event.endpoint
        (ownEvents event.endpoint events ++ [event]) =
        fun e => ownEvents e (events ++ [event]) := by
      funext e
      rw [ownEvents_append, ownEvents_singleton]
      by_cases he : event.endpoint = e
      · subst he
        rw [Function.update_self, if_pos rfl]
      · rw [Function.update_of_ne (Ne.symm he), if_neg he, List.append_nil]
    have hlog : ((((PartLog.whole events).add event.endpoint event .matchers).add event.endpoint
        event .trackers).add event.endpoint event .rawWriter).add event.endpoint event .counters =
        .whole (events ++ [event]) := by
      simp only [PartLog.add, PartLog.whole, hown]
    have he : event.endpoint = event.endpoint := rfl
    have hstep := (((ih.perform he .matchers).perform he .trackers).perform he
      .rawWriter).perform he .counters
    rw [IngestState.perform_all, hlog] at hstep
    rw [IngestState.ingestAll, List.foldl_append]
    exact hstep

/-- **Parts that agree endpoint by endpoint.**  If every part has had the same events of each
endpoint, in the same order there, the state is that of dispatching the events whole, in the order
in which the matchers have observed them. -/
theorem withoutWriter_eq (h : Ledger s₀ s log)
    (hparts : ∀ e part, log.had e part = ownEvents e log.observed) :
    s.withoutWriter = s₀.withoutWriter.ingestAll log.observed := by
  rw [← s₀.withoutWriter_ingestAll]
  exact h.withoutWriter_unique (ingestAll s₀ log.observed) rfl (fun e => hparts e .trackers)
    fun e => hparts e .counters

end Ledger

namespace IngestState

/-- A dispatcher sees the events of its own endpoint, and that of endpoint 1 counts the slots. -/
theorem ingestAll_ownEvents (s : IngestState B R) (e : EndpointRole) (events : List Event) :
    (s.ingestAll (ownEvents e events)).dispatchers e = (s.ingestAll events).dispatchers e ∧
      (s.ingestAll (ownEvents .one events)).shared.totalSlots =
        (s.ingestAll events).shared.totalSlots := by
  refine ⟨(Ledger.ingestAll s _).dispatchers_unique (Ledger.ingestAll s events)
    (ownEvents_ownEvents e events) (ownEvents_ownEvents e events), ?_⟩
  rw [(Ledger.ingestAll s _).totalSlots, (Ledger.ingestAll s events).totalSlots]
  exact congrArg (fun l => (countAll _ l).2) (ownEvents_ownEvents .one events)

end IngestState

end GrpcBench
