import GrpcBench.Library.Folds
import GrpcBench.Run.Ingest
import GrpcBench.Run.Receiver
import Mathlib.Data.List.FinRange

/-!
# The pipeline of a run

`run.rs`: one receiver thread per subscription, one dispatcher thread per endpoint, and the shutdown
flag.  A dispatcher goes over the rings of its endpoint in plan order, takes up to
`DRAIN_BUDGET_PER_RING` events from each, then loads the shutdown flag; it exits on a pass that
found nothing, or when its budget after the shutdown is spent.  The coordinator takes over the state
of a dispatcher that has exited, and replaces that of one that has not by a fresh one.

One action of the pipeline is one atomic step of one thread, so a run is an interleaving.

* `Pipeline.step`, `Pipeline.run`: the runs.
* `Pipeline.receiver_step`, `Pipeline.stability_step`: what a step does to a receiver, and to a
  tracker.
-/

namespace GrpcBench

/-- `DRAIN_BUDGET_PER_RING`. -/
def drainBudgetPerRing : ℕ := 1024

/-- Where a dispatcher is in its loop. -/
inductive DispatcherPoint where
  | draining | loadShutdown | exited
  deriving DecidableEq, Repr

/-- The local state of a dispatcher loop: the ring it is at, the events taken from it in this pass,
and whether this pass has found any. -/
structure DispatcherLoop where
  point : DispatcherPoint := .draining
  ring : ℕ := 0
  drained : ℕ := 0
  gotAny : Bool := false
  deriving DecidableEq, Repr

/-- On to the next ring. -/
def DispatcherLoop.nextRing (loop : DispatcherLoop) : DispatcherLoop :=
  { loop with ring := loop.ring + 1, drained := 0 }

/-- The rings of an endpoint, in plan order. -/
def ringsOf (roles : List SubscriptionRole) (e : EndpointRole) : List (Fin roles.length) :=
  (List.finRange roles.length).filter fun i => (roles.get i).endpoint = e

/-- The threads of a run and what they share. -/
structure Pipeline (B : Backend) (R : RawSink) (roles : List SubscriptionRole) where
  subs : Fin roles.length → Subscription
  loops : EndpointRole → DispatcherLoop
  ingest : IngestState B R
  shutdown : Bool

/-- One atomic step of one thread. -/
inductive Action (n : ℕ) where
  | receiver (i : Fin n) (input : ReceiverInput)
  /-- A step of a dispatcher; the flag says whether its budget after the shutdown is spent. -/
  | dispatcher (e : EndpointRole) (budgetSpent : Bool)
  | requestShutdown

namespace Pipeline

variable {B : Backend} {R : RawSink} {roles : List SubscriptionRole}

/-- The state in which the threads are spawned. -/
def start (B : Backend) (names : Finmap fun _ : Pubkey32 => String) (strict : Bool)
    (rawWriter : Option R.State) (roles : List SubscriptionRole) (ringCapacity : ℕ) :
    Pipeline B R roles where
  subs i := ⟨{}, Ring.withCapacity (ringCapacityFor (roles.get i) ringCapacity)
    (ringCapacityFor_pos (roles.get i) ringCapacity)⟩
  loops _ := {}
  ingest := IngestState.start B names strict rawWriter
  shutdown := false

/-- A step of a dispatcher's loop alone. -/
def setLoop (s : Pipeline B R roles) (e : EndpointRole) (loop : DispatcherLoop) :
    Pipeline B R roles :=
  { s with loops := Function.update s.loops e loop }

/-- The dispatcher takes an event from a ring and dispatches it. -/
def takeEvent (s : Pipeline B R roles) (e : EndpointRole) (i : Fin roles.length) (event : Event)
    (ring : Ring) : Pipeline B R roles :=
  let loop := s.loops e
  { s with
    subs := Function.update s.subs i { s.subs i with
      ring := ring.withStats { ring.stats with received := ring.stats.received + 1 } }
    loops := Function.update s.loops e
      { loop with drained := loop.drained + 1, gotAny := true }
    ingest := s.ingest.dispatchOn e event }

/-- The dispatcher returns: its rings are dropped. -/
def exitDispatcher (s : Pipeline B R roles) (e : EndpointRole) : Pipeline B R roles :=
  { s with
    subs := fun i =>
      if (roles.get i).endpoint = e then { s.subs i with ring := (s.subs i).ring.dropReceiver }
      else s.subs i
    loops := Function.update s.loops e { s.loops e with point := .exited } }

/-- One step of `dispatcher_thread_main`. -/
def dispatcherStep (s : Pipeline B R roles) (e : EndpointRole) (budgetSpent : Bool) :
    Option (Pipeline B R roles) :=
  let loop := s.loops e
  match loop.point with
  | .draining =>
    match (ringsOf roles e)[loop.ring]? with
    | none => some (s.setLoop e { loop with point := .loadShutdown })
    | some i =>
      if loop.drained < drainBudgetPerRing then
        match (s.subs i).ring.tryRecv with
        | none => some (s.setLoop e loop.nextRing)
        | some (event, ring) => some (s.takeEvent e i event ring)
      else some (s.setLoop e loop.nextRing)
  | .loadShutdown =>
    if s.shutdown && (!loop.gotAny || budgetSpent) then some (s.exitDispatcher e)
    else some (s.setLoop e {})
  | .exited => none

/-- One step of the pipeline. -/
def step (s : Pipeline B R roles) : Action roles.length → Option (Pipeline B R roles)
  | .receiver i input =>
    ((s.subs i).step (roles.get i) s.shutdown input).map fun sub =>
      { s with subs := Function.update s.subs i sub }
  | .dispatcher e budgetSpent => s.dispatcherStep e budgetSpent
  | .requestShutdown => some { s with shutdown := true }

/-- A run of the pipeline. -/
def run (s : Pipeline B R roles) (actions : List (Action roles.length)) :
    Option (Pipeline B R roles) :=
  actions.foldlM step s

/-- `reclaim_dispatcher`, and the fallback for a dispatcher that has not exited. -/
def reclaim (s : Pipeline B R roles) (e : EndpointRole) : DispatcherState B :=
  if (s.loops e).point = .exited then s.ingest.dispatchers e else DispatcherState.new B e

/-- `comparative.stability.<endpoint>` of the output. -/
def stabilitySummary (s : Pipeline B R roles) (e : EndpointRole) : StabilitySummary :=
  (s.reclaim e).stability.summary.1

/-! ## What one step does -/

section Loops

variable (s : Pipeline B R roles) (e : EndpointRole)

@[simp] theorem loops_setLoop (loop : DispatcherLoop) : (s.setLoop e loop).loops e = loop :=
  Function.update_self ..

@[simp] theorem loops_takeEvent (i : Fin roles.length) (event : Event) (ring : Ring) :
    (s.takeEvent e i event ring).loops e =
      { s.loops e with drained := (s.loops e).drained + 1, gotAny := true } :=
  Function.update_self ..

@[simp] theorem loops_exitDispatcher :
    (s.exitDispatcher e).loops e = { s.loops e with point := .exited } :=
  Function.update_self ..

end Loops

variable {s s' : Pipeline B R roles}

/-- The ways a dispatcher's step can go. -/
theorem dispatcherStep_cases {e : EndpointRole} {budgetSpent : Bool}
    (h : s.dispatcherStep e budgetSpent = some s') :
    (∃ loop, s' = s.setLoop e loop) ∨
    (∃ i event ring, i ∈ ringsOf roles e ∧ (s.subs i).ring.tryRecv = some (event, ring) ∧
      s' = s.takeEvent e i event ring) ∨
    s.shutdown = true ∧ s' = s.exitDispatcher e := by
  unfold dispatcherStep at h
  dsimp only at h
  split at h
  · split at h
    · exact Or.inl ⟨_, (Option.some.inj h).symm⟩
    · rename_i i hi
      split_ifs at h with hbudget
      · split at h
        · exact Or.inl ⟨_, (Option.some.inj h).symm⟩
        · rename_i event ring hrecv
          exact Or.inr (Or.inl ⟨i, event, ring, List.mem_of_getElem? hi, hrecv,
            (Option.some.inj h).symm⟩)
      · exact Or.inl ⟨_, (Option.some.inj h).symm⟩
  · split_ifs at h with hexit
    · rw [Bool.and_eq_true] at hexit
      exact Or.inr (Or.inr ⟨hexit.1, (Option.some.inj h).symm⟩)
    · exact Or.inl ⟨_, (Option.some.inj h).symm⟩
  · cases h

/-- A receiver's loop takes the steps of its own thread, and no others. -/
theorem receiver_step {action : Action roles.length} (h : s.step action = some s')
    (i : Fin roles.length) :
    (s'.subs i).receiver = (s.subs i).receiver ∨
      ∃ input, action = .receiver i input ∧
        (s.subs i).step (roles.get i) s.shutdown input = some (s'.subs i) := by
  cases action with
  | receiver j input =>
    obtain ⟨sub, hsub, rfl⟩ := Option.map_eq_some_iff.mp h
    by_cases hj : i = j
    · subst hj
      refine Or.inr ⟨input, rfl, ?_⟩
      show _ = some (Function.update s.subs i sub i)
      rw [hsub, Function.update_self]
    · refine Or.inl ?_
      show (Function.update s.subs j sub i).receiver = _
      rw [Function.update_of_ne hj]
  | dispatcher e budgetSpent =>
    refine Or.inl ?_
    rcases dispatcherStep_cases h with ⟨loop, rfl⟩ | ⟨j, event, ring, -, -, rfl⟩ | ⟨-, rfl⟩
    · rfl
    · by_cases hj : i = j
      · subst hj
        simp [takeEvent]
      · simp [takeEvent, Function.update_of_ne hj]
    · simp only [exitDispatcher]
      split_ifs <;> rfl
  | requestShutdown =>
    cases h
    exact Or.inl rfl

/-- A tracker is left alone by a step, or observes one event. -/
theorem stability_step {action : Action roles.length} (h : s.step action = some s')
    (e : EndpointRole) :
    (s'.ingest.dispatchers e).stability = (s.ingest.dispatchers e).stability ∨
      ∃ event, (s'.ingest.dispatchers e).stability =
        (s.ingest.dispatchers e).stability.observe event := by
  cases action with
  | receiver j input =>
    obtain ⟨sub, -, rfl⟩ := Option.map_eq_some_iff.mp h
    exact Or.inl rfl
  | dispatcher f budgetSpent =>
    rcases dispatcherStep_cases h with ⟨loop, rfl⟩ | ⟨j, event, ring, -, -, rfl⟩ | ⟨-, rfl⟩
    · exact Or.inl rfl
    · by_cases hf : e = f
      · subst hf
        refine Or.inr ⟨event, ?_⟩
        simp [takeEvent, IngestState.dispatchOn, dispatchEvent]
      · refine Or.inl ?_
        simp [takeEvent, IngestState.dispatchOn, Function.update_of_ne hf]
    · exact Or.inl rfl
  | requestShutdown =>
    cases h
    exact Or.inl rfl

end Pipeline

end GrpcBench
