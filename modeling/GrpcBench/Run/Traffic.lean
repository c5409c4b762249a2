import GrpcBench.Run.Pipeline

/-!
# The traffic of the rings

A record of a run: every send with what `try_send` returned, every `try_recv` with what it found,
and the store of the shutdown flag, in the order in which they happen.  Beside the threads of the
run a send may come at any time into any ring, so what holds of these runs holds for any sender.
The dispatcher takes an event and dispatches it in one step: nothing in between touches a ring.

* `Traffic.step`, `Traffic.run`: the runs, with their record.
* `offeredOn`, `acceptedOn`, `dispatchedOn`: what the record says of one ring.
* `Pipeline.ring_move`: what one move does to a ring, and to the record of that ring.
* `Conserved`, `conserved_run`: the account of a ring, at every moment of a run.
* `Traffic.conservation`: order and conservation.
-/

namespace GrpcBench

variable {B : Backend} {R : RawSink} {roles : List SubscriptionRole}

/-! ## The dispatcher's polls -/

namespace Pipeline

/-- The threads as they are spawned, with rings of any capacities. -/
def spawn (ingest : IngestState B R) (capacity : Fin roles.length → { c : ℕ // 0 < c }) :
    Pipeline B R roles where
  subs i := ⟨{}, Ring.withCapacity (capacity i).1 (capacity i).2⟩
  loops _ := {}
  ingest := ingest
  shutdown := false

theorem start_eq_spawn (names : Finmap fun _ : Pubkey32 => String) (strict : Bool)
    (rawWriter : Option R.State) (ringCapacity : ℕ) :
    start B names strict rawWriter roles ringCapacity =
      spawn (IngestState.start B names strict rawWriter) fun i =>
        ⟨ringCapacityFor (roles.get i) ringCapacity, ringCapacityFor_pos (roles.get i) _⟩ := rfl

/-- The ring on which the next step of a dispatcher is a `try_recv`. -/
def polling (s : Pipeline B R roles) (e : EndpointRole) : Option (Fin roles.length) :=
  if (s.loops e).point = .draining ∧ (s.loops e).drained < drainBudgetPerRing then
    (ringsOf roles e)[(s.loops e).ring]?
  else none

variable {s s' : Pipeline B R roles}

/-- The rings of an endpoint are polled by its own dispatcher. -/
theorem mem_ringsOf_of_polling {e : EndpointRole} {i : Fin roles.length}
    (h : s.polling e = some i) : i ∈ ringsOf roles e := by
  unfold polling at h
  split_ifs at h
  exact List.mem_of_getElem? h

theorem endpoint_of_polling {e : EndpointRole} {i : Fin roles.length}
    (h : s.polling e = some i) : (roles.get i).endpoint = e := by
  simpa [ringsOf] using mem_ringsOf_of_polling h

/-- The six ways a step of a dispatcher can go: the poll finds an event, or nothing; the budget of
the ring is spent; the pass is over; the dispatcher returns; another pass begins. -/
theorem dispatcherStep_spec {e : EndpointRole} {budgetSpent : Bool}
    (h : s.dispatcherStep e budgetSpent = some s') :
    (∃ i event ring, s.polling e = some i ∧ (s.subs i).ring.tryRecv = some (event, ring) ∧
      s' = s.takeEvent e i event ring) ∨
    (∃ i, s.polling e = some i ∧ (s.subs i).ring.tryRecv = none ∧
      s' = s.setLoop e (s.loops e).nextRing) ∨
    s.polling e = none ∧
      ((drainBudgetPerRing ≤ (s.loops e).drained ∧ (s.loops e).point = .draining ∧
          s' = s.setLoop e (s.loops e).nextRing) ∨
        ((ringsOf roles e).length ≤ (s.loops e).ring ∧ (s.loops e).point = .draining ∧
          s' = s.setLoop e { s.loops e with point := .loadShutdown }) ∨
        ((s.loops e).point = .loadShutdown ∧ s.shutdown = true ∧
          ((s.loops e).gotAny = false ∨ budgetSpent = true) ∧ s' = s.exitDispatcher e) ∨
        (s.loops e).point = .loadShutdown ∧ s' = s.setLoop e {}) := by
  unfold dispatcherStep at h
  dsimp only at h
  split at h
  · rename_i hpoint
    split at h
    · rename_i hring
      refine Or.inr (Or.inr ⟨?_, Or.inr (Or.inl ⟨List.getElem?_eq_none_iff.mp hring, hpoint,
        (Option.some.inj h).symm⟩)⟩)
      rw [polling, hring, ite_self]
    · rename_i i hi
      split_ifs at h with hbudget
      · have hpoll : s.polling e = some i := by
          rw [polling, if_pos ⟨hpoint, hbudget⟩, hi]
        split at h
        · rename_i hrecv
          exact Or.inr (Or.inl ⟨i, hpoll, hrecv, (Option.some.inj h).symm⟩)
        · rename_i event ring hrecv
          exact Or.inl ⟨i, event, ring, hpoll, hrecv, (Option.some.inj h).symm⟩
      · refine Or.inr (Or.inr ⟨?_, Or.inl ⟨Nat.le_of_not_lt hbudget, hpoint,
          (Option.some.inj h).symm⟩⟩)
        rw [polling, if_neg fun hp => hbudget hp.2]
  · rename_i hpoint
    have hpoll : s.polling e = none := by
      rw [polling, if_neg fun hp => by rw [hpoint] at hp; exact absurd hp.1 (by decide)]
    split_ifs at h with hexit
    · rw [Bool.and_eq_true, Bool.or_eq_true, Bool.not_eq_true'] at hexit
      exact Or.inr (Or.inr ⟨hpoll, Or.inr (Or.inr (Or.inl ⟨hpoint, hexit.1, hexit.2,
        (Option.some.inj h).symm⟩))⟩)
    · exact Or.inr (Or.inr ⟨hpoll, Or.inr (Or.inr (Or.inr ⟨hpoint,
        (Option.some.inj h).symm⟩))⟩)
  · cases h

end Pipeline

/-! ## The record -/

/-- A step of a thread of the run, or a send by anyone. -/
inductive Move (n : ℕ) where
  | thread (action : Action n)
  | send (i : Fin n) (event : Event)

/-- What a record has: a send and what it returned, a poll and what it found, the store of the
shutdown flag. -/
inductive Mark (n : ℕ) where
  | offered (i : Fin n) (event : Event) (accepted : Bool)
  | polled (i : Fin n) (found : Option Event)
  | shutdown
  deriving DecidableEq

section Record

variable {n : ℕ} (i : Fin n)

/-- The events sent into a ring. -/
def offeredOn (history : List (Mark n)) : List Event :=
  history.filterMap fun
    | .offered j event _ => if j = i then some event else none
    | _ => none

/-- The events a ring accepted. -/
def acceptedOn (history : List (Mark n)) : List Event :=
  history.filterMap fun
    | .offered j event true => if j = i then some event else none
    | _ => none

/-- The events dispatched from a ring. -/
def dispatchedOn (history : List (Mark n)) : List Event :=
  history.filterMap fun
    | .polled j (some event) => if j = i then some event else none
    | _ => none

/-- The events dispatched, with the rings they came from. -/
def dispatched (history : List (Mark n)) : List (Fin n × Event) :=
  history.filterMap fun
    | .polled j (some event) => some (j, event)
    | _ => none

theorem offeredOn_append (h h' : List (Mark n)) :
    offeredOn i (h ++ h') = offeredOn i h ++ offeredOn i h' := List.filterMap_append

theorem acceptedOn_append (h h' : List (Mark n)) :
    acceptedOn i (h ++ h') = acceptedOn i h ++ acceptedOn i h' := List.filterMap_append

theorem dispatchedOn_append (h h' : List (Mark n)) :
    dispatchedOn i (h ++ h') = dispatchedOn i h ++ dispatchedOn i h' := List.filterMap_append

theorem dispatched_append (h h' : List (Mark n)) :
    dispatched (h ++ h') = dispatched h ++ dispatched h' := List.filterMap_append

/-- What is dispatched from one ring, out of what is dispatched. -/
theorem dispatchedOn_eq (history : List (Mark n)) :
    dispatchedOn i history =
      (dispatched history).filterMap fun p => if p.1 = i then some p.2 else none := by
  rw [dispatched, List.filterMap_filterMap]
  refine List.filterMap_congr fun mark _ => ?_
  rcases mark with _ | ⟨j, _ | event⟩ | _ <;> rfl

/-- Accepted events are sent events, in the same order. -/
theorem acceptedOn_sublist (history : List (Mark n)) :
    (acceptedOn i history).Sublist (offeredOn i history) := by
  induction history with
  | nil => exact List.Sublist.slnil
  | cons mark history ih =>
    rw [← List.singleton_append, acceptedOn_append, offeredOn_append]
    refine List.Sublist.append ?_ ih
    rcases mark with ⟨j, event, _ | _⟩ | _ | _
    · exact List.nil_sublist _
    all_goals exact List.Sublist.refl _

end Record

namespace Pipeline

/-- What a move adds to the record. -/
def mark (s : Pipeline B R roles) : Move roles.length → Option (Mark roles.length)
  | .thread (.receiver i (.next (.event ts payload))) =>
    some (.offered i ⟨ts, roles.get i, payload⟩
      ((s.subs i).ring.trySend ⟨ts, roles.get i, payload⟩).1)
  | .thread (.receiver ..) => none
  | .thread (.dispatcher e _) =>
    (s.polling e).map fun i => .polled i ((s.subs i).ring.tryRecv.map Prod.fst)
  | .thread .requestShutdown => some .shutdown
  | .send i event => some (.offered i event ((s.subs i).ring.trySend event).1)

variable {s : Pipeline B R roles} {e : EndpointRole} {budgetSpent : Bool}

theorem mark_of_polling {i : Fin roles.length} (h : s.polling e = some i) :
    s.mark (.thread (.dispatcher e budgetSpent)) =
      some (.polled i ((s.subs i).ring.tryRecv.map Prod.fst)) := by
  rw [mark, h, Option.map_some]

theorem mark_of_polling_none (h : s.polling e = none) :
    s.mark (.thread (.dispatcher e budgetSpent)) = none := by
  rw [mark, h, Option.map_none]

theorem mark_receiver {i : Fin roles.length} {input : ReceiverInput}
    (h : ∀ ts payload, input ≠ .next (.event ts payload)) :
    s.mark (.thread (.receiver i input)) = none := by
  cases input with
  | next item =>
    cases item with
    | event ts payload => exact absurd rfl (h ts payload)
    | _ => rfl
  | _ => rfl

/-- A send into a ring. -/
def sendTo (s : Pipeline B R roles) (i : Fin roles.length) (event : Event) : Pipeline B R roles :=
  { s with subs := Function.update s.subs i { s.subs i with
      ring := ((s.subs i).ring.trySend event).2 } }

/-- One move. -/
def move (s : Pipeline B R roles) : Move roles.length → Option (Pipeline B R roles)
  | .thread action => s.step action
  | .send i event => some (s.sendTo i event)

end Pipeline

/-! ## One step and one ring -/

/-- A mark, or none, that says nothing of the events of a ring. -/
def Silent {n : ℕ} (i : Fin n) : Option (Mark n) → Prop
  | some (.offered j _ _) => j ≠ i
  | some (.polled j (some _)) => j ≠ i
  | _ => True

theorem Silent.logs {n : ℕ} {i : Fin n} {mark : Option (Mark n)} (h : Silent i mark) :
    offeredOn i mark.toList = [] ∧ acceptedOn i mark.toList = [] ∧
      dispatchedOn i mark.toList = [] := by
  rcases mark with _ | ⟨j, event, _ | _⟩ | ⟨j, _ | event⟩ | _
  · exact ⟨rfl, rfl, rfl⟩
  · have hj : j ≠ i := h
    simp [offeredOn, acceptedOn, dispatchedOn, hj]
  · have hj : j ≠ i := h
    simp [offeredOn, acceptedOn, dispatchedOn, hj]
  · exact ⟨rfl, rfl, rfl⟩
  · have hj : j ≠ i := h
    simp [offeredOn, acceptedOn, dispatchedOn, hj]
  · exact ⟨rfl, rfl, rfl⟩

/-- What a step that is no send into a ring, and takes no event from it, leaves of the ring. -/
structure Undisturbed (r r' : Ring) : Prop where
  queue : r'.queue = r.queue
  capacity : r'.capacity = r.capacity
  received : r'.stats.received = r.stats.received
  dropped : r'.stats.dropped = r.stats.dropped
  alive : r'.receiverAlive = true → r.receiverAlive = true

theorem Undisturbed.refl (r : Ring) : Undisturbed r r := ⟨rfl, rfl, rfl, rfl, id⟩

/-- A step of a receiver that yields no event leaves its ring undisturbed. -/
theorem undisturbed_of_step {role : SubscriptionRole} {shutdown : Bool} {s s' : Subscription}
    {input : ReceiverInput} (h : s.step role shutdown input = some s')
    (hinput : ∀ ts payload, input ≠ .next (.event ts payload)) : Undisturbed s.ring s'.ring := by
  have hcases := Subscription.step_cases h
  rcases input with _ | (text | ⟨⟨⟩⟩) | (text | ⟨⟨⟩⟩) | item | _
  · rcases hcases with ⟨-, rfl⟩ | ⟨-, rfl⟩
    · exact Undisturbed.refl _
    · exact Undisturbed.refl _
  · obtain ⟨-, rfl⟩ := hcases
    exact Undisturbed.refl _
  · obtain ⟨-, rfl⟩ := hcases
    exact Undisturbed.refl _
  · obtain ⟨-, rfl⟩ := hcases
    exact Undisturbed.refl _
  · obtain ⟨-, rfl⟩ := hcases
    exact Undisturbed.refl _
  · obtain ⟨-, rfl⟩ := hcases
    cases item with
    | event ts payload => exact absurd rfl (hinput ts payload)
    | decodeError => exact ⟨rfl, rfl, rfl, rfl, id⟩
    | status text => exact ⟨rfl, rfl, rfl, rfl, id⟩
    | _ => exact Undisturbed.refl _
  · obtain ⟨-, rfl⟩ := hcases
    exact Undisturbed.refl _

/-- An event out of the stream is a send. -/
theorem ring_of_event_step {role : SubscriptionRole} {shutdown : Bool} {s s' : Subscription}
    {ts : EventTimestamp} {payload : EventPayload}
    (h : s.step role shutdown (.next (.event ts payload)) = some s') :
    s'.ring = (s.ring.trySend ⟨ts, role, payload⟩).2 := by
  obtain ⟨-, rfl⟩ := Subscription.step_cases h
  rfl

namespace Pipeline

variable {s s' : Pipeline B R roles}

/-- A step of a receiver is a send into its ring, or leaves the rings undisturbed and unrecorded. -/
theorem ring_receiver {j : Fin roles.length} {input : ReceiverInput} {sub : Subscription}
    (h : (s.subs j).step (roles.get j) s.shutdown input = some sub) (i : Fin roles.length) :
    (∃ event, s.mark (.thread (.receiver j input)) =
        some (.offered i event ((s.subs i).ring.trySend event).1) ∧
      (Function.update s.subs j sub i).ring = ((s.subs i).ring.trySend event).2) ∨
    Silent i (s.mark (.thread (.receiver j input))) ∧
      Undisturbed (s.subs i).ring (Function.update s.subs j sub i).ring := by
  by_cases hinput : ∃ ts payload, input = .next (.event ts payload)
  · obtain ⟨ts, payload, rfl⟩ := hinput
    by_cases hj : j = i
    · subst hj
      refine Or.inl ⟨⟨ts, roles.get j, payload⟩, rfl, ?_⟩
      rw [Function.update_self, ring_of_event_step h]
    · refine Or.inr ⟨hj, ?_⟩
      rw [Function.update_of_ne (Ne.symm hj)]
      exact Undisturbed.refl _
  · have hnone : ∀ ts payload, input ≠ .next (.event ts payload) :=
      fun ts payload heq => hinput ⟨ts, payload, heq⟩
    refine Or.inr ⟨by rw [mark_receiver hnone]; exact trivial, ?_⟩
    by_cases hj : j = i
    · subst hj
      rw [Function.update_self]
      exact undisturbed_of_step h hnone
    · rw [Function.update_of_ne (Ne.symm hj)]
      exact Undisturbed.refl _

/-- A dispatcher that returns drops the receiving halves of its rings. -/
theorem undisturbed_exitDispatcher (s : Pipeline B R roles) (e : EndpointRole)
    (i : Fin roles.length) : Undisturbed (s.subs i).ring ((s.exitDispatcher e).subs i).ring := by
  unfold exitDispatcher
  dsimp only
  split_ifs
  · exact ⟨rfl, rfl, rfl, rfl, fun halive => by cases halive⟩
  · exact Undisturbed.refl _

/-- A step of a dispatcher takes an event from a ring, or leaves it undisturbed and unrecorded. -/
theorem ring_dispatcher {e : EndpointRole} {budgetSpent : Bool}
    (h : s.dispatcherStep e budgetSpent = some s') (i : Fin roles.length) :
    (∃ event ring, s.mark (.thread (.dispatcher e budgetSpent)) = some (.polled i (some event)) ∧
      (s.subs i).ring.tryRecv = some (event, ring) ∧
      (s'.subs i).ring =
        ring.withStats { ring.stats with received := ring.stats.received + 1 }) ∨
    Silent i (s.mark (.thread (.dispatcher e budgetSpent))) ∧
      Undisturbed (s.subs i).ring (s'.subs i).ring := by
  rcases dispatcherStep_spec h with ⟨j, event, ring, hpoll, hrecv, rfl⟩ |
    ⟨j, hpoll, hrecv, rfl⟩ | ⟨hpoll, hrest⟩
  · rw [mark_of_polling hpoll, hrecv]
    by_cases hj : j = i
    · subst hj
      refine Or.inl ⟨event, ring, rfl, hrecv, ?_⟩
      show (Function.update s.subs j _ j).ring = _
      rw [Function.update_self]
    · refine Or.inr ⟨hj, ?_⟩
      show Undisturbed _ (Function.update s.subs j _ i).ring
      rw [Function.update_of_ne (Ne.symm hj)]
      exact Undisturbed.refl _
  · rw [mark_of_polling hpoll, hrecv]
    exact Or.inr ⟨trivial, Undisturbed.refl _⟩
  · rw [mark_of_polling_none hpoll]
    refine Or.inr ⟨trivial, ?_⟩
    rcases hrest with ⟨-, -, rfl⟩ | ⟨-, -, rfl⟩ | ⟨-, -, -, rfl⟩ | ⟨-, rfl⟩
    · exact Undisturbed.refl _
    · exact Undisturbed.refl _
    · exact s.undisturbed_exitDispatcher e i
    · exact Undisturbed.refl _

/-- **One move and one ring.**  The move is a send into the ring, or takes an event from it, or
leaves it undisturbed and unrecorded. -/
theorem ring_move {m : Move roles.length} (h : s.move m = some s') (i : Fin roles.length) :
    (∃ event, s.mark m = some (.offered i event ((s.subs i).ring.trySend event).1) ∧
      (s'.subs i).ring = ((s.subs i).ring.trySend event).2) ∨
    (∃ event ring, s.mark m = some (.polled i (some event)) ∧
      (s.subs i).ring.tryRecv = some (event, ring) ∧
      (s'.subs i).ring =
        ring.withStats { ring.stats with received := ring.stats.received + 1 }) ∨
    Silent i (s.mark m) ∧ Undisturbed (s.subs i).ring (s'.subs i).ring := by
  cases m with
  | send j event =>
    cases h
    by_cases hj : j = i
    · subst hj
      refine Or.inl ⟨event, rfl, ?_⟩
      show (Function.update s.subs j _ j).ring = _
      rw [Function.update_self]
    · refine Or.inr (Or.inr ⟨hj, ?_⟩)
      show Undisturbed _ (Function.update s.subs j _ i).ring
      rw [Function.update_of_ne (Ne.symm hj)]
      exact Undisturbed.refl _
  | thread action =>
    cases action with
    | receiver j input =>
      obtain ⟨sub, hsub, rfl⟩ := Option.map_eq_some_iff.mp h
      exact (ring_receiver hsub i).imp_right Or.inr
    | dispatcher e budgetSpent => exact Or.inr (ring_dispatcher h i)
    | requestShutdown =>
      cases h
      exact Or.inr (Or.inr ⟨trivial, Undisturbed.refl _⟩)

/-- What one move does to the trackers. -/
theorem ingest_move {m : Move roles.length} (h : s.move m = some s') :
    s'.ingest = (dispatched (s.mark m).toList).foldl
      (fun s p => s.dispatchOn (roles.get p.1).endpoint p.2) s.ingest := by
  cases m with
  | send j event =>
    cases h
    rfl
  | thread action =>
    cases action with
    | receiver j input =>
      obtain ⟨sub, -, rfl⟩ := Option.map_eq_some_iff.mp h
      by_cases hinput : ∃ ts payload, input = .next (.event ts payload)
      · obtain ⟨ts, payload, rfl⟩ := hinput
        rfl
      · rw [mark_receiver fun ts payload heq => hinput ⟨ts, payload, heq⟩]
        rfl
    | dispatcher e budgetSpent =>
      rcases dispatcherStep_spec h with ⟨j, event, ring, hpoll, hrecv, rfl⟩ |
        ⟨j, hpoll, hrecv, rfl⟩ | ⟨hpoll, hrest⟩
      · rw [mark_of_polling hpoll, hrecv]
        show _ = s.ingest.dispatchOn (roles.get j).endpoint event
        rw [endpoint_of_polling hpoll]
        rfl
      · rw [mark_of_polling hpoll, hrecv]
        rfl
      · rw [mark_of_polling_none hpoll]
        rcases hrest with ⟨-, -, rfl⟩ | ⟨-, -, rfl⟩ | ⟨-, -, -, rfl⟩ | ⟨-, rfl⟩ <;> rfl
    | requestShutdown =>
      cases h
      rfl

end Pipeline

/-! ## Runs and their record -/

/-- A run and its record. -/
structure Traffic (B : Backend) (R : RawSink) (roles : List SubscriptionRole) where
  pipeline : Pipeline B R roles
  history : List (Mark roles.length)

namespace Traffic

/-- The threads are spawned. -/
def start (ingest : IngestState B R) (capacity : Fin roles.length → { c : ℕ // 0 < c }) :
    Traffic B R roles where
  pipeline := Pipeline.spawn ingest capacity
  history := []

/-- One move, and its mark. -/
def step (t : Traffic B R roles) (m : Move roles.length) : Option (Traffic B R roles) :=
  (t.pipeline.move m).map fun s => ⟨s, t.history ++ (t.pipeline.mark m).toList⟩

/-- A run. -/
def run (t : Traffic B R roles) (moves : List (Move roles.length)) : Option (Traffic B R roles) :=
  moves.foldlM step t

/-- The ring of a subscription. -/
def ring (t : Traffic B R roles) (i : Fin roles.length) : Ring :=
  (t.pipeline.subs i).ring

variable {t t' : Traffic B R roles}

theorem eq_of_step {m : Move roles.length} (h : t.step m = some t') :
    t.pipeline.move m = some t'.pipeline ∧
      t'.history = t.history ++ (t.pipeline.mark m).toList := by
  obtain ⟨s, hs, rfl⟩ := Option.map_eq_some_iff.mp h
  exact ⟨hs, rfl⟩

/-- A record only grows. -/
theorem history_prefix_run {moves : List (Move roles.length)} (h : t.run moves = some t') :
    t.history <+: t'.history :=
  Folds.foldlM_history (P := fun _ t' => t.history <+: t'.history) (List.prefix_refl _)
    (fun _ _ _ _ hs hstep => hs.trans ((eq_of_step hstep).2 ▸ List.prefix_append _ _)) h

/-- Every run of the threads alone has its record. -/
theorem exists_run_of_pipeline {s s' : Pipeline B R roles} {actions : List (Action roles.length)}
    (history : List (Mark roles.length)) (h : s.run actions = some s') :
    ∃ t, run ⟨s, history⟩ (actions.map .thread) = some t ∧ t.pipeline = s' := by
  induction actions generalizing s history with
  | nil => exact ⟨⟨s, history⟩, rfl, Option.some.inj h⟩
  | cons action actions ih =>
    rw [Pipeline.run, List.foldlM_cons] at h
    obtain ⟨s₁, hs₁, hrest⟩ := Option.bind_eq_some_iff.mp h
    obtain ⟨t, ht, heq⟩ := ih (history ++ (s.mark (.thread action)).toList) hrest
    refine ⟨t, ?_, heq⟩
    have hstep : step ⟨s, history⟩ (.thread action) =
        some ⟨s₁, history ++ (s.mark (.thread action)).toList⟩ := by
      rw [step, Pipeline.move, hs₁]
      rfl
    rw [List.map_cons, run, List.foldlM_cons, hstep]
    exact ht

/-! ## The account of a ring -/

/-- The account of a ring: what was dispatched and what is queued make up what was accepted; and as
long as the ring has its receiving half, what was sent and not accepted was counted as dropped. -/
structure Conserved {n : ℕ} (capacity : ℕ) (i : Fin n) (r : Ring) (history : List (Mark n)) :
    Prop where
  capacity_eq : r.capacity = capacity
  split : dispatchedOn i history ++ r.queue = acceptedOn i history
  received : r.stats.received = (dispatchedOn i history).length
  offered : r.receiverAlive = true →
    (offeredOn i history).length = (acceptedOn i history).length + r.stats.dropped

namespace Conserved

variable {n : ℕ} {capacity : ℕ} {i : Fin n} {r : Ring} {history : List (Mark n)}

/-- A send. -/
theorem send (h : Conserved capacity i r history) (event : Event) :
    Conserved capacity i (r.trySend event).2
      (history ++ [.offered i event (r.trySend event).1]) := by
  have hcapacity : (r.trySend event).2.capacity = capacity := by
    rw [Ring.capacity_trySend, h.capacity_eq]
  have hsent (b : Bool) : offeredOn i (history ++ [.offered i event b]) =
      offeredOn i history ++ [event] := by
    rw [offeredOn_append]
    simp [offeredOn]
  have hkept (b : Bool) : dispatchedOn i (history ++ [.offered i event b]) =
      dispatchedOn i history := by
    rw [dispatchedOn_append]
    exact List.append_nil _
  have hrefused : acceptedOn i (history ++ [.offered i event false]) = acceptedOn i history := by
    rw [acceptedOn_append]
    exact List.append_nil _
  rcases r.trySend_cases event with ⟨ha, -, hok, hqueue, hstats⟩ |
    ⟨ha, -, hok, hqueue, hstats⟩ | ⟨ha, heq⟩
  · have haccepted : acceptedOn i (history ++ [.offered i event true]) =
        acceptedOn i history ++ [event] := by
      rw [acceptedOn_append]
      simp [acceptedOn]
    rw [hok]
    refine ⟨hcapacity, ?_, ?_, fun _ => ?_⟩
    · rw [hkept, hqueue, haccepted, ← List.append_assoc, h.split]
    · rw [hkept, hstats, h.received]
    · rw [hsent, haccepted, hstats, List.length_append, List.length_append, h.offered ha,
        Nat.add_right_comm]
  · rw [hok]
    refine ⟨hcapacity, ?_, ?_, fun _ => ?_⟩
    · rw [hkept, hqueue, hrefused, h.split]
    · rw [hkept, hstats, h.received]
    · rw [hsent, hrefused, hstats, List.length_append, h.offered ha]
      rfl
  · rw [heq]
    refine ⟨h.capacity_eq, ?_, ?_, fun hlive => ?_⟩
    · rw [hkept, hrefused, h.split]
    · rw [hkept, h.received]
    · rw [ha] at hlive
      cases hlive

/-- An event is taken, and dispatched. -/
theorem take (h : Conserved capacity i r history) {event : Event} {ring : Ring}
    (hrecv : r.tryRecv = some (event, ring)) :
    Conserved capacity i
      (ring.withStats { ring.stats with received := ring.stats.received + 1 })
      (history ++ [.polled i (some event)]) := by
  obtain ⟨hqueue, hcapacity, hstats, halive⟩ := Ring.of_tryRecv_some hrecv
  have hsent : offeredOn i (history ++ [.polled i (some event)]) = offeredOn i history := by
    rw [offeredOn_append]
    exact List.append_nil _
  have haccepted : acceptedOn i (history ++ [.polled i (some event)]) = acceptedOn i history := by
    rw [acceptedOn_append]
    exact List.append_nil _
  have htaken : dispatchedOn i (history ++ [.polled i (some event)]) =
      dispatchedOn i history ++ [event] := by
    rw [dispatchedOn_append]
    simp [dispatchedOn]
  refine ⟨hcapacity.trans h.capacity_eq, ?_, ?_, fun hlive => ?_⟩
  · rw [htaken, haccepted, ← h.split, hqueue, Ring.queue_withStats, List.append_assoc]
    rfl
  · rw [htaken, List.length_append, Ring.stats_withStats, hstats, ← h.received]
    rfl
  · rw [hsent, haccepted, Ring.stats_withStats, hstats, h.offered (halive.symm.trans hlive)]

/-- A step that does not disturb the ring. -/
theorem idle (h : Conserved capacity i r history) {r' : Ring} (hring : Undisturbed r r')
    {mark : Option (Mark n)} (hmark : Silent i mark) :
    Conserved capacity i r' (history ++ mark.toList) := by
  obtain ⟨hoffered, haccepted, hdispatched⟩ := hmark.logs
  refine ⟨hring.capacity.trans h.capacity_eq, ?_, ?_, fun halive => ?_⟩
  · rw [dispatchedOn_append, acceptedOn_append, hdispatched, haccepted, hring.queue,
      List.append_nil, List.append_nil, h.split]
  · rw [dispatchedOn_append, hdispatched, List.append_nil, hring.received, h.received]
  · rw [offeredOn_append, acceptedOn_append, hoffered, haccepted, hring.dropped,
      List.append_nil, List.append_nil, h.offered (hring.alive halive)]

end Conserved

theorem conserved_step {m : Move roles.length} {capacity : ℕ} {i : Fin roles.length}
    (h : Conserved capacity i (t.ring i) t.history) (hstep : t.step m = some t') :
    Conserved capacity i (t'.ring i) t'.history := by
  obtain ⟨hmove, hhistory⟩ := eq_of_step hstep
  rw [hhistory]
  rcases Pipeline.ring_move hmove i with ⟨event, hmark, hring⟩ |
    ⟨event, ring, hmark, hrecv, hring⟩ | ⟨hsilent, hring⟩
  · rw [hmark, Traffic.ring, hring]
    exact h.send event
  · rw [hmark, Traffic.ring, hring]
    exact h.take hrecv
  · exact h.idle hring hsilent

variable {ingest : IngestState B R} {capacity : Fin roles.length → { c : ℕ // 0 < c }}
  {moves : List (Move roles.length)}

theorem conserved_start (ingest : IngestState B R)
    (capacity : Fin roles.length → { c : ℕ // 0 < c }) (i : Fin roles.length) :
    Conserved (capacity i).1 i ((start ingest capacity).ring i) (start ingest capacity).history :=
  ⟨rfl, rfl, rfl, fun _ => rfl⟩

/-- **The account of a ring**, at every moment of a run. -/
theorem conserved_run (h : (start ingest capacity).run moves = some t) (i : Fin roles.length) :
    Conserved (capacity i).1 i (t.ring i) t.history :=
  Folds.foldlM_history (P := fun _ t => Conserved (capacity i).1 i (t.ring i) t.history)
    (conserved_start ingest capacity i) (fun _ _ _ _ hs hstep => conserved_step hs hstep) h

/-! ## What the trackers see -/

/-- The trackers observe what the record says was dispatched, in that order. -/
theorem ingest_run (h : (start ingest capacity).run moves = some t) :
    t.pipeline.ingest = (dispatched t.history).foldl
      (fun s p => s.dispatchOn (roles.get p.1).endpoint p.2) ingest := by
  refine Folds.foldlM_history (P := fun _ (t : Traffic B R roles) =>
    t.pipeline.ingest = (dispatched t.history).foldl
      (fun s p => s.dispatchOn (roles.get p.1).endpoint p.2) ingest)
    rfl (fun past t m t' hs hstep => ?_) h
  obtain ⟨hmove, hhistory⟩ := eq_of_step hstep
  rw [hhistory, dispatched_append, List.foldl_append, ← hs]
  exact Pipeline.ingest_move hmove

/-- **Order and conservation.**  At every moment of a run, for every ring: the events dispatched
from it are those the trackers have seen, and they and the events in its queue are the events it
accepted, in the order in which they were sent.  As long as the ring has its receiving half, every
event sent is dispatched, queued or counted as dropped; no more than its capacity are queued; and a
send is refused only when as many are. -/
theorem conservation (h : (start ingest capacity).run moves = some t) (i : Fin roles.length)
    (halive : (t.ring i).receiverAlive = true) :
    t.pipeline.ingest = (dispatched t.history).foldl
      (fun s p => s.dispatchOn (roles.get p.1).endpoint p.2) ingest ∧
    dispatchedOn i t.history ++ (t.ring i).queue = acceptedOn i t.history ∧
    (acceptedOn i t.history).Sublist (offeredOn i t.history) ∧
    (offeredOn i t.history).length =
      (dispatchedOn i t.history).length + (t.ring i).queue.length + (t.ring i).stats.dropped ∧
    (t.ring i).queue.length ≤ (capacity i).1 ∧
    ∀ event, ((t.ring i).trySend event).1 = false → (t.ring i).queue.length = (capacity i).1 := by
  have hc := conserved_run h i
  have hlength := congrArg List.length hc.split
  rw [List.length_append] at hlength
  refine ⟨ingest_run h, hc.split, acceptedOn_sublist i t.history, ?_, ?_, fun event hrefused => ?_⟩
  · rw [hc.offered halive, hlength]
  · rw [← hc.capacity_eq]
    exact (t.ring i).length_le
  · rcases (t.ring i).trySend_cases event with ⟨-, -, hok, -⟩ | ⟨-, hfull, -⟩ | ⟨hgone, -⟩
    · rw [hok] at hrefused
      cases hrefused
    · rw [hfull, hc.capacity_eq]
    · rw [hgone] at halive
      cases halive

/-- A ring of capacity `1`: the second of two sends is refused, and after the first event has been
dispatched a third send is accepted. -/
theorem conservation_refused_send :
    let roles : List SubscriptionRole := [.main .one .processed .slots]
    let i : Fin roles.length := ⟨0, by decide⟩
    let event : UInt64 → Event := fun slot => ⟨⟨slot, 0⟩, roles.get i, .slot slot .processed⟩
    ∃ t : Traffic Backend.exact ⟨Unit, fun _ _ => ()⟩ roles,
      (start (IngestState.start Backend.exact ∅ false none) fun _ => ⟨1, Nat.zero_lt_one⟩).run
        [.send i (event 4), .send i (event 5), .thread (.dispatcher .one false),
          .send i (event 6)] = some t ∧
      acceptedOn i t.history = [event 4, event 6] ∧
      dispatchedOn i t.history ++ (t.ring i).queue = acceptedOn i t.history ∧
      (offeredOn i t.history).length =
        (dispatchedOn i t.history).length + (t.ring i).queue.length + (t.ring i).stats.dropped := by
  intro roles i event
  have hrun : (((start (B := Backend.exact) (R := ⟨Unit, fun _ _ => ()⟩)
      (IngestState.start Backend.exact ∅ false none) fun _ => ⟨1, Nat.zero_lt_one⟩).run
        [.send i (event 4), .send i (event 5), .thread (.dispatcher .one false),
          .send i (event 6)]).map fun t => ((t.ring i).receiverAlive, acceptedOn i t.history)) =
      some (true, [event 4, event 6]) := by decide
  obtain ⟨t, ht, hval⟩ := Option.map_eq_some_iff.mp hrun
  have hc := conservation ht i (congrArg Prod.fst hval)
  exact ⟨t, ht, congrArg Prod.snd hval, hc.2.1, hc.2.2.2.1⟩

end Traffic

end GrpcBench
