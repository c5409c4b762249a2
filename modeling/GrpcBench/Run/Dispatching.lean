import GrpcBench.Run.Dispatched
import GrpcBench.Run.Ledger

/-!
# Dispatches that overlap

`Pipeline` has a dispatch as one step.  In the source the lock of a matcher is released before that
of the raw-record writer is taken, so between the parts of a dispatch by one dispatcher there can be
parts of dispatches by the other, and the writer may get the events in another order than the
matchers.  Here each part is a step of its own.

Nothing but the raw records is lost by the coarser steps.  Each dispatcher takes its events one at a
time, so all parts get the events of one endpoint in the same order; and once no dispatch is under
way, matchers, trackers and counters are those of whole dispatches.

* `Dispatching.step`: the steps, and `exists_run_of_pipeline`: the runs of `Pipeline` are among
  their runs.
* `Explained`, `Explained.step`: what each part has had, and what it still has to get.
* `Dispatching.idle_run`: the end of a run.
-/

namespace GrpcBench

variable {B : Backend} {R : RawSink} {roles : List SubscriptionRole}

/-! ## What is due -/

namespace DispatchPart

/-- The place of a part. -/
def index : DispatchPart → ℕ
  | .matchers => 0
  | .trackers => 1
  | .rawWriter => 2
  | .counters => 3

/-- The part that comes next. -/
def next : DispatchPart → Option DispatchPart
  | .matchers => some .trackers
  | .trackers => some .rawWriter
  | .rawWriter => some .counters
  | .counters => none

/-- What a part still has to get of the dispatch under way. -/
def due (part : DispatchPart) : Option (DispatchPart × Event) → List Event
  | some (q, event) => if q.index ≤ part.index then [event] else []
  | none => []

theorem due_matchers (part : DispatchPart) (event : Event) :
    part.due (some (.matchers, event)) = [event] := by
  cases part <;> rfl

/-- A part that has got the event is due nothing, and the others what they were. -/
theorem due_next (part q : DispatchPart) (event : Event) :
    part.due (some (q, event)) =
      (if part = q then [event] else []) ++ part.due (q.next.map (·, event)) := by
  cases part <;> cases q <;> rfl

end DispatchPart

/-! ## The steps -/

namespace Pipeline

/-- The threads, with another ingest state. -/
def withIngest (s : Pipeline B R roles) (ingest : IngestState B R) : Pipeline B R roles :=
  { s with ingest := ingest }

/-- The event that the next step of a dispatcher takes. -/
def taken (s : Pipeline B R roles) (e : EndpointRole) : Option Event :=
  (s.polling e).bind fun i => (s.subs i).ring.tryRecv.map Prod.fst

variable {s s' : Pipeline B R roles} {e : EndpointRole} {budgetSpent : Bool}

/-- What a dispatcher does next does not depend on the ingest state. -/
theorem dispatcherStep_withIngest (s : Pipeline B R roles) (ingest ingest' : IngestState B R)
    (budgetSpent : Bool) :
    ((s.withIngest ingest).dispatcherStep e budgetSpent).map (withIngest · ingest') =
      (s.dispatcherStep e budgetSpent).map (withIngest · ingest') := by
  obtain ⟨subs, loops, own, shutdown⟩ := s
  rw [withIngest]
  unfold dispatcherStep
  dsimp only
  split
  · split
    · rfl
    · split_ifs
      · split <;> rfl
      · rfl
  · split_ifs <;> rfl
  · rfl

/-- Threads that differ in the ingest state take the same steps. -/
theorem step_of_withIngest {ingest : IngestState B R} {t : Pipeline B R roles}
    (heq : t.withIngest ingest = s) {action : Action roles.length} (h : s.step action = some s') :
    ∃ t', t.step action = some t' ∧ ∀ x, t'.withIngest x = s'.withIngest x := by
  subst heq
  cases action with
  | receiver i input =>
    obtain ⟨sub, hsub, rfl⟩ := Option.map_eq_some_iff.mp h
    refine ⟨{ t with subs := Function.update t.subs i sub }, ?_, fun x => rfl⟩
    exact Option.map_eq_some_iff.mpr ⟨sub, hsub, rfl⟩
  | dispatcher e budgetSpent =>
    have hmap := t.dispatcherStep_withIngest (e := e) ingest ingest budgetSpent
    have hstep : (t.withIngest ingest).dispatcherStep e budgetSpent = some s' := h
    rw [hstep, Option.map_some] at hmap
    obtain ⟨t', ht', heq⟩ := Option.map_eq_some_iff.mp hmap.symm
    refine ⟨t', ht', fun x => ?_⟩
    have hother := congrArg (withIngest · x) heq
    exact hother
  | requestShutdown =>
    cases h
    exact ⟨_, rfl, fun x => rfl⟩

/-- A step of a dispatcher leaves the ingest state alone, or dispatches the event it takes. -/
theorem of_taken (h : s.dispatcherStep e budgetSpent = some s') :
    s.taken e = none ∧ s'.ingest = s.ingest ∨
      ∃ event, s.taken e = some event ∧ s'.ingest = s.ingest.dispatchOn e event := by
  rcases dispatcherStep_spec h with ⟨i, event, ring, hpoll, hrecv, rfl⟩ | ⟨i, hpoll, hrecv, rfl⟩ |
    ⟨hpoll, hcases⟩
  · refine Or.inr ⟨event, ?_, rfl⟩
    rw [taken, hpoll, Option.bind_some, hrecv]
    rfl
  · refine Or.inl ⟨?_, rfl⟩
    rw [taken, hpoll, Option.bind_some, hrecv]
    rfl
  · refine Or.inl ⟨by rw [taken, hpoll]; rfl, ?_⟩
    rcases hcases with ⟨-, -, rfl⟩ | ⟨-, -, rfl⟩ | ⟨-, -, -, rfl⟩ | ⟨-, rfl⟩ <;> rfl

/-- The mark of a step that takes an event. -/
theorem mark_of_taken (s : Pipeline B R roles) (e : EndpointRole) (budgetSpent : Bool) :
    (dispatched (s.mark (.thread (.dispatcher e budgetSpent))).toList).map Prod.snd =
      (s.taken e).toList := by
  rw [mark, taken]
  rcases s.polling e with _ | i
  · rfl
  · rw [Option.map_some, Option.bind_some]
    rcases (s.subs i).ring.tryRecv with _ | ⟨event, ring⟩ <;> rfl

end Pipeline

/-- The threads of a run, and the dispatches that are under way: what each dispatcher has to do
next, with which event. -/
structure Dispatching (B : Backend) (R : RawSink) (roles : List SubscriptionRole) where
  pipeline : Pipeline B R roles
  underWay : EndpointRole → Option (DispatchPart × Event)

namespace Dispatching

/-- The threads as they are spawned. -/
def spawn (ingest : IngestState B R) (capacity : Fin roles.length → { c : ℕ // 0 < c }) :
    Dispatching B R roles :=
  ⟨.spawn ingest capacity, fun _ => none⟩

/-- One step of a thread.  A dispatcher that has taken an event does one part of its dispatch. -/
def step (d : Dispatching B R roles) : Action roles.length → Option (Dispatching B R roles)
  | .dispatcher e budgetSpent =>
    match d.underWay e with
    | none =>
      (d.pipeline.dispatcherStep e budgetSpent).map fun s =>
        { pipeline := s.withIngest d.pipeline.ingest
          underWay := Function.update d.underWay e
            ((d.pipeline.taken e).map (DispatchPart.matchers, ·)) }
    | some (part, event) =>
      some
        { pipeline := d.pipeline.withIngest (d.pipeline.ingest.perform e event part)
          underWay := Function.update d.underWay e (part.next.map (·, event)) }
  | .receiver i input =>
    (d.pipeline.step (.receiver i input)).map fun s => { d with pipeline := s }
  | .requestShutdown =>
    (d.pipeline.step .requestShutdown).map fun s => { d with pipeline := s }

/-- A run of the threads. -/
def run (d : Dispatching B R roles) (actions : List (Action roles.length)) :
    Option (Dispatching B R roles) :=
  actions.foldlM step d

theorem run_cons {d d' : Dispatching B R roles} {action : Action roles.length}
    {actions : List (Action roles.length)} (h : d.run (action :: actions) = some d') :
    ∃ d₁, d.step action = some d₁ ∧ d₁.run actions = some d' := by
  rw [run, List.foldlM_cons] at h
  exact Option.bind_eq_some_iff.mp h

/-- A dispatcher in a dispatch does the next part. -/
theorem step_of_underWay {d : Dispatching B R roles} {e : EndpointRole} {part : DispatchPart}
    {event : Event} (h : d.underWay e = some (part, event)) (budgetSpent : Bool) :
    d.step (.dispatcher e budgetSpent) = some
      { pipeline := d.pipeline.withIngest (d.pipeline.ingest.perform e event part)
        underWay := Function.update d.underWay e (part.next.map (·, event)) } := by
  rw [step, h]

/-- A dispatcher in no dispatch goes on with its loop. -/
theorem step_of_idle {d : Dispatching B R roles} {e : EndpointRole} (h : d.underWay e = none)
    (budgetSpent : Bool) : d.step (.dispatcher e budgetSpent) =
      (d.pipeline.dispatcherStep e budgetSpent).map fun s =>
        { pipeline := s.withIngest d.pipeline.ingest
          underWay := Function.update d.underWay e
            ((d.pipeline.taken e).map (DispatchPart.matchers, ·)) } := by
  rw [step, h]

/-! ## Whole dispatches -/

/-- The parts of a dispatch with no other step in between. -/
theorem run_parts {d : Dispatching B R roles} {e : EndpointRole} {event : Event}
    (h : d.underWay e = some (.matchers, event)) (budgetSpent : Bool) :
    d.run (List.replicate 4 (.dispatcher e budgetSpent)) = some
      { pipeline := d.pipeline.withIngest (d.pipeline.ingest.dispatchOn e event)
        underWay := Function.update d.underWay e none } := by
  have hnext : ∀ (ingest : IngestState B R) (part : DispatchPart),
      (⟨d.pipeline.withIngest ingest, Function.update d.underWay e (some (part, event))⟩ :
          Dispatching B R roles).step (.dispatcher e budgetSpent) =
        some ⟨d.pipeline.withIngest (ingest.perform e event part),
          Function.update d.underWay e (part.next.map (·, event))⟩ := by
    intro ingest part
    have hway : Function.update d.underWay e (some (part, event)) e = some (part, event) :=
      Function.update_self ..
    rw [step_of_underWay hway, Function.update_idem]
    rfl
  rw [run, List.replicate_succ, List.foldlM_cons, step_of_underWay h]
  show List.foldlM step _ _ = _
  rw [DispatchPart.next, Option.map_some, List.replicate_succ, List.foldlM_cons, hnext]
  show List.foldlM step _ _ = _
  rw [DispatchPart.next, Option.map_some, List.replicate_succ, List.foldlM_cons, hnext]
  show List.foldlM step _ _ = _
  rw [DispatchPart.next, Option.map_some, List.replicate_succ, List.foldlM_cons, hnext,
    IngestState.perform_all]
  rfl

/-- A step of `Pipeline` is a run in which no other dispatch is under way. -/
theorem exists_run_of_step {s s' : Pipeline B R roles} {action : Action roles.length}
    (h : s.step action = some s') :
    ∃ actions, (⟨s, fun _ => none⟩ : Dispatching B R roles).run actions =
      some ⟨s', fun _ => none⟩ := by
  cases action with
  | receiver i input =>
    refine ⟨[.receiver i input], ?_⟩
    rw [run, List.foldlM_cons, step, h]
    rfl
  | requestShutdown =>
    refine ⟨[.requestShutdown], ?_⟩
    rw [run, List.foldlM_cons, step, h]
    rfl
  | dispatcher e budgetSpent =>
    have hstep : s.dispatcherStep e budgetSpent = some s' := h
    have hidle := step_of_idle (d := (⟨s, fun _ => none⟩ : Dispatching B R roles)) (e := e) rfl
      budgetSpent
    rw [hstep, Option.map_some] at hidle
    rcases Pipeline.of_taken hstep with ⟨hnone, hsame⟩ | ⟨event, hsome, hingest⟩
    · refine ⟨[.dispatcher e budgetSpent], ?_⟩
      rw [run, List.foldlM_cons, hidle]
      dsimp only
      rw [hnone, Option.map_none, Function.update_eq_self_iff.mpr rfl, ← hsame]
      rfl
    · refine ⟨.dispatcher e budgetSpent :: List.replicate 4 (.dispatcher e budgetSpent), ?_⟩
      rw [run, List.foldlM_cons, hidle]
      dsimp only
      rw [hsome, Option.map_some]
      have hway : Function.update (fun _ : EndpointRole => none) e
          (some (DispatchPart.matchers, event)) e = some (DispatchPart.matchers, event) :=
        Function.update_self ..
      refine (run_parts hway budgetSpent).trans ?_
      rw [Function.update_idem, Function.update_eq_self_iff.mpr rfl]
      show some (⟨s'.withIngest (s.ingest.dispatchOn e event), _⟩ : Dispatching B R roles) = _
      rw [← hingest]
      rfl

/-- **The runs of `Pipeline`** are runs in which the dispatches do not overlap. -/
theorem exists_run_of_pipeline {s s' : Pipeline B R roles} {actions : List (Action roles.length)}
    (h : s.run actions = some s') :
    ∃ actions', (⟨s, fun _ => none⟩ : Dispatching B R roles).run actions' =
      some ⟨s', fun _ => none⟩ := by
  induction actions generalizing s with
  | nil =>
    cases h
    exact ⟨[], rfl⟩
  | cons action actions ih =>
    rw [Pipeline.run, List.foldlM_cons] at h
    obtain ⟨s₁, hstep, hrest⟩ := Option.bind_eq_some_iff.mp h
    obtain ⟨first, hfirst⟩ := exists_run_of_step hstep
    obtain ⟨last, hlast⟩ := ih hrest
    refine ⟨first ++ last, ?_⟩
    rw [run, List.foldlM_append]
    exact Option.bind_eq_some_iff.mpr ⟨_, hfirst, hlast⟩

end Dispatching

/-! ## What each part has had -/

/-- What each part of the ingest state has had: the events taken from the rings, as the record of
the threads has them, up to those of the dispatches under way. -/
structure Explained (ingest : IngestState B R) (capacity : Fin roles.length → { c : ℕ // 0 < c })
    (d : Dispatching B R roles) (t : Traffic B R roles) (log : PartLog) : Prop where
  run : ∃ actions : List (Action roles.length),
    (Traffic.start ingest capacity).run (actions.map .thread) = some t
  pipeline : t.pipeline.withIngest d.pipeline.ingest = d.pipeline
  ledger : Ledger ingest d.pipeline.ingest log
  own : ∀ e part event, d.underWay e = some (part, event) → event.endpoint = e
  parts : ∀ e part, ownEvents e ((dispatched t.history).map Prod.snd) =
    log.had e part ++ part.due (d.underWay e)

namespace Explained

variable {ingest : IngestState B R} {capacity : Fin roles.length → { c : ℕ // 0 < c }}
  {d d' : Dispatching B R roles} {t : Traffic B R roles} {log : PartLog}

theorem spawn (ingest : IngestState B R) (capacity : Fin roles.length → { c : ℕ // 0 < c }) :
    Explained ingest capacity (.spawn ingest capacity) (.start ingest capacity) {} where
  run := ⟨[], rfl⟩
  pipeline := rfl
  ledger := .refl ingest
  own _ _ _ h := by cases h
  parts e part := by cases part <;> rfl

/-- The record of the threads goes on. -/
theorem exists_step (h : Explained ingest capacity d t log) {action : Action roles.length}
    {s : Pipeline B R roles} (hstep : d.pipeline.step action = some s) :
    ∃ t' : Traffic B R roles,
      (∃ actions : List (Action roles.length),
        (Traffic.start ingest capacity).run (actions.map .thread) = some t') ∧
      (∀ x, t'.pipeline.withIngest x = s.withIngest x) ∧
      t'.history = t.history ++ (d.pipeline.mark (.thread action)).toList := by
  obtain ⟨s₁, hs₁, heq⟩ := Pipeline.step_of_withIngest h.pipeline hstep
  obtain ⟨actions, hrun⟩ := h.run
  have hmark : d.pipeline.mark (.thread action) = t.pipeline.mark (.thread action) := by
    rw [← h.pipeline]
    cases action <;> rfl
  refine ⟨⟨s₁, t.history ++ (t.pipeline.mark (.thread action)).toList⟩, ⟨actions ++ [action], ?_⟩,
    heq, by rw [hmark]⟩
  rw [List.map_append, Traffic.run, List.foldlM_append]
  refine Option.bind_eq_some_iff.mpr ⟨t, hrun, ?_⟩
  rw [List.map_singleton, List.foldlM_cons, Traffic.step, Pipeline.move, hs₁]
  rfl

/-- A part of a dispatch. -/
theorem part (h : Explained ingest capacity d t log) {e : EndpointRole} {q : DispatchPart}
    {event : Event} (hway : d.underWay e = some (q, event)) :
    Explained ingest capacity
      { pipeline := d.pipeline.withIngest (d.pipeline.ingest.perform e event q)
        underWay := Function.update d.underWay e (q.next.map (·, event)) } t
      (log.add e event q) where
  run := h.run
  pipeline := by
    rw [← h.pipeline]
    rfl
  ledger := h.ledger.perform (h.own e q event hway) q
  own f part event' hf := by
    dsimp only at hf
    by_cases hfe : f = e
    · subst hfe
      rw [Function.update_self] at hf
      obtain ⟨q', -, heq⟩ := Option.map_eq_some_iff.mp hf
      cases heq
      exact h.own f q event hway
    · rw [Function.update_of_ne hfe] at hf
      exact h.own f part event' hf
  parts f part := by
    rw [log.had_add (h.own e q event hway), h.parts f part, List.append_assoc]
    refine congrArg _ ?_
    dsimp only
    by_cases hfe : f = e
    · subst hfe
      rw [hway, Function.update_self, DispatchPart.due_next]
      simp
    · rw [Function.update_of_ne hfe, if_neg fun hc => hfe hc.1, List.nil_append]

/-- An event that a dispatcher takes is of its endpoint. -/
theorem endpoint_of_taken (h : Explained ingest capacity d t log) {e : EndpointRole}
    {budgetSpent : Bool} {s : Pipeline B R roles}
    (hstep : d.pipeline.dispatcherStep e budgetSpent = some s) {event : Event}
    (htaken : d.pipeline.taken e = some event) : event.endpoint = e := by
  have hmove : d.pipeline.step (.dispatcher e budgetSpent) = some s := hstep
  obtain ⟨t', ⟨actions, hrun⟩, -, hhistory⟩ := h.exists_step hmove
  obtain ⟨i, hpoll, hrecv⟩ := Option.bind_eq_some_iff.mp htaken
  have hmem : (i, event) ∈ dispatched t'.history := by
    rw [hhistory, Pipeline.mark_of_polling hpoll, hrecv, dispatched_append]
    exact List.mem_append_right _ (List.mem_singleton_self _)
  have hrole := Traffic.subscription_of_mem_dispatched hrun hmem
  rw [Event.endpoint, hrole]
  exact Pipeline.endpoint_of_polling hpoll

/-- A dispatcher goes on with its loop, and may take an event. -/
theorem loop (h : Explained ingest capacity d t log) {e : EndpointRole} {budgetSpent : Bool}
    (hidle : d.underWay e = none) {s : Pipeline B R roles}
    (hstep : d.pipeline.dispatcherStep e budgetSpent = some s) :
    ∃ t', Explained ingest capacity
      { pipeline := s.withIngest d.pipeline.ingest
        underWay := Function.update d.underWay e
          ((d.pipeline.taken e).map (DispatchPart.matchers, ·)) } t' log := by
  have hown : ∀ event, d.pipeline.taken e = some event → event.endpoint = e := fun event =>
    h.endpoint_of_taken hstep
  have hmove : d.pipeline.step (.dispatcher e budgetSpent) = some s := hstep
  obtain ⟨t', hrun, hpipeline, hhistory⟩ := h.exists_step hmove
  refine ⟨t', hrun, hpipeline _, h.ledger, fun f part event hf => ?_, fun f part => ?_⟩
  · dsimp only at hf
    by_cases hfe : f = e
    · subst hfe
      rw [Function.update_self] at hf
      obtain ⟨event', htaken, heq⟩ := Option.map_eq_some_iff.mp hf
      cases heq
      exact hown _ htaken
    · rw [Function.update_of_ne hfe] at hf
      exact h.own f part event hf
  · rw [hhistory, dispatched_append, List.map_append, ownEvents_append, h.parts f part,
      Pipeline.mark_of_taken, List.append_assoc]
    refine congrArg _ ?_
    dsimp only
    rcases htaken : d.pipeline.taken e with _ | event
    · rw [Option.map_none, Function.update_eq_self_iff.mpr hidle.symm]
      exact List.append_nil _
    · have he := hown event htaken
      rw [Option.map_some, Option.toList_some, ownEvents_singleton, he]
      by_cases hfe : f = e
      · subst hfe
        rw [hidle, Function.update_self, DispatchPart.due_matchers, if_pos rfl]
        rfl
      · rw [Function.update_of_ne hfe, if_neg (Ne.symm hfe), List.append_nil]

/-- A step that is no dispatcher's. -/
theorem other (h : Explained ingest capacity d t log) {action : Action roles.length}
    {s : Pipeline B R roles} (hstep : d.pipeline.step action = some s)
    (hingest : s.ingest = d.pipeline.ingest)
    (hmark : dispatched (d.pipeline.mark (.thread action)).toList = []) :
    ∃ t', Explained ingest capacity { d with pipeline := s } t' log := by
  obtain ⟨t', hrun, hpipeline, hhistory⟩ := h.exists_step hstep
  refine ⟨t', hrun, (hpipeline s.ingest).trans rfl, by rw [hingest]; exact h.ledger, h.own,
    fun f part => ?_⟩
  rw [hhistory, dispatched_append, hmark, List.append_nil]
  exact h.parts f part

/-- **One step.** -/
theorem step (h : Explained ingest capacity d t log) {action : Action roles.length}
    (hstep : d.step action = some d') : ∃ t' log', Explained ingest capacity d' t' log' := by
  cases action with
  | receiver i input =>
    obtain ⟨s, hs, rfl⟩ := Option.map_eq_some_iff.mp hstep
    obtain ⟨sub, -, hsub⟩ := Option.map_eq_some_iff.mp hs
    have hmark : dispatched (d.pipeline.mark (.thread (.receiver i input))).toList = [] := by
      by_cases hinput : ∃ ts payload, input = .next (.event ts payload)
      · obtain ⟨ts, payload, rfl⟩ := hinput
        rfl
      · rw [Pipeline.mark_receiver fun ts payload heq => hinput ⟨ts, payload, heq⟩]
        rfl
    obtain ⟨t', ht'⟩ := h.other hs (by rw [← hsub]) hmark
    exact ⟨t', log, ht'⟩
  | requestShutdown =>
    cases hstep
    have hmove : d.pipeline.step .requestShutdown =
        some { d.pipeline with shutdown := true } := rfl
    obtain ⟨t', ht'⟩ := h.other hmove rfl rfl
    exact ⟨t', log, ht'⟩
  | dispatcher e budgetSpent =>
    rcases hway : d.underWay e with _ | ⟨part, event⟩
    · rw [Dispatching.step_of_idle hway] at hstep
      obtain ⟨s, hs, rfl⟩ := Option.map_eq_some_iff.mp hstep
      obtain ⟨t', ht'⟩ := h.loop hway hs
      exact ⟨t', log, ht'⟩
    · rw [Dispatching.step_of_underWay hway] at hstep
      cases hstep
      exact ⟨t, _, h.part hway⟩

/-- **Runs.** -/
theorem of_run (h : Explained ingest capacity d t log) {actions : List (Action roles.length)}
    (hrun : d.run actions = some d') : ∃ t' log', Explained ingest capacity d' t' log' := by
  induction actions generalizing d t log with
  | nil =>
    cases hrun
    exact ⟨t, log, h⟩
  | cons action actions ih =>
    obtain ⟨d₁, hstep, hrest⟩ := Dispatching.run_cons hrun
    obtain ⟨t', log', h'⟩ := h.step hstep
    exact ih h' hrest

end Explained

/-- **The end of a run.**  With no dispatch under way, the matchers, trackers and counters are those
of whole dispatches, in the order in which the matchers have observed the events; the writer was
given the same events, in an order that agrees with that one on the events of each endpoint.  Every
event carries the role of a subscription. -/
theorem Dispatching.idle_run {ingest : IngestState B R}
    {capacity : Fin roles.length → { c : ℕ // 0 < c }} {d : Dispatching B R roles}
    {actions : List (Action roles.length)}
    (h : (Dispatching.spawn ingest capacity).run actions = some d)
    (hidle : ∀ e, d.underWay e = none) :
    ∃ observed written,
      d.pipeline.ingest.withoutWriter = ingest.withoutWriter.ingestAll observed ∧
      d.pipeline.ingest.shared.rawWriter =
        ingest.shared.rawWriter.map (fun w => written.foldl R.write w) ∧
      (∀ e, ownEvents e observed = ownEvents e written) ∧
      ∀ event ∈ written, ∃ i, event.subscription = roles.get i := by
  obtain ⟨t, log, hexp⟩ := (Explained.spawn ingest capacity).of_run h
  have hparts : ∀ e part, log.had e part =
      ownEvents e ((dispatched t.history).map Prod.snd) := by
    intro e part
    rw [hexp.parts e part, hidle e]
    exact (List.append_nil _).symm
  refine ⟨log.observed, log.written, hexp.ledger.withoutWriter_eq fun e part =>
    (hparts e part).trans (hparts e .matchers).symm, hexp.ledger.rawWriter,
    fun e => (hparts e .matchers).trans (hparts e .rawWriter).symm, fun event hevent => ?_⟩
  have hmem : event ∈ ownEvents event.endpoint log.written :=
    List.mem_filter.mpr ⟨hevent, decide_eq_true rfl⟩
  have hhad : ownEvents event.endpoint log.written =
      ownEvents event.endpoint ((dispatched t.history).map Prod.snd) :=
    hparts event.endpoint .rawWriter
  rw [hhad] at hmem
  obtain ⟨p, hp, rfl⟩ := List.mem_map.mp (List.mem_of_mem_filter hmem)
  obtain ⟨actions', hrun⟩ := hexp.run
  exact ⟨p.1, Traffic.subscription_of_mem_dispatched hrun hp⟩

end GrpcBench
