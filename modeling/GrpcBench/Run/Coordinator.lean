import GrpcBench.Run.Consistency
import GrpcBench.Run.Drain
import GrpcBench.Run.GiveUp
import GrpcBench.Run.Slots

/-!
# The coordinator

`run.rs`: the thread of `execute` itself, once the others are spawned.  It watches the shutdown
flag, the stop condition and the receivers, and stores the flag; then it waits for the dispatchers,
takes their results, waits for the receivers, and reads the counters.  The signal handler stores the
flag too.  Each of its looks at the threads is a step of its own, and the threads go on in between.

A wait ends when the threads have finished, or when its time is up.  That all receivers have
finished is one look, as a handle that has finished stays so.  For the mutex of the raw-records
writer there is no time limit: a dispatcher in the middle of a write holds it.  What the flush does
to the writer, and the snapshots that the loop logs, are not part of the system.

* `System.step`, `System.run`: the runs of the threads, the coordinator and the signal.
* `System.endOfRun_of`: the moments of a report come in the order that `EndOfRun.Of` asks for.
* `System.ends_for_a_reason`: nothing ends a run but a signal, the stop condition, or the exit of
  all receivers.
* `System.finishes_within`: once the flag is set the coordinator comes to its end.
-/

namespace GrpcBench

variable {B : Backend} {R : RawSink} {roles : List SubscriptionRole}

/-! ## The coordinator's looks -/

/-- A look of the coordinator at the threads. -/
inductive Look (n : ℕ) where
  /-- `reclaim_dispatcher`. -/
  | reclaim (e : EndpointRole)
  /-- The load of the slot counter. -/
  | count
  /-- A ring's statistics, in `compute_capture_totals`. -/
  | capture (i : Fin n)
  /-- A ring's statistics, in `compute_dropped_totals`. -/
  | drop (i : Fin n)
  /-- `Arc::try_unwrap`. -/
  | unwrap
  deriving DecidableEq

/-- What the coordinator does once the flag is set. -/
inductive Task (n : ℕ) where
  | awaitDispatchers
  | awaitReceivers
  /-- The final flush of the raw-records writer, under its mutex. -/
  | flushRaw
  /-- `std::fs::write` of the report. -/
  | writeOutput
  | look (l : Look n)
  deriving DecidableEq

/-- The tasks, in the order of the source. -/
def Task.all (n : ℕ) : List (Task n) :=
  [.awaitDispatchers, .look (.reclaim .one), .look (.reclaim .two), .awaitReceivers, .flushRaw,
      .look .count] ++
    (List.finRange n).map (fun i => .look (.capture i)) ++
    (List.finRange n).map (fun i => .look (.drop i)) ++ [.look .unwrap, .writeOutput]

/-- The looks among some tasks. -/
def looks {n : ℕ} (tasks : List (Task n)) : List (Look n) :=
  tasks.filterMap fun
    | .look l => some l
    | _ => none

namespace EndOfRun

/-- The threads, as a look has seen them. -/
def moment (r : EndOfRun B R roles) : Look roles.length → Pipeline B R roles
  | .reclaim e => r.reclaimed e
  | .count => r.counted
  | .capture i => r.captured i
  | .drop i => r.dropped i
  | .unwrap => r.unwrapped

/-- A look sees the threads. -/
def see (r : EndOfRun B R roles) (s : Pipeline B R roles) : Look roles.length → EndOfRun B R roles
  | .reclaim e => { r with reclaimed := Function.update r.reclaimed e s }
  | .count => { r with counted := s }
  | .capture i => { r with captured := Function.update r.captured i s }
  | .drop i => { r with dropped := Function.update r.dropped i s }
  | .unwrap => { r with unwrapped := s }

theorem moment_see (r : EndOfRun B R roles) (s : Pipeline B R roles) (l : Look roles.length) :
    (r.see s l).moment = Function.update r.moment l s := by
  funext l'
  cases l <;> cases l' <;> simp [see, moment, Function.update_apply]

end EndOfRun

/-! ## The system -/

/-- Where the coordinator is. -/
inductive CoordinatorPoint (n : ℕ) where
  /-- Head of the loop, before the load of the flag. -/
  | head
  | stopCheck
  | receiverCheck
  /-- Before the store of the flag. -/
  | store
  | ending (ahead : List (Task n))
  /-- `execute` has panicked at a poisoned mutex, or returned the error of a failed write. -/
  | failed
  deriving DecidableEq

/-- What the coordinator meets. -/
inductive CoordinatorInput where
  | loadShutdown
  /-- `should_stop`, with the time since the start. -/
  | checkStop (elapsedNs : ℕ)
  | checkReceivers
  | storeShutdown
  /-- The next task; the flag says whether the time of a wait is up. -/
  | perform (timeUp : Bool)
  /-- The mutex of the raw-records writer is free, and may be poisoned. -/
  | lockRawWriter (poisoned : Bool)
  /-- The file is written, or cannot be. -/
  | writeOutput (written : Bool)
  deriving DecidableEq

/-- One step of the system. -/
inductive SystemAction (n : ℕ) where
  | receiver (i : Fin n) (input : ReceiverInput)
  | dispatcher (e : EndpointRole) (budgetSpent : Bool)
  /-- `SIGINT`. -/
  | signal
  | coordinator (input : CoordinatorInput)

/-- The step of a thread or of the signal handler. -/
def SystemAction.thread {n : ℕ} : SystemAction n → Option (Action n)
  | .receiver i input => some (.receiver i input)
  | .dispatcher e budgetSpent => some (.dispatcher e budgetSpent)
  | .signal => some .requestShutdown
  | .coordinator _ => none

/-- `handles.iter().all(JoinHandle::is_finished)`. -/
def Pipeline.receiversExited (s : Pipeline B R roles) : Bool :=
  (List.finRange roles.length).all fun i => (s.subs i).receiver.point = .exited

/-- The threads, the coordinator, and what the coordinator has seen. -/
structure System (B : Backend) (R : RawSink) (roles : List SubscriptionRole) where
  pipeline : Pipeline B R roles
  coordinator : CoordinatorPoint roles.length
  seen : EndOfRun B R roles

namespace System

/-- The coordinator enters its loop. -/
def start (s : Pipeline B R roles) : System B R roles where
  pipeline := s
  coordinator := .head
  seen := ⟨fun _ => s, s, fun _ => s, fun _ => s, s⟩

/-- The coordinator goes on at another point. -/
def goto (s : System B R roles) (point : CoordinatorPoint roles.length) : System B R roles :=
  { s with coordinator := point }

/-- One task; `none` for a wait that goes on, and for one that `perform` does not do. -/
def perform (s : System B R roles) (timeUp : Bool) (ahead : List (Task roles.length)) :
    Task roles.length → Option (System B R roles)
  | .awaitDispatchers =>
    if timeUp || s.pipeline.allExited then some (s.goto (.ending ahead)) else none
  | .awaitReceivers =>
    if timeUp || s.pipeline.receiversExited then some (s.goto (.ending ahead)) else none
  | .flushRaw =>
    if s.pipeline.ingest.shared.rawWriter.isNone then some (s.goto (.ending ahead)) else none
  | .writeOutput => none
  | .look l => some { s with coordinator := .ending ahead, seen := s.seen.see s.pipeline l }

/-- One step of the coordinator. -/
def coordinatorStep (stop : StopCondition) (s : System B R roles) :
    CoordinatorInput → Option (System B R roles)
  | .loadShutdown =>
    match s.coordinator with
    | .head => some (s.goto (if s.pipeline.shutdown then .ending (Task.all _) else .stopCheck))
    | _ => none
  | .checkStop elapsedNs =>
    match s.coordinator with
    | .stopCheck =>
      some (s.goto (if shouldStop stop elapsedNs s.pipeline.ingest.shared.totalSlots then .store
        else .receiverCheck))
    | _ => none
  | .checkReceivers =>
    match s.coordinator with
    | .receiverCheck => some (s.goto (if s.pipeline.receiversExited then .store else .head))
    | _ => none
  | .storeShutdown =>
    match s.coordinator with
    | .store =>
      some { s with
        pipeline := { s.pipeline with shutdown := true }
        coordinator := .ending (Task.all _) }
    | _ => none
  | .perform timeUp =>
    match s.coordinator with
    | .ending (task :: ahead) => s.perform timeUp ahead task
    | _ => none
  | .lockRawWriter poisoned =>
    match s.coordinator with
    | .ending (.flushRaw :: ahead) =>
      if s.pipeline.ingest.shared.rawWriter.isNone then none
      else some (s.goto (if poisoned then .failed else .ending ahead))
    | _ => none
  | .writeOutput written =>
    match s.coordinator with
    | .ending (.writeOutput :: ahead) =>
      some (s.goto (if written then .ending ahead else .failed))
    | _ => none

/-- One step of the system. -/
def step (stop : StopCondition) (s : System B R roles) :
    SystemAction roles.length → Option (System B R roles)
  | .receiver i input =>
    (s.pipeline.step (.receiver i input)).map fun p => { s with pipeline := p }
  | .dispatcher e budgetSpent =>
    (s.pipeline.step (.dispatcher e budgetSpent)).map fun p => { s with pipeline := p }
  | .signal => (s.pipeline.step .requestShutdown).map fun p => { s with pipeline := p }
  | .coordinator input => s.coordinatorStep stop input

/-- A run of the system. -/
def run (stop : StopCondition) (s : System B R roles) (actions : List (SystemAction roles.length)) :
    Option (System B R roles) :=
  actions.foldlM (step stop) s

/-- The coordinator has looked at everything and written the report. -/
def Finished (s : System B R roles) : Prop :=
  s.coordinator = .ending []

/-! ## One step -/

/-- The ways a step can go. -/
inductive Steps (stop : StopCondition) (s : System B R roles) :
    SystemAction roles.length → System B R roles → Prop
  | thread {action} (a p) (ha : action.thread = some a) (hp : s.pipeline.step a = some p) :
    Steps stop s action { s with pipeline := p }
  | flagSet (hpoint : s.coordinator = .head) (hflag : s.pipeline.shutdown = true) :
    Steps stop s (.coordinator .loadShutdown) (s.goto (.ending (Task.all _)))
  | flagClear (hpoint : s.coordinator = .head) (hflag : s.pipeline.shutdown = false) :
    Steps stop s (.coordinator .loadShutdown) (s.goto .stopCheck)
  | stops (elapsedNs) (hpoint : s.coordinator = .stopCheck)
      (hstop : shouldStop stop elapsedNs s.pipeline.ingest.shared.totalSlots = true) :
    Steps stop s (.coordinator (.checkStop elapsedNs)) (s.goto .store)
  | goesOn (elapsedNs) (hpoint : s.coordinator = .stopCheck) :
    Steps stop s (.coordinator (.checkStop elapsedNs)) (s.goto .receiverCheck)
  | allExited (hpoint : s.coordinator = .receiverCheck)
      (hexited : s.pipeline.receiversExited = true) :
    Steps stop s (.coordinator .checkReceivers) (s.goto .store)
  | someLeft (hpoint : s.coordinator = .receiverCheck) :
    Steps stop s (.coordinator .checkReceivers) (s.goto .head)
  | store (hpoint : s.coordinator = .store) :
    Steps stop s (.coordinator .storeShutdown) { s with
      pipeline := { s.pipeline with shutdown := true }
      coordinator := .ending (Task.all _) }
  | passed (input task ahead) (hpoint : s.coordinator = .ending (task :: ahead))
      (htask : looks [task] = []) :
    Steps stop s (.coordinator input) (s.goto (.ending ahead))
  | fails (input task ahead) (hpoint : s.coordinator = .ending (task :: ahead))
      (hinput : input = .lockRawWriter true ∨ input = .writeOutput false) :
    Steps stop s (.coordinator input) (s.goto .failed)
  | looked (timeUp l ahead) (hpoint : s.coordinator = .ending (.look l :: ahead)) :
    Steps stop s (.coordinator (.perform timeUp))
      { s with coordinator := .ending ahead, seen := s.seen.see s.pipeline l }

variable {stop : StopCondition} {s s' : System B R roles} {action : SystemAction roles.length}

theorem steps_of_step (h : s.step stop action = some s') : Steps stop s action s' := by
  cases action with
  | receiver i input =>
    obtain ⟨p, hp, rfl⟩ := Option.map_eq_some_iff.mp h
    exact .thread _ p rfl hp
  | dispatcher e budgetSpent =>
    obtain ⟨p, hp, rfl⟩ := Option.map_eq_some_iff.mp h
    exact .thread _ p rfl hp
  | signal =>
    cases h
    exact .thread .requestShutdown _ rfl rfl
  | coordinator input =>
    rw [step] at h
    unfold coordinatorStep at h
    cases hpoint : s.coordinator with
    | head =>
      rw [hpoint] at h
      cases input <;> cases h
      rcases hflag : s.pipeline.shutdown with _ | _
      · exact .flagClear hpoint hflag
      · exact .flagSet hpoint hflag
    | stopCheck =>
      rw [hpoint] at h
      cases input <;> cases h
      rename_i elapsedNs
      rcases hstop : shouldStop stop elapsedNs s.pipeline.ingest.shared.totalSlots with _ | _
      · exact .goesOn elapsedNs hpoint
      · exact .stops elapsedNs hpoint hstop
    | receiverCheck =>
      rw [hpoint] at h
      cases input <;> cases h
      rcases hexited : s.pipeline.receiversExited with _ | _
      · exact .someLeft hpoint
      · exact .allExited hpoint hexited
    | store =>
      rw [hpoint] at h
      cases input <;> cases h
      exact .store hpoint
    | ending tasks =>
      rw [hpoint] at h
      rcases tasks with _ | ⟨task, ahead⟩
      · cases input <;> cases h
      · cases input with
        | perform timeUp =>
          cases task with
          | look l =>
            cases h
            exact .looked timeUp l ahead hpoint
          | writeOutput => cases h
          | _ =>
            dsimp only [perform] at h
            split_ifs at h
            cases h
            exact .passed _ _ ahead hpoint rfl
        | lockRawWriter poisoned =>
          cases task with
          | flushRaw =>
            dsimp only at h
            split_ifs at h with hnone hpoisoned <;> cases h
            · exact .fails _ _ ahead hpoint (Or.inl (congrArg _ hpoisoned))
            · exact .passed _ _ ahead hpoint rfl
          | _ => cases h
        | writeOutput written =>
          cases task with
          | writeOutput =>
            cases h
            cases written
            · exact .fails _ _ ahead hpoint (Or.inr rfl)
            · exact .passed _ _ ahead hpoint rfl
          | _ => cases h
        | _ => cases h
    | failed =>
      rw [hpoint] at h
      cases input <;> cases h

/-- The threads only take steps of their own. -/
theorem Steps.reaches (h : Steps stop s action s') : s.pipeline.Reaches s'.pipeline := by
  cases h with
  | thread a p ha hp =>
    exact ⟨[a], by rw [Pipeline.run, List.foldlM_cons, hp]; rfl⟩
  | store hpoint => exact ⟨[.requestShutdown], rfl⟩
  | _ => exact ⟨[], rfl⟩

/-- The flag stays set. -/
theorem Steps.flag_stays (h : Steps stop s action s') (hflag : s.pipeline.shutdown = true) :
    s'.pipeline.shutdown = true := by
  cases h with
  | thread a p ha hp =>
    have hmove : s.pipeline.move (.thread a) = some p := hp
    exact Pipeline.shutdown_move hmove hflag
  | store hpoint => rfl
  | _ => exact hflag

/-! ## The order of the looks -/

theorem looks_all (n : ℕ) : looks (Task.all n) =
    [.reclaim .one, .reclaim .two, .count] ++ (List.finRange n).map .capture ++
      (List.finRange n).map .drop ++ [.unwrap] := by
  simp [looks, Task.all, List.filterMap_append, List.filterMap_map]

theorem nodup_looks_all (n : ℕ) : (looks (Task.all n)).Nodup := by
  have hcapture : ((List.finRange n).map (Look.capture : Fin n → Look n)).Nodup :=
    (List.nodup_finRange n).map fun i j h => Look.capture.inj h
  have hdrop : ((List.finRange n).map (Look.drop : Fin n → Look n)).Nodup :=
    (List.nodup_finRange n).map fun i j h => Look.drop.inj h
  rw [looks_all]
  simp [List.nodup_append, hcapture, hdrop]
  rintro i l (⟨j, rfl⟩ | rfl) h <;> cases h

theorem looks_append {n : ℕ} (tasks tasks' : List (Task n)) :
    looks (tasks ++ tasks') = looks tasks ++ looks tasks' :=
  List.filterMap_append

/-- The coordinator has done some of its tasks, and each look came after those before it. -/
def InOrder (start : Pipeline B R roles) (s : System B R roles) : Prop :=
  match s.coordinator with
  | .ending ahead => ∃ done, done ++ ahead = Task.all roles.length ∧
      ((start :: (looks done).map s.seen.moment) ++ [s.pipeline]).Pairwise Pipeline.Reaches
  | _ => start.Reaches s.pipeline

theorem InOrder.reaches {start : Pipeline B R roles} (h : InOrder start s) :
    start.Reaches s.pipeline := by
  unfold InOrder at h
  split at h
  · obtain ⟨done, -, hpairs⟩ := h
    exact (List.pairwise_append.mp hpairs).2.2 start List.mem_cons_self _
      (List.mem_singleton_self _)
  · exact h

/-- The last of some moments moves on. -/
theorem pairwise_concat_of_reaches {l : List (Pipeline B R roles)} {p p' : Pipeline B R roles}
    (h : (l ++ [p]).Pairwise Pipeline.Reaches) (hp : p.Reaches p') :
    (l ++ [p']).Pairwise Pipeline.Reaches := by
  obtain ⟨hl, -, hlast⟩ := List.pairwise_append.mp h
  refine List.pairwise_append.mpr ⟨hl, List.pairwise_singleton _ _, fun a ha b hb => ?_⟩
  rw [List.mem_singleton.mp hb]
  exact (hlast a ha p (List.mem_singleton_self p)).trans hp

/-- The present moment is one of them. -/
theorem pairwise_concat_self {l : List (Pipeline B R roles)} {p : Pipeline B R roles}
    (h : (l ++ [p]).Pairwise Pipeline.Reaches) :
    (l ++ [p] ++ [p]).Pairwise Pipeline.Reaches := by
  refine List.pairwise_append.mpr ⟨h, List.pairwise_singleton _ _, fun a ha b hb => ?_⟩
  rw [List.mem_singleton.mp hb]
  rcases List.mem_append.mp ha with hl | hlast
  · exact (List.pairwise_append.mp h).2.2 a hl p (List.mem_singleton_self p)
  · rw [List.mem_singleton.mp hlast]
    exact ⟨[], rfl⟩

/-- A look that was not made yet does not change those that were. -/
theorem map_moment_see {done : List (Task roles.length)} {l : Look roles.length}
    {ahead : List (Task roles.length)} (h : done ++ .look l :: ahead = Task.all roles.length)
    (r : EndOfRun B R roles) (p : Pipeline B R roles) :
    (looks (done ++ [.look l])).map (r.see p l).moment = (looks done).map r.moment ++ [p] := by
  have hnodup := nodup_looks_all roles.length
  rw [← h, looks_append] at hnodup
  have hnew : l ∉ looks done := fun hl =>
    (List.nodup_append.mp hnodup).2.2 l hl l List.mem_cons_self rfl
  rw [looks_append, List.map_append, EndOfRun.moment_see]
  refine congrArg₂ _ (List.map_congr_left fun l' hl' => ?_) ?_
  · exact Function.update_of_ne (fun heq : l' = l => hnew (heq ▸ hl')) ..
  · show [Function.update r.moment l p l] = [p]
    rw [Function.update_self]

/-- Every step keeps the looks in order. -/
theorem Steps.inOrder {start : Pipeline B R roles} (h : Steps stop s action s')
    (hs : InOrder start s) : InOrder start s' := by
  have hreach := hs.reaches
  have hfresh : ((start :: (looks ([] : List (Task roles.length))).map s.seen.moment) ++
      [s.pipeline]).Pairwise Pipeline.Reaches :=
    List.pairwise_cons.mpr ⟨fun a ha => List.mem_singleton.mp ha ▸ hreach,
      List.pairwise_singleton _ _⟩
  have hstep := h.reaches
  cases h with
  | thread a p ha hp =>
    unfold InOrder at hs ⊢
    dsimp only
    split at hs
    · obtain ⟨done, hdone, hpairs⟩ := hs
      exact ⟨done, hdone, pairwise_concat_of_reaches hpairs hstep⟩
    · exact hs.trans hstep
  | flagSet hpoint hflag => exact ⟨[], rfl, hfresh⟩
  | store hpoint => exact ⟨[], rfl, pairwise_concat_of_reaches hfresh hstep⟩
  | passed input task ahead hpoint htask =>
    unfold InOrder at hs
    rw [hpoint] at hs
    obtain ⟨done, hdone, hpairs⟩ := hs
    refine ⟨done ++ [task], by rw [List.append_assoc, List.singleton_append, hdone], ?_⟩
    rw [looks_append, htask, List.append_nil]
    exact hpairs
  | looked timeUp l ahead hpoint =>
    unfold InOrder at hs
    rw [hpoint] at hs
    obtain ⟨done, hdone, hpairs⟩ := hs
    refine ⟨done ++ [.look l], by rw [List.append_assoc, List.singleton_append, hdone], ?_⟩
    rw [map_moment_see hdone]
    exact pairwise_concat_self hpairs
  | _ => exact hreach

variable {start : Pipeline B R roles} {actions : List (SystemAction roles.length)}

theorem inOrder_run (h : (System.start start).run stop actions = some s) : InOrder start s :=
  Folds.foldlM_history (P := fun _ s => InOrder start s)
    (show InOrder start (System.start start) from (⟨[], rfl⟩ : start.Reaches start))
    (fun _ _ _ _ hs hstep => (steps_of_step hstep).inOrder hs) h

/-- **The moments of a report**: whatever the threads do in between, the coordinator's looks are the
moments of the end of a run. -/
theorem endOfRun_of (h : (System.start start).run stop actions = some s) (hfinished : s.Finished) :
    s.seen.Of start := by
  have hs := inOrder_run h
  unfold InOrder at hs
  rw [hfinished] at hs
  obtain ⟨done, hdone, hpairs⟩ := hs
  rw [List.append_nil] at hdone
  rw [hdone] at hpairs
  obtain ⟨hfirst, hpairs⟩ := List.pairwise_cons.mp (List.pairwise_append.mp hpairs).1
  have hall := looks_all roles.length
  have hpairs := List.pairwise_map.mp hpairs
  have hbefore {ls ls' : List (Look roles.length)} (hsplit : looks (Task.all _) = ls ++ ls')
      {l l' : Look roles.length} (hl : l ∈ ls) (hl' : l' ∈ ls') :
      (s.seen.moment l).Reaches (s.seen.moment l') := by
    rw [hsplit] at hpairs
    exact (List.pairwise_append.mp hpairs).2.2 l hl l' hl'
  have hcapture (i : Fin roles.length) :
      Look.capture i ∈ (List.finRange roles.length).map .capture :=
    List.mem_map_of_mem (List.mem_finRange i)
  have hdrop (i : Fin roles.length) : Look.drop i ∈ (List.finRange roles.length).map .drop :=
    List.mem_map_of_mem (List.mem_finRange i)
  have hone : looks (Task.all roles.length) = [.reclaim .one] ++ ([.reclaim .two, .count] ++
      (List.finRange _).map .capture ++ (List.finRange _).map .drop ++ [.unwrap]) := hall
  have htwo : looks (Task.all roles.length) = [.reclaim .one, .reclaim .two] ++ ([.count] ++
      (List.finRange _).map .capture ++ (List.finRange _).map .drop ++ [.unwrap]) := hall
  have hcount : looks (Task.all roles.length) = [.reclaim .one, .reclaim .two, .count] ++
      ((List.finRange _).map .capture ++ ((List.finRange _).map .drop ++ [.unwrap])) := by
    rw [hall, List.append_assoc, List.append_assoc]
  have hrings : looks (Task.all roles.length) =
      ([.reclaim .one, .reclaim .two, .count] ++ (List.finRange _).map .capture) ++
        ((List.finRange _).map .drop ++ [.unwrap]) := by
    rw [hall, List.append_assoc]
  have hcounted : Look.count ∈ [.reclaim .one, .reclaim .two, (.count : Look roles.length)] :=
    List.mem_of_getLast? rfl
  refine ⟨?_, ?_, ?_, fun i => ?_, fun i j => ⟨?_, ?_⟩, ?_⟩
  · refine hfirst _ (List.mem_map.mpr ⟨.reclaim .one, ?_, rfl⟩)
    rw [hall]
    exact List.mem_cons_self
  · exact hbefore hone (List.mem_singleton_self _) List.mem_cons_self
  · exact hbefore htwo (List.mem_of_getLast? rfl) List.mem_cons_self
  · exact hbefore hcount hcounted (List.mem_append_left _ (hcapture i))
  · exact hbefore hrings (List.mem_append_right _ (hcapture i)) (List.mem_append_left _ (hdrop j))
  · exact hbefore hall (List.mem_append_right _ (hdrop j)) (List.mem_singleton_self _)
  · exact hbefore hall (List.mem_append_left _ (List.mem_append_left _ hcounted))
      (List.mem_singleton_self _)

end System

/-! ## What does not go back -/

namespace Pipeline

variable {p p' : Pipeline B R roles} {a : Action roles.length}

theorem receiversExited_iff :
    p.receiversExited = true ↔ ∀ i, (p.subs i).receiver.point = .exited := by
  simp [receiversExited]

/-- A receiver that has exited stays so. -/
theorem receiversExited_step (h : p.step a = some p') (hp : p.receiversExited = true) :
    p'.receiversExited = true := by
  rw [receiversExited_iff] at hp ⊢
  intro i
  rcases receiver_step h i with heq | ⟨input, -, hsub⟩
  · rw [heq]
    exact hp i
  · exact absurd (hp i) (point_ne_exited_of_step hsub)

/-- The slot counter does not go back. -/
theorem totalSlots_step (h : p.step a = some p') :
    p.ingest.shared.totalSlots ≤ p'.ingest.shared.totalSlots := by
  have hmove : p.move (.thread a) = some p' := h
  rw [ingest_move hmove]
  refine Folds.foldl_invariant (P := fun t : IngestState B R =>
    p.ingest.shared.totalSlots ≤ t.shared.totalSlots) (fun t q _ ht => ht.trans ?_) le_rfl
  show t.shared.totalSlots ≤ (countEvent q.2 (t.dispatchers _).counters t.shared.totalSlots).2
  unfold countEvent
  split
  · split_ifs
    · exact Nat.le_succ _
    · exact le_rfl
  all_goals exact le_rfl

/-- A thread's step that sets the flag is the store of the signal handler. -/
theorem eq_requestShutdown_of_step (h : p.step a = some p') (hclear : p.shutdown = false)
    (hset : p'.shutdown = true) : a = .requestShutdown := by
  cases a with
  | receiver i input =>
    obtain ⟨sub, -, rfl⟩ := Option.map_eq_some_iff.mp h
    exact absurd (hclear.symm.trans hset) (by decide)
  | dispatcher e budgetSpent =>
    rcases dispatcherStep_cases h with ⟨loop, rfl⟩ | ⟨j, event, ring, -, -, rfl⟩ | ⟨-, rfl⟩ <;>
      exact absurd (hclear.symm.trans hset) (by decide)
  | requestShutdown => rfl

/-- A dispatcher returns only once the flag is set. -/
theorem shutdown_of_exited_step (h : p.step a = some p') {e : EndpointRole}
    (hrunning : (p.loops e).point ≠ .exited) (hexited : (p'.loops e).point = .exited) :
    p.shutdown = true := by
  have hmove : p.move (.thread a) = some p' := h
  by_cases ha : ∃ budgetSpent, a = .dispatcher e budgetSpent
  · obtain ⟨budgetSpent, rfl⟩ := ha
    rcases dispatcherStep_spec h with ⟨j, event, ring, -, -, rfl⟩ | ⟨j, -, -, rfl⟩ |
      ⟨-, ⟨-, -, rfl⟩ | ⟨-, -, rfl⟩ | ⟨-, hflag, -, rfl⟩ | ⟨-, rfl⟩⟩
    · rw [loops_takeEvent] at hexited
      exact absurd hexited hrunning
    · rw [loops_setLoop] at hexited
      exact absurd hexited hrunning
    · rw [loops_setLoop] at hexited
      exact absurd hexited hrunning
    · rw [loops_setLoop] at hexited
      cases hexited
    · exact hflag
    · rw [loops_setLoop] at hexited
      cases hexited
  · rw [loops_move hmove fun budgetSpent heq => ha ⟨budgetSpent, Move.thread.inj heq⟩] at hexited
    exact absurd hexited hrunning

end Pipeline

/-! ## Why a run ends -/

namespace System

/-- The coordinator has checked the stop condition, and the slot counter of that moment met it. -/
def MetAtCheck (init : Pipeline B R roles) (stop : StopCondition)
    (past : List (SystemAction roles.length)) (slots : ℕ) : Prop :=
  ∃ before elapsedNs after, past = before ++ .coordinator (.checkStop elapsedNs) :: after ∧
    ((start init).run stop before).map (fun s => s.pipeline.ingest.shared.totalSlots) =
      some slots ∧
    shouldStop stop elapsedNs slots = true

/-- There is a reason to end the run: the signal came, the stop condition was met at a check, by a
counter that has not gone back since, or all receivers have exited. -/
def Reason (init : Pipeline B R roles) (stop : StopCondition)
    (past : List (SystemAction roles.length)) (p : Pipeline B R roles) : Prop :=
  .signal ∈ past ∨
    (∃ slots, MetAtCheck init stop past slots ∧ slots ≤ p.ingest.shared.totalSlots) ∨
    p.receiversExited = true

variable {init : Pipeline B R roles} {stop : StopCondition} {s s' : System B R roles}
  {action : SystemAction roles.length} {past : List (SystemAction roles.length)}
  {p p' : Pipeline B R roles}

theorem MetAtCheck.later {slots : ℕ} (h : MetAtCheck init stop past slots)
    (action : SystemAction roles.length) : MetAtCheck init stop (past ++ [action]) slots := by
  obtain ⟨before, elapsedNs, after, rfl, hbefore, hstop⟩ := h
  exact ⟨before, elapsedNs, after ++ [action], by simp, hbefore, hstop⟩

theorem Reason.later (h : Reason init stop past p) (action : SystemAction roles.length) :
    Reason init stop (past ++ [action]) p :=
  h.imp (List.mem_append_left _) (Or.imp_left fun ⟨slots, hmet, hle⟩ =>
    ⟨slots, hmet.later action, hle⟩)

theorem Reason.thread (h : Reason init stop past p) {a : Action roles.length}
    (hstep : p.step a = some p') : Reason init stop past p' :=
  h.imp_right (Or.imp
    (fun ⟨slots, hmet, hle⟩ => ⟨slots, hmet, hle.trans (Pipeline.totalSlots_step hstep)⟩)
    (Pipeline.receiversExited_step hstep))

/-- The flag is set, and the coordinator and the dispatchers have gone on, for a reason. -/
structure Justified (init : Pipeline B R roles) (stop : StopCondition)
    (past : List (SystemAction roles.length)) (s : System B R roles) : Prop where
  flag : s.pipeline.shutdown = true → Reason init stop past s.pipeline
  store : s.coordinator = .store → Reason init stop past s.pipeline
  ending : ∀ ahead, s.coordinator = .ending ahead → s.pipeline.shutdown = true ∧
    (.look .count ∉ ahead → Reason init stop past s.seen.counted)
  returned : ∀ e, (s.pipeline.loops e).point = .exited → s.pipeline.shutdown = true

/-- The coordinator goes on in its loop. -/
theorem Justified.goto (hs : Justified init stop past s) {point : CoordinatorPoint roles.length}
    (hstore : point = .store → Reason init stop (past ++ [action]) s.pipeline)
    (hloop : ∀ ahead, point ≠ .ending ahead) :
    Justified init stop (past ++ [action]) (s.goto point) where
  flag hset := (hs.flag hset).later _
  store := hstore
  ending ahead hpoint := absurd hpoint (hloop ahead)
  returned := hs.returned

/-- Every step is justified. -/
theorem Steps.justified (h : Steps stop s action s') (hrun : (start init).run stop past = some s)
    (hs : Justified init stop past s) : Justified init stop (past ++ [action]) s' := by
  have hending {ahead} (hpoint : s.coordinator = .ending ahead) := hs.ending ahead hpoint
  have hstays := h.flag_stays
  have hall {ahead : List (Task roles.length)}
      (heq : CoordinatorPoint.ending (Task.all roles.length) = .ending ahead)
      (hcount : Task.look .count ∉ ahead) : False := by
    cases heq
    exact hcount (by simp [Task.all])
  cases h with
  | thread a p ha hp =>
    refine ⟨fun hset => ?_, fun hpoint => ((hs.store hpoint).thread hp).later _,
      fun ahead hpoint => ?_, fun e hexited => ?_⟩
    · rcases hclear : s.pipeline.shutdown with _ | _
      · obtain rfl := Pipeline.eq_requestShutdown_of_step hp hclear hset
        cases action with
        | signal => exact Or.inl (List.mem_append_right _ (List.mem_singleton_self _))
        | _ => cases ha
      · exact ((hs.flag hclear).thread hp).later _
    · obtain ⟨hset, hcounted⟩ := hending hpoint
      exact ⟨hstays hset, fun hcount => (hcounted hcount).later _⟩
    · refine hstays ?_
      by_cases hrunning : (s.pipeline.loops e).point = .exited
      · exact hs.returned e hrunning
      · exact Pipeline.shutdown_of_exited_step hp hrunning hexited
  | flagSet hpoint hflag =>
    refine ⟨fun hset => (hs.flag hset).later _, nofun, fun ahead heq => ?_, hs.returned⟩
    exact ⟨hflag, fun hcount => (hall heq hcount).elim⟩
  | stops elapsedNs hpoint hstop =>
    -- the check that is made here
    have hmet : MetAtCheck init stop (past ++ [.coordinator (.checkStop elapsedNs)])
        s.pipeline.ingest.shared.totalSlots :=
      ⟨past, elapsedNs, [], rfl, by rw [hrun]; rfl, hstop⟩
    exact hs.goto (fun _ => Or.inr (Or.inl ⟨_, hmet, le_rfl⟩)) nofun
  | allExited hpoint hexited => exact hs.goto (fun _ => Or.inr (Or.inr hexited)) nofun
  | store hpoint =>
    refine ⟨fun _ => (hs.store hpoint).later _, nofun, fun ahead heq => ?_, fun _ _ => rfl⟩
    exact ⟨rfl, fun hcount => (hall heq hcount).elim⟩
  | passed input task ahead hpoint htask =>
    obtain ⟨hflag, hcounted⟩ := hending hpoint
    refine ⟨fun hset => (hs.flag hset).later _, nofun, fun ahead' heq => ?_, hs.returned⟩
    cases heq
    refine ⟨hflag, fun hcount => (hcounted fun hmem => ?_).later _⟩
    rcases List.mem_cons.mp hmem with rfl | hmem
    · cases htask
    · exact hcount hmem
  | looked timeUp l ahead hpoint =>
    obtain ⟨hflag, hcounted⟩ := hending hpoint
    refine ⟨fun hset => (hs.flag hset).later _, nofun, fun ahead' heq => ?_, hs.returned⟩
    cases heq
    refine ⟨hflag, fun hcount => ?_⟩
    have hsame : ((s.seen.see s.pipeline l).moment .count) = _ :=
      congrFun (s.seen.moment_see s.pipeline l) .count
    by_cases hl : l = .count
    · subst hl
      exact (hs.flag hflag).later _
    · rw [Function.update_of_ne (Ne.symm hl)] at hsame
      show Reason init stop _ ((s.seen.see s.pipeline l).moment .count)
      rw [hsame]
      refine (hcounted fun hmem => ?_).later _
      rcases List.mem_cons.mp hmem with heq | hmem
      · exact hl (Task.look.inj heq).symm
      · exact hcount hmem
  | _ => exact hs.goto nofun nofun

variable {names : Finmap fun _ : Pubkey32 => String} {strict : Bool} {rawWriter : Option R.State}
  {ringCapacity : ℕ} {actions : List (SystemAction roles.length)}

theorem justified_run
    (h : (start (Pipeline.start B names strict rawWriter roles ringCapacity)).run stop actions =
      some s) :
    Justified (Pipeline.start B names strict rawWriter roles ringCapacity) stop actions s := by
  refine (Folds.foldlM_history (P := fun past s =>
    (start (Pipeline.start B names strict rawWriter roles ringCapacity)).run stop past = some s ∧
      Justified (Pipeline.start B names strict rawWriter roles ringCapacity) stop past s)
    ⟨rfl, (fun hset => by cases hset), (fun hpoint => by cases hpoint),
      (fun _ hpoint => by cases hpoint), (fun _ hexited => by cases hexited)⟩
    (fun past s a s' hs hstep => ⟨?_, (steps_of_step hstep).justified hs.1 hs.2⟩) h).2
  rw [run, List.foldlM_append]
  exact Option.bind_eq_some_iff.mpr ⟨s, hs.1, by rw [List.foldlM_cons, hstep]; rfl⟩

/-- **Nothing ends a run but its reasons.**  Whenever the flag is set, or a dispatcher has returned,
the signal has come, or the stop condition was met when it was checked, or all receivers have
exited.  So it was when the slot counter of the report was read; with `--slots n`, no signal and
some receiver still running then, the report has at least `n` slots. -/
theorem ends_for_a_reason
    (h : (start (Pipeline.start B names strict rawWriter roles ringCapacity)).run stop actions =
      some s) :
    (s.pipeline.shutdown = true ∨ (∃ e, (s.pipeline.loops e).point = .exited) →
      Reason (Pipeline.start B names strict rawWriter roles ringCapacity) stop actions
        s.pipeline) ∧
    (s.Finished → Reason (Pipeline.start B names strict rawWriter roles ringCapacity) stop actions
      s.seen.counted) ∧
    ∀ n, stop = .slots n → s.Finished → .signal ∉ actions →
      (∃ i, (s.seen.counted.subs i).receiver.point ≠ .exited) →
      ∀ {Host : Type} (ctx : RunContext Host) order order',
        n.toNat ≤ (s.seen.output ctx order order').metadata.totalSlotsCollected := by
  have hjust := justified_run h
  have hcounted (hfinished : s.Finished) :
      Reason (Pipeline.start B names strict rawWriter roles ringCapacity) stop actions
        s.seen.counted :=
    (hjust.ending [] hfinished).2 (List.not_mem_nil)
  refine ⟨fun hset => ?_, hcounted, ?_⟩
  · rcases hset with hflag | ⟨e, hexited⟩
    · exact hjust.flag hflag
    · exact hjust.flag (hjust.returned e hexited)
  · rintro n rfl hfinished hsignal ⟨i, hi⟩ Host ctx order order'
    rcases hcounted hfinished with hmem | ⟨slots, ⟨-, elapsedNs, -, -, -, hstop⟩, hle⟩ | hexited
    · exact absurd hmem hsignal
    · exact (of_decide_eq_true hstop : n.toNat ≤ slots).trans hle
    · exact absurd (Pipeline.receiversExited_iff.mp hexited i) hi

/-! ## The report of a run -/

/-- **The report adds up**, for every run of the system: the counters of every summary are those of
its samples; and if no dispatcher returns after its result was given up, the numbers of the
summaries are within those of the counters and of the rings. -/
theorem report_addsUp
    (h : (start (Pipeline.start B names strict rawWriter roles ringCapacity)).run stop actions =
      some s) (hfinished : s.Finished) {Host : Type} (ctx : RunContext Host)
    (order : Finmap.Enumeration s.seen.unwrapped.reclaimMatchers.accounts.shards)
    (order' : Finmap.Enumeration
      (s.seen.unwrapped.reclaimMatchers.accounts.summary order).2.shards) :
    (s.seen.output ctx order order').Directed s.seen.unwrapped.reclaimMatchers ∧
      ((∀ e, (s.seen.unwrapped.loops e).point = .exited →
        ((s.seen.reclaimed e).loops e).point = .exited) →
        (s.seen.output ctx order order').AddsUp) :=
  ⟨EndOfRun.output_directed ctx order order' (endOfRun_of h hfinished),
    EndOfRun.output_addsUp ctx order order' (endOfRun_of h hfinished)⟩

/-! ## The coordinator comes to its end -/

/-- The steps the coordinator still takes once the flag is set. -/
def stepsLeft (s : System B R roles) : ℕ :=
  match s.coordinator with
  | .head => (Task.all roles.length).length + 1
  | .stopCheck => (Task.all roles.length).length + 3
  | .receiverCheck => (Task.all roles.length).length + 2
  | .store => (Task.all roles.length).length + 1
  | .ending ahead => ahead.length
  | .failed => 0

theorem stepsLeft_eq_zero : s.stepsLeft = 0 ↔ s.Finished ∨ s.coordinator = .failed := by
  unfold stepsLeft Finished
  split <;> rename_i hpoint <;> simp [hpoint]

/-- The coordinator can take its next step: when the time of a wait is up, when the mutex of the
raw-records writer is free, when the file is written. -/
theorem exists_step (stop : StopCondition) (h : s.stepsLeft ≠ 0) :
    ∃ input, (s.step stop (.coordinator input)).isSome = true := by
  simp only [step, coordinatorStep]
  rcases hpoint : s.coordinator with _ | _ | _ | _ | (_ | ⟨task, ahead⟩) | _
  · exact ⟨.loadShutdown, rfl⟩
  · exact ⟨.checkStop 0, rfl⟩
  · exact ⟨.checkReceivers, rfl⟩
  · exact ⟨.storeShutdown, rfl⟩
  · exact absurd (stepsLeft_eq_zero.mpr (Or.inl hpoint)) h
  · cases task with
    | flushRaw =>
      rcases hwriter : s.pipeline.ingest.shared.rawWriter with _ | w
      · exact ⟨.perform true, by simp [perform, hwriter]⟩
      · exact ⟨.lockRawWriter false, by simp⟩
    | writeOutput => exact ⟨.writeOutput true, rfl⟩
    | _ => exact ⟨.perform true, rfl⟩
  · exact absurd (stepsLeft_eq_zero.mpr (Or.inr hpoint)) h

section Example

/-- The coordinator goes through its tasks, each wait to the end of its time, and writes the
report. -/
def lastTasks (n : ℕ) : List (SystemAction n) :=
  List.replicate (2 * n + 7) (.coordinator (.perform true)) ++ [.coordinator (.writeOutput true)]

/-- A receiver opens its stream and gets an update. -/
def deliver {n : ℕ} (i : Fin n) (item : StreamItem) : List (SystemAction n) :=
  [.receiver i .loadShutdown, .receiver i (.connect (.ok ())),
    .receiver i (.openSubscription (.ok ())), .receiver i .loadShutdown, .receiver i (.next item)]

/-- With `--slots 1` one slot ends the run, while its receiver goes on. -/
theorem ends_for_a_reason_one_slot :
    let roles : List SubscriptionRole := [.main .one .processed .slots]
    let actions : List (SystemAction roles.length) :=
      deliver 0 (.event ⟨4, 0⟩ (.slot 5 .processed)) ++ [.dispatcher .one false,
        .coordinator .loadShutdown, .coordinator (.checkStop 0), .coordinator .storeShutdown] ++
        lastTasks 1
    ∃ s : System Backend.exact ⟨Unit, fun _ _ => ()⟩ roles,
      (start (Pipeline.start Backend.exact ∅ false none roles 16)).run (.slots 1) actions = some s ∧
      s.Finished ∧ ∀ order order', 1 ≤
        (s.seen.output EndOfRun.transactionContext order order').metadata.totalSlotsCollected := by
  intro roles actions
  have hrun : ((start (Pipeline.start Backend.exact ∅ false none roles 16 :
      Pipeline Backend.exact ⟨Unit, fun _ _ => ()⟩ roles)).run (.slots 1) actions).map (fun s =>
        (s.coordinator, (s.seen.counted.subs 0).receiver.point)) =
      some (.ending [], .streamHead) := by decide
  obtain ⟨s, hs, hval⟩ := Option.map_eq_some_iff.mp hrun
  have hval := Prod.mk.inj hval
  refine ⟨s, hs, hval.1, fun order order' => ?_⟩
  refine (ends_for_a_reason hs).2.2 1 rfl hval.1 (by simp [actions, deliver, lastTasks]) ⟨0, ?_⟩ _
    order order'
  rw [hval.2]
  decide

/-- A transaction on both endpoints, then the signal; both dispatchers return before they are asked
for their results. -/
theorem report_addsUp_one_transaction :
    let roles : List SubscriptionRole :=
      [.main .one .processed .transactions, .main .two .processed .transactions]
    let item : StreamItem := .event ⟨4, 0⟩ (.transaction 9 (Vector.replicate 64 7) 0)
    let pass : EndpointRole → List (SystemAction roles.length) := fun e =>
      [.dispatcher e false, .dispatcher e false, .dispatcher e true]
    let actions : List (SystemAction roles.length) :=
      deliver 0 item ++ deliver 1 item ++
        [.dispatcher .one false, .dispatcher .two false, .signal] ++ pass .one ++ pass .two ++
        [.coordinator .loadShutdown] ++ lastTasks 2
    ∃ s : System Backend.exact ⟨Unit, fun _ _ => ()⟩ roles,
      (start (Pipeline.start Backend.exact ∅ false none roles 16)).run (.duration 60) actions =
        some s ∧ ∃ order order',
        let out := s.seen.output EndOfRun.transactionContext order order'
        out.Directed s.seen.unwrapped.reclaimMatchers ∧ out.AddsUp ∧
        out.comparative.transactionDelay.map LatencyDigestSummary.matched = some 1 := by
  intro roles item pass actions
  have hrun : ((start (Pipeline.start Backend.exact ∅ false none roles 16 :
      Pipeline Backend.exact ⟨Unit, fun _ _ => ()⟩ roles)).run (.duration 60) actions).map (fun s =>
        (s.coordinator, ((s.seen.reclaimed .one).loops .one).point,
          ((s.seen.reclaimed .two).loops .two).point,
          s.seen.unwrapped.reclaimMatchers.transactions.inner.counts.matched)) =
      some (.ending [], .exited, .exited, 1) := by decide
  obtain ⟨s, hs, hval⟩ := Option.map_eq_some_iff.mp hrun
  obtain ⟨hfinished, hval⟩ := Prod.mk.inj hval
  obtain ⟨hone, hval⟩ := Prod.mk.inj hval
  obtain ⟨htwo, hmatched⟩ := Prod.mk.inj hval
  obtain ⟨order⟩ := Finmap.nonempty_enumeration s.seen.unwrapped.reclaimMatchers.accounts.shards
  obtain ⟨order'⟩ := Finmap.nonempty_enumeration
    (s.seen.unwrapped.reclaimMatchers.accounts.summary order).2.shards
  obtain ⟨hdirected, haddsUp⟩ :=
    report_addsUp hs hfinished EndOfRun.transactionContext order order'
  refine ⟨s, hs, order, order', hdirected, haddsUp fun e _ => ?_, congrArg some hmatched⟩
  cases e
  · exact hone
  · exact htwo

end Example

end System

end GrpcBench
