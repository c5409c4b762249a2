import GrpcBench.Matching.Directions
import GrpcBench.Run.Conservation
import GrpcBench.Run.Dispatched
import GrpcBench.Run.Report

/-!
# The report adds up

The numbers of a report come from the matchers, the dispatchers and the rings, which the coordinator
reads at different moments.  They fit together all the same: the counters of every summary are those
of its samples, no kind has more matches than either endpoint has updates, and what an endpoint has
in the counters and the matchers is within its total of received events.  Only a dispatcher that
returns after its result was given up, and before the matchers are taken, leaves matches in the
report that its counters do not have.

* `IngestState.load`, `IngestState.Covered`: the invariants; `load_ingest`, `Covered.ingest` are
  their steps.
* `Pipeline.Reaches.of_exited`: a dispatcher that has exited is never changed again.
* `EndOfRun.output_directed`, `EndOfRun.output_addsUp`: the numbers of every report.
* `EndOfRun.not_addsUp_late_return`: a dispatcher that returns too late.
-/

namespace GrpcBench

variable {B : Backend} {R : RawSink} {roles : List SubscriptionRole}

/-! ## The load of an endpoint -/

/-- The stages that have a matcher. -/
def SlotStage.live : List SlotStage :=
  [.firstShredReceived, .completed, .createdBank, .processed, .confirmed, .finalized]

/-- What the matcher of a stage has of an endpoint. -/
def StreamMatchers.slotBalance (m : StreamMatchers B) (e : EndpointRole) (stage : SlotStage) : ℕ :=
  (m.slots.matcherFor stage).elim 0 fun p => p.balance e

/-- The updates that a dispatcher has counted. -/
def IngestCountersPartial.updates (c : IngestCountersPartial) : ℕ :=
  c.accounts + c.transactions + c.blocks + c.entries

/-- What the counters and the slot matchers have of an endpoint. -/
def IngestState.load (s : IngestState B R) (e : EndpointRole) : ℕ :=
  (s.dispatchers e).counters.updates +
    (SlotStage.live.map (s.shared.matchers.slotBalance e)).sum

/-- One event on the books of a slot matcher. -/
theorem StreamMatchers.slotBalance_dispatch {m : StreamMatchers B} (hm : m.Sound) (event : Event)
    (e : EndpointRole) (stage : SlotStage) : (dispatch m event).slotBalance e stage ≤
      m.slotBalance e stage +
        if event.endpoint = e ∧ (event.slotCall stage).isSome = true then 1 else 0 := by
  rw [slotBalance, slotBalance, matcherFor_dispatch]
  rcases hp : m.slots.matcherFor stage with _ | p
  · rcases event.slotCall stage with _ | c <;> exact Nat.zero_le _
  · have hcall : ∀ c, event.slotCall stage = some c → c.endpoint = event.endpoint := fun c hc => by
      obtain ⟨ts, role, payload⟩ := event
      cases payload with
      | slot slot s =>
        dsimp only [Event.slotCall] at hc
        split_ifs at hc
        cases hc
        rfl
      | _ => cases hc
    have hbal := PairMatcher.balance_elim (hm.slots stage p hp).policy hcall e
    rcases hc : event.slotCall stage with _ | c
    · rw [Option.elim_some]
      exact Nat.le_add_right _ _
    · rw [hc] at hbal
      simp only [Option.map_some, Option.elim_some] at hbal ⊢
      omega

/-- One event on the books of the slot matchers together. -/
theorem StreamMatchers.sum_slotBalance_dispatch {m : StreamMatchers B} (hm : m.Sound)
    (event : Event) (e : EndpointRole) :
    (SlotStage.live.map ((dispatch m event).slotBalance e)).sum ≤
      (SlotStage.live.map (m.slotBalance e)).sum +
        if event.endpoint = e then
          SlotStage.live.countP fun stage => (event.slotCall stage).isSome else 0 := by
  have hsum : ∀ l : List SlotStage, (l.map ((dispatch m event).slotBalance e)).sum ≤
      (l.map (m.slotBalance e)).sum + if event.endpoint = e then
        l.countP fun stage => (event.slotCall stage).isSome else 0 := by
    intro l
    induction l with
    | nil => exact Nat.zero_le _
    | cons stage l ih =>
      have hstage := slotBalance_dispatch hm event e stage
      rw [List.map_cons, List.map_cons, List.sum_cons, List.sum_cons, List.countP_cons]
      split_ifs at hstage ih ⊢ with he <;> simp_all <;> omega
  exact hsum _

/-- An event is counted at most once, as an update or in a slot matcher. -/
theorem updates_countEvent (event : Event) (c : IngestCountersPartial) (n : ℕ) :
    (countEvent event c n).1.updates +
        (SlotStage.live.countP fun stage => (event.slotCall stage).isSome) ≤ c.updates + 1 := by
  obtain ⟨ts, role, payload⟩ := event
  cases payload with
  | slot slot stage =>
    have hupdates : (countEvent ⟨ts, role, .slot slot stage⟩ c n).1.updates = c.updates := by
      unfold countEvent
      dsimp only
      split_ifs <;> rfl
    rw [hupdates]
    cases stage <;> exact Nat.le_of_ble_eq_true (by simp [SlotStage.live, Event.slotCall])
  | account =>
    show c.accounts + 1 + c.transactions + c.blocks + c.entries + 0 ≤ _
    rw [IngestCountersPartial.updates]
    omega
  | transaction =>
    show c.accounts + (c.transactions + 1) + c.blocks + c.entries + 0 ≤ _
    rw [IngestCountersPartial.updates]
    omega
  | block =>
    show c.accounts + c.transactions + (c.blocks + 1) + c.entries + 0 ≤ _
    rw [IngestCountersPartial.updates]
    omega
  | entry =>
    show c.accounts + c.transactions + c.blocks + (c.entries + 1) + 0 ≤ _
    rw [IngestCountersPartial.updates]
    omega

/-- **One event on the load.** -/
theorem IngestState.load_ingest {s : IngestState B R} (hs : s.shared.matchers.Sound)
    (event : Event) (e : EndpointRole) :
    (s.ingest event).load e ≤ s.load e + if event.endpoint = e then 1 else 0 := by
  have hslots := StreamMatchers.sum_slotBalance_dispatch hs event e
  rw [load, load, matchers_ingest]
  by_cases he : event.endpoint = e
  · subst he
    have hcount := updates_countEvent event (s.dispatchers event.endpoint).counters
      s.shared.totalSlots
    rw [if_pos rfl] at hslots ⊢
    rw [dispatchers_ingest_self]
    show (countEvent event _ _).1.updates + _ ≤ _
    omega
  · rw [if_neg he] at hslots ⊢
    rw [dispatchers_ingest_of_ne s (Ne.symm he)]
    omega

/-- The slot counter counts events of endpoint 1. -/
theorem IngestState.totalSlots_ingest (s : IngestState B R) (event : Event) :
    (s.ingest event).shared.totalSlots ≤
      s.shared.totalSlots + if event.endpoint = .one then 1 else 0 := by
  obtain ⟨ts, role, payload⟩ := event
  cases payload with
  | slot slot stage =>
    show (countEvent _ _ _).2 ≤ _
    unfold countEvent
    dsimp only
    split_ifs with hcount hone hone
    · exact le_rfl
    · exact absurd hcount.1 hone
    · exact Nat.le_add_right _ _
    · exact le_rfl
  | _ => exact Nat.le_add_right _ _

/-- What every run keeps: sound and directed matchers, program digests that agree with them,
counters that cover them, and the load. -/
structure IngestState.Covered (s : IngestState B R) (events : List Event) : Prop where
  sound : s.shared.matchers.Sound
  directed : s.shared.matchers.Directed
  agrees : ∀ owner, (s.shared.matchers.accounts.shardOf owner).Agrees
  counters : ∀ x e, s.shared.matchers.balance e x ≤ (s.dispatchers e).counters.of x
  load : ∀ e, s.load e ≤ events.countP fun event => event.endpoint = e
  slots : s.shared.totalSlots ≤ events.countP fun event => event.endpoint = .one

/-- One event on the books of a kind. -/
theorem StreamMatchers.balance_dispatch_le {m : StreamMatchers B} (hm : m.Sound) (event : Event)
    (e : EndpointRole) (x : StreamKind) : (dispatch m event).balance e x ≤
      m.balance e x + if event.endpoint = e ∧ event.kind = some x then 1 else 0 := by
  by_cases hblock : event.BlockOnMain
  · have hbal := balance_dispatch hm hblock e x
    omega
  · -- a block of an entry filter is counted and not matched
    have hsame : GrpcBench.dispatch m event = m := by
      obtain ⟨ts, role, payload⟩ := event
      cases payload with
      | block =>
        cases role with
        | main => exact absurd (fun _ => rfl) hblock
        | entries => rfl
      | _ => exact absurd (fun h => by cases h) hblock
    rw [hsame]
    exact Nat.le_add_right _ _

namespace IngestState

theorem covered_start (names : Finmap fun _ : Pubkey32 => String) (strict : Bool)
    (rawWriter : Option R.State) : Covered (start B names strict rawWriter) [] where
  sound := StreamMatchers.sound_start names strict
  directed := StreamMatchers.directed_start names strict
  agrees owner := by
    rw [start, StreamMatchers.shardOf_start]
    exact PerProgramShard.agrees_new matchWindow
  counters x e := by cases x <;> cases e <;> exact le_rfl
  load e := by cases e <;> exact le_rfl
  slots := le_rfl

variable {s : IngestState B R} {events : List Event}

/-- **One event.** -/
theorem Covered.ingest (h : Covered s events) (event : Event) :
    Covered (s.ingest event) (events ++ [event]) where
  sound := h.sound.dispatch event
  directed := h.directed.dispatch event
  agrees owner := by
    rw [matchers_ingest, accounts_dispatch]
    rcases event.accountUpdate with _ | u
    · exact h.agrees owner
    · exact AccountMatcher.agrees_observeAll s.shared.matchers.accounts [u] (h.agrees owner)
  counters x e := by
    have hbal := StreamMatchers.balance_dispatch_le h.sound event e x
    have hcovered := h.counters x e
    rw [matchers_ingest]
    by_cases he : event.endpoint = e
    · subst he
      have hcount := counters_countEvent event (s.dispatchers event.endpoint).counters
        s.shared.totalSlots x
      rw [dispatchers_ingest_self]
      rw [if_congr (and_iff_right rfl) rfl rfl] at hbal
      show _ ≤ (countEvent event _ _).1.of x
      omega
    · rw [if_neg fun hn => he hn.1] at hbal
      rw [dispatchers_ingest_of_ne s (Ne.symm he)]
      omega
  load e := by
    have hstep := load_ingest h.sound event e
    have hload := h.load e
    rw [List.countP_append, List.countP_singleton]
    simp only [decide_eq_true_eq]
    omega
  slots := by
    have hstep := s.totalSlots_ingest event
    have hslots := h.slots
    rw [List.countP_append, List.countP_singleton]
    simp only [decide_eq_true_eq]
    omega

/-- **Every run.** -/
theorem covered_ingestAll (names : Finmap fun _ : Pubkey32 => String) (strict : Bool)
    (rawWriter : Option R.State) (events : List Event) :
    Covered ((start B names strict rawWriter).ingestAll events) events := by
  induction events using List.reverseRecOn with
  | nil => exact covered_start names strict rawWriter
  | append_singleton events event ih =>
    rw [ingestAll, List.foldl_append]
    exact ih.ingest event

end IngestState

/-! ## The end of a run -/

namespace Pipeline

/-- A dispatcher that has exited takes no step, and nobody else changes what it owns. -/
theorem step_of_exited {s s' : Pipeline B R roles} {action : Action roles.length}
    {e : EndpointRole} (h : (s.loops e).point = .exited) (hstep : s.step action = some s') :
    (s'.loops e).point = .exited ∧ s'.ingest.dispatchers e = s.ingest.dispatchers e := by
  cases action with
  | receiver j input =>
    obtain ⟨sub, -, rfl⟩ := Option.map_eq_some_iff.mp hstep
    exact ⟨h, rfl⟩
  | dispatcher f budgetSpent =>
    have hne : e ≠ f := by
      rintro rfl
      rw [step, dispatcherStep, h] at hstep
      cases hstep
    rcases dispatcherStep_cases hstep with ⟨loop, rfl⟩ | ⟨j, event, ring, -, -, rfl⟩ | ⟨-, rfl⟩
    · exact ⟨(congrArg DispatcherLoop.point (Function.update_of_ne hne ..)).trans h, rfl⟩
    · exact ⟨(congrArg DispatcherLoop.point (Function.update_of_ne hne ..)).trans h,
        Function.update_of_ne hne ..⟩
    · exact ⟨(congrArg DispatcherLoop.point (Function.update_of_ne hne ..)).trans h, rfl⟩
  | requestShutdown =>
    cases hstep
    exact ⟨h, rfl⟩

/-- **A dispatcher that has exited** is never changed again. -/
theorem Reaches.of_exited {s s' : Pipeline B R roles} {e : EndpointRole} (hreach : s.Reaches s')
    (h : (s.loops e).point = .exited) :
    (s'.loops e).point = .exited ∧ s'.ingest.dispatchers e = s.ingest.dispatchers e := by
  obtain ⟨actions, hrun⟩ := hreach
  exact Folds.foldlM_history (P := fun _ t =>
    (t.loops e).point = .exited ∧ t.ingest.dispatchers e = s.ingest.dispatchers e) ⟨h, rfl⟩
    (fun _ t _ t' ht hstep => (step_of_exited ht.1 hstep).imp_right fun heq => heq.trans ht.2) hrun

/-- Once both dispatchers have exited, no step changes what they share. -/
theorem ingest_step_of_exited {s s' : Pipeline B R roles} {action : Action roles.length}
    (h : ∀ e, (s.loops e).point = .exited) (hstep : s.step action = some s') :
    s'.ingest = s.ingest := by
  cases action with
  | receiver j input =>
    obtain ⟨sub, -, rfl⟩ := Option.map_eq_some_iff.mp hstep
    rfl
  | dispatcher f budgetSpent =>
    rw [step, dispatcherStep, h f] at hstep
    cases hstep
  | requestShutdown =>
    cases hstep
    rfl

theorem Reaches.of_allExited {s s' : Pipeline B R roles} (hreach : s.Reaches s')
    (h : ∀ e, (s.loops e).point = .exited) : s'.ingest = s.ingest := by
  obtain ⟨actions, hrun⟩ := hreach
  exact (Folds.foldlM_history (P := fun _ t =>
    (∀ e, (t.loops e).point = .exited) ∧ t.ingest = s.ingest) ⟨h, rfl⟩
    (fun _ t _ t' ht hstep => ⟨fun e => (step_of_exited (ht.1 e) hstep).1,
      (ingest_step_of_exited ht.1 hstep).trans ht.2⟩) hrun).2

theorem Reaches.trans {s s' s'' : Pipeline B R roles} (h : s.Reaches s') (h' : s'.Reaches s'') :
    s.Reaches s'' := by
  obtain ⟨actions, hrun⟩ := h
  obtain ⟨actions', hrun'⟩ := h'
  refine ⟨actions ++ actions', ?_⟩
  rw [run, List.foldlM_append]
  exact Option.bind_eq_some_iff.mpr ⟨s', hrun, hrun'⟩

end Pipeline

/-! ## What the rings have counted -/

/-- The counter of received events does not go back. -/
theorem Pipeline.Reaches.received_le {s s' : Pipeline B R roles} (hreach : s.Reaches s')
    (i : Fin roles.length) : (s.subs i).ring.stats.received ≤ (s'.subs i).ring.stats.received := by
  obtain ⟨actions, hrun⟩ := hreach
  refine Folds.foldlM_history (P := fun _ t =>
    (s.subs i).ring.stats.received ≤ (t.subs i).ring.stats.received) le_rfl
    (fun _ t action t' ht hstep => ht.trans ?_) hrun
  have hmove : t.move (.thread action) = some t' := hstep
  rcases ring_move hmove i with ⟨event, -, hring⟩ | ⟨event, ring, -, hrecv, hring⟩ | ⟨-, hring⟩
  · rw [hring]
    exact ((t.subs i).ring.trySend_grows event).1.ge
  · rw [hring, Ring.stats_withStats, (Ring.of_tryRecv_some hrecv).2.2.1]
    exact Nat.le_succ _
  · exact hring.received.ge

/-- The members of a list that are sent into some indices, index by index. -/
theorem countP_mem_eq_sum {α ι : Type*} [DecidableEq ι] (f : α → ι) {is : List ι} (h : is.Nodup)
    (l : List α) : (l.countP fun a => f a ∈ is) =
      (is.map fun i => l.countP fun a => f a = i).sum := by
  induction is with
  | nil => simp
  | cons i is ih =>
    obtain ⟨hi, his⟩ := List.nodup_cons.mp h
    have hsplit : (l.countP fun a => f a ∈ i :: is) =
        (l.countP fun a => f a = i) + l.countP fun a => f a ∈ is := by
      clear ih
      induction l with
      | nil => rfl
      | cons a l ih =>
        rw [List.countP_cons, List.countP_cons, List.countP_cons, ih]
        by_cases ha : f a = i
        · have hnot : f a ∉ is := ha ▸ hi
          simp [ha, ha ▸ hnot]
          omega
        · simp [ha]
          omega
    rw [hsplit, ih his, List.map_cons, List.sum_cons]

/-- **What the rings have counted** of an endpoint is the number of its events. -/
theorem Pipeline.exists_counted {ingest : IngestState B R}
    {capacity : Fin roles.length → { c : ℕ // 0 < c }} {s : Pipeline B R roles}
    (h : (spawn ingest capacity).Reaches s) : ∃ events, s.ingest = ingest.ingestAll events ∧
      ∀ e, (events.countP fun event => event.endpoint = e) =
        ((ringsOf roles e).map fun i => (s.subs i).ring.stats.received).sum := by
  obtain ⟨actions, hrun⟩ := h
  obtain ⟨t, -, -, hingest, hroles, hrings⟩ := exists_dispatched hrun
  refine ⟨_, hingest, fun e => ?_⟩
  have hmem : ∀ p ∈ dispatched t.history, (p.2.endpoint = e ↔ p.1 ∈ ringsOf roles e) := by
    intro p hp
    simp [ringsOf, Event.endpoint, hroles p hp]
  have hring : ∀ i, (s.subs i).ring.stats.received =
      (dispatched t.history).countP fun p => p.1 = i := by
    intro i
    rw [(hrings i).1, dispatchedOn_eq, List.length_filterMap_eq_countP]
    refine List.countP_congr fun p _ => ?_
    split_ifs with hi <;> simp [hi]
  have hnodup : (ringsOf roles e).Nodup := (List.nodup_finRange _).filter _
  rw [List.countP_map, funext hring,
    ← countP_mem_eq_sum (Prod.fst : Fin roles.length × Event → _) hnodup]
  exact List.countP_congr fun p hp => by simpa using hmem p hp

/-! ## The end of a run -/

/-- The summaries of the stages. -/
def SlotStatusSummary.all (s : SlotStatusSummary) : List LatencyDigestSummary :=
  [s.firstShredDelay, s.completedDelay, s.createdBankDelay, s.processedDelay, s.confirmedDelay,
    s.finalizedDelay]

/-- The summary of a stage. -/
def SlotStatusSummary.delayFor (s : SlotStatusSummary) : SlotStage → Option LatencyDigestSummary
  | .firstShredReceived => some s.firstShredDelay
  | .completed => some s.completedDelay
  | .createdBank => some s.createdBankDelay
  | .processed => some s.processedDelay
  | .confirmed => some s.confirmedDelay
  | .finalized => some s.finalizedDelay
  | .dead => none

/-- The summaries that compare the two endpoints. -/
def ComparativeSummary.all (c : ComparativeSummary) : List LatencyDigestSummary :=
  c.slotStatus.all ++ c.accountDelay :: (c.transactionDelay.toList ++ c.blockDelay.toList)

/-- The updates of an endpoint in a report. -/
def RunMetadata.updates (m : RunMetadata) (e : EndpointRole) : ℕ :=
  m.totalAccountUpdates.of e + m.totalTransactionUpdates.of e + m.totalBlockUpdates.of e +
    m.totalEntryUpdates.of e

/-- The counters of every summary are those of the samples it was made of: those of one matcher, of
all shards of the accounts, or, for a bucket, of the shard of an owner with its name. -/
structure RunOutput.Directed {Host : Type} (out : RunOutput Host) (m : StreamMatchers B) :
    Prop where
  stages : ∀ stage s, out.comparative.slotStatus.delayFor stage = some s →
    ∃ p, m.slots.matcherFor stage = some p ∧ s.counts.Directed p.samples
  accounts : out.comparative.accountDelay.counts.Directed m.accounts.samples
  transactions : ∀ s, out.comparative.transactionDelay = some s →
    s.counts.Directed m.transactions.inner.samples
  blocks : ∀ s, out.comparative.blockDelay = some s → s.counts.Directed m.blocks.inner.samples
  programs : ∀ name s, out.perProgramAccountDelay.lookup name = some s →
    ∃ owner ∈ m.accounts.shards, m.accounts.bucketName owner = name ∧
      s.counts.Directed (m.accounts.shardOf owner).main.samples

/-- The numbers of a report fit together. -/
structure RunOutput.AddsUp {Host : Type} (out : RunOutput Host) : Prop where
  programs : Finmap.total LatencyDigestSummary.matched out.perProgramAccountDelay ≤
    out.comparative.accountDelay.matched
  accounts : ∀ e, out.comparative.accountDelay.matched ≤ out.metadata.totalAccountUpdates.of e
  transactions : ∀ s, out.comparative.transactionDelay = some s →
    ∀ e, s.matched ≤ out.metadata.totalTransactionUpdates.of e
  blocks : ∀ s, out.comparative.blockDelay = some s →
    ∀ e, s.matched ≤ out.metadata.totalBlockUpdates.of e
  updates : ∀ e, ∀ info ∈ out.endpoints, info.role = RunOutput.roleLabel e →
    min (out.metadata.updates e +
      (out.comparative.slotStatus.all.map LatencyDigestSummary.matched).sum) (2 ^ 64 - 1) ≤
        info.totalUpdates
  slots : ∀ info ∈ out.endpoints, info.role = RunOutput.roleLabel .one →
    min out.metadata.totalSlotsCollected (2 ^ 64 - 1) ≤ info.totalUpdates

/-! ## The summaries -/

/-- The summary of a stage is that of its matcher. -/
theorem SlotMatcher.exists_of_delayFor {m : SlotMatcher B} {stage : SlotStage}
    {s : LatencyDigestSummary} (h : m.summary.1.delayFor stage = some s) :
    ∃ p, m.matcherFor stage = some p ∧ (LatencyDigestSummary.fromMatcher p).1 = s := by
  cases stage <;> cases h <;> exact ⟨_, rfl, rfl⟩

/-- The summaries of the stages are those of the stages that have a matcher. -/
theorem SlotStatusSummary.exists_of_mem_all {x : SlotStatusSummary} {s : LatencyDigestSummary}
    (h : s ∈ x.all) : ∃ stage, x.delayFor stage = some s := by
  simp only [all, List.mem_cons, List.not_mem_nil, or_false] at h
  rcases h with rfl | rfl | rfl | rfl | rfl | rfl
  · exact ⟨.firstShredReceived, rfl⟩
  · exact ⟨.completed, rfl⟩
  · exact ⟨.createdBank, rfl⟩
  · exact ⟨.processed, rfl⟩
  · exact ⟨.confirmed, rfl⟩
  · exact ⟨.finalized, rfl⟩

theorem PairMatcher.matched_le_balance {K : Type} [DecidableEq K] (m : PairMatcher B K)
    (e : EndpointRole) : m.counts.matched ≤ m.balance e := by
  rw [balance]
  omega

/-- The matches of the stages are on the books of the slot matchers. -/
theorem StreamMatchers.sum_slots_le (m : StreamMatchers B) (e : EndpointRole) :
    (m.slots.summary.1.all.map LatencyDigestSummary.matched).sum ≤
      (SlotStage.live.map (m.slotBalance e)).sum := by
  have h1 := m.slots.firstShredReceived.matched_le_balance e
  have h2 := m.slots.completed.matched_le_balance e
  have h3 := m.slots.createdBank.matched_le_balance e
  have h4 := m.slots.processed.matched_le_balance e
  have h5 := m.slots.confirmed.matched_le_balance e
  have h6 := m.slots.finalized.matched_le_balance e
  show m.slots.firstShredReceived.counts.matched + (m.slots.completed.counts.matched +
      (m.slots.createdBank.counts.matched + (m.slots.processed.counts.matched +
        (m.slots.confirmed.counts.matched + (m.slots.finalized.counts.matched + 0))))) ≤
    m.slots.firstShredReceived.balance e + (m.slots.completed.balance e +
      (m.slots.createdBank.balance e + (m.slots.processed.balance e +
        (m.slots.confirmed.balance e + (m.slots.finalized.balance e + 0)))))
  omega

namespace AccountMatcher

variable {m : AccountMatcher B}

/-- What a summary leaves of the shard of an owner. -/
theorem shardOf_summary (order : Finmap.Enumeration m.shards) (owner : Pubkey32) :
    (m.summary order).2.shardOf owner =
      if owner ∈ m.shards then settleShard owner (m.shardOf owner) else m.shardOf owner :=
  m.shardOf_mapVals settleShard owner

@[simp] theorem samples_shardOf_summary (order : Finmap.Enumeration m.shards) (owner : Pubkey32) :
    ((m.summary order).2.shardOf owner).main.samples = (m.shardOf owner).main.samples := by
  rw [shardOf_summary]
  split_ifs
  · exact (m.shardOf owner).main.evict.samples_flush
  · rfl

theorem agrees_summary (h : ∀ owner, (m.shardOf owner).Agrees)
    (order : Finmap.Enumeration m.shards) (owner : Pubkey32) :
    ((m.summary order).2.shardOf owner).Agrees := by
  have hsamples := samples_shardOf_summary order owner
  rw [shardOf_summary] at hsamples ⊢
  split_ifs at hsamples ⊢
  · exact ⟨(h owner).matched, (h owner).ep1Faster, (h owner).ep2Faster,
      (h owner).samples.trans hsamples.symm⟩
  · exact h owner

theorem directed_shardOf_summary (h : ∀ owner, (m.shardOf owner).main.Directed)
    (order : Finmap.Enumeration m.shards) (owner : Pubkey32) :
    ((m.summary order).2.shardOf owner).main.Directed := by
  rw [PairMatcher.Directed, samples_shardOf_summary, shardOf_summary]
  split_ifs
  · exact ⟨(h owner).matched, (h owner).ep1Faster, (h owner).ep2Faster⟩
  · exact h owner

/-- The buckets of the programs have no more matches than the overall summary, though they are
computed after it. -/
theorem total_perProgramSummary_le (h : ∀ owner, (m.shardOf owner).Agrees)
    (order : Finmap.Enumeration m.shards)
    (order' : Finmap.Enumeration (m.summary order).2.shards) :
    Finmap.total LatencyDigestSummary.matched ((m.summary order).2.perProgramSummary order').1 ≤
      (m.summary order).1.matched :=
  calc Finmap.total LatencyDigestSummary.matched ((m.summary order).2.perProgramSummary order').1
      ≤ (((m.summary order).2.buckets order').map fun x => x.2.matched).sum := by
        rw [fst_perProgramSummary]
        exact Finmap.total_collect_le _ _
    _ = Finmap.total (fun shard => shard.main.counts.matched) (m.summary order).2.shards :=
        (m.summary order).2.sum_buckets order' fun owner => (agrees_summary h order owner).matched
    _ = Finmap.total (fun shard => shard.main.counts.matched) m.shards :=
        m.total_mapVals settleShard _ fun _ => rfl
    _ = (m.summary order).1.matched := (m.summary_matched order).symm

/-- A bucket of the report, which is computed after the overall summary. -/
theorem directed_bucket (hagrees : ∀ owner, (m.shardOf owner).Agrees)
    (h : ∀ owner, (m.shardOf owner).main.Directed) (order : Finmap.Enumeration m.shards)
    (order' : Finmap.Enumeration (m.summary order).2.shards) {name : String}
    {s : LatencyDigestSummary}
    (hs : ((m.summary order).2.perProgramSummary order').1.lookup name = some s) :
    ∃ owner ∈ m.shards, m.bucketName owner = name ∧
      s.counts.Directed (m.shardOf owner).main.samples := by
  obtain ⟨owner, howner, hname, hcounts⟩ := directed_of_lookup (agrees_summary hagrees order)
    (directed_shardOf_summary h order) order' hs
  rw [samples_shardOf_summary] at hcounts
  exact ⟨owner, (Finmap.mem_mapVals settleShard m.shards owner).mp howner, hname, hcounts⟩

end AccountMatcher

namespace EndOfRun

variable {start : Pipeline B R roles} {r : EndOfRun B R roles}

/-- A dispatcher that has exited when its result is asked for is the one that is counted. -/
theorem Of.dispatcher_eq (h : r.Of start) (e : EndpointRole)
    (hexit : ((r.reclaimed e).loops e).point = .exited) :
    (r.counted.loops e).point = .exited ∧ r.dispatcher e = r.counted.ingest.dispatchers e := by
  have hreach : (r.reclaimed e).Reaches r.counted := by
    cases e with
    | one => exact h.second.trans h.third
    | two => exact h.third
  obtain ⟨hpoint, hsame⟩ := hreach.of_exited hexit
  exact ⟨hpoint, by rw [dispatcher, Pipeline.reclaim, if_pos hexit, hsame]⟩

theorem dispatcher_eq_new (e : EndpointRole)
    (hexit : ((r.reclaimed e).loops e).point ≠ .exited) :
    r.dispatcher e = DispatcherState.new B e := by
  rw [dispatcher, Pipeline.reclaim, if_neg hexit]

/-- What the report is made of. -/
def taken (r : EndOfRun B R roles) : IngestState B R where
  shared :=
    { matchers := r.unwrapped.reclaimMatchers
      rawWriter := none
      totalSlots := r.counted.ingest.shared.totalSlots }
  dispatchers := r.dispatcher

/-- **What the report is made of** is covered by the events counted in the rings, unless a
dispatcher returns after its result was given up. -/
theorem Of.covered_taken (h : r.Of start)
    (hlate : ∀ e, (r.unwrapped.loops e).point = .exited →
      ((r.reclaimed e).loops e).point = .exited) {events : List Event}
    (hcovered : r.counted.ingest.Covered events) : r.taken.Covered events := by
  by_cases hall : r.unwrapped.allExited = true
  · -- everything is as it was when the rings were counted
    have hpoints : ∀ e, (r.unwrapped.loops e).point = .exited := by
      rw [Pipeline.allExited, Bool.and_eq_true, decide_eq_true_eq, decide_eq_true_eq] at hall
      intro e
      cases e with
      | one => exact hall.1
      | two => exact hall.2
    have hcounted := fun e => h.dispatcher_eq e (hlate e (hpoints e))
    have hsame := h.last.of_allExited fun e => (hcounted e).1
    have hmatchers : r.taken.shared.matchers = r.counted.ingest.shared.matchers := by
      rw [taken, Pipeline.reclaimMatchers, if_pos hall, hsame]
    have hdispatchers : ∀ e, r.taken.dispatchers e = r.counted.ingest.dispatchers e :=
      fun e => (hcounted e).2
    refine ⟨hmatchers ▸ hcovered.sound, hmatchers ▸ hcovered.directed, hmatchers ▸ hcovered.agrees,
      fun x e => ?_, fun e => ?_, hcovered.slots⟩
    · rw [hmatchers, hdispatchers]
      exact hcovered.counters x e
    · rw [IngestState.load, hmatchers, hdispatchers]
      exact hcovered.load e
  · -- the matchers are new ones
    have hmatchers : r.taken.shared.matchers =
        (IngestState.start (R := R) B ∅ false none).shared.matchers := by
      rw [taken, Pipeline.reclaimMatchers, if_neg hall]
      rfl
    have hnew := IngestState.covered_start (B := B) (R := R) ∅ false none
    refine ⟨hmatchers ▸ hnew.sound, hmatchers ▸ hnew.directed, hmatchers ▸ hnew.agrees,
      fun x e => ?_, fun e => ?_, hcovered.slots⟩
    · rw [hmatchers]
      refine (hnew.counters x e).trans ?_
      cases x <;> exact Nat.zero_le _
    · have hzero := hnew.load e
      have hload := hcovered.load e
      rw [IngestState.load] at hzero hload ⊢
      rw [hmatchers]
      have hle : (r.taken.dispatchers e).counters.updates ≤
          (r.counted.ingest.dispatchers e).counters.updates := by
        show (r.dispatcher e).counters.updates ≤ _
        by_cases hexit : ((r.reclaimed e).loops e).point = .exited
        · rw [(h.dispatcher_eq e hexit).2]
        · rw [dispatcher_eq_new e hexit]
          exact Nat.zero_le _
      rw [List.countP_nil] at hzero
      omega

/-- **The matchers of a report**, whenever they are taken: those of the events dispatched by then,
or new ones. -/
theorem Of.directed_matchers {names : Finmap fun _ : Pubkey32 => String} {strict : Bool}
    {rawWriter : Option R.State} {ringCapacity : ℕ}
    (h : r.Of (Pipeline.start B names strict rawWriter roles ringCapacity)) :
    r.unwrapped.reclaimMatchers.Directed ∧
      ∀ owner, (r.unwrapped.reclaimMatchers.accounts.shardOf owner).Agrees := by
  have hreach := ((h.first.trans h.second).trans h.third).trans h.last
  rw [Pipeline.start_eq_spawn] at hreach
  obtain ⟨events, hingest, -⟩ := Pipeline.exists_counted hreach
  have hcovered := IngestState.covered_ingestAll (B := B) (R := R) names strict rawWriter events
  have hnew := IngestState.covered_start (B := B) (R := R) ∅ false none
  unfold Pipeline.reclaimMatchers
  split_ifs
  · rw [hingest]
    exact ⟨hcovered.directed, hcovered.agrees⟩
  · exact ⟨hnew.directed, hnew.agrees⟩

theorem eq_of_mem_toList_ite {α : Type*} {b : Bool} {x y : α}
    (h : x ∈ (if b = true then some y else none).toList) : x = y := by
  cases b
  · cases h
  · exact List.mem_singleton.mp h

section Output

variable {Host : Type} (ctx : RunContext Host)
  (order : Finmap.Enumeration r.unwrapped.reclaimMatchers.accounts.shards)
  (order' : Finmap.Enumeration (r.unwrapped.reclaimMatchers.accounts.summary order).2.shards)

/-- The entry of an endpoint has the total of its rings. -/
theorem totalUpdates_of_mem {info : EndpointInfo} (h : info ∈ (r.output ctx order order').endpoints)
    {e : EndpointRole} (hrole : info.role = RunOutput.roleLabel e) :
    info.totalUpdates = (r.counted.ringsAt r.captured).totalUpdates e := by
  have hcase : (∃ url version ping, info = endpointInfo url .one version
        ((r.counted.ringsAt r.captured).totalUpdates .one) ping) ∨
      ∃ url version ping, info = endpointInfo url .two version
        ((r.counted.ringsAt r.captured).totalUpdates .two) ping := by
    simp only [output, assembleOutput] at h
    rcases List.mem_cons.mp h with rfl | hmem
    · exact Or.inl ⟨_, _, _, rfl⟩
    · split at hmem
      · exact Or.inr ⟨_, _, _, List.mem_singleton.mp hmem⟩
      · cases hmem
  rcases hcase with ⟨url, version, ping, rfl⟩ | ⟨url, version, ping, rfl⟩ <;> cases e
  · rfl
  · exact absurd hrole (by decide : "comparison" ≠ "sut")
  · exact absurd hrole (by decide : "sut" ≠ "comparison")
  · rfl

/-- **The counters of every summary** are those of its samples. -/
theorem output_directed {names : Finmap fun _ : Pubkey32 => String} {strict : Bool}
    {rawWriter : Option R.State} {ringCapacity : ℕ}
    (h : r.Of (Pipeline.start B names strict rawWriter roles ringCapacity)) :
    (r.output ctx order order').Directed r.unwrapped.reclaimMatchers := by
  obtain ⟨hdirected, hagrees⟩ := h.directed_matchers
  refine ⟨fun stage s hs => ?_, AccountMatcher.directed_summary hdirected.accounts order,
    fun s hs => ?_, fun s hs => ?_, fun name s hs =>
      AccountMatcher.directed_bucket hagrees hdirected.accounts order order' hs⟩
  · obtain ⟨p, hp, rfl⟩ := SlotMatcher.exists_of_delayFor hs
    exact ⟨p, hp, LatencyDigestSummary.directed_fromMatcher (hdirected.slots stage p hp)⟩
  · obtain rfl := eq_of_mem_toList_ite (Option.mem_toList.mpr hs)
    exact LatencyDigestSummary.directed_fromMatcher hdirected.transactions
  · obtain rfl := eq_of_mem_toList_ite (Option.mem_toList.mpr hs)
    exact LatencyDigestSummary.directed_fromMatcher hdirected.blocks

/-- **The report adds up** if no dispatcher returns after its result was given up. -/
theorem output_addsUp {names : Finmap fun _ : Pubkey32 => String} {strict : Bool}
    {rawWriter : Option R.State} {ringCapacity : ℕ}
    (h : r.Of (Pipeline.start B names strict rawWriter roles ringCapacity))
    (hlate : ∀ e, (r.unwrapped.loops e).point = .exited →
      ((r.reclaimed e).loops e).point = .exited) : (r.output ctx order order').AddsUp := by
  have hreach := (h.first.trans h.second).trans h.third
  rw [Pipeline.start_eq_spawn] at hreach
  obtain ⟨events, hingest, hcount⟩ := Pipeline.exists_counted hreach
  have hcovered := h.covered_taken hlate
    (hingest ▸ IngestState.covered_ingestAll names strict rawWriter events)
  have hmatched : ∀ x e,
      r.unwrapped.reclaimMatchers.matched x ≤ (r.dispatcher e).counters.of x := by
    intro x e
    have hbalance := hcovered.counters x e
    have heq := r.unwrapped.reclaimMatchers.balance_eq e x
    exact (by omega : r.unwrapped.reclaimMatchers.matched x ≤
      r.unwrapped.reclaimMatchers.balance e x).trans hbalance
  have htotal : ∀ e, min (events.countP fun event => event.endpoint = e) (2 ^ 64 - 1) ≤
      (r.counted.ringsAt r.captured).totalUpdates e := by
    intro e
    rw [Pipeline.totalUpdates_eq, hcount]
    exact min_le_min_right _ (List.sum_le_sum fun i _ => (h.captured i).received_le i)
  refine ⟨AccountMatcher.total_perProgramSummary_le hcovered.agrees order order', fun e => ?_,
    fun s hs e => ?_, fun s hs e => ?_, fun e info hinfo hrole => ?_, fun info hinfo hrole => ?_⟩
  · refine (AccountMatcher.summary_matched _ order).le.trans ((hmatched .accounts e).trans ?_)
    cases e <;> exact le_rfl
  · obtain rfl := eq_of_mem_toList_ite (Option.mem_toList.mpr hs)
    refine (hmatched .transactions e).trans ?_
    cases e <;> exact le_rfl
  · obtain rfl := eq_of_mem_toList_ite (Option.mem_toList.mpr hs)
    refine (hmatched .blocks e).trans ?_
    cases e <;> exact le_rfl
  · have hload := hcovered.load e
    have hslots := r.unwrapped.reclaimMatchers.sum_slots_le e
    have hupdates : (r.output ctx order order').metadata.updates e =
        (r.dispatcher e).counters.updates := by
      cases e <;> rfl
    rw [totalUpdates_of_mem ctx order order' hinfo hrole, hupdates]
    exact (min_le_min_right _ ((Nat.add_le_add_left hslots _).trans hload)).trans (htotal e)
  · rw [totalUpdates_of_mem ctx order order' hinfo hrole]
    exact (min_le_min_right _ hcovered.slots).trans (htotal .one)

end Output

section Example

/-- One transaction on both endpoints, dispatched by both. -/
def transactionRun : List (Action 2) :=
  let events : Fin 2 → List (Action 2) := fun i => [.receiver i .loadShutdown,
    .receiver i (.connect (.ok ())), .receiver i (.openSubscription (.ok ())),
    .receiver i .loadShutdown,
    .receiver i (.next (.event ⟨4, 0⟩ (.transaction 9 (Vector.replicate 64 7) 0)))]
  events 0 ++ events 1 ++ [.dispatcher .one false, .dispatcher .two false]

/-- The run is asked to end, and both dispatchers return. -/
def lastPasses : List (Action 2) :=
  let pass : EndpointRole → List (Action 2) := fun e =>
    [.dispatcher e false, .dispatcher e false, .dispatcher e true]
  .requestShutdown :: (pass .one ++ pass .two)

/-- A run with transactions, and what is known of it. -/
def transactionContext : RunContext Unit where
  config :=
    { endpoint1 := ⟨"http://one", "token", false⟩
      endpoint2 := some ⟨"http://two", "token", false⟩
      entriesEndpoint1 := none
      entriesEndpoint2 := none
      stop := .duration 60
      commitments := [.processed]
      withBlocks := false
      withTransactions := true
      strictAccountKey := false
      accountsProgramsPerFilter := 1
      solo := false
      soloStreams := []
      programsPath := "programs.csv"
      reconnectTestSecs := none
      output := "out.json"
      rawRecords := none
      cpuAffinity := {}
      realtime := false
      allocator := .system
      logLevel := "info"
      maxDecodeMb := 256
      ringCapacity := 16 }
  programs := ⟨"programs.csv", []⟩
  hostMetadata := ()
  protoMetadata := ⟨"12.2.0", "13.0.1", "unknown", "unknown", []⟩
  ep1Version := ⟨none, none, none, none, .accept, "", []⟩
  ep2Version := some ⟨none, none, none, none, .accept, "", []⟩
  ping _ := {}
  startWallMs := 0
  durationMs := 60000
  rfc3339FromWallMs _ := ""

/-- The state after the transaction has been dispatched, and after the dispatchers have returned. -/
theorem exists_transactionRun :
    let roles : List SubscriptionRole :=
      [.main .one .processed .transactions, .main .two .processed .transactions]
    let start : Pipeline Backend.exact ⟨Unit, fun _ _ => ()⟩ roles :=
      Pipeline.start Backend.exact ∅ false none roles 16
    ∃ s s', start.run transactionRun = some s ∧ s.run lastPasses = some s' ∧
      (∀ e, (s.loops e).point ≠ .exited) ∧ (∀ e, (s'.loops e).point = .exited) ∧
      s'.ingest.shared.matchers.transactions.inner.counts.matched = 1 := by
  intro roles start
  have hrun : (start.run transactionRun).map (fun s =>
      ((s.loops .one).point, (s.loops .two).point)) = some (.draining, .draining) := by decide
  have hlast : ((start.run transactionRun).bind fun s => s.run lastPasses).map (fun s =>
      ((s.loops .one).point, (s.loops .two).point,
        s.ingest.shared.matchers.transactions.inner.counts.matched)) =
      some (.exited, .exited, 1) := by decide
  obtain ⟨s, hs, hpoints⟩ := Option.map_eq_some_iff.mp hrun
  rw [hs, Option.bind_some] at hlast
  obtain ⟨s', hs', hvalues⟩ := Option.map_eq_some_iff.mp hlast
  have hpoints := Prod.mk.inj hpoints
  have hvalues := Prod.mk.inj hvalues
  have hrest := Prod.mk.inj hvalues.2
  refine ⟨s, s', hs, hs', fun e => ?_, fun e => ?_, hrest.2⟩
  · cases e
    · exact hpoints.1 ▸ by decide
    · exact hpoints.2 ▸ by decide
  · cases e
    · exact hvalues.1
    · exact hrest.1

/-- The dispatchers return after their results were given up, and before the matchers are taken:
one match of no updates. -/
theorem not_addsUp_late_return :
    let roles : List SubscriptionRole :=
      [.main .one .processed .transactions, .main .two .processed .transactions]
    let start : Pipeline Backend.exact ⟨Unit, fun _ _ => ()⟩ roles :=
      Pipeline.start Backend.exact ∅ false none roles 16
    ∃ r : EndOfRun Backend.exact ⟨Unit, fun _ _ => ()⟩ roles, r.Of start ∧ ∀ order order',
      ¬ (r.output transactionContext order order').AddsUp := by
  intro roles start
  obtain ⟨s, s', hs, hs', hrunning, hexit, hmatched⟩ := exists_transactionRun
  have hsame : s.Reaches s := ⟨[], rfl⟩
  have hlast : s.Reaches s' := ⟨_, hs'⟩
  let r : EndOfRun Backend.exact ⟨Unit, fun _ _ => ()⟩ roles :=
    ⟨fun _ => s, s, fun _ => s, fun _ => s, s'⟩
  refine ⟨r, ⟨⟨_, hs⟩, hsame, hsame, fun _ => hsame, fun _ _ => ⟨hsame, hlast⟩, hlast⟩,
    fun order order' h => ?_⟩
  have hle := h.transactions _ rfl .one
  have hmatchers : s'.reclaimMatchers = s'.ingest.shared.matchers := by
    refine if_pos ?_
    rw [Pipeline.allExited, hexit .one, hexit .two]
    decide
  have hzero : r.dispatcher .one = DispatcherState.new Backend.exact .one :=
    dispatcher_eq_new .one (hrunning .one)
  have hcontra : s'.reclaimMatchers.transactions.inner.counts.matched ≤
      (DispatcherState.new Backend.exact .one).counters.transactions := hzero ▸ hle
  rw [hmatchers, hmatched] at hcontra
  exact absurd hcontra (by decide)

end Example

end EndOfRun

end GrpcBench
