import GrpcBench.Run.Coordinator
import GrpcBench.Subscribe.Plan

/-!
# Solo runs

With `--solo` nothing is planned on the second endpoint.  The matchers, which compare two endpoints,
are there all the same, and so is the second dispatcher, with no ring.  Nothing comes of them: the
report has one endpoint, no match, and of the second endpoint what a run with no event has.

* `SubscriptionPlan.endpoint_of_solo`: the plan.
* `Pipeline.Reaches.untouched`: an endpoint with no subscription, at every moment of a run.
* `System.solo_report`: the report.
-/

namespace GrpcBench

variable {B : Backend} {R : RawSink} {roles : List SubscriptionRole}

/-- A solo plan is for the first endpoint. -/
theorem SubscriptionPlan.endpoint_of_solo {config : Config} {programs : ProgramSet}
    (hsolo : config.solo = true) {spec : SubscriptionSpec}
    (h : spec ∈ (fromRunConfig config programs).specs) : spec.role.endpoint = .one := by
  rw [fromRunConfig, if_pos hsolo] at h
  obtain ⟨stream, rfl⟩ := mem_soloSpecs h
  rfl

/-! ## An endpoint with no subscription -/

/-- Events of the other endpoint leave a dispatcher as it is. -/
theorem IngestState.dispatchers_ingestAll_of_ne (s : IngestState B R) {e : EndpointRole}
    {events : List Event} (h : ∀ event ∈ events, event.endpoint ≠ e) :
    (s.ingestAll events).dispatchers e = s.dispatchers e :=
  Folds.foldl_invariant (P := fun t : IngestState B R => t.dispatchers e = s.dispatchers e)
    (fun t event hevent ht => (t.dispatchers_ingest_of_ne (h event hevent).symm).trans ht) rfl

/-- What there is of an endpoint with no events: its dispatcher is as it was spawned, and no matcher
has a match. -/
structure IngestState.Untouched (s : IngestState B R) (e : EndpointRole) : Prop where
  dispatcher : s.dispatchers e = DispatcherState.new B e
  matched : ∀ x, s.shared.matchers.matched x = 0
  slots : (s.shared.matchers.slots.summary.1.all.map LatencyDigestSummary.matched).sum = 0

theorem IngestState.untouched_ingestAll (names : Finmap fun _ : Pubkey32 => String) (strict : Bool)
    (rawWriter : Option R.State) {e : EndpointRole} {events : List Event}
    (h : ∀ event ∈ events, event.endpoint ≠ e) :
    ((start B names strict rawWriter).ingestAll events).Untouched e := by
  have hcovered := covered_ingestAll (B := B) names strict rawWriter events
  have hnew := dispatchers_ingestAll_of_ne (start B names strict rawWriter) h
  have hdispatcher : ((start B names strict rawWriter).ingestAll events).dispatchers e =
      DispatcherState.new B e := hnew.trans rfl
  refine ⟨hdispatcher, fun x => ?_, ?_⟩
  · have hbalance := hcovered.counters x e
    rw [hdispatcher, StreamMatchers.balance_eq] at hbalance
    have hzero : (DispatcherState.new B e).counters.of x = 0 := by cases x <;> rfl
    omega
  · have hload := hcovered.load e
    have hcount : (events.countP fun event => event.endpoint = e) = 0 :=
      List.countP_eq_zero.mpr fun event hevent => by simpa using h event hevent
    have hsum := ((start B names strict rawWriter).ingestAll events).shared.matchers.sum_slots_le e
    rw [load, hcount] at hload
    omega

/-- **An endpoint with no subscription** is untouched at every moment of a run. -/
theorem Pipeline.Reaches.untouched {names : Finmap fun _ : Pubkey32 => String} {strict : Bool}
    {rawWriter : Option R.State} {ringCapacity : ℕ} {s : Pipeline B R roles}
    (h : (Pipeline.start B names strict rawWriter roles ringCapacity).Reaches s) {e : EndpointRole}
    (hroles : ∀ role ∈ roles, role.endpoint ≠ e) : s.ingest.Untouched e := by
  rw [start_eq_spawn] at h
  obtain ⟨actions, hrun⟩ := h
  obtain ⟨t, -, -, hingest, hsubscription, -⟩ := exists_dispatched hrun
  rw [hingest]
  refine IngestState.untouched_ingestAll names strict rawWriter fun event hevent => ?_
  obtain ⟨p, hp, rfl⟩ := List.mem_map.mp hevent
  rw [Event.endpoint, hsubscription p hp]
  exact hroles _ (List.get_mem _ _)

/-- A ring counts nothing as dropped for an endpoint that has none. -/
theorem computeDroppedTotals_eq_zero (stats : List ReceiverStats)
    (hroles : ∀ role ∈ roles, role.endpoint = .one) : (computeDroppedTotals roles stats).ep2 = 0 :=
  Folds.foldl_invariant (P := fun out : DroppedTotals => out.ep2 = 0) (fun out p hp h => by
    rw [hroles p.2 (List.of_mem_zip hp).2]
    exact h) rfl

/-! ## The report -/

/-- A report that compares nothing and has no event of the second endpoint. -/
structure RunOutput.IsSolo {Host : Type} (B : Backend) (out : RunOutput Host) : Prop where
  endpoints : out.endpoints.map EndpointInfo.role = [RunOutput.roleLabel .one]
  comparative : ∀ s ∈ out.comparative.all, s.matched = 0 ∧ s.ep1Faster = 0 ∧ s.ep2Faster = 0
  programs : Finmap.total LatencyDigestSummary.matched out.perProgramAccountDelay = 0
  updates : out.metadata.updates .two = 0
  dropped : out.metadata.droppedEventsEp2 = 0
  stability : out.stability.lookup "endpoint2" = some (StabilityTracker.new B .two).summary.1
  crossStream : out.crossStream.lookup "endpoint2" = some (CrossStreamTracker.new B .two).summary.1

/-- The matchers of a report have no match. -/
theorem EndOfRun.matched_reclaimMatchers {s : Pipeline B R roles} {e : EndpointRole}
    (h : s.ingest.Untouched e) :
    (∀ x, s.reclaimMatchers.matched x = 0) ∧
      (s.reclaimMatchers.slots.summary.1.all.map LatencyDigestSummary.matched).sum = 0 := by
  have hnew : ((IngestState.start (R := R) B ∅ false none).ingestAll []).Untouched e :=
    IngestState.untouched_ingestAll ∅ false none fun event hevent => by cases hevent
  unfold Pipeline.reclaimMatchers
  split_ifs
  · exact ⟨h.matched, h.slots⟩
  · exact ⟨hnew.matched, hnew.slots⟩

namespace System

variable {stop : StopCondition} {s : System B R roles} {actions : List (SystemAction roles.length)}
  {names : Finmap fun _ : Pubkey32 => String} {strict : Bool} {rawWriter : Option R.State}
  {ringCapacity : ℕ} {Host : Type}

/-- **The report of a solo run**, whatever the threads have done: one endpoint, no match, and of the
second endpoint what a run with no event has. -/
theorem solo_report (ctx : RunContext Host) (hconfig : ctx.config.toConfig.Validated)
    (hsolo : ctx.config.solo = true)
    (hroles : roles = (SubscriptionPlan.fromRunConfig ctx.config.toConfig ctx.programs).specs.map
      SubscriptionSpec.role)
    (h : (start (Pipeline.start B names strict rawWriter roles ringCapacity)).run stop actions =
      some s) (hfinished : s.Finished)
    (order : Finmap.Enumeration s.seen.unwrapped.reclaimMatchers.accounts.shards)
    (order' : Finmap.Enumeration
      (s.seen.unwrapped.reclaimMatchers.accounts.summary order).2.shards) :
    (s.seen.output ctx order order').IsSolo B := by
  have hone : ∀ role ∈ roles, role.endpoint = .one := by
    intro role hrole
    rw [hroles] at hrole
    obtain ⟨spec, hspec, rfl⟩ := List.mem_map.mp hrole
    exact SubscriptionPlan.endpoint_of_solo hsolo hspec
  have hnone : ∀ role ∈ roles, role.endpoint ≠ .two := fun role hrole heq => by
    rw [hone role hrole] at heq
    cases heq
  have hof := endOfRun_of h hfinished
  have hreclaimed := hof.first.trans hof.second
  have hdispatcher : s.seen.dispatcher .two = DispatcherState.new B .two := by
    rw [EndOfRun.dispatcher, Pipeline.reclaim, (hreclaimed.untouched hnone).dispatcher, ite_self]
  obtain ⟨hmatched, hslots⟩ := EndOfRun.matched_reclaimMatchers
    (((hreclaimed.trans hof.third).trans hof.last).untouched hnone)
  have hdirected := EndOfRun.output_directed ctx order order' hof
  have hendpoint2 : ctx.config.endpoint2 = none := by
    have hsome := hconfig.endpoint2_isSome
    rw [hsolo] at hsome
    exact Option.isSome_eq_false_iff.mp hsome |> Option.isNone_iff_eq_none.mp
  have haccounts := AccountMatcher.summary_matched s.seen.unwrapped.reclaimMatchers.accounts order
  have hzero {d : LatencyDigestSummary} {samples : Multiset ℚ} (hd : d.counts.Directed samples)
      (hm : d.matched = 0) : d.matched = 0 ∧ d.ep1Faster = 0 ∧ d.ep2Faster = 0 := by
    have hties : d.matched = d.ep1Faster + d.ep2Faster + samples.count 0 := hd.ties
    omega
  refine ⟨?_, fun d hd => ?_, ?_, ?_, ?_, ?_, ?_⟩
  · simp only [EndOfRun.output, assembleOutput, hendpoint2]
    rfl
  · rcases List.mem_append.mp hd with hd | hd
    · have hm := List.sum_eq_zero_iff.mp hslots d.matched (List.mem_map_of_mem hd)
      obtain ⟨stage, hstage⟩ := SlotStatusSummary.exists_of_mem_all hd
      obtain ⟨p, -, hcounts⟩ := hdirected.stages stage d hstage
      exact hzero hcounts hm
    rcases List.mem_cons.mp hd with rfl | hd
    · exact hzero hdirected.accounts (haccounts.trans (hmatched .accounts))
    rcases List.mem_append.mp hd with hd | hd
    · have hcounts := hdirected.transactions d (Option.mem_toList.mp hd)
      obtain rfl := EndOfRun.eq_of_mem_toList_ite hd
      exact hzero hcounts (hmatched .transactions)
    · have hcounts := hdirected.blocks d (Option.mem_toList.mp hd)
      obtain rfl := EndOfRun.eq_of_mem_toList_ite hd
      exact hzero hcounts (hmatched .blocks)
  · have hle := AccountMatcher.total_perProgramSummary_le hof.directed_matchers.2 order order'
    exact Nat.le_zero.mp (hle.trans (haccounts.trans (hmatched .accounts)).le)
  · show (s.seen.dispatcher .two).counters.updates = 0
    rw [hdispatcher]
    rfl
  · exact computeDroppedTotals_eq_zero _ hone
  · have hlookup : (s.seen.output ctx order order').stability.lookup "endpoint2" =
        some (s.seen.dispatcher .two).stability.summary.1 := Finmap.lookup_insert _
    rw [hlookup, hdispatcher]
    rfl
  · have hlookup : (s.seen.output ctx order order').crossStream.lookup "endpoint2" =
        some (s.seen.dispatcher .two).cross.summary.1 := Finmap.lookup_insert _
    rw [hlookup, hdispatcher]
    rfl

/-- `--solo` with the slots of one endpoint: a slot comes, then the signal. -/
theorem solo_report_one_slot :
    let roles : List SubscriptionRole := [.main .one .processed .slots]
    let ctx : RunContext Unit := { EndOfRun.transactionContext with config :=
      { EndOfRun.transactionContext.config with
        endpoint2 := none, solo := true, soloStreams := [.slots] } }
    let actions : List (SystemAction roles.length) :=
      deliver 0 (.event ⟨4, 0⟩ (.slot 5 .processed)) ++ [.dispatcher .one false, .signal,
        .coordinator .loadShutdown] ++ lastTasks 1
    ∃ s : System Backend.exact ⟨Unit, fun _ _ => ()⟩ roles,
      (start (Pipeline.start Backend.exact ∅ false none roles 16)).run (.duration 60) actions =
        some s ∧ s.seen.counted.ingest.shared.totalSlots = 1 ∧
      ∃ order order', (s.seen.output ctx order order').IsSolo Backend.exact := by
  intro roles ctx actions
  have hrun : ((start (Pipeline.start Backend.exact ∅ false none roles 16 :
      Pipeline Backend.exact ⟨Unit, fun _ _ => ()⟩ roles)).run (.duration 60) actions).map (fun s =>
        (s.coordinator, s.seen.counted.ingest.shared.totalSlots)) = some (.ending [], 1) := by
    decide
  obtain ⟨s, hs, hval⟩ := Option.map_eq_some_iff.mp hrun
  obtain ⟨hfinished, htotal⟩ := Prod.mk.inj hval
  obtain ⟨order⟩ := Finmap.nonempty_enumeration s.seen.unwrapped.reclaimMatchers.accounts.shards
  obtain ⟨order'⟩ := Finmap.nonempty_enumeration
    (s.seen.unwrapped.reclaimMatchers.accounts.summary order).2.shards
  let cli : Cli :=
    { endpoint1 := "http://one", xToken1 := "token", solo := true, duration := some 60,
      commitment := [.processed], withTransactions := true }
  have hconfig : ctx.config.toConfig.Validated := ⟨cli, rfl⟩
  exact ⟨s, hs, htotal, order, order', solo_report ctx hconfig rfl rfl hs hfinished order order'⟩

end System

end GrpcBench
