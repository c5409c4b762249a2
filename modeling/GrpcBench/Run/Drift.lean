import GrpcBench.Library.Folds
import GrpcBench.Run.Ingest
import GrpcBench.Subscribe.Plan

/-!
# Drift on dual-commitment runs

The tracker of an endpoint takes a drift sample of a slot from a Processed-stage event with the
label `processed` and a Confirmed-stage event with the label `confirmed`.  The planner opens one
slot subscription per endpoint, whose label is the first configured commitment; so in the runs of a
plan one of the two never comes, whatever the configuration is.

* `SubscriptionPlan.Delivers`: the runs of a plan.
* `drift_samples_eq_zero`: no drift sample is ever taken in them.
* `driftsRecorded_iff`: the runs in which every slot that is due a sample has one.
-/

namespace GrpcBench

variable {B : Backend} {R : RawSink}

/-- The events come from subscriptions of the plan, slot events from ones with a slots filter. -/
structure SubscriptionPlan.Delivers (plan : SubscriptionPlan) (events : List Event) : Prop where
  role : ∀ event ∈ events, ∃ spec ∈ plan.specs, spec.role = event.subscription
  slots : ∀ event ∈ events, ∀ slot stage, event.payload = .slot slot stage →
    ∃ spec ∈ plan.specs, spec.role = event.subscription ∧ spec.request.slots ≠ ∅

/-- The event reports a stage of a slot on an endpoint. -/
def Event.Reports (event : Event) (e : EndpointRole) (slot : UInt64) (stage : SlotStage) : Prop :=
  event.endpoint = e ∧ event.payload = .slot slot stage

/-- Every slot whose Processed and Confirmed stages both arrived on the endpoint has a drift sample,
the difference of two such arrivals, floored at zero. -/
def DriftsRecorded (events : List Event) (e : EndpointRole) (s : IngestState B R) : Prop :=
  ∀ slot, (∃ p ∈ events, p.Reports e slot .processed) →
    (∃ c ∈ events, c.Reports e slot .confirmed) →
    ∃ p ∈ events, p.Reports e slot .processed ∧ ∃ c ∈ events, c.Reports e slot .confirmed ∧
      StabilityTracker.driftMs B p.ts c.ts ∈ (s.dispatchers e).stability.driftDigest.samples

/-- The events of the slot subscriptions alone are a run of the plan. -/
theorem SubscriptionPlan.delivers_slotEvents {config : Config} (programs : ProgramSet)
    (hsolo : config.solo = false) {events : List Event}
    (h : ∀ event ∈ events, ∃ e, (config.endpointSpec e).isSome = true ∧
      event.subscription = .main e config.firstCommitment .slots) :
    (fromRunConfig config programs).Delivers events where
  role event hevent := by
    obtain ⟨e, he, hsub⟩ := h event hevent
    obtain ⟨spec, hspec, hrole, -⟩ := exists_slotSpec programs hsolo he
    exact ⟨spec, hspec, hrole.trans hsub.symm⟩
  slots event hevent slot stage _ := by
    obtain ⟨e, he, hsub⟩ := h event hevent
    obtain ⟨spec, hspec, hrole, hslots⟩ := exists_slotSpec programs hsolo he
    exact ⟨spec, hspec, hrole.trans hsub.symm, hslots⟩

/-- In a run of a plan, slot events carry the label of the first configured commitment, or none. -/
theorem SubscriptionPlan.Delivers.slotLabel {config : Config} {programs : ProgramSet}
    {events : List Event} (h : (fromRunConfig config programs).Delivers events) {event : Event}
    (hevent : event ∈ events) {slot : UInt64} {stage : SlotStage}
    (hpayload : event.payload = .slot slot stage) :
    event.subscription.commitment = none ∨
      event.subscription.commitment = some config.firstCommitment := by
  obtain ⟨spec, hspec, hrole, hslots⟩ := h.slots event hevent slot stage hpayload
  rcases hsub : event.subscription with ⟨endpoint, commitment, stream⟩ | endpoint
  · rw [hsub] at hrole
    rw [slotLabel_of_mem hspec hslots hrole]
    exact Or.inr rfl
  · exact Or.inl rfl

/-- **No drift is ever recorded** in a run of a plan, for any configuration. -/
theorem drift_samples_eq_zero {config : Config} {programs : ProgramSet} {events : List Event}
    (h : (SubscriptionPlan.fromRunConfig config programs).Delivers events)
    (names : Finmap fun _ : Pubkey32 => String) (strict : Bool) (rawWriter : Option R.State)
    (e : EndpointRole) :
    (((IngestState.start B names strict rawWriter).ingestAll events).dispatchers
      e).stability.driftDigest.samples = 0 := by
  have hinv : (((IngestState.start B names strict rawWriter).ingestAll events).dispatchers
      e).stability.OneSided config.firstCommitment := by
    refine Folds.foldl_invariant (P := fun s : IngestState B R =>
      (s.dispatchers e).stability.OneSided config.firstCommitment) (fun s event hevent hs => ?_)
      (StabilityTracker.OneSided.new config.firstCommitment e)
    show ((s.ingest event).dispatchers e).stability.OneSided config.firstCommitment
    rw [IngestState.stability_ingest]
    split_ifs
    · exact hs.observe fun slot stage hpayload => h.slotLabel hevent hpayload
    · exact hs
  exact hinv.samples

/-- **Drift on the runs of a plan.**  Every slot that is due a sample has one exactly when no slot
is due one: when no slot's Processed and Confirmed stages both arrived on the endpoint. -/
theorem driftsRecorded_iff {config : Config} {programs : ProgramSet} {events : List Event}
    (h : (SubscriptionPlan.fromRunConfig config programs).Delivers events)
    (names : Finmap fun _ : Pubkey32 => String) (strict : Bool) (rawWriter : Option R.State)
    (e : EndpointRole) :
    DriftsRecorded events e ((IngestState.start B names strict rawWriter).ingestAll events) ↔
      ¬ ∃ slot, (∃ p ∈ events, p.Reports e slot .processed) ∧
        ∃ c ∈ events, c.Reports e slot .confirmed := by
  constructor
  · rintro hrec ⟨slot, hp, hc⟩
    obtain ⟨p, -, -, c, -, -, hmem⟩ := hrec slot hp hc
    rw [drift_samples_eq_zero h] at hmem
    exact Multiset.notMem_zero _ hmem
  · intro hnone slot hp hc
    exact absurd ⟨slot, hp, hc⟩ hnone

/-- The default commitments, and one stage of a slot: nothing is due. -/
theorem driftsRecorded_one_stage :
    let events : List Event := [⟨⟨0, 0⟩, .main .one .processed .slots, .slot 9 .processed⟩]
    ∃ config, Config.fromCli .base = .ok config ∧
      (SubscriptionPlan.fromRunConfig config .system).Delivers events ∧
      DriftsRecorded events .one
        ((IngestState.start Backend.exact (R := ⟨Unit, fun _ _ => ()⟩) ∅ false none).ingestAll
          events) := by
  intro events
  have hdeliver : ∀ config, Config.fromCli .base = .ok config →
      (SubscriptionPlan.fromRunConfig config .system).Delivers events := by
    rintro config ⟨⟩
    exact SubscriptionPlan.delivers_slotEvents .system rfl fun event hevent =>
      ⟨.one, rfl, by rw [List.mem_singleton.mp hevent]; rfl⟩
  refine ⟨_, rfl, hdeliver _ rfl, (driftsRecorded_iff (hdeliver _ rfl) ∅ false none .one).mpr ?_⟩
  rintro ⟨slot, -, c, hc, -, hstage⟩
  rw [List.mem_singleton.mp hc] at hstage
  cases hstage

/-- The default commitments, and the two stages of slot 9 on the one slot subscription of endpoint
1: the slot is due a sample and has none. -/
theorem not_driftsRecorded_two_stages :
    let slotEvent : SlotStage → UInt64 → Event := fun stage ms =>
      ⟨⟨1000000 * ms, ms⟩, .main .one .processed .slots, .slot 9 stage⟩
    let events := [slotEvent .processed 0, slotEvent .confirmed 400]
    ∃ config, Config.fromCli .base = .ok config ∧ config.solo = false ∧
      .processed ∈ config.commitments ∧ .confirmed ∈ config.commitments ∧
      (SubscriptionPlan.fromRunConfig config .system).Delivers events ∧
      ¬ DriftsRecorded events .one
        ((IngestState.start Backend.exact (R := ⟨Unit, fun _ _ => ()⟩) ∅ false none).ingestAll
          events) := by
  intro slotEvent events
  have hdeliver : ∀ config, Config.fromCli .base = .ok config →
      (SubscriptionPlan.fromRunConfig config .system).Delivers events := by
    rintro config ⟨⟩
    refine SubscriptionPlan.delivers_slotEvents .system rfl fun event hevent => ⟨.one, rfl, ?_⟩
    rcases List.mem_pair.mp hevent with rfl | rfl <;> rfl
  refine ⟨_, rfl, rfl, by decide, by decide, hdeliver _ rfl, fun hrec => ?_⟩
  obtain ⟨p, -, -, c, -, -, hmem⟩ := hrec 9 ⟨_, List.mem_cons_self, rfl, rfl⟩
    ⟨_, List.mem_cons_of_mem _ List.mem_cons_self, rfl, rfl⟩
  rw [drift_samples_eq_zero (hdeliver _ rfl)] at hmem
  exact Multiset.notMem_zero _ hmem

end GrpcBench
