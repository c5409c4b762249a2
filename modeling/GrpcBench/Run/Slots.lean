import GrpcBench.Config
import GrpcBench.Library.Folds
import GrpcBench.Library.HighWater
import GrpcBench.Run.Ingest

/-!
# The slot counter

The slot counter is documented as the number of distinct slots whose `processed` stage was observed
on endpoint 1, and a run with `--slots` stops on it.  It is kept with a high-water mark that starts
at `0`.  So it misses a slot that first comes below a higher one, and slot `0`.

* `shouldStop`: the stop condition of a run.
* `processedSlots`: the slots the counter is about.
* `slotCounter_ingestAll`: the counter counts with a mark.
* `slotsCounted_iff`: the runs in which it counts the distinct slots.
-/

namespace GrpcBench

variable {B : Backend} {R : RawSink}

/-- `should_stop`, for the time that has passed since the start. -/
def shouldStop (stop : StopCondition) (elapsedNs totalSlots : ℕ) : Bool :=
  match stop with
  | .slots n => n.toNat ≤ totalSlots
  | .duration secs => secs.toNat * 10 ^ 9 ≤ elapsedNs
  | .either slots duration =>
    decide (slots.toNat ≤ totalSlots) || decide (duration.toNat * 10 ^ 9 ≤ elapsedNs)

/-- The slot of an event that is the `processed` stage of a slot on endpoint 1. -/
def Event.processedSlot (event : Event) : Option ℕ :=
  match event.payload with
  | .slot slot stage =>
    if event.endpoint = .one ∧ stage = .processed then some slot.toNat else none
  | _ => none

/-- The slots whose `processed` stage is observed on endpoint 1, as they come. -/
def processedSlots (events : List Event) : List ℕ :=
  events.filterMap Event.processedSlot

/-- The mark of endpoint 1's dispatcher, and the counter. -/
def IngestState.slotCounter (s : IngestState B R) : ℕ × ℕ :=
  ((s.dispatchers .one).counters.lastCountedSlot.toNat, s.shared.totalSlots)

/-- A `processed` stage on endpoint 1 is counted with the mark. -/
theorem slotCounter_of_some (s : IngestState B R) {event : Event} {slot : ℕ}
    (h : event.processedSlot = some slot) :
    (s.ingest event).slotCounter = HighWater.step s.slotCounter slot := by
  obtain ⟨ts, subscription, payload⟩ := event
  cases payload with
  | slot slot' stage =>
    dsimp only [Event.processedSlot] at h
    split_ifs at h with hevent
    cases h
    obtain ⟨he, rfl⟩ := hevent
    have hcount : ∀ c n, countEvent ⟨ts, subscription, .slot slot' .processed⟩ c n =
        if c.lastCountedSlot < slot' then ({ c with lastCountedSlot := slot' }, n + 1)
        else (c, n) := by
      intro c n
      simp [countEvent, he]
    rw [IngestState.ingest, he]
    simp only [IngestState.slotCounter, IngestState.dispatchOn, dispatchEvent, hcount,
      Function.update_self, HighWater.step]
    by_cases hlt : (s.dispatchers .one).counters.lastCountedSlot < slot'
    · rw [if_pos hlt]
      exact (if_pos (UInt64.lt_iff_toNat_lt.mp hlt)).symm
    · rw [if_neg hlt]
      exact (if_neg fun h => hlt (UInt64.lt_iff_toNat_lt.mpr h)).symm
  | _ => cases h

theorem countEvent_of_none {event : Event} (h : event.processedSlot = none)
    (c : IngestCountersPartial) (n : ℕ) :
    (countEvent event c n).1.lastCountedSlot = c.lastCountedSlot ∧
      (countEvent event c n).2 = n := by
  unfold Event.processedSlot at h
  unfold countEvent
  cases hpayload : event.payload with
  | slot slot stage =>
    rw [hpayload] at h
    dsimp only at h ⊢
    split_ifs at h with hevent
    rw [if_neg fun hcount => hevent ⟨hcount.1, hcount.2.1⟩]
    exact ⟨rfl, rfl⟩
  | _ => exact ⟨rfl, rfl⟩

/-- Nothing else moves the counter or its mark. -/
theorem slotCounter_of_none (s : IngestState B R) {event : Event}
    (h : event.processedSlot = none) : (s.ingest event).slotCounter = s.slotCounter := by
  have htotal : (s.ingest event).shared.totalSlots = s.shared.totalSlots :=
    (countEvent_of_none h (s.dispatchers event.endpoint).counters s.shared.totalSlots).2
  have hmark : ((s.ingest event).dispatchers .one).counters.lastCountedSlot =
      (s.dispatchers .one).counters.lastCountedSlot := by
    by_cases he : EndpointRole.one = event.endpoint
    · rw [he, s.dispatchers_ingest_self]
      exact (countEvent_of_none h _ _).1
    · rw [s.dispatchers_ingest_of_ne he]
  rw [IngestState.slotCounter, IngestState.slotCounter, htotal, hmark]

/-- **The counter counts with a mark.** -/
theorem slotCounter_ingestAll (names : Finmap fun _ : Pubkey32 => String) (strict : Bool)
    (rawWriter : Option R.State) (events : List Event) :
    ((IngestState.start B names strict rawWriter).ingestAll events).slotCounter =
      HighWater.run 0 (processedSlots events) :=
  Folds.foldl_projection IngestState.slotCounter
    (fun s event _ (h : Event.processedSlot event = _) => slotCounter_of_some s h)
    (fun s event (h : Event.processedSlot event = none) => slotCounter_of_none s h) events _

/-- The counter is the number of distinct slots, and a run with `--slots` stops when it should. -/
def SlotsCounted (s : IngestState B R) (events : List Event) : Prop :=
  s.shared.totalSlots = (processedSlots events).toFinset.card ∧
    ∀ n elapsedNs, shouldStop (.slots n) elapsedNs s.shared.totalSlots =
      decide (n.toNat ≤ (processedSlots events).toFinset.card)

/-- **The slot counter.**  At every moment of a run the counter is the number of distinct slots
whose `processed` stage was observed on endpoint 1, and the run is stopped accordingly, if and only
if each of these slots, as it first comes, is not `0` and is above all those before it. -/
theorem slotsCounted_iff (names : Finmap fun _ : Pubkey32 => String) (strict : Bool)
    (rawWriter : Option R.State) (events : List Event) :
    (∀ past, past <+: events →
      SlotsCounted ((IngestState.start B names strict rawWriter).ingestAll past) past) ↔
    HighWater.FirstsRise 0 (processedSlots events) := by
  have hcount (past : List Event) :
      ((IngestState.start B names strict rawWriter).ingestAll past).shared.totalSlots =
        (HighWater.run 0 (processedSlots past)).2 :=
    congrArg Prod.snd (slotCounter_ingestAll names strict rawWriter past)
  refine ⟨fun h => ?_, fun h past hpast => ?_⟩
  · have heq := (h events (List.prefix_refl _)).1
    rw [hcount] at heq
    exact (HighWater.count_eq_iff _).mp heq
  · have hrise : HighWater.FirstsRise 0 (processedSlots past) :=
      h.of_prefix (hpast.filterMap Event.processedSlot)
    have htotal := (hcount past).trans ((HighWater.count_eq_iff _).mpr hrise)
    refine ⟨htotal, fun n elapsedNs => ?_⟩
    rw [shouldStop, htotal]

/-- Slot `5`, then slot `4`: two distinct slots, of which one is counted, and `--slots 2` does not
stop the run. -/
theorem not_slotsCounted_out_of_order :
    let event : UInt64 → Event := fun slot =>
      ⟨⟨0, 0⟩, .main .one .processed .slots, .slot slot .processed⟩
    let s := (IngestState.start Backend.exact (R := ⟨Unit, fun _ _ => ()⟩) ∅ false none).ingestAll
      [event 5, event 4]
    (processedSlots [event 5, event 4]).toFinset.card = 2 ∧ s.shared.totalSlots = 1 ∧
      shouldStop (.slots 2) 0 s.shared.totalSlots = false ∧
      ¬ SlotsCounted s [event 5, event 4] := by
  intro event s
  have hdistinct : (processedSlots [event 5, event 4]).toFinset.card = 2 := by decide
  have htotal : s.shared.totalSlots = 1 := by decide
  refine ⟨hdistinct, htotal, by rw [htotal]; decide, fun h => ?_⟩
  rw [SlotsCounted, hdistinct, htotal] at h
  exact absurd h.1 (by decide)

end GrpcBench
