import GrpcBench.Library.Meetings
import GrpcBench.Stability
import Mathlib.Data.List.MinMax

/-!
# What a stability tracker retains

The arrival maps of a stability tracker have no eviction: a slot leaves its map when its counterpart
arrives, and only then.  A slot is therefore retained exactly as long as its arrivals are not paired
off, however far behind it falls.

* `Event.stageArrival`: the arrival of a slot that an event records, if any.
* `StabilityTracker.retains_run_iff`: the slots that are retained after a run.
* `StabilityTracker.boundedMemory_iff`: when they stay within a bound of the highest slot.
-/

namespace GrpcBench

open Rendezvous (PairedOff arrive waitingAfter)

/-- The arrival of a slot that an event of the endpoint records: its stage, if the commitment label
is that stage's. -/
def Event.stageArrival (endpoint : EndpointRole) (slot : UInt64) (event : Event) :
    Option SlotStage :=
  if event.endpoint ≠ endpoint then none
  else match event.payload, event.subscription.commitment with
    | .slot s .processed, some .processed => if s = slot then some .processed else none
    | .slot s .confirmed, some .confirmed => if s = slot then some .confirmed else none
    | _, _ => none

/-- The slot of a slot event of the endpoint. -/
def Event.slotOn (endpoint : EndpointRole) (event : Event) : Option UInt64 :=
  if event.endpoint ≠ endpoint then none
  else match event.payload with
    | .slot s _ => some s
    | _ => none

/-- The highest slot among the slot events of the endpoint. -/
def highestSlot (endpoint : EndpointRole) (events : List Event) : ℕ :=
  ((events.filterMap (Event.slotOn endpoint)).map UInt64.toNat).foldr max 0

variable {B : Backend}

namespace StabilityTracker

/-- A run of the tracker. -/
def run (t : StabilityTracker B) (events : List Event) : StabilityTracker B :=
  events.foldl observe t

/-- A slot is in one of the arrival maps. -/
def Retains (t : StabilityTracker B) (slot : UInt64) : Prop :=
  slot ∈ t.processedArrivals ∨ slot ∈ t.confirmedArrivals

/-- The arrival maps hold one stage of a slot, or none. -/
structure HoldsAt (t : StabilityTracker B) (slot : UInt64) (waiting : Option (SlotStage × Unit)) :
    Prop where
  processed : slot ∈ t.processedArrivals ↔ waiting = some (.processed, ())
  confirmed : slot ∈ t.confirmedArrivals ↔ waiting = some (.confirmed, ())
  stage : ∀ w ∈ waiting, w.1 = .processed ∨ w.1 = .confirmed

theorem mem_orInsert {arrivals : Finmap fun _ : UInt64 => EventTimestamp} {slot s : UInt64}
    {ts : EventTimestamp} : s ∈ orInsert arrivals slot ts ↔ s = slot ∨ s ∈ arrivals := by
  unfold orInsert
  split_ifs with h
  · exact ⟨Or.inr, fun hs => hs.elim (fun heq => heq ▸ h) id⟩
  · exact Finmap.mem_insert

theorem HoldsAt.retains_iff {t : StabilityTracker B} {slot : UInt64}
    {waiting : Option (SlotStage × Unit)} (h : t.HoldsAt slot waiting) :
    t.Retains slot ↔ waiting ≠ none := by
  rw [Retains, h.processed, h.confirmed]
  rcases waiting with _ | ⟨stage, u⟩
  · simp
  · rcases h.stage _ rfl with rfl | rfl <;> simp

/-! ## One event -/

section Step

variable (t : StabilityTracker B) (slot : UInt64) (ts : EventTimestamp)

/-- What an arrival does to the two maps: it enters its own, unless the counterpart is in the other;
then both leave. -/
def Met (own other own' other' : Finmap fun _ : UInt64 => EventTimestamp) : Prop :=
  (slot ∉ other ∧ own' = orInsert own slot ts ∧ other' = other) ∨
    (slot ∈ other ∧ own' = (orInsert own slot ts).erase slot ∧ other' = other.erase slot)

/-- A processed arrival meets a confirmed one. -/
theorem met_processed :
    let t' := t.recordStage slot .processed (some .processed) ts
    Met slot ts t.processedArrivals t.confirmedArrivals t'.processedArrivals
      t'.confirmedArrivals := by
  rcases hc : t.confirmedArrivals.lookup slot with _ | c
  · refine Or.inl ⟨Finmap.lookup_eq_none.mp hc, ?_, ?_⟩ <;> simp only [recordStage, hc]
  · refine Or.inr ⟨Finmap.mem_of_lookup_eq_some hc, ?_, ?_⟩ <;>
      simp only [recordStage, recordDrift, hc]

/-- A confirmed arrival meets a processed one. -/
theorem met_confirmed :
    let t' := t.recordStage slot .confirmed (some .confirmed) ts
    Met slot ts t.confirmedArrivals t.processedArrivals t'.confirmedArrivals
      t'.processedArrivals := by
  rcases hp : t.processedArrivals.lookup slot with _ | p
  · refine Or.inl ⟨Finmap.lookup_eq_none.mp hp, ?_, ?_⟩ <;> simp only [recordStage, hp]
  · refine Or.inr ⟨Finmap.mem_of_lookup_eq_some hp, ?_, ?_⟩ <;>
      simp only [recordStage, recordDrift, hp]

variable {t slot ts}

theorem Met.mem_iff {own other own' other' : Finmap fun _ : UInt64 => EventTimestamp}
    (h : Met slot ts own other own' other') (s : UInt64) :
    (s ∈ own' ↔ if s = slot then slot ∉ other else s ∈ own) ∧
      (s ∈ other' ↔ s ≠ slot ∧ s ∈ other) := by
  rcases h with ⟨hout, rfl, rfl⟩ | ⟨hin, rfl, rfl⟩
  · rw [mem_orInsert]
    refine ⟨by by_cases hs : s = slot <;> simp [hs, hout], ?_⟩
    exact ⟨fun h => ⟨fun hs => hout (hs ▸ h), h⟩, And.right⟩
  · rw [Finmap.mem_erase, mem_orInsert]
    exact ⟨by by_cases hs : s = slot <;> simp [hs, hin], Finmap.mem_erase⟩

end Step

variable {t : StabilityTracker B} {slot : UInt64} {waiting : Option (SlotStage × Unit)}

/-- Where two stages can wait, an arrival of one waits unless the other does. -/
theorem arrive_iff {own other : SlotStage} (hne : own ≠ other)
    (h : ∀ w ∈ waiting, w.1 = own ∨ w.1 = other) :
    ((arrive waiting own ()).1 = some (own, ()) ↔ waiting ≠ some (other, ())) ∧
      ∀ w ∈ (arrive waiting own ()).1, w.1 = own := by
  rcases waiting with _ | ⟨stage, u⟩
  · simp [arrive]
  · rcases h _ rfl with rfl | rfl
    · simp [arrive, hne]
    · simp [arrive, hne.symm]

/-- A processed arrival is one step of the slot's rendezvous. -/
theorem HoldsAt.processed_step (h : t.HoldsAt slot waiting) (ts : EventTimestamp) :
    (t.recordStage slot .processed (some .processed) ts).HoldsAt slot
      (arrive waiting .processed ()).1 := by
  obtain ⟨hprocessed, hconfirmed⟩ := (t.met_processed slot ts).mem_iff slot
  obtain ⟨hwaits, hstage⟩ := arrive_iff (by decide : SlotStage.processed ≠ .confirmed) h.stage
  rw [if_pos rfl, h.confirmed] at hprocessed
  constructor
  · exact hprocessed.trans hwaits.symm
  · refine hconfirmed.trans (iff_of_false (fun hc => hc.1 rfl) fun heq => ?_)
    exact absurd (hstage _ heq) (by decide)
  · intro w hw
    exact Or.inl (hstage w hw)

/-- A confirmed arrival is one step of the slot's rendezvous. -/
theorem HoldsAt.confirmed_step (h : t.HoldsAt slot waiting) (ts : EventTimestamp) :
    (t.recordStage slot .confirmed (some .confirmed) ts).HoldsAt slot
      (arrive waiting .confirmed ()).1 := by
  obtain ⟨hconfirmed, hprocessed⟩ := (t.met_confirmed slot ts).mem_iff slot
  obtain ⟨hwaits, hstage⟩ := arrive_iff (by decide : SlotStage.confirmed ≠ .processed)
    fun w hw => (h.stage w hw).symm
  rw [if_pos rfl, h.processed] at hconfirmed
  constructor
  · refine hprocessed.trans (iff_of_false (fun hp => hp.1 rfl) fun heq => ?_)
    exact absurd (hstage _ heq) (by decide)
  · exact hconfirmed.trans hwaits.symm
  · intro w hw
    exact Or.inr (hstage w hw)

/-- An event that records no arrival of a slot leaves the slot alone. -/
theorem HoldsAt.recordStage_of_none (h : t.HoldsAt slot waiting) {s : UInt64} {stage : SlotStage}
    {commitment : Option Commitment} (ts : EventTimestamp)
    (hp : ¬ (s = slot ∧ stage = .processed ∧ commitment = some .processed))
    (hc : ¬ (s = slot ∧ stage = .confirmed ∧ commitment = some .confirmed)) :
    (t.recordStage s stage commitment ts).HoldsAt slot waiting := by
  by_cases hstage : stage = .processed ∧ commitment = some .processed
  · obtain ⟨rfl, rfl⟩ := hstage
    have hne : slot ≠ s := fun heq => hp ⟨heq.symm, rfl, rfl⟩
    obtain ⟨hprocessed, hconfirmed⟩ := (t.met_processed s ts).mem_iff slot
    rw [if_neg hne] at hprocessed
    exact ⟨hprocessed.trans h.processed,
      (hconfirmed.trans (and_iff_right hne)).trans h.confirmed, h.stage⟩
  · by_cases hstage' : stage = .confirmed ∧ commitment = some .confirmed
    · obtain ⟨rfl, rfl⟩ := hstage'
      have hne : slot ≠ s := fun heq => hc ⟨heq.symm, rfl, rfl⟩
      obtain ⟨hconfirmed, hprocessed⟩ := (t.met_confirmed s ts).mem_iff slot
      rw [if_neg hne] at hconfirmed
      exact ⟨(hprocessed.trans (and_iff_right hne)).trans h.processed,
        hconfirmed.trans h.confirmed, h.stage⟩
    · rw [t.recordStage_eq_self ts s stage commitment hstage hstage']
      exact h

/-! ## Runs -/

theorem HoldsAt.congr {t' : StabilityTracker B} (h : t.HoldsAt slot waiting)
    (hp : t'.processedArrivals = t.processedArrivals)
    (hc : t'.confirmedArrivals = t.confirmedArrivals) : t'.HoldsAt slot waiting :=
  ⟨hp ▸ h.processed, hc ▸ h.confirmed, h.stage⟩

/-- The arrival that a slot event of the endpoint records. -/
theorem stageArrival_slot {endpoint : EndpointRole} {event : Event} {s : UInt64}
    {stage : SlotStage} (he : event.endpoint = endpoint)
    (hpayload : event.payload = .slot s stage) :
    event.stageArrival endpoint slot =
      if s = slot ∧ stage = .processed ∧ event.subscription.commitment = some .processed then
        some .processed
      else if s = slot ∧ stage = .confirmed ∧ event.subscription.commitment = some .confirmed then
        some .confirmed
      else none := by
  simp only [Event.stageArrival, he, hpayload, ne_eq, not_true, if_false]
  split
  · rename_i heq hcommitment
    cases heq
    simp [hcommitment]
  · rename_i heq hcommitment
    cases heq
    simp [hcommitment]
  · rename_i hp hc
    rw [if_neg fun h => hp s (by rw [h.2.1]) h.2.2, if_neg fun h => hc s (by rw [h.2.1]) h.2.2]

/-- **One event** is the arrival it records, or none. -/
theorem HoldsAt.observe (h : t.HoldsAt slot waiting) (event : Event) :
    (t.observe event).HoldsAt slot ((event.stageArrival t.endpoint slot).elim waiting
      fun stage => (arrive waiting stage ()).1) := by
  have hquiet : ((t.resolveReconnect event.ts).recordGap event.ts).HoldsAt slot waiting :=
    h.congr (by simp) (by simp)
  by_cases he : event.endpoint = t.endpoint
  · rcases hpayload : event.payload with ⟨s, stage⟩ | _ | _ | _ | _
    · rw [stageArrival_slot he hpayload]
      simp only [StabilityTracker.observe, he, hpayload, ne_eq, not_true, if_false]
      split_ifs with hp hc
      · obtain ⟨rfl, rfl, hcommitment⟩ := hp
        rw [hcommitment]
        exact hquiet.processed_step event.ts
      · obtain ⟨rfl, rfl, hcommitment⟩ := hc
        rw [hcommitment]
        exact hquiet.confirmed_step event.ts
      · exact hquiet.recordStage_of_none event.ts hp hc
    all_goals
      simp only [StabilityTracker.observe, Event.stageArrival, he, hpayload, ne_eq, not_true,
        if_false]
      exact h.congr (by simp) (by simp)
  · simp only [StabilityTracker.observe, Event.stageArrival, he, ne_eq, not_false_iff, if_true]
    exact h

/-- The arrivals of a slot that the events record, in order. -/
def stageArrivals (endpoint : EndpointRole) (slot : UInt64) (events : List Event) :
    List SlotStage :=
  events.filterMap (Event.stageArrival endpoint slot)

theorem HoldsAt.run (h : t.HoldsAt slot waiting) (events : List Event) :
    (t.run events).HoldsAt slot (waitingAfter waiting
      ((stageArrivals t.endpoint slot events).map fun stage => (stage, ()))) := by
  induction events generalizing t waiting with
  | nil => exact h
  | cons event events ih =>
    have hnext := ih (h.observe event)
    rw [endpoint_observe] at hnext
    rcases harrival : event.stageArrival t.endpoint slot with _ | stage
    · rw [stageArrivals, List.filterMap_cons_none harrival]
      rw [harrival] at hnext
      exact hnext
    · rw [stageArrivals, List.filterMap_cons_some harrival]
      rw [harrival] at hnext
      exact hnext

theorem holdsAt_new (B : Backend) (endpoint : EndpointRole) (slot : UInt64) :
    (new B endpoint).HoldsAt slot none :=
  ⟨iff_of_false Finmap.notMem_empty (by simp), iff_of_false Finmap.notMem_empty (by simp), by simp⟩

variable {endpoint : EndpointRole} {events : List Event}

/-- **What is retained.**  A slot whose arrivals are not paired off. -/
theorem retains_run_iff :
    ((new B endpoint).run events).Retains slot ↔
      ¬ PairedOff (stageArrivals endpoint slot events) := by
  rw [((holdsAt_new B endpoint slot).run events).retains_iff, Ne,
    Rendezvous.waitingAfter_eq_none_iff, List.map_map]
  exact not_congr (iff_of_eq (congrArg PairedOff (List.map_id _)))

/-- A slot with processed arrivals only is never dropped. -/
theorem mem_processedArrivals_run (hne : stageArrivals endpoint slot events ≠ [])
    (hstage : ∀ stage ∈ stageArrivals endpoint slot events, stage = .processed) :
    slot ∈ ((new B endpoint).run events).processedArrivals := by
  have hside : ∀ a ∈ (stageArrivals endpoint slot events).map (fun stage => (stage, ())),
      a.1 = .processed := by
    intro a ha
    obtain ⟨stage, hin, rfl⟩ := List.mem_map.mp ha
    exact hstage stage hin
  have hrun : ((new B endpoint).run events).HoldsAt slot (waitingAfter none
      ((stageArrivals endpoint slot events).map fun stage => (stage, ()))) :=
    (holdsAt_new B endpoint slot).run events
  rw [hrun.processed, Rendezvous.waitingAfter_of_side (by simp) hside, List.getLast?_map,
    List.getLast?_eq_some_getLast hne]
  exact congrArg (fun stage => some (stage, ())) (hstage _ (List.getLast_mem hne))

/-- After every observation, the slots retained are at most `W` behind the highest slot. -/
def BoundedMemory (B : Backend) (endpoint : EndpointRole) (W : ℕ) (events : List Event) : Prop :=
  ∀ past rest, events = past ++ rest → ∀ slot, ((new B endpoint).run past).Retains slot →
    highestSlot endpoint past ≤ slot.toNat + W

/-- **When memory is bounded.**  The slots retained stay within `W` of the highest slot when at
every moment the arrivals of every slot further behind are paired off: some of one stage and then
one of the other, any number of times. -/
theorem boundedMemory_iff (B : Backend) (endpoint : EndpointRole) (W : ℕ) (events : List Event) :
    BoundedMemory B endpoint W events ↔
      ∀ past rest, events = past ++ rest → ∀ slot : UInt64,
        slot.toNat + W < highestSlot endpoint past →
          PairedOff (stageArrivals endpoint slot past) := by
  unfold BoundedMemory
  simp only [retains_run_iff]
  constructor
  · intro h past rest heq slot hfar
    by_contra hpaired
    exact absurd (h past rest heq slot hpaired) (by omega)
  · intro h past rest heq slot hpaired
    by_contra hfar
    exact hpaired (h past rest heq slot (by omega))

/-- A processed slot, under the label that the slots subscription has by default. -/
def processedAt (slot : UInt64) : Event :=
  ⟨⟨slot, slot⟩, .main .one .processed .slots, .slot slot .processed⟩

/-- A run of processed slots retains all of them. -/
theorem mem_processedArrivals_processedAt (slots : List UInt64) {slot : UInt64}
    (h : slot ∈ slots) :
    slot ∈ ((new B .one).run (slots.map processedAt)).processedArrivals := by
  have hstage : ∀ s, (processedAt s).stageArrival .one slot =
      if s = slot then some .processed else none := fun s => rfl
  refine mem_processedArrivals_run (fun hnil => ?_) fun stage hmem => ?_
  · rw [stageArrivals, List.filterMap_eq_nil_iff] at hnil
    have hslot := hnil (processedAt slot) (List.mem_map_of_mem h)
    rw [hstage, if_pos rfl] at hslot
    cases hslot
  · obtain ⟨event, hevent, hsome⟩ := List.mem_filterMap.mp hmem
    obtain ⟨s, -, rfl⟩ := List.mem_map.mp hevent
    rw [hstage] at hsome
    split_ifs at hsome
    exact (Option.some.inj hsome).symm

/-- Without confirmed arrivals no number of slots is a bound, and the map grows with the run. -/
theorem not_boundedMemory_processed :
    (∀ W, W + 1 < 2 ^ 64 → ∃ events, ¬ BoundedMemory Backend.exact .one W events) ∧
      ∀ n ≤ 2 ^ 64, ∃ events : List Event, events.length = n ∧
        n ≤ ((new Backend.exact .one).run events).processedArrivals.size := by
  constructor
  · intro W hW
    refine ⟨[0, UInt64.ofNat (W + 1)].map processedAt, fun h => ?_⟩
    have hbound := h _ [] (List.append_nil _).symm 0
      (Or.inl (mem_processedArrivals_processedAt _ List.mem_cons_self))
    have hhighest : highestSlot .one ([0, UInt64.ofNat (W + 1)].map processedAt) =
        max 0 (max (UInt64.ofNat (W + 1)).toNat 0) := rfl
    rw [hhighest, UInt64.toNat_ofNat_of_lt' hW] at hbound
    simp at hbound
  · intro n hn
    let slots := (List.range n).map UInt64.ofNat
    refine ⟨slots.map processedAt, by simp [slots], ?_⟩
    have hinj : Set.InjOn UInt64.ofNat (Finset.range n) := by
      intro i hi j hj heq
      have hlt : ∀ k ∈ Finset.range n, k < 2 ^ 64 := fun k hk =>
        Nat.lt_of_lt_of_le (Finset.mem_range.mp hk) hn
      rw [← UInt64.toNat_ofNat_of_lt' (hlt i hi), ← UInt64.toNat_ofNat_of_lt' (hlt j hj), heq]
    have hsub : (Finset.range n).image UInt64.ofNat ⊆
        ((new Backend.exact .one).run (slots.map processedAt)).processedArrivals.keys := by
      intro slot hslot
      obtain ⟨i, hi, rfl⟩ := Finset.mem_image.mp hslot
      exact Finmap.mem_keys.mpr (mem_processedArrivals_processedAt slots
        (List.mem_map_of_mem (List.mem_range.mpr (Finset.mem_range.mp hi))))
    have hcard := Finset.card_le_card hsub
    rwa [Finset.card_image_of_injOn hinj, Finset.card_range] at hcard

end StabilityTracker

end GrpcBench
