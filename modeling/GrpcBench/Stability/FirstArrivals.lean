import GrpcBench.Stability.Memory
import Mathlib.Data.List.Find

/-!
# Drift samples and first arrivals

A drift sample pairs the first processed arrival of a slot with its first confirmed one.  Pairing
them takes both out of their maps, and the tracker does not remember that the slot is done: an
arrival of each stage after that gives one more sample.

* `Event.arrivalAt`, `firstArrival`, `dueDrifts`: the samples that are due.
* `HoldsFirst`, `recorded_filter`: what the tracker records for one slot, in any run.
* `samples_run`: all its drift samples, slot by slot.
* `driftSamples_iff`: the runs that record what is due.
-/

namespace GrpcBench

open Rendezvous (arriveFirst encounters)

/-- The arrival of a slot that an event of the endpoint records, with its time. -/
def Event.arrivalAt (endpoint : EndpointRole) (slot : UInt64) (event : Event) :
    Option (SlotStage × EventTimestamp) :=
  (event.stageArrival endpoint slot).map fun stage => (stage, event.ts)

/-- The time of the first arrival of a slot at a stage. -/
def firstArrival (endpoint : EndpointRole) (slot : UInt64) (stage : SlotStage)
    (events : List Event) : Option EventTimestamp :=
  (events.find? fun event => event.stageArrival endpoint slot = some stage).map Event.ts

variable {B : Backend}

namespace StabilityTracker

/-- The drift of a slot that has arrived at both stages: from the first arrival at the one to the
first arrival at the other. -/
def dueDrift (B : Backend) (endpoint : EndpointRole) (events : List Event) (slot : UInt64) :
    Option ℚ :=
  (firstArrival endpoint slot .processed events).bind fun processed =>
    (firstArrival endpoint slot .confirmed events).map fun confirmed =>
      driftMs B processed confirmed

/-- The slots of the endpoint's slot events. -/
def slotsOf (endpoint : EndpointRole) (events : List Event) : Finset UInt64 :=
  (events.filterMap (Event.slotOn endpoint)).toFinset

/-- One sample for each slot that has arrived at both stages. -/
def dueDrifts (B : Backend) (endpoint : EndpointRole) (events : List Event) : Multiset ℚ :=
  ∑ slot ∈ slotsOf endpoint events, ((dueDrift B endpoint events slot).toList : Multiset ℚ)

/-! ## What is recorded -/

/-- The drift that a stage records. -/
def stageDrift (t : StabilityTracker B) (slot : UInt64) (stage : SlotStage)
    (commitment : Option Commitment) (ts : EventTimestamp) : Option ℚ :=
  match stage, commitment with
  | .processed, some .processed => (t.confirmedArrivals.lookup slot).map fun c => driftMs B ts c
  | .confirmed, some .confirmed => (t.processedArrivals.lookup slot).map fun p => driftMs B p ts
  | _, _ => none

/-- The drift that an event records, with its slot. -/
def foundDrift (t : StabilityTracker B) (event : Event) : Option (UInt64 × ℚ) :=
  if event.endpoint ≠ t.endpoint then none
  else match event.payload with
    | .slot slot stage =>
      (t.stageDrift slot stage event.subscription.commitment event.ts).map fun d => (slot, d)
    | _ => none

/-- The drifts that a run records, each with its slot. -/
def recorded (t : StabilityTracker B) : List Event → List (UInt64 × ℚ)
  | [] => []
  | event :: events => (t.foundDrift event).toList ++ recorded (t.observe event) events

/-- The drift of an arrival and the party it meets. -/
def driftOf (B : Backend) (m : (SlotStage × EventTimestamp) × EventTimestamp) : ℚ :=
  if m.1.1 = .processed then driftMs B m.1.2 m.2 else driftMs B m.2 m.1.2

theorem stageDrift_eq_none (t : StabilityTracker B) {slot : UInt64} {stage : SlotStage}
    {commitment : Option Commitment} {ts : EventTimestamp}
    (hp : ¬ (stage = .processed ∧ commitment = some .processed))
    (hc : ¬ (stage = .confirmed ∧ commitment = some .confirmed)) :
    t.stageDrift slot stage commitment ts = none := by
  unfold stageDrift
  split
  · exact absurd ⟨rfl, rfl⟩ hp
  · exact absurd ⟨rfl, rfl⟩ hc
  · rfl

theorem driftDigest_recordStage (t : StabilityTracker B) (slot : UInt64) (stage : SlotStage)
    (commitment : Option Commitment) (ts : EventTimestamp) :
    (t.recordStage slot stage commitment ts).driftDigest =
      (t.stageDrift slot stage commitment ts).toList.foldl DistributionDigest.push
        t.driftDigest := by
  by_cases hp : stage = .processed ∧ commitment = some .processed
  · obtain ⟨rfl, rfl⟩ := hp
    rcases hlook : t.confirmedArrivals.lookup slot with _ | c
    · simp only [recordStage, stageDrift, hlook]
      rfl
    · simp only [recordStage, recordDrift, stageDrift, hlook]
      rfl
  · by_cases hc : stage = .confirmed ∧ commitment = some .confirmed
    · obtain ⟨rfl, rfl⟩ := hc
      rcases hlook : t.processedArrivals.lookup slot with _ | p
      · simp only [recordStage, stageDrift, hlook]
        rfl
      · simp only [recordStage, recordDrift, stageDrift, hlook]
        rfl
    · rw [t.recordStage_eq_self ts slot stage commitment hp hc, t.stageDrift_eq_none hp hc]
      rfl

theorem stageDrift_congr {t t' : StabilityTracker B}
    (hp : t'.processedArrivals = t.processedArrivals)
    (hc : t'.confirmedArrivals = t.confirmedArrivals) (slot : UInt64) (stage : SlotStage)
    (commitment : Option Commitment) (ts : EventTimestamp) :
    t'.stageDrift slot stage commitment ts = t.stageDrift slot stage commitment ts := by
  unfold stageDrift
  rw [hp, hc]

/-- An event records the drift it finds, and no other. -/
theorem driftDigest_observe (t : StabilityTracker B) (event : Event) :
    (t.observe event).driftDigest =
      ((t.foundDrift event).map Prod.snd).toList.foldl DistributionDigest.push t.driftDigest := by
  by_cases he : event.endpoint = t.endpoint
  · rcases hpayload : event.payload with ⟨slot, stage⟩ | _ | _ | _ | _
    · simp only [observe, foundDrift, he, hpayload, ne_eq, not_true, if_false, Option.map_map]
      rw [driftDigest_recordStage, stageDrift_congr (t := t) (by simp) (by simp),
        driftDigest_recordGap, driftDigest_resolveReconnect]
      cases t.stageDrift slot stage event.subscription.commitment event.ts <;> rfl
    all_goals
      simp only [observe, foundDrift, he, hpayload, ne_eq, not_true, if_false,
        driftDigest_resolveReconnect]
      rfl
  · simp only [observe, foundDrift, he, ne_eq, not_false_iff, if_true]
    rfl

theorem driftDigest_run (t : StabilityTracker B) (events : List Event) :
    (t.run events).driftDigest =
      ((t.recorded events).map Prod.snd).foldl DistributionDigest.push t.driftDigest := by
  induction events generalizing t with
  | nil => rfl
  | cons event events ih =>
    have hhead : (t.foundDrift event).toList.map Prod.snd =
        ((t.foundDrift event).map Prod.snd).toList := by
      cases t.foundDrift event <;> rfl
    rw [run, List.foldl_cons, ← run, ih, driftDigest_observe, recorded, List.map_append, hhead,
      List.foldl_append]

/-- **The drift samples of a run** are the drifts it records. -/
theorem samples_run (t : StabilityTracker B) (events : List Event) :
    (t.run events).driftDigest.samples =
      ((t.recorded events).map Prod.snd : List ℚ) + t.driftDigest.samples := by
  rw [driftDigest_run, DistributionDigest.samples_foldl_push]

/-! ## One slot -/

theorem lookup_orInsert (arrivals : Finmap fun _ : UInt64 => EventTimestamp) (slot s : UInt64)
    (ts : EventTimestamp) : (orInsert arrivals slot ts).lookup s =
      if s = slot then some ((arrivals.lookup slot).getD ts) else arrivals.lookup s := by
  unfold orInsert
  split_ifs with hmem hs hs
  · obtain ⟨v, hv⟩ := Finmap.mem_iff.mp hmem
    rw [hs, hv, Option.getD_some]
  · rfl
  · rw [hs, Finmap.lookup_insert, Finmap.lookup_eq_none.mpr hmem, Option.getD_none]
  · exact Finmap.lookup_insert_of_ne _ hs

section Met

variable {slot : UInt64} {ts : EventTimestamp}
  {own other own' other' : Finmap fun _ : UInt64 => EventTimestamp}

theorem Met.lookup_eq (h : Met slot ts own other own' other') (s : UInt64) :
    (own'.lookup s = if s = slot then
      if (other.lookup slot).isSome then none else some ((own.lookup slot).getD ts)
      else own.lookup s) ∧
    other'.lookup s = if s = slot then none else other.lookup s := by
  rcases h with ⟨hout, rfl, rfl⟩ | ⟨hin, rfl, rfl⟩
  · have hnone := Finmap.lookup_eq_none.mpr hout
    rw [lookup_orInsert, hnone]
    refine ⟨rfl, ?_⟩
    split_ifs with hs
    · rw [hs, hnone]
    · rfl
  · have hsome := Finmap.lookup_isSome.mpr hin
    rw [Finmap.lookup_erase_ite, Finmap.lookup_erase_ite, lookup_orInsert, if_pos hsome]
    refine ⟨?_, rfl⟩
    split_ifs <;> rfl

/-- The maps of the stages `o` and `o'` hold one party of the slot, or none. -/
structure Holds (slot : UInt64) (o o' : SlotStage) (waiting : Option (SlotStage × EventTimestamp))
    (own other : Finmap fun _ : UInt64 => EventTimestamp) : Prop where
  own : ∀ ts, own.lookup slot = some ts ↔ waiting = some (o, ts)
  other : ∀ ts, other.lookup slot = some ts ↔ waiting = some (o', ts)
  stage : ∀ w ∈ waiting, w.1 = o ∨ w.1 = o'

variable {o o' : SlotStage} {waiting : Option (SlotStage × EventTimestamp)}

/-- **An arrival** at the slot is one step of its rendezvous, and finds the party it meets. -/
theorem Met.holds (hne : o ≠ o') (h : Met slot ts own other own' other')
    (hw : Holds slot o o' waiting own other) :
    Holds slot o o' (arriveFirst waiting (o, ts)).1 own' other' ∧
      other.lookup slot = (arriveFirst waiting (o, ts)).2 := by
  obtain ⟨hown', hother'⟩ := h.lookup_eq slot
  rw [if_pos rfl] at hown' hother'
  rcases waiting with _ | ⟨stage, v⟩
  · have hown : own.lookup slot = none :=
      Option.eq_none_iff_forall_ne_some.mpr fun x hx => by simpa using (hw.own x).mp hx
    have hother : other.lookup slot = none :=
      Option.eq_none_iff_forall_ne_some.mpr fun x hx => by simpa using (hw.other x).mp hx
    rw [hown, hother] at hown'
    rw [Rendezvous.arriveFirst_none]
    exact ⟨⟨fun x => by rw [hown']; simp, fun x => by rw [hother']; simp [hne], by simp⟩, hother⟩
  · have hstage : stage = o ∨ stage = o' := hw.stage _ rfl
    rcases hstage with rfl | rfl
    · -- an earlier one of its own stage stays
      have hown : own.lookup slot = some v := (hw.own v).mpr rfl
      have hother : other.lookup slot = none :=
        Option.eq_none_iff_forall_ne_some.mpr fun x hx => by simpa [hne] using (hw.other x).mp hx
      rw [hown, hother] at hown'
      rw [Rendezvous.arriveFirst_same (a := (stage, ts)) (w := (stage, v)) rfl]
      exact ⟨⟨fun x => by rw [hown']; simp, fun x => by rw [hother']; simp [hne], by simp⟩, hother⟩
    · -- the two meet, and the slot is free
      have hother : other.lookup slot = some v := (hw.other v).mpr rfl
      rw [hother] at hown'
      rw [Rendezvous.arriveFirst_other (a := (o, ts)) (w := (stage, v)) hne.symm]
      exact ⟨⟨fun x => by rw [hown']; simp, fun x => by rw [hother']; simp, by simp⟩, hother⟩

/-- An arrival at another slot leaves the slot alone. -/
theorem Met.holds_of_ne {s : UInt64} (hs : slot ≠ s) (h : Met s ts own other own' other')
    (hw : Holds slot o o' waiting own other) : Holds slot o o' waiting own' other' := by
  obtain ⟨hown', hother'⟩ := h.lookup_eq slot
  rw [if_neg hs] at hown' hother'
  exact ⟨fun x => by rw [hown']; exact hw.own x, fun x => by rw [hother']; exact hw.other x,
    hw.stage⟩

theorem Holds.symm (hw : Holds slot o o' waiting own other) : Holds slot o' o waiting other own :=
  ⟨hw.other, hw.own, fun w hin => (hw.stage w hin).symm⟩

end Met

variable {t : StabilityTracker B} {slot : UInt64} {waiting : Option (SlotStage × EventTimestamp)}

/-- The arrival maps hold the first party of one stage of a slot, or none. -/
def HoldsFirst (t : StabilityTracker B) (slot : UInt64)
    (waiting : Option (SlotStage × EventTimestamp)) : Prop :=
  Holds slot .processed .confirmed waiting t.processedArrivals t.confirmedArrivals

/-- A stage that records no arrival of the slot leaves the slot alone. -/
theorem HoldsFirst.recordStage_of_none (h : t.HoldsFirst slot waiting) {s : UInt64}
    {stage : SlotStage} {commitment : Option Commitment} (ts : EventTimestamp)
    (hp : ¬ (s = slot ∧ stage = .processed ∧ commitment = some .processed))
    (hc : ¬ (s = slot ∧ stage = .confirmed ∧ commitment = some .confirmed)) :
    (t.recordStage s stage commitment ts).HoldsFirst slot waiting := by
  by_cases hstage : stage = .processed ∧ commitment = some .processed
  · obtain ⟨rfl, rfl⟩ := hstage
    have hne : slot ≠ s := fun heq => hp ⟨heq.symm, rfl, rfl⟩
    exact (t.met_processed s ts).holds_of_ne hne h
  · by_cases hstage' : stage = .confirmed ∧ commitment = some .confirmed
    · obtain ⟨rfl, rfl⟩ := hstage'
      have hne : slot ≠ s := fun heq => hc ⟨heq.symm, rfl, rfl⟩
      exact ((t.met_confirmed s ts).holds_of_ne hne h.symm).symm
    · rw [t.recordStage_eq_self ts s stage commitment hstage hstage']
      exact h

theorem HoldsFirst.congr {t' : StabilityTracker B} (h : t.HoldsFirst slot waiting)
    (hp : t'.processedArrivals = t.processedArrivals)
    (hc : t'.confirmedArrivals = t.confirmedArrivals) : t'.HoldsFirst slot waiting := by
  unfold HoldsFirst
  rw [hp, hc]
  exact h

/-- A processed arrival is one step of the slot's rendezvous, and records the drift to the party it
meets. -/
theorem HoldsFirst.processed_step (h : t.HoldsFirst slot waiting) (ts : EventTimestamp) :
    (t.recordStage slot .processed (some .processed) ts).HoldsFirst slot
        (arriveFirst waiting (.processed, ts)).1 ∧
      t.stageDrift slot .processed (some .processed) ts =
        (arriveFirst waiting (.processed, ts)).2.map fun v => driftOf B ((.processed, ts), v) := by
  obtain ⟨hnext, hfind⟩ := (t.met_processed slot ts).holds (by decide) h
  refine ⟨hnext, ?_⟩
  rw [← hfind]
  rfl

/-- A confirmed arrival is one step of the slot's rendezvous, and records the drift to the party it
meets. -/
theorem HoldsFirst.confirmed_step (h : t.HoldsFirst slot waiting) (ts : EventTimestamp) :
    (t.recordStage slot .confirmed (some .confirmed) ts).HoldsFirst slot
        (arriveFirst waiting (.confirmed, ts)).1 ∧
      t.stageDrift slot .confirmed (some .confirmed) ts =
        (arriveFirst waiting (.confirmed, ts)).2.map fun v => driftOf B ((.confirmed, ts), v) := by
  obtain ⟨hnext, hfind⟩ := (t.met_confirmed slot ts).holds (by decide) h.symm
  refine ⟨hnext.symm, ?_⟩
  rw [← hfind]
  rfl

/-- The drifts of one slot among those of an event of that slot, and of another. -/
theorem filter_slot (d : Option ℚ) (s slot : UInt64) :
    ((d.map fun x => (s, x)).toList.filter fun x => x.1 = slot).map Prod.snd =
      if s = slot then d.toList else [] := by
  cases d with
  | none => simp
  | some x => by_cases hs : s = slot <;> simp [hs]

/-- **One event** is the arrival it records, or none, and the drift it records for the slot is that
of the party met. -/
theorem HoldsFirst.observe (h : t.HoldsFirst slot waiting) (event : Event) :
    (t.observe event).HoldsFirst slot ((event.arrivalAt t.endpoint slot).elim waiting
      fun a => (arriveFirst waiting a).1) ∧
    ((t.foundDrift event).toList.filter fun x => x.1 = slot).map Prod.snd =
      ((event.arrivalAt t.endpoint slot).bind fun a =>
        (arriveFirst waiting a).2.map fun v => driftOf B (a, v)).toList := by
  by_cases he : event.endpoint = t.endpoint
  · rcases hpayload : event.payload with ⟨s, stage⟩ | _ | _ | _ | _
    · have hquiet : ((t.resolveReconnect event.ts).recordGap event.ts).HoldsFirst slot waiting :=
        h.congr (by simp) (by simp)
      have hobs : t.observe event = ((t.resolveReconnect event.ts).recordGap event.ts).recordStage s
          stage event.subscription.commitment event.ts := by
        simp only [StabilityTracker.observe, he, hpayload, ne_eq, not_true, if_false]
      have hfound : t.foundDrift event =
          (t.stageDrift s stage event.subscription.commitment event.ts).map fun d => (s, d) := by
        simp only [foundDrift, he, hpayload, ne_eq, not_true, if_false]
      rw [hobs, hfound, filter_slot, Event.arrivalAt, stageArrival_slot he hpayload]
      split_ifs with hp hs hc hs hs
      · obtain ⟨rfl, rfl, hcommitment⟩ := hp
        rw [hcommitment, (h.processed_step event.ts).2]
        exact ⟨(hquiet.processed_step event.ts).1, rfl⟩
      · exact absurd hp.1 hs
      · obtain ⟨rfl, rfl, hcommitment⟩ := hc
        rw [hcommitment, (h.confirmed_step event.ts).2]
        exact ⟨(hquiet.confirmed_step event.ts).1, rfl⟩
      · exact absurd hc.1 hs
      · rw [t.stageDrift_eq_none (fun h => hp ⟨hs, h⟩) fun h => hc ⟨hs, h⟩]
        exact ⟨hquiet.recordStage_of_none event.ts hp hc, rfl⟩
      · exact ⟨hquiet.recordStage_of_none event.ts hp hc, rfl⟩
    all_goals
      simp only [StabilityTracker.observe, foundDrift, Event.arrivalAt, Event.stageArrival, he,
        hpayload, ne_eq, not_true, if_false]
      exact ⟨h.congr (by simp) (by simp), rfl⟩
  · simp only [StabilityTracker.observe, foundDrift, Event.arrivalAt, Event.stageArrival, he, ne_eq,
      not_false_iff, if_true]
    exact ⟨h, rfl⟩

/-- **The drifts of a slot** are those of its encounters. -/
theorem HoldsFirst.recorded_filter (h : t.HoldsFirst slot waiting) (events : List Event) :
    ((t.recorded events).filter fun x => x.1 = slot).map Prod.snd =
      (encounters waiting (events.filterMap (Event.arrivalAt t.endpoint slot))).map
        (driftOf B) := by
  induction events generalizing t waiting with
  | nil => rfl
  | cons event events ih =>
    obtain ⟨hnext, hfound⟩ := h.observe event
    have hrest := ih hnext
    rw [endpoint_observe] at hrest
    rw [recorded, List.filter_append, List.map_append, hfound, hrest]
    rcases harrival : event.arrivalAt t.endpoint slot with _ | a
    · rw [List.filterMap_cons_none harrival]
      rfl
    · rw [List.filterMap_cons_some harrival, encounters, List.map_append, Option.bind_some]
      cases (arriveFirst waiting a).2 <;> rfl

theorem holdsFirst_new (B : Backend) (endpoint : EndpointRole) (slot : UInt64) :
    (new B endpoint).HoldsFirst slot none :=
  ⟨fun ts => by simp [new], fun ts => by simp [new], by simp⟩

/-! ## What is due -/

variable {endpoint : EndpointRole} {events : List Event}

theorem stage_of_arrivalAt {event : Event} {a : SlotStage × EventTimestamp}
    (h : event.arrivalAt endpoint slot = some a) : a.1 = .processed ∨ a.1 = .confirmed := by
  obtain ⟨stage, hstage, rfl⟩ := Option.map_eq_some_iff.mp h
  simp only [Event.stageArrival] at hstage
  split_ifs at hstage
  split at hstage
  · split_ifs at hstage
    exact Or.inl (Option.some_inj.mp hstage).symm
  · split_ifs at hstage
    exact Or.inr (Option.some_inj.mp hstage).symm
  · cases hstage

theorem firstArrival_eq (endpoint : EndpointRole) (slot : UInt64) (stage : SlotStage)
    (events : List Event) : firstArrival endpoint slot stage events =
      ((events.filterMap (Event.arrivalAt endpoint slot)).find? fun a => a.1 = stage).map
        Prod.snd := by
  induction events with
  | nil => rfl
  | cons event events ih =>
    rcases harrival : event.stageArrival endpoint slot with _ | s
    · have hnone : event.arrivalAt endpoint slot = none := by rw [Event.arrivalAt, harrival]; rfl
      rw [List.filterMap_cons_none hnone, ← ih, firstArrival, firstArrival,
        List.find?_cons_of_neg (by simp [harrival])]
    · have hsome : event.arrivalAt endpoint slot = some (s, event.ts) := by
        rw [Event.arrivalAt, harrival]; rfl
      rw [List.filterMap_cons_some hsome]
      by_cases hs : s = stage
      · rw [firstArrival, List.find?_cons_of_pos (by simp [harrival, hs]),
          List.find?_cons_of_pos (by simpa using hs)]
        rfl
      · rw [firstArrival, List.find?_cons_of_neg (by simp [harrival, hs]),
          List.find?_cons_of_neg (by simpa using hs), ← ih, firstArrival]

/-- Among arrivals of two stages, the first that is not of the one is the first of the other. -/
theorem find?_ne_eq {as : List (SlotStage × EventTimestamp)} {stage other : SlotStage}
    (hne : stage ≠ other) (h : ∀ a ∈ as, a.1 = stage ∨ a.1 = other) :
    (as.find? fun a => stage ≠ a.1) = as.find? fun a => a.1 = other := by
  refine List.find?_congr fun a ha => decide_eq_decide.mpr ?_
  rcases h a ha with heq | heq
  · rw [heq]
    exact iff_of_false (fun h => h rfl) hne
  · rw [heq]
    exact iff_of_true hne rfl

/-- The first encounter of a slot is that of the first arrivals. -/
theorem dueDrift_eq (B : Backend) (endpoint : EndpointRole) (events : List Event)
    (slot : UInt64) : dueDrift B endpoint events slot =
      (encounters none (events.filterMap (Event.arrivalAt endpoint slot))).head?.map
        (driftOf B) := by
  have hstage : ∀ a ∈ events.filterMap (Event.arrivalAt endpoint slot),
      a.1 = .processed ∨ a.1 = .confirmed := by
    intro a ha
    obtain ⟨event, -, hevent⟩ := List.mem_filterMap.mp ha
    exact stage_of_arrivalAt hevent
  rw [dueDrift, firstArrival_eq, firstArrival_eq]
  generalize events.filterMap (Event.arrivalAt endpoint slot) = as at hstage
  rcases as with _ | ⟨⟨stage, ts⟩, as⟩
  · rfl
  · obtain ⟨hfirst, hrest⟩ := List.forall_mem_cons.mp hstage
    rw [encounters, Rendezvous.arriveFirst_none, Option.map_none, Option.toList_none,
      List.nil_append, Rendezvous.head?_encounters_some, Option.map_map]
    rcases hfirst with rfl | rfl
    · rw [find?_ne_eq (by decide) hrest, List.find?_cons_of_pos (by simp),
        List.find?_cons_of_neg (by simp), Option.map_some, Option.bind_some, Option.map_map]
      refine Option.map_congr fun a ha => ?_
      have hconfirmed : a.1 = .confirmed := by simpa using List.find?_some ha
      simp [driftOf, hconfirmed]
    · rw [find?_ne_eq (by decide) fun a ha => (hrest a ha).symm, List.find?_cons_of_neg (by simp),
        List.find?_cons_of_pos (by simp), Option.map_some]
      cases hfind : as.find? fun a => a.1 = .processed with
      | none => rfl
      | some a =>
        have hprocessed : a.1 = .processed := by simpa using List.find?_some hfind
        simp [driftOf, hprocessed]

/-! ## All slots -/

theorem slotOn_of_foundDrift {event : Event} {x : UInt64 × ℚ} (h : t.foundDrift event = some x) :
    event.slotOn t.endpoint = some x.1 := by
  by_cases he : event.endpoint = t.endpoint
  · rcases hpayload : event.payload with ⟨s, stage⟩ | _ | _ | _ | _
    · simp only [foundDrift, he, hpayload, ne_eq, not_true, if_false] at h
      obtain ⟨d, -, rfl⟩ := Option.map_eq_some_iff.mp h
      simp only [Event.slotOn, he, hpayload, ne_eq, not_true, if_false]
    all_goals
      simp only [foundDrift, he, hpayload, ne_eq, not_true, if_false] at h
      cases h
  · simp only [foundDrift, he, ne_eq, not_false_iff, if_true] at h
    cases h

theorem mem_slotsOf_of_recorded {x : UInt64 × ℚ} (h : x ∈ t.recorded events) :
    x.1 ∈ slotsOf t.endpoint events := by
  induction events generalizing t with
  | nil => cases h
  | cons event events ih =>
    rw [slotsOf, List.mem_toFinset, List.mem_filterMap]
    rcases List.mem_append.mp h with hhead | htail
    · exact ⟨event, List.mem_cons_self, slotOn_of_foundDrift (Option.mem_toList.mp hhead)⟩
    · have hin := ih htail
      rw [endpoint_observe, slotsOf, List.mem_toFinset, List.mem_filterMap] at hin
      obtain ⟨event', hmem, hslot⟩ := hin
      exact ⟨event', List.mem_cons_of_mem _ hmem, hslot⟩

theorem sum_map_singleton_snd (l : List (UInt64 × ℚ)) :
    (l.map fun x => ({x.2} : Multiset ℚ)).sum = (l.map Prod.snd : List ℚ) := by
  induction l with
  | nil => rfl
  | cons x l ih =>
    rw [List.map_cons, List.sum_cons, ih]
    rfl

/-- **The drift samples of a run**, slot by slot. -/
theorem samples_run_new (B : Backend) (endpoint : EndpointRole) (events : List Event) :
    ((new B endpoint).run events).driftDigest.samples =
      ∑ slot ∈ slotsOf endpoint events, (((encounters none (events.filterMap
        (Event.arrivalAt endpoint slot))).map (driftOf B) : List ℚ) : Multiset ℚ) := by
  have hslots : ∀ x ∈ (new B endpoint).recorded events, x.1 ∈ slotsOf endpoint events :=
    fun x hx => mem_slotsOf_of_recorded (t := new B endpoint) hx
  have hslot : ∀ slot, ((((new B endpoint).recorded events).filter fun x => x.1 = slot).map
      fun x => ({x.2} : Multiset ℚ)).sum = (((encounters none (events.filterMap
        (Event.arrivalAt endpoint slot))).map (driftOf B) : List ℚ) : Multiset ℚ) := by
    intro slot
    rw [sum_map_singleton_snd]
    exact congrArg _ ((holdsFirst_new B endpoint slot).recorded_filter events)
  have hsum := Finmap.sum_fibers (fun x : UInt64 × ℚ => ({x.2} : Multiset ℚ)) Prod.fst
    (slotsOf endpoint events) ((new B endpoint).recorded events) hslots
  have hnew : (new B endpoint).driftDigest.samples = 0 := DistributionDigest.samples_new
  rw [samples_run, ← sum_map_singleton_snd, ← hsum, hnew, add_zero]
  exact Finset.sum_congr rfl fun slot _ => hslot slot

/-- The stages of a slot's arrivals: all of one stage, or some of one stage, then one of another,
and then any number of a single stage. -/
def PairsOnce (stages : List SlotStage) : Prop :=
  (∃ stage n, stages = List.replicate n stage) ∨
    ∃ first second stage m n, second ≠ first ∧
      stages = List.replicate (m + 1) first ++ second :: List.replicate n stage

theorem length_encounters_le_one_iff {as : List (SlotStage × EventTimestamp)} :
    (encounters none as).length ≤ 1 ↔ PairsOnce (as.map Prod.fst) := by
  have hlength : (encounters none as).length = (Rendezvous.meetings none as).length :=
    Rendezvous.length_encounters rfl
  rw [hlength, Nat.le_one_iff_eq_zero_or_eq_one, List.length_eq_zero_iff,
    Rendezvous.meetings_none_eq_nil_iff (s := SlotStage.processed),
    Rendezvous.length_meetings_eq_one_iff]
  rfl

theorem map_fst_arrivalAt (endpoint : EndpointRole) (slot : UInt64) (events : List Event) :
    (events.filterMap (Event.arrivalAt endpoint slot)).map Prod.fst =
      stageArrivals endpoint slot events := by
  rw [List.map_filterMap, stageArrivals]
  refine List.filterMap_congr fun event _ => ?_
  rw [Event.arrivalAt, Option.map_map]
  cases event.stageArrival endpoint slot <;> rfl

theorem slotOn_of_stageArrival {event : Event} {stage : SlotStage}
    (h : event.stageArrival endpoint slot = some stage) : event.slotOn endpoint = some slot := by
  unfold Event.stageArrival at h
  split_ifs at h with he
  rw [Event.slotOn, if_neg he]
  split at h
  · rename_i hpayload hcommitment
    split_ifs at h with hs
    rw [hpayload, hs]
  · rename_i hpayload hcommitment
    split_ifs at h with hs
    rw [hpayload, hs]
  · cases h

/-- A slot without slot events has no arrivals. -/
theorem stageArrivals_of_notMem (h : slot ∉ slotsOf endpoint events) :
    stageArrivals endpoint slot events = [] := by
  rw [stageArrivals, List.filterMap_eq_nil_iff]
  intro event hevent
  refine Option.eq_none_iff_forall_ne_some.mpr fun stage hstage => h ?_
  rw [slotsOf, List.mem_toFinset]
  exact List.mem_filterMap.mpr ⟨event, hevent, slotOn_of_stageArrival hstage⟩

/-- **When each slot has one sample.**  The drift samples are those that are due, one for each slot
that has arrived at both stages, exactly when no slot is paired a second time. -/
theorem driftSamples_iff (B : Backend) (endpoint : EndpointRole) (events : List Event) :
    ((new B endpoint).run events).driftDigest.samples = dueDrifts B endpoint events ↔
      ∀ slot, PairsOnce (stageArrivals endpoint slot events) := by
  have hdue : dueDrifts B endpoint events = ∑ slot ∈ slotsOf endpoint events,
      ((((encounters none (events.filterMap (Event.arrivalAt endpoint slot))).map
        (driftOf B)).head?.toList : List ℚ) : Multiset ℚ) := by
    refine Finset.sum_congr rfl fun slot _ => ?_
    rw [dueDrift_eq, List.head?_map]
  rw [samples_run_new, hdue, Finmap.sum_head?_eq_iff]
  constructor
  · intro h slot
    by_cases hslot : slot ∈ slotsOf endpoint events
    · have hone := h slot hslot
      rw [List.length_map, length_encounters_le_one_iff, map_fst_arrivalAt] at hone
      exact hone
    · rw [stageArrivals_of_notMem hslot]
      exact Or.inl ⟨.processed, 0, rfl⟩
  · intro h slot _
    rw [List.length_map, length_encounters_le_one_iff, map_fst_arrivalAt]
    exact h slot

/-- A slot event of the first endpoint at a time, under the label of its stage. -/
def stageAt (ms : UInt64) (stage : SlotStage) (commitment : Commitment) : Event :=
  ⟨⟨ms * 1000000, ms * 1000000⟩, .main .one commitment .slots, .slot 9 stage⟩

/-- A slot whose two updates are delivered again has two samples. -/
theorem driftSamples_repeated :
    let events := [stageAt 0 .processed .processed, stageAt 400 .confirmed .confirmed,
      stageAt 500 .processed .processed, stageAt 600 .confirmed .confirmed]
    let samples := ((new Backend.exact .one).run events).driftDigest.samples
    samples = {400, 100} ∧ dueDrifts Backend.exact .one events = {400} ∧
      samples ≠ dueDrifts Backend.exact .one events := by
  decide +kernel

end StabilityTracker

end GrpcBench
