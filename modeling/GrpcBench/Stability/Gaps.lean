import GrpcBench.Library.Consecutive
import GrpcBench.Library.Folds
import GrpcBench.Stability

/-!
# Gaps and stalls

The owner of a tracker has it observe events, and notifies it of disconnects and reconnects.  Only
the slot-status events of its own endpoint count for the gaps: each records the time since the one
before.

* `TrackerCall`, `StabilityTracker.runCalls`: what a tracker is called with.
* `slotTimes`: the arrivals that count.
* `GapsOf`, `gapsOf_run`: the gap fields after a run, for every backend and every clock.
* `gaps_and_stalls`: what they are when the clock does not run backwards.
-/

namespace GrpcBench

open Consecutive (consecutive)

/-- A call of the tracker. -/
inductive TrackerCall where
  | observe (event : Event)
  | recordDisconnect (wallMs : UInt64) (status : String) (eventsReceivedBefore : UInt64)
  | recordReconnect (monoNsAtReconnect : UInt64)

/-- The arrival of a slot-status event of the endpoint. -/
def TrackerCall.slotTime (endpoint : EndpointRole) : TrackerCall → Option EventTimestamp
  | .observe event =>
    if event.endpoint ≠ endpoint then none
    else match event.payload with
      | .slot .. => some event.ts
      | _ => none
  | _ => none

/-- The arrivals of the endpoint's slot-status events, in order. -/
def slotTimes (endpoint : EndpointRole) (calls : List TrackerCall) : List EventTimestamp :=
  calls.filterMap (TrackerCall.slotTime endpoint)

namespace StabilityTracker

variable {B : Backend}

/-- One call. -/
def call (t : StabilityTracker B) : TrackerCall → StabilityTracker B
  | .observe event => t.observe event
  | .recordDisconnect wallMs status eventsReceivedBefore =>
    t.recordDisconnect wallMs status eventsReceivedBefore
  | .recordReconnect monoNsAtReconnect => t.recordReconnect monoNsAtReconnect

/-- A run of calls. -/
def runCalls (t : StabilityTracker B) (calls : List TrackerCall) : StabilityTracker B :=
  calls.foldl call t

/-! ## The fields of the gaps -/

/-- A gap as it is recorded. -/
def gapMs (B : Backend) (prev ts : EventTimestamp) : ℚ :=
  flooredMs B (deltaNs ts prev)

/-- The stall events of a list of arrivals. -/
def stallsOf (gap : EventTimestamp → EventTimestamp → ℚ) (times : List EventTimestamp) :
    List StallEvent :=
  (consecutive (fun prev ts => StallEvent.mk ts.wallMs (gap prev ts)) times).filter
    fun stall => decide (stallThresholdMs < stall.durationMs)

/-- The gap fields of a tracker are about the arrivals `times`. -/
structure GapsOf (times : List EventTimestamp) (t : StabilityTracker B) : Prop where
  last : t.lastSlotEventTs = times.getLast?
  samples : t.slotGaps.samples = (consecutive (gapMs B) times : Multiset ℚ)
  max : t.slotGaps.max = (consecutive (gapMs B) times).foldl max 0
  stalls : t.stallEvents = stallsOf (gapMs B) times

variable {times : List EventTimestamp} {t t' : StabilityTracker B}

theorem GapsOf.congr (h : t.GapsOf times) (hlast : t'.lastSlotEventTs = t.lastSlotEventTs)
    (hgaps : t'.slotGaps = t.slotGaps) (hstalls : t'.stallEvents = t.stallEvents) :
    t'.GapsOf times :=
  ⟨hlast ▸ h.last, hgaps ▸ h.samples, hgaps ▸ h.max, hstalls ▸ h.stalls⟩

theorem GapsOf.resolveReconnect (h : t.GapsOf times) (ts : EventTimestamp) :
    (t.resolveReconnect ts).GapsOf times := by
  unfold StabilityTracker.resolveReconnect
  split
  · exact h
  · exact h.congr rfl rfl rfl

theorem max_push (d : DistributionDigest B) (v : ℚ) : (d.push v).max = max d.max v := by
  rw [DistributionDigest.push, max_def_lt]

/-- One more arrival. -/
theorem GapsOf.recordGap (h : t.GapsOf times) (ts : EventTimestamp) :
    (t.recordGap ts).GapsOf (times ++ [ts]) := by
  have hconcat : ∀ {β : Type} (f : EventTimestamp → EventTimestamp → β),
      consecutive f (times ++ [ts]) =
        consecutive f times ++ (t.lastSlotEventTs.map fun prev => f prev ts).toList := by
    intro β f
    rw [h.last, Consecutive.consecutive_concat]
  rcases hprev : t.lastSlotEventTs with _ | prev
  · have hgap : t.recordGap ts = { t with lastSlotEventTs := some ts } := by
      simp only [StabilityTracker.recordGap, hprev]
    simp only [hprev, Option.map_none, Option.toList_none, List.append_nil] at hconcat
    rw [hgap]
    exact ⟨List.getLast?_concat.symm, by rw [hconcat]; exact h.samples,
      by rw [hconcat]; exact h.max, by rw [stallsOf, hconcat]; exact h.stalls⟩
  · have hgap : t.recordGap ts =
        { t with
          lastSlotEventTs := some ts
          slotGaps := t.slotGaps.push (gapMs B prev ts)
          stallEvents := if stallThresholdMs < gapMs B prev ts then
              t.stallEvents ++ [StallEvent.mk ts.wallMs (gapMs B prev ts)]
            else t.stallEvents } := by
      unfold StabilityTracker.recordGap
      rw [hprev]
      rfl
    simp only [hprev, Option.map_some, Option.toList_some] at hconcat
    rw [hgap]
    constructor
    · exact List.getLast?_concat.symm
    · rw [DistributionDigest.samples_push, h.samples, hconcat, ← Multiset.singleton_add,
        Multiset.add_comm, ← Multiset.coe_singleton, Multiset.coe_add]
    · rw [max_push, h.max, hconcat, List.foldl_concat]
    · rw [stallsOf, hconcat, List.filter_append, List.filter_singleton, ← stallsOf, ← h.stalls]
      dsimp only
      split_ifs with hstall
      · rw [decide_eq_true hstall]
        rfl
      · rw [decide_eq_false hstall]
        exact (List.append_nil _).symm

/-- One call. -/
theorem GapsOf.call (h : t.GapsOf times) (c : TrackerCall) :
    (t.call c).GapsOf (times ++ (c.slotTime t.endpoint).toList) := by
  cases c with
  | observe event =>
    by_cases he : event.endpoint = t.endpoint
    · rcases hpayload : event.payload with ⟨slot, stage⟩ | _ | _ | _ | _
      · have htime : (TrackerCall.observe event).slotTime t.endpoint = some event.ts := by
          simp only [TrackerCall.slotTime, he, hpayload, ne_eq, not_true, if_false]
        have hobs : t.call (.observe event) =
            ((t.resolveReconnect event.ts).recordGap event.ts).recordStage slot stage
              event.subscription.commitment event.ts := by
          simp only [StabilityTracker.call, observe, he, hpayload, ne_eq, not_true, if_false]
        obtain ⟨_, _, _, hstage⟩ := ((t.resolveReconnect event.ts).recordGap
          event.ts).recordStage_eq event.ts slot stage event.subscription.commitment
        rw [htime, hobs, hstage]
        exact ((h.resolveReconnect event.ts).recordGap event.ts).congr rfl rfl rfl
      all_goals
        simp only [TrackerCall.slotTime, StabilityTracker.call, observe, he, hpayload, ne_eq,
          not_true, if_false, Option.toList_none, List.append_nil]
        exact h.resolveReconnect event.ts
    · simp only [TrackerCall.slotTime, StabilityTracker.call, observe, he, ne_eq, not_false_iff,
        if_true, Option.toList_none, List.append_nil]
      exact h
  | recordDisconnect wallMs status eventsReceivedBefore =>
    exact (List.append_nil times).symm ▸ h.congr rfl rfl rfl
  | recordReconnect monoNsAtReconnect =>
    exact (List.append_nil times).symm ▸ h.congr rfl rfl rfl

theorem endpoint_call (t : StabilityTracker B) (c : TrackerCall) :
    (t.call c).endpoint = t.endpoint := by
  cases c with
  | observe event => exact t.endpoint_observe event
  | recordDisconnect wallMs status eventsReceivedBefore => rfl
  | recordReconnect monoNsAtReconnect => rfl

theorem GapsOf.runCalls (h : t.GapsOf times) (calls : List TrackerCall) :
    (t.runCalls calls).GapsOf (times ++ slotTimes t.endpoint calls) := by
  induction calls generalizing t times with
  | nil => exact (List.append_nil times).symm ▸ h
  | cons c calls ih =>
    have hnext := ih (h.call c)
    rw [endpoint_call, List.append_assoc] at hnext
    rcases htime : c.slotTime t.endpoint with _ | ts
    · rw [slotTimes, List.filterMap_cons_none htime]
      rwa [htime] at hnext
    · rw [slotTimes, List.filterMap_cons_some htime]
      rwa [htime] at hnext

/-- **The gap fields after a run.** -/
theorem gapsOf_run (B : Backend) (endpoint : EndpointRole) (calls : List TrackerCall) :
    ((new B endpoint).runCalls calls).GapsOf (slotTimes endpoint calls) := by
  have hnew : (new B endpoint).GapsOf [] := ⟨rfl, DistributionDigest.samples_new, rfl, rfl⟩
  exact hnew.runCalls calls

/-! ## A clock that does not run backwards -/

/-- The time between two arrivals, in milliseconds. -/
def exactGapMs (prev ts : EventTimestamp) : ℚ :=
  ((ts.monoNs.toNat : ℚ) - prev.monoNs.toNat) / 1000000

theorem exactGapMs_nonneg {prev ts : EventTimestamp} (h : prev.monoNs ≤ ts.monoNs) :
    0 ≤ exactGapMs prev ts := by
  refine div_nonneg (sub_nonneg.mpr ?_) (by norm_num)
  exact_mod_cast UInt64.le_iff_toNat_le.mp h

theorem gapMs_exact {prev ts : EventTimestamp} (h : prev.monoNs ≤ ts.monoNs)
    (hlt : ts.monoNs.toNat < 2 ^ 63) : gapMs Backend.exact prev ts = exactGapMs prev ts := by
  have hle := UInt64.le_iff_toNat_le.mp h
  have hdelta : (deltaNs ts prev).toInt = (ts.monoNs.toNat : ℤ) - prev.monoNs.toNat := by
    rw [toInt_deltaNs, clampNs_of_lt hlt, clampNs_of_lt (hle.trans_lt hlt)]
  have hfloor : gapMs Backend.exact prev ts =
      max (((deltaNs ts prev).toInt : ℤ) : ℚ) 0 / 1000000 := rfl
  have hsub : (0 : ℚ) ≤ (ts.monoNs.toNat : ℚ) - prev.monoNs.toNat := by
    rw [sub_nonneg]
    exact_mod_cast hle
  rw [hfloor, hdelta, exactGapMs]
  push_cast
  rw [max_eq_left hsub]

/-- **Gaps and stalls.**  If the readings at the slot-status events of the endpoint do not decrease
and fit an `i64`, the recorded gaps are the consecutive differences, the reported maximum is the
largest, and the reported stalls are those above the threshold. -/
theorem gaps_and_stalls (endpoint : EndpointRole) (calls : List TrackerCall)
    (hmono : (slotTimes endpoint calls).Pairwise fun prev ts => prev.monoNs ≤ ts.monoNs)
    (hlt : ∀ ts ∈ slotTimes endpoint calls, ts.monoNs.toNat < 2 ^ 63) :
    let t := (new Backend.exact endpoint).runCalls calls
    let times := slotTimes endpoint calls
    let gaps := consecutive exactGapMs times
    t.slotGaps.samples = (gaps : Multiset ℚ) ∧
    gaps.length = times.length - 1 ∧
    (∀ first rest, times = first :: rest → gaps.sum =
      (((first :: rest).getLast (List.cons_ne_nil first rest)).monoNs.toNat -
        first.monoNs.toNat) / 1000000) ∧
    ((∀ gap ∈ gaps, gap ≤ t.summary.1.slotGapMs.max) ∧
      (gaps = [] ∧ t.summary.1.slotGapMs.max = 0 ∨ t.summary.1.slotGapMs.max ∈ gaps)) ∧
    t.summary.1.stallEvents =
      (consecutive (fun prev ts => StallEvent.mk ts.wallMs (exactGapMs prev ts)) times).filter
        fun stall => decide (600 < stall.durationMs) := by
  intro t times gaps
  have hrun : t.GapsOf times := gapsOf_run Backend.exact endpoint calls
  have hchain : times.IsChain fun prev ts =>
      prev.monoNs ≤ ts.monoNs ∧ ts.monoNs.toNat < 2 ^ 63 :=
    (hmono.imp_of_mem fun _ hts hle => And.intro hle (hlt _ hts)).isChain
  have hgaps : consecutive (gapMs Backend.exact) times = gaps :=
    Consecutive.consecutive_congr (hchain.imp fun _ _ h => gapMs_exact h.1 h.2)
  have hnonneg : ∀ gap ∈ gaps, 0 ≤ gap :=
    Consecutive.forall_mem_consecutive (hchain.imp fun _ _ h => exactGapMs_nonneg h.1)
  have hmax : t.summary.1.slotGapMs.max = gaps.foldl max 0 := hgaps ▸ hrun.max
  obtain ⟨habove, -, hmem⟩ := Consecutive.foldl_max_spec gaps 0
  refine ⟨hgaps ▸ hrun.samples, Consecutive.length_consecutive _ _, fun first rest heq => ?_,
    ⟨fun gap hgap => hmax ▸ habove gap hgap, ?_⟩, ?_⟩
  · let v : EventTimestamp → ℚ := fun ts => (ts.monoNs.toNat : ℚ) / 1000000
    have hdiff : gaps = consecutive (fun prev ts => v ts - v prev) times :=
      congrArg (fun f => consecutive f times) (funext₂ fun prev ts => sub_div _ _ _)
    rw [hdiff, heq, Consecutive.sum_consecutive_sub, ← sub_div]
  · rw [hmax]
    rcases hgaps' : gaps with _ | ⟨gap, rest⟩
    · exact Or.inl ⟨rfl, rfl⟩
    · rw [← hgaps']
      refine Or.inr (hmem.elim (fun hzero => ?_) id)
      have hgap : gap ∈ gaps := hgaps' ▸ List.mem_cons_self
      rw [hzero, ← le_antisymm (hzero ▸ habove gap hgap) (hnonneg gap hgap)]
      exact hgap
  · have hstalls : consecutive (fun prev ts => StallEvent.mk ts.wallMs
        (gapMs Backend.exact prev ts)) times =
        consecutive (fun prev ts => StallEvent.mk ts.wallMs (exactGapMs prev ts)) times :=
      Consecutive.consecutive_congr (hchain.imp fun _ ts h =>
        congrArg (StallEvent.mk ts.wallMs) (gapMs_exact h.1 h.2))
    exact hrun.stalls.trans (congrArg (List.filter _) hstalls)

/-- Two slot events a second apart, with an event of the other endpoint and a disconnect in between:
one gap, and one stall. -/
theorem gaps_and_stalls_one_second :
    let calls : List TrackerCall :=
      [.observe ⟨⟨0, 5⟩, .main .one .processed .slots, .slot 9 .processed⟩,
        .observe ⟨⟨7, 5⟩, .main .two .processed .slots, .slot 9 .processed⟩,
        .recordDisconnect 6 "unavailable" 1,
        .observe ⟨⟨1000000000, 1005⟩, .main .one .processed .slots, .slot 10 .processed⟩]
    ((new Backend.exact .one).runCalls calls).summary.1.stallEvents = [⟨1005, 1000⟩] := by
  intro calls
  have htimes : slotTimes .one calls = [⟨0, 5⟩, ⟨1000000000, 1005⟩] := rfl
  have hgap : exactGapMs ⟨0, 5⟩ ⟨1000000000, 1005⟩ = 1000 := by
    have hread : (1000000000 : UInt64).toNat = 1000000000 := rfl
    norm_num [exactGapMs, hread]
  refine (gaps_and_stalls .one calls (by decide) (by decide)).2.2.2.2.trans ?_
  rw [htimes, consecutive, consecutive, hgap]
  exact List.filter_cons_of_pos (by norm_num)

end StabilityTracker

end GrpcBench
