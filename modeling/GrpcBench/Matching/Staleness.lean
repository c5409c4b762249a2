import GrpcBench.Matching.Streams
import GrpcBench.Matching.Window

/-!
# How stale a pending entry can be

Passes are rare, and between two of them a matcher holds entries that the next pass will drop.  A
pass runs on every `EVICT_EVERY`-th observation, before that observation leaves its own entry, and
whenever `evict` or a summary asks for one.  So at any time the entries outside the window of the
latest pass are among those of the observations since, and there are at most `EVICT_EVERY` of them.

* `MatcherCall`: everything a matcher can be asked.
* `PassLog`: the high-water slot at the latest pass, and the observations since.
* `Fresh`: the invariant of a matcher and its log, with `Fresh.step` and `Fresh.run`.
* `windowBounds`: the high-water slot, the passes and the entries of every run.
-/

namespace GrpcBench

/-- A call on a matcher. -/
inductive MatcherCall (K : Type) where
  | observe (c : Call K)
  | evict
  | flush
  | quantile (q : ℚ)
  | snapshotDigest
  | summary

/-- The observation a call makes. -/
def MatcherCall.observed {K : Type} : MatcherCall K → Option (Call K)
  | .observe c => some c
  | _ => none

/-- What the passes of a run leave behind: the high-water slot the latest one ran with, and the
observations since, the one that ran it included. -/
structure PassLog (K : Type) where
  highWaterSlot : Option UInt64 := none
  since : List (Call K) := []

variable {B : Backend} {K : Type} [DecidableEq K]

namespace PairMatcher

/-- The matcher after a call. -/
def apply (m : PairMatcher B K) : MatcherCall K → PairMatcher B K
  | .observe c => (m.observe c.endpoint c.key c.ts c.slot).2
  | .evict => m.evict
  | .flush => m.flush
  | .quantile q => (m.quantile q).2
  | .snapshotDigest => m.snapshotDigest.2
  | .summary => (LatencyDigestSummary.fromMatcher m).2

/-- What a call adds to the log; `m` is the matcher before the call. -/
def record (m : PairMatcher B K) (log : PassLog K) : MatcherCall K → PassLog K
  | .observe c =>
    if batched (m.obsCount + 1) then ⟨some (raise m.highWaterSlot c.slot), [c]⟩
    else { log with since := log.since ++ [c] }
  | .evict | .summary => ⟨some m.highWaterSlot, []⟩
  | _ => log

/-- The matcher after a sequence of calls. -/
def applyAll (m : PairMatcher B K) (calls : List (MatcherCall K)) : PairMatcher B K :=
  calls.foldl apply m

/-- The log after a sequence of calls. -/
def recordAll (m : PairMatcher B K) (log : PassLog K) : List (MatcherCall K) → PassLog K
  | [] => log
  | call :: calls => recordAll (m.apply call) (m.record log call) calls

variable (m : PairMatcher B K)

theorem apply_observe (c : Call K) : m.apply (.observe c) = (m.stepWith batched c).2 := rfl

theorem apply_quantile (q : ℚ) : m.apply (.quantile q) = m.flush :=
  m.snd_quantile q

theorem apply_summary : m.apply .summary = m.evict.flush :=
  LatencyDigestSummary.snd_fromMatcher m

@[simp] theorem eviction_apply (call : MatcherCall K) : (m.apply call).eviction = m.eviction := by
  cases call with
  | observe c => rw [apply_observe, eviction_stepWith]
  | quantile q => rw [apply_quantile, eviction_flush]
  | summary => rw [apply_summary, eviction_flush, eviction_evict]
  | _ => rfl

/-- Only an observation raises the high-water slot. -/
theorem highWaterSlot_apply (call : MatcherCall K) : (m.apply call).highWaterSlot =
    call.observed.elim m.highWaterSlot fun c => raise m.highWaterSlot c.slot := by
  cases call with
  | observe c => rw [apply_observe, highWaterSlot_stepWith, MatcherCall.observed, Option.elim_some]
  | quantile q => rw [apply_quantile]; rfl
  | summary => rw [apply_summary]; rfl
  | _ => rfl

theorem highWaterSlot_le_apply (call : MatcherCall K) :
    m.highWaterSlot ≤ (m.apply call).highWaterSlot := by
  rw [highWaterSlot_apply]
  rcases call.observed with _ | c
  · exact UInt64.le_refl _
  · rw [Option.elim_some, UInt64.le_iff_toNat_le, toNat_raise]
    exact Nat.le_max_left _ _

/-! ## What a call does to an entry -/

variable {m} {window : UInt64}

/-- A pass keeps the live entries. -/
theorem lookup_evict (hw : m.eviction = .slotWindow window) (e : EndpointRole) (k : K)
    (p : MatchPending) : (m.evict.pending e).lookup k = some p ↔
      (m.pending e).lookup k = some p ∧ Live window m.highWaterSlot p.slot := by
  rw [pending_evict, hw]
  show Finmap.lookup k (Finmap.retain _ _) = some p ↔ _
  rw [Finmap.lookup_retain, Option.filter_eq_some_iff, decide_eq_true_eq, cutoff_le_iff]

/-- Settling a call adds its own entry at most. -/
theorem lookup_settle {c : Call K} {e : EndpointRole} {k : K} {p : MatchPending}
    (h : ((m.settleCall c).2.pending e).lookup k = some p) :
    (m.pending e).lookup k = some p ∨ (c.endpoint = e ∧ c.key = k ∧ p = ⟨c.ts, c.slot⟩) := by
  rcases m.settle_cases c with ⟨other, -, -, hset⟩ | ⟨-, -, hset⟩
  · rw [hset, pending_recordMatch, lookup_setPending_erase] at h
    split_ifs at h
    exact Or.inl h
  · rw [hset, lookup_setPending_insert] at h
    split_ifs at h with hc
    · exact Or.inr ⟨hc.2.symm, hc.1.symm, (Option.some.inj h).symm⟩
    · exact Or.inl h

/-- Admission leaves the entries alone, or runs a pass with the raised high-water slot. -/
theorem lookup_admitWith (passDue : UInt64 → Bool) (hw : m.eviction = .slotWindow window)
    (slot : UInt64) (e : EndpointRole) (k : K) (p : MatchPending) :
    ((m.admitWith passDue slot).pending e).lookup k = some p ↔
      (m.pending e).lookup k = some p ∧ (passDue (m.obsCount + 1) = true →
        Live window (raise m.highWaterSlot slot) p.slot) := by
  obtain ⟨m', hp, -, -, hev, hhw, -, heq⟩ := m.admitWith_eq passDue slot
  rw [heq]
  split_ifs with hdue
  · rw [lookup_evict (hev.trans hw), hp, hhw]
    exact and_congr_right fun _ => ⟨fun h _ => h, fun h => h hdue⟩
  · rw [hp]
    exact ⟨fun h => ⟨h, fun hd => absurd hd hdue⟩, fun h => h.1⟩

/-! ## The invariant -/

/-- A pending entry is live for the latest pass, or an observation since then has left it; there are
at most as many of those as the counter has advanced since it was a multiple of `EVICT_EVERY`. -/
structure Fresh (window : UInt64) (m : PairMatcher B K) (log : PassLog K) : Prop where
  policy : m.eviction = .slotWindow window
  few : log.since.length ≤ m.obsCount.toNat % 256 + 1
  entry : ∀ e k p, (m.pending e).lookup k = some p →
    (∃ c ∈ log.since, c.endpoint = e ∧ c.key = k ∧ p = ⟨c.ts, c.slot⟩) ∨
      ∃ highWaterSlot ∈ log.highWaterSlot, Live window highWaterSlot p.slot

theorem fresh_new (window : UInt64) : Fresh window (new B K (.slotWindow window)) {} := by
  refine ⟨rfl, Nat.zero_le _, fun e k p h => ?_⟩
  rw [pending_new, Finmap.lookup_empty] at h
  cases h

theorem batched_iff (n : UInt64) : batched n = true ↔ n.toNat % 256 = 0 := by
  rw [batched, beq_iff_eq, ← UInt64.toNat_inj, UInt64.toNat_mod]
  rfl

variable {log : PassLog K}

/-- A pass that runs by itself. -/
theorem Fresh.evict (h : Fresh window m log) :
    Fresh window m.evict ⟨some m.highWaterSlot, []⟩ := by
  refine ⟨h.policy, Nat.zero_le _, fun e k p hp => Or.inr ⟨_, rfl, ?_⟩⟩
  exact ((lookup_evict h.policy e k p).mp hp).2

theorem Fresh.flush (h : Fresh window m log) : Fresh window m.flush log :=
  ⟨h.policy, h.few, fun e k p hp => h.entry e k p (by rwa [pending_flush] at hp)⟩

/-- An observation.  If its turn is the one of a pass, the pass comes first and the entry of the
observation itself is the first of the new stretch. -/
theorem Fresh.observe (h : Fresh window m log) (c : Call K) :
    Fresh window (m.stepWith batched c).2 (m.record log (.observe c)) := by
  have hcount : (m.stepWith batched c).2.obsCount.toNat % 256 = (m.obsCount.toNat + 1) % 256 := by
    rw [obsCount_stepWith, UInt64.toNat_add]
    show (m.obsCount.toNat + 1) % 2 ^ 64 % 256 = _
    omega
  have hdue := batched_iff (m.obsCount + 1)
  rw [← obsCount_stepWith batched m c, hcount, obsCount_stepWith] at hdue
  have hfew := h.few
  refine ⟨by rw [eviction_stepWith, h.policy], ?_, fun e k p hp => ?_⟩
  · rw [hcount, record]
    split_ifs with hpass
    · rw [List.length_singleton]
      omega
    · rw [List.length_append, List.length_singleton]
      have := mt hdue.mpr hpass
      omega
  · rw [record]
    rcases lookup_settle hp with hold | hown
    · obtain ⟨hold, hlive⟩ := (lookup_admitWith batched h.policy c.slot e k p).mp hold
      split_ifs with hpass
      · exact Or.inr ⟨_, rfl, hlive hpass⟩
      · refine (h.entry e k p hold).imp_left fun hsince => ?_
        obtain ⟨d, hd, hd'⟩ := hsince
        exact ⟨d, List.mem_append_left _ hd, hd'⟩
    · split_ifs with hpass
      · exact Or.inl ⟨c, List.mem_singleton_self c, hown⟩
      · exact Or.inl ⟨c, List.mem_append_right _ (List.mem_singleton_self c), hown⟩

theorem Fresh.step (h : Fresh window m log) (call : MatcherCall K) :
    Fresh window (m.apply call) (m.record log call) := by
  cases call with
  | observe c => exact h.observe c
  | evict => exact h.evict
  | flush => exact h.flush
  | quantile q =>
    rw [apply_quantile]
    exact h.flush
  | snapshotDigest => exact h.flush
  | summary =>
    rw [apply_summary]
    exact h.evict.flush

theorem Fresh.run (h : Fresh window m log) (calls : List (MatcherCall K)) :
    Fresh window (m.applyAll calls) (m.recordAll log calls) := by
  induction calls generalizing m log with
  | nil => exact h
  | cons call calls ih => exact ih (h.step call)

/-! ## Every run -/

omit [DecidableEq K] in
/-- The highest of the slots observed, or the slot a list of observations starts from. -/
theorem highWaterAfter_spec (hw : UInt64) (cs : List (Call K)) : hw ≤ highWaterAfter hw cs ∧
    (∀ c ∈ cs, c.slot ≤ highWaterAfter hw cs) ∧
      (highWaterAfter hw cs = hw ∨ ∃ c ∈ cs, c.slot = highWaterAfter hw cs) := by
  induction cs generalizing hw with
  | nil => exact ⟨UInt64.le_refl _, by simp, Or.inl rfl⟩
  | cons c cs ih =>
    obtain ⟨hle, hall, hmax⟩ := ih (raise hw c.slot)
    have hraise : hw ≤ raise hw c.slot ∧ c.slot ≤ raise hw c.slot := by
      rw [UInt64.le_iff_toNat_le, UInt64.le_iff_toNat_le, toNat_raise]
      omega
    have hcases : raise hw c.slot = hw ∨ c.slot = raise hw c.slot := by
      unfold raise
      split_ifs
      · exact Or.inr rfl
      · exact Or.inl rfl
    rw [highWaterAfter, List.foldl_cons, ← highWaterAfter]
    refine ⟨UInt64.le_trans hraise.1 hle, fun d hd => ?_, ?_⟩
    · rcases List.mem_cons.mp hd with rfl | hd
      · exact UInt64.le_trans hraise.2 hle
      · exact hall d hd
    · rcases hmax with hmax | ⟨d, hd, hmax⟩
      · rw [hmax]
        exact hcases.imp_right fun hc => ⟨c, List.mem_cons_self, hc⟩
      · exact Or.inr ⟨d, List.mem_cons_of_mem c hd, hmax⟩

theorem highWaterSlot_applyAll (m : PairMatcher B K) (calls : List (MatcherCall K)) :
    (m.applyAll calls).highWaterSlot =
      highWaterAfter m.highWaterSlot (calls.filterMap MatcherCall.observed) := by
  induction calls generalizing m with
  | nil => rfl
  | cons call calls ih =>
    rw [applyAll, List.foldl_cons, ← applyAll, ih, highWaterSlot_apply, List.filterMap_cons]
    rcases call.observed with _ | c <;> rfl

/-- The log lists the last observations of the run. -/
theorem since_recordAll (m : PairMatcher B K) (log : PassLog K) (calls : List (MatcherCall K)) :
    (m.recordAll log calls).since <:+ log.since ++ calls.filterMap MatcherCall.observed := by
  induction calls generalizing m log with
  | nil => rw [List.filterMap_nil, List.append_nil, recordAll]
  | cons call calls ih =>
    refine (ih (m.apply call) (m.record log call)).trans ?_
    cases call with
    | observe c =>
      rw [List.filterMap_cons, MatcherCall.observed, record]
      dsimp only
      split_ifs
      · exact List.suffix_append _ _
      · rw [List.append_assoc, List.singleton_append]
    | evict => exact List.suffix_append _ _
    | summary => exact List.suffix_append _ _
    | _ => exact List.suffix_rfl

/-- What a slot window promises of a matcher, its log and the observations `cs` so far. -/
structure WindowBounds (window : UInt64) (m : PairMatcher B K) (log : PassLog K)
    (cs : List (Call K)) : Prop where
  highest : (∀ c ∈ cs, c.slot ≤ m.highWaterSlot) ∧
    (m.highWaterSlot = 0 ∨ ∃ c ∈ cs, c.slot = m.highWaterSlot)
  rises : ∀ call, m.highWaterSlot ≤ (m.apply call).highWaterSlot
  evict_keeps : ∀ e k p, (m.pending e).lookup k = some p → Live window m.highWaterSlot p.slot →
    (m.evict.pending e).lookup k = some p
  admit_keeps : ∀ slot e k p, (m.pending e).lookup k = some p →
    Live window (m.admitSlot slot).highWaterSlot p.slot →
    ((m.admitSlot slot).pending e).lookup k = some p
  recent : log.since <:+ cs ∧ log.since.length ≤ 256
  entry : ∀ e k p, (m.pending e).lookup k = some p →
    (∃ c ∈ log.since, c.endpoint = e ∧ c.key = k ∧ p = ⟨c.ts, c.slot⟩) ∨
      ∃ highWaterSlot ∈ log.highWaterSlot, Live window highWaterSlot p.slot

/-- **The window of every run.**  The high-water slot is the highest slot observed; no pass drops an
entry inside the window; and an entry outside the window of the latest pass is one of the at most
256 observations since. -/
theorem windowBounds (B : Backend) (window : UInt64) (calls : List (MatcherCall K)) :
    let m := new B K (.slotWindow window)
    WindowBounds window (m.applyAll calls) (m.recordAll {} calls)
      (calls.filterMap MatcherCall.observed) := by
  intro m
  have hfresh : Fresh window (m.applyAll calls) (m.recordAll {} calls) :=
    (fresh_new window).run calls
  have hspec := highWaterAfter_spec m.highWaterSlot (calls.filterMap MatcherCall.observed)
  rw [← highWaterSlot_applyAll m calls] at hspec
  have hfew := hfresh.few
  refine ⟨hspec.2, highWaterSlot_le_apply _, ?_, ?_, ⟨since_recordAll m {} calls, by omega⟩,
    hfresh.entry⟩
  · exact fun e k p hp hlive => (lookup_evict hfresh.policy e k p).mpr ⟨hp, hlive⟩
  · intro slot e k p hp hlive
    rw [admitSlot, highWaterSlot_admitWith] at hlive
    exact (lookup_admitWith batched hfresh.policy slot e k p).mpr ⟨hp, fun _ => hlive⟩

end PairMatcher

end GrpcBench
