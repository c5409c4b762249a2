import GrpcBench.Matching.Observe
import Mathlib.Data.List.Lemmas
import Mathlib.Data.List.ReduceOption

/-!
# Runs of one matcher

A run feeds a list of calls to a matcher.  `stepWith` is `observe` with the decision when an
eviction pass runs left as a parameter, so that the batched passes of the source (`batched`) and a
pass on every observation (`eager`) are two instances of one definition.

* `runWith`: the results of a run, call by call, and the matcher it ends in.
* `traceWith`: what every call of the run found.  It is not part of the program; the results, the
  counters and the samples of a run are functions of it.
* `matched_runWith`, `samples_runWith` and so on: the counters and the recorded samples of a run,
  from its results.
* `balance_runWith`: the books of one endpoint over a run.
-/

namespace GrpcBench

open Rendezvous (Board Outcome Arrival)

/-- The source's rule: a pass on every `EVICT_EVERY`-th observation. -/
def batched (obsCount : UInt64) : Bool :=
  obsCount % evictEvery == 0

/-- A pass on every observation. -/
def eager (_ : UInt64) : Bool :=
  true

/-- The high-water slot after an observation. -/
def raise (highWaterSlot slot : UInt64) : UInt64 :=
  if highWaterSlot < slot then slot else highWaterSlot

@[simp] theorem toNat_raise (highWaterSlot slot : UInt64) :
    (raise highWaterSlot slot).toNat = max highWaterSlot.toNat slot.toNat := by
  unfold raise
  split_ifs with h
  · rw [UInt64.lt_iff_toNat_lt] at h
    omega
  · rw [UInt64.lt_iff_toNat_lt] at h
    omega

/-- An outcome that puts a call's entry in the place of an older one. -/
def isReplaced {V : Type} : Outcome V → Bool
  | .replaces _ => true
  | _ => false

namespace PairMatcher

variable {B : Backend} {K : Type} [DecidableEq K]

/-! ## Admission -/

section Admit

variable (passDue : UInt64 → Bool) (m : PairMatcher B K) (slot : UInt64)

/-- Admission raises the high-water slot, advances the counter, and may run a pass. -/
theorem admitWith_eq : ∃ m' : PairMatcher B K,
    (∀ e, m'.pending e = m.pending e) ∧ m'.counts = m.counts ∧ m'.deltas = m.deltas ∧
    m'.eviction = m.eviction ∧ m'.highWaterSlot = raise m.highWaterSlot slot ∧
    m'.obsCount = m.obsCount + 1 ∧
    m.admitWith passDue slot = if passDue (m.obsCount + 1) then m'.evict else m' := by
  by_cases h : m.highWaterSlot < slot
  · refine ⟨{ m with highWaterSlot := slot, obsCount := m.obsCount + 1 },
      fun e => by cases e <;> rfl, rfl, rfl, rfl, (if_pos h).symm, rfl, ?_⟩
    simp only [admitWith, if_pos h]
  · refine ⟨{ m with obsCount := m.obsCount + 1 },
      fun e => by cases e <;> rfl, rfl, rfl, rfl, (if_neg h).symm, rfl, ?_⟩
    simp only [admitWith, if_neg h]

/-- Whatever a pass and the two counters of admission leave alone stays. -/
theorem frame_admitWith {α : Type*} (f : PairMatcher B K → α)
    (hevict : ∀ m : PairMatcher B K, f m.evict = f m)
    (hcounters : ∀ (m : PairMatcher B K) (hw n : UInt64),
      f { m with highWaterSlot := hw, obsCount := n } = f m) :
    f (m.admitWith passDue slot) = f m := by
  have hpass : ∀ m' : PairMatcher B K, f m' = f m →
      f (if passDue m'.obsCount then m'.evict else m') = f m := by
    intro m' hm'
    split
    · rw [hevict, hm']
    · exact hm'
  unfold admitWith
  split
  · exact hpass _ (hcounters m slot (m.obsCount + 1))
  · exact hpass _ (hcounters m m.highWaterSlot (m.obsCount + 1))

@[simp] theorem eviction_admitWith : (m.admitWith passDue slot).eviction = m.eviction :=
  m.frame_admitWith passDue slot (·.eviction) (fun _ => rfl) fun _ _ _ => rfl

@[simp] theorem highWaterSlot_admitWith :
    (m.admitWith passDue slot).highWaterSlot = raise m.highWaterSlot slot := by
  obtain ⟨m', -, -, -, -, hhw, -, heq⟩ := m.admitWith_eq passDue slot
  rw [heq]
  split <;> simp [hhw]

@[simp] theorem obsCount_admitWith : (m.admitWith passDue slot).obsCount = m.obsCount + 1 := by
  obtain ⟨m', -, -, -, -, -, hobs, heq⟩ := m.admitWith_eq passDue slot
  rw [heq]
  split <;> simp [hobs]

@[simp] theorem matched_admitWith :
    (m.admitWith passDue slot).counts.matched = m.counts.matched :=
  m.frame_admitWith passDue slot (·.counts.matched) (fun _ => rfl) fun _ _ _ => rfl

@[simp] theorem ep1Faster_admitWith :
    (m.admitWith passDue slot).counts.ep1Faster = m.counts.ep1Faster :=
  m.frame_admitWith passDue slot (·.counts.ep1Faster) (fun _ => rfl) fun _ _ _ => rfl

@[simp] theorem ep2Faster_admitWith :
    (m.admitWith passDue slot).counts.ep2Faster = m.counts.ep2Faster :=
  m.frame_admitWith passDue slot (·.counts.ep2Faster) (fun _ => rfl) fun _ _ _ => rfl

@[simp] theorem deltas_admitWith : (m.admitWith passDue slot).deltas = m.deltas :=
  m.frame_admitWith passDue slot (·.deltas) (fun _ => rfl) fun _ _ _ => rfl

/-- Admission leaves the books of both endpoints balanced. -/
theorem balance_admitWith {window : UInt64} (h : m.eviction = .slotWindow window)
    (e : EndpointRole) : (m.admitWith passDue slot).balance e = m.balance e := by
  obtain ⟨m', hp, hc, -, hev, -, -, heq⟩ := m.admitWith_eq passDue slot
  have hbal : m'.balance e = m.balance e := by rw [balance, balance, hp, hc]
  rw [heq]
  split
  · rw [balance_evict m' (hev.trans h), hbal]
  · exact hbal

/-- Admission keeps a board, or filters it by the new high-water slot. -/
theorem Holds.admitWith {m : PairMatcher B K} {P : Board K EndpointRole MatchPending}
    (h : m.Holds P) {window : UInt64} (hw : m.eviction = .slotWindow window) :
    ∃ P', (m.admitWith passDue slot).Holds P' ∧ ∀ k, P' k = P k ∨
      P' k = (P k).filter fun x =>
        decide (saturatingSub (raise m.highWaterSlot slot) window ≤ x.2.slot) := by
  obtain ⟨m', hp, -, -, hev, hhw, -, heq⟩ := m.admitWith_eq passDue slot
  have h' : m'.Holds P := fun e k p => by rw [hp]; exact h e k p
  rw [heq]
  split
  · have hpass := h'.evict (hev.trans hw)
    rw [hhw] at hpass
    exact ⟨_, hpass, fun k => Or.inr rfl⟩
  · exact ⟨P, h', fun k => Or.inl rfl⟩

end Admit

/-! ## Steps and runs -/

/-- `observe`, with the decision whether a pass runs left open. -/
def stepWith (passDue : UInt64 → Bool) (m : PairMatcher B K) (c : Call K) :
    Option MatchResult × PairMatcher B K :=
  (m.admitWith passDue c.slot).settleCall c

/-- With the source's rule, `stepWith` is `observe`. -/
theorem stepWith_batched (m : PairMatcher B K) (c : Call K) :
    m.stepWith batched c = m.observe c.endpoint c.key c.ts c.slot := rfl

/-- What a call finds, once it is admitted. -/
def foundWith (passDue : UInt64 → Bool) (m : PairMatcher B K) (c : Call K) :
    Outcome MatchPending :=
  (m.admitWith passDue c.slot).outcome c

/-- A run: the result of every call, and the matcher it ends in. -/
def runWith (passDue : UInt64 → Bool) (m : PairMatcher B K) :
    List (Call K) → List (Option MatchResult) × PairMatcher B K
  | [] => ([], m)
  | c :: cs =>
    let r := m.stepWith passDue c
    let rs := runWith passDue r.2 cs
    (r.1 :: rs.1, rs.2)

/-- A run of `observe`. -/
def run (m : PairMatcher B K) (cs : List (Call K)) :
    List (Option MatchResult) × PairMatcher B K :=
  m.runWith batched cs

/-- What every call of a run found. -/
def traceWith (passDue : UInt64 → Bool) (m : PairMatcher B K) :
    List (Call K) → List (Arrival K EndpointRole MatchPending × Outcome MatchPending)
  | [] => []
  | c :: cs => (c.arrival, m.foundWith passDue c) :: traceWith passDue (m.stepWith passDue c).2 cs

section Run

variable (passDue : UInt64 → Bool) (m : PairMatcher B K) (c : Call K) (cs : List (Call K))

@[simp] theorem runWith_nil : m.runWith passDue [] = ([], m) := rfl

@[simp] theorem runWith_cons : m.runWith passDue (c :: cs) =
    ((m.stepWith passDue c).1 :: ((m.stepWith passDue c).2.runWith passDue cs).1,
      ((m.stepWith passDue c).2.runWith passDue cs).2) := rfl

@[simp] theorem traceWith_cons : m.traceWith passDue (c :: cs) =
    (c.arrival, m.foundWith passDue c) :: (m.stepWith passDue c).2.traceWith passDue cs := rfl

/-- The matcher a run ends in, as a fold. -/
theorem runWith_eq_foldl :
    (m.runWith passDue cs).2 = cs.foldl (fun m c => (m.stepWith passDue c).2) m := by
  induction cs generalizing m with
  | nil => rfl
  | cons c cs ih => exact ih (m.stepWith passDue c).2

theorem run_eq_foldl : (m.run cs).2 =
    cs.foldl (fun m c => (m.observe c.endpoint c.key c.ts c.slot).2) m :=
  runWith_eq_foldl batched m cs

theorem fst_stepWith :
    (m.stepWith passDue c).1 = arrivalResult B (c.arrival, m.foundWith passDue c) :=
  fst_settle _ c

@[simp] theorem eviction_stepWith : (m.stepWith passDue c).2.eviction = m.eviction := by
  rw [stepWith, eviction_settle, eviction_admitWith]

@[simp] theorem highWaterSlot_stepWith :
    (m.stepWith passDue c).2.highWaterSlot = raise m.highWaterSlot c.slot := by
  rw [stepWith, highWaterSlot_settle, highWaterSlot_admitWith]

@[simp] theorem obsCount_stepWith : (m.stepWith passDue c).2.obsCount = m.obsCount + 1 := by
  rw [stepWith, obsCount_settle, obsCount_admitWith]

/-- The results of a run are read off its trace. -/
theorem fst_runWith :
    (m.runWith passDue cs).1 = (m.traceWith passDue cs).map (arrivalResult B) := by
  induction cs generalizing m with
  | nil => rfl
  | cons c cs ih => rw [runWith_cons, traceWith_cons, List.map_cons, ← ih, fst_stepWith]

@[simp] theorem eviction_runWith : (m.runWith passDue cs).2.eviction = m.eviction := by
  induction cs generalizing m with
  | nil => rfl
  | cons c cs ih => rw [runWith_cons, ih, eviction_stepWith]

theorem map_fst_traceWith :
    (m.traceWith passDue cs).map Prod.fst = cs.map Call.arrival := by
  induction cs generalizing m with
  | nil => rfl
  | cons c cs ih => rw [traceWith_cons, List.map_cons, List.map_cons, ih]

/-! ## The counters and samples of a run -/

/-- The sample of a match is its difference of arrivals. -/
theorem deltaMs_of_stepWith {m : PairMatcher B K} {passDue : UInt64 → Bool} {c : Call K}
    {r : MatchResult} (h : (m.stepWith passDue c).1 = some r) :
    r.deltaMs = B.toMs r.delta.toInt := by
  rw [fst_stepWith, arrivalResult, Option.map_eq_some_iff] at h
  obtain ⟨other, -, rfl⟩ := h
  exact deltaMs_matchResult B ..

theorem matched_stepWith : (m.stepWith passDue c).2.counts.matched =
    m.counts.matched + (m.stepWith passDue c).1.toList.length := by
  have hc := counts_settle (m.admitWith passDue c.slot) c
  rw [stepWith, hc]
  split <;> simp_all [MatchCounts.record_matched]

theorem ep1Faster_stepWith : (m.stepWith passDue c).2.counts.ep1Faster =
    m.counts.ep1Faster + (m.stepWith passDue c).1.toList.countP fun r => 0 < r.delta.toInt := by
  have hc := counts_settle (m.admitWith passDue c.slot) c
  rw [stepWith, hc]
  split <;> simp_all [MatchCounts.record_ep1Faster, List.countP_cons]

theorem ep2Faster_stepWith : (m.stepWith passDue c).2.counts.ep2Faster =
    m.counts.ep2Faster + (m.stepWith passDue c).1.toList.countP fun r => r.delta.toInt < 0 := by
  have hc := counts_settle (m.admitWith passDue c.slot) c
  rw [stepWith, hc]
  split <;> simp_all [MatchCounts.record_ep2Faster, List.countP_cons]

theorem deltas_stepWith : (m.stepWith passDue c).2.deltas =
    ((m.stepWith passDue c).1.toList.map MatchResult.deltaMs).foldl BufferedDigest.push
      m.deltas := by
  rw [stepWith, deltas_settle, deltas_admitWith]

theorem samples_stepWith : (m.stepWith passDue c).2.samples =
    ((m.stepWith passDue c).1.toList.map MatchResult.deltaMs : List ℚ) + m.samples := by
  rw [samples, deltas_stepWith, BufferedDigest.samples_foldl_push, samples]

theorem reduceOption_cons_toList {α : Type*} (o : Option α) (l : List (Option α)) :
    (o :: l).reduceOption = o.toList ++ l.reduceOption := by
  cases o <;> simp

/-- **A run counts its matches.** -/
theorem matched_runWith : (m.runWith passDue cs).2.counts.matched =
    m.counts.matched + (m.runWith passDue cs).1.reduceOption.length := by
  induction cs generalizing m with
  | nil => rfl
  | cons c cs ih =>
    rw [runWith_cons, ih, matched_stepWith, reduceOption_cons_toList, List.length_append, add_assoc]

theorem ep1Faster_runWith : (m.runWith passDue cs).2.counts.ep1Faster =
    m.counts.ep1Faster +
      (m.runWith passDue cs).1.reduceOption.countP fun r => 0 < r.delta.toInt := by
  induction cs generalizing m with
  | nil => rfl
  | cons c cs ih =>
    rw [runWith_cons, ih, ep1Faster_stepWith, reduceOption_cons_toList, List.countP_append,
      add_assoc]

theorem ep2Faster_runWith : (m.runWith passDue cs).2.counts.ep2Faster =
    m.counts.ep2Faster +
      (m.runWith passDue cs).1.reduceOption.countP fun r => r.delta.toInt < 0 := by
  induction cs generalizing m with
  | nil => rfl
  | cons c cs ih =>
    rw [runWith_cons, ih, ep2Faster_stepWith, reduceOption_cons_toList, List.countP_append,
      add_assoc]

/-- The samples go into the digest in the order of the matches. -/
theorem deltas_runWith : (m.runWith passDue cs).2.deltas =
    ((m.runWith passDue cs).1.reduceOption.map MatchResult.deltaMs).foldl BufferedDigest.push
      m.deltas := by
  induction cs generalizing m with
  | nil => rfl
  | cons c cs ih =>
    rw [runWith_cons, ih, deltas_stepWith, reduceOption_cons_toList, List.map_append,
      List.foldl_append]

/-- **A run records one sample for each match.** -/
theorem samples_runWith : (m.runWith passDue cs).2.samples =
    ((m.runWith passDue cs).1.reduceOption.map MatchResult.deltaMs : List ℚ) + m.samples := by
  rw [samples, deltas_runWith, BufferedDigest.samples_foldl_push, samples]

/-! ## The books over a run -/

theorem replaces_iff : (m.admitWith passDue c.slot).Replaces c ↔
    isReplaced (m.foundWith passDue c) = true := by
  rw [Replaces, foundWith]
  rcases (m.admitWith passDue c.slot).outcome c with _ | old | other <;> simp [isReplaced]

/-- The books of an endpoint after one call. -/
theorem balance_stepWith {window : UInt64} (h : m.eviction = .slotWindow window)
    (e : EndpointRole) : (m.stepWith passDue c).2.balance e +
      (if (decide (c.endpoint = e) && isReplaced (m.foundWith passDue c)) = true then 1 else 0) =
        m.balance e + if c.endpoint = e then 1 else 0 := by
  have hset := balance_settle (m.admitWith passDue c.slot) c e
  rw [balance_admitWith passDue m c.slot h] at hset
  rw [← hset, stepWith]
  refine congrArg _ (if_congr ?_ rfl rfl)
  rw [Bool.and_eq_true, decide_eq_true_eq, replaces_iff]

/-- **The books of an endpoint over a run.**  Every call of the endpoint ends up matched, pending,
evicted, or in the place of an older entry. -/
theorem balance_runWith {window : UInt64} (h : m.eviction = .slotWindow window)
    (e : EndpointRole) : (m.runWith passDue cs).2.balance e +
      ((m.traceWith passDue cs).countP fun x => decide (x.1.side = e) && isReplaced x.2) =
        m.balance e + cs.countP fun c => c.endpoint = e := by
  induction cs generalizing m with
  | nil => rfl
  | cons c cs ih =>
    have hstep := balance_stepWith passDue m c h e
    have hrun := ih (m.stepWith passDue c).2 (by rw [eviction_stepWith, h])
    have hreplaced : ((m.traceWith passDue (c :: cs)).countP fun x =>
        decide (x.1.side = e) && isReplaced x.2) =
          (((m.stepWith passDue c).2.traceWith passDue cs).countP fun x =>
            decide (x.1.side = e) && isReplaced x.2) +
          if (decide (c.endpoint = e) && isReplaced (m.foundWith passDue c)) = true then 1 else 0 :=
      List.countP_cons ..
    have hcalls : ((c :: cs).countP fun c => c.endpoint = e) =
        (cs.countP fun c => c.endpoint = e) + if c.endpoint = e then 1 else 0 := by
      rw [List.countP_cons, if_congr decide_eq_true_iff rfl rfl]
    rw [hreplaced, hcalls]
    show ((m.stepWith passDue c).2.runWith passDue cs).2.balance e + _ = _
    omega

end Run

end PairMatcher

end GrpcBench
