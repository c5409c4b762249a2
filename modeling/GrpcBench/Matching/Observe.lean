import GrpcBench.Library.Rendezvous
import GrpcBench.Matching.PairMatcher

/-!
# What one observation does

An observation of a matcher is an arrival at a rendezvous: the side is the endpoint, and the party
is the pending entry it would leave behind.  This file says what the pieces of `observe` do in those
terms, once, so that no later proof unfolds them.

* `outcome`: what the lookups of an observation find, and `fst_settle`: the returned `MatchResult`
  is a function of it.
* `settle_matched`, `settle_samples` and so on: a match counts once and records one sample.
* `balance_settle`, `balance_evict`: the books of one endpoint.  Every observation of the endpoint
  ends up matched, pending, evicted, or in the place of an older entry.
* `Holds` and `Holds.settle`, `Holds.evict`: the two pending maps hold one board, so no key is
  pending on both endpoints; `settle` is one step of that board and a slot-window pass filters it.
-/

namespace GrpcBench

open Rendezvous (Board Outcome Arrival)

/-- One call of `PairMatcher::observe`. -/
structure Call (K : Type) where
  endpoint : EndpointRole
  key : K
  ts : EventTimestamp
  slot : UInt64
  deriving DecidableEq

/-- A call as an arrival: the entry it would leave pending arrives at its key. -/
def Call.arrival {K : Type} (c : Call K) : Arrival K EndpointRole MatchPending :=
  ⟨c.endpoint, c.key, ⟨c.ts, c.slot⟩⟩

@[simp] theorem Call.arrival_key {K : Type} (c : Call K) : c.arrival.key = c.key := rfl

@[simp] theorem Call.arrival_side {K : Type} (c : Call K) : c.arrival.side = c.endpoint := rfl

@[simp] theorem Call.arrival_val {K : Type} (c : Call K) : c.arrival.val = ⟨c.ts, c.slot⟩ := rfl

/-- The difference `ep2 - ep1` of a match, in nanoseconds. -/
def MatchResult.delta (r : MatchResult) : Int64 :=
  deltaNs r.ep2Ts r.ep1Ts

/-- The result of a match between an arrival and the entry it met. -/
def matchResult (B : Backend) (endpoint : EndpointRole) (ts other : EventTimestamp) : MatchResult :=
  let (ep1Ts, ep2Ts) := orderPair endpoint ts other
  ⟨B.toMs (deltaNs ep2Ts ep1Ts).toInt, ep1Ts, ep2Ts⟩

theorem deltaMs_matchResult (B : Backend) (e : EndpointRole) (t t' : EventTimestamp) :
    (matchResult B e t t').deltaMs = B.toMs (matchResult B e t t').delta.toInt := by
  cases e <;> rfl

/-- The result of an arrival, from what it found. -/
def arrivalResult (B : Backend) {K : Type}
    (x : Arrival K EndpointRole MatchPending × Outcome MatchPending) : Option MatchResult :=
  x.2.met.map fun other => matchResult B x.1.side x.1.val.ts other.ts

/-! ## The counters -/

theorem MatchCounts.record_matched (c : MatchCounts) (d : Int64) :
    (c.record d).matched = c.matched + 1 := by
  unfold record; split_ifs <;> rfl

theorem MatchCounts.record_ep1Faster (c : MatchCounts) (d : Int64) :
    (c.record d).ep1Faster = c.ep1Faster + if 0 < d.toInt then 1 else 0 := by
  have hpos : 0 < d ↔ 0 < d.toInt := by rw [Int64.lt_iff_toInt_lt, Int64.toInt_zero]
  unfold record
  by_cases h : 0 < d
  · rw [if_pos h, if_pos (hpos.mp h)]
  · rw [if_neg h, if_neg (fun h' => h (hpos.mpr h'))]
    split_ifs <;> rfl

theorem MatchCounts.record_ep2Faster (c : MatchCounts) (d : Int64) :
    (c.record d).ep2Faster = c.ep2Faster + if d.toInt < 0 then 1 else 0 := by
  have hpos : 0 < d ↔ 0 < d.toInt := by rw [Int64.lt_iff_toInt_lt, Int64.toInt_zero]
  have hneg : d < 0 ↔ d.toInt < 0 := by rw [Int64.lt_iff_toInt_lt, Int64.toInt_zero]
  unfold record
  by_cases h : 0 < d
  · have hd : ¬ d.toInt < 0 := by
      have := hpos.mp h
      omega
    rw [if_pos h, if_neg hd]
    rfl
  · rw [if_neg h]
    by_cases h' : d < 0
    · rw [if_pos h', if_pos (hneg.mp h')]
    · rw [if_neg h', if_neg (fun hd => h' (hneg.mpr hd))]
      rfl

@[simp] theorem MatchCounts.record_unmatchedEvicted (c : MatchCounts) (d : Int64)
    (e : EndpointRole) : (c.record d).unmatchedEvicted e = c.unmatchedEvicted e := by
  cases e <;> (unfold record; split_ifs <;> rfl)

namespace PairMatcher

variable {B : Backend} {K : Type} [DecidableEq K]

/-- `settle` applied to a call. -/
def settleCall (m : PairMatcher B K) (c : Call K) : Option MatchResult × PairMatcher B K :=
  m.settle c.endpoint c.key c.ts c.slot

/-- What the lookups of `settle` find. -/
def outcome (m : PairMatcher B K) (c : Call K) : Outcome MatchPending :=
  match (m.pending c.endpoint.other).lookup c.key with
  | some other => .meets other
  | none =>
    match (m.pending c.endpoint).lookup c.key with
    | some old => .replaces old
    | none => .waits

variable (m : PairMatcher B K) (c : Call K)

/-! ## Settling a call -/

/-- The two ways `settle` can go. -/
theorem settle_cases :
    (∃ other, (m.pending c.endpoint.other).lookup c.key = some other ∧
      m.outcome c = .meets other ∧
      m.settleCall c = (some (matchResult B c.endpoint c.ts other.ts),
        (m.setPending c.endpoint.other ((m.pending c.endpoint.other).erase c.key)).recordMatch
          (matchResult B c.endpoint c.ts other.ts).deltaMs
          (matchResult B c.endpoint c.ts other.ts).delta)) ∨
    ((m.pending c.endpoint.other).lookup c.key = none ∧ (m.outcome c).met = none ∧
      m.settleCall c = (none,
        m.setPending c.endpoint ((m.pending c.endpoint).insert c.key ⟨c.ts, c.slot⟩))) := by
  rcases h : (m.pending c.endpoint.other).lookup c.key with _ | other
  · refine Or.inr ⟨rfl, ?_, ?_⟩
    · simp only [outcome, h]
      split <;> rfl
    · simp only [settleCall, settle, h]
  · exact Or.inl ⟨other, rfl, by simp only [outcome, h], by simp only [settleCall, settle, h]; rfl⟩

/-- The returned result is read off what the lookups found. -/
theorem fst_settle : (m.settleCall c).1 = arrivalResult B (c.arrival, m.outcome c) := by
  rcases m.settle_cases c with ⟨other, -, hout, hset⟩ | ⟨-, hout, hset⟩
  · rw [hset, hout]
    rfl
  · rw [hset, arrivalResult, hout]
    rfl

@[simp] theorem eviction_settle : (m.settleCall c).2.eviction = m.eviction := by
  rcases m.settle_cases c with ⟨other, -, -, hset⟩ | ⟨-, -, hset⟩ <;> simp [hset]

@[simp] theorem highWaterSlot_settle : (m.settleCall c).2.highWaterSlot = m.highWaterSlot := by
  rcases m.settle_cases c with ⟨other, -, -, hset⟩ | ⟨-, -, hset⟩ <;> simp [hset]

@[simp] theorem obsCount_settle : (m.settleCall c).2.obsCount = m.obsCount := by
  rcases m.settle_cases c with ⟨other, -, -, hset⟩ | ⟨-, -, hset⟩ <;> simp [hset]

/-- The counters after a call, from the result it returned. -/
theorem counts_settle : (m.settleCall c).2.counts =
    match (m.settleCall c).1 with
    | some r => m.counts.record r.delta
    | none => m.counts := by
  rcases m.settle_cases c with ⟨other, -, -, hset⟩ | ⟨-, -, hset⟩ <;> simp [hset]

/-- The digest after a call, from the result it returned. -/
theorem deltas_settle : (m.settleCall c).2.deltas =
    ((m.settleCall c).1.toList.map MatchResult.deltaMs).foldl BufferedDigest.push m.deltas := by
  rcases m.settle_cases c with ⟨other, -, -, hset⟩ | ⟨-, -, hset⟩
  · rw [hset]
    cases c.endpoint <;> rfl
  · rw [hset]
    cases c.endpoint <;> rfl

/-! ## The books of one endpoint -/

/-- The observations of an endpoint that are matched, pending or evicted. -/
def balance (m : PairMatcher B K) (e : EndpointRole) : ℕ :=
  m.counts.matched + (m.pending e).size + m.counts.unmatchedEvicted e

omit [DecidableEq K] in
@[simp] theorem balance_flush (m : PairMatcher B K) (e : EndpointRole) :
    m.flush.balance e = m.balance e := by
  simp [balance]

/-- A call whose own entry takes the place of an older one. -/
def Replaces (m : PairMatcher B K) (c : Call K) : Prop :=
  ∃ old, m.outcome c = .replaces old

instance (m : PairMatcher B K) (c : Call K) : Decidable (m.Replaces c) :=
  match h : m.outcome c with
  | .replaces old => isTrue ⟨old, h⟩
  | .waits => isFalse fun ⟨_, h'⟩ => by rw [h] at h'; cases h'
  | .meets _ => isFalse fun ⟨_, h'⟩ => by rw [h] at h'; cases h'

/-- **The books after a call.**  The endpoint of the call has one more observation on them, unless
its entry replaced an older one; the books of the other endpoint are unchanged, a match moving an
entry of its pending map to the matched ones. -/
theorem balance_settle (e : EndpointRole) :
    (m.settleCall c).2.balance e + (if c.endpoint = e ∧ m.Replaces c then 1 else 0) =
      m.balance e + if c.endpoint = e then 1 else 0 := by
  rcases m.settle_cases c with ⟨other, hlook, hout, hset⟩ | ⟨hlook, hmet, hset⟩
  · have hrep : ¬ m.Replaces c := by
      rintro ⟨old, h⟩
      rw [hout] at h
      cases h
    have hmem := Finmap.size_erase_of_mem (Finmap.mem_of_lookup_eq_some hlook)
    rw [hset, if_neg (fun h => hrep h.2)]
    by_cases he : c.endpoint = e
    · subst he
      simp only [balance, counts_recordMatch, pending_recordMatch, pending_setPending_other',
        counts_setPending, MatchCounts.record_matched, MatchCounts.record_unmatchedEvicted, if_true]
      omega
    · have he' : e = c.endpoint.other := EndpointRole.eq_other_of_ne (Ne.symm he)
      subst he'
      simp only [balance, counts_recordMatch, pending_recordMatch, pending_setPending_self,
        counts_setPending, MatchCounts.record_matched, MatchCounts.record_unmatchedEvicted,
        if_neg he]
      omega
  · rw [hset]
    by_cases he : c.endpoint = e
    · subst he
      simp only [balance, pending_setPending_self, counts_setPending, if_true, true_and]
      by_cases hmem : c.key ∈ m.pending c.endpoint
      · obtain ⟨old, hold⟩ := Finmap.mem_iff.mp hmem
        have hrep : m.Replaces c := ⟨old, by simp only [outcome, hlook, hold]⟩
        rw [if_pos hrep, Finmap.size_insert_of_mem hmem]
      · have hnone := Finmap.lookup_eq_none.mpr hmem
        have hrep : ¬ m.Replaces c := by
          rintro ⟨old, h⟩
          simp only [outcome, hlook, hnone] at h
          cases h
        rw [if_neg hrep, Finmap.size_insert_of_notMem hmem]
        omega
    · have he' : e = c.endpoint.other := EndpointRole.eq_other_of_ne (Ne.symm he)
      subst he'
      simp [balance, he]

theorem pass_slotWindow_size (window highWater : UInt64) (p : Pending K) :
    ((EvictionPolicy.slotWindow window).pass B highWater p).1.size +
      ((EvictionPolicy.slotWindow window).pass B highWater p).2 = p.size :=
  Nat.add_sub_cancel' (Finmap.size_retain_le _ p)

/-- A slot-window pass moves entries from pending to evicted. -/
theorem balance_evict {window : UInt64} (h : m.eviction = .slotWindow window)
    (e : EndpointRole) : m.evict.balance e = m.balance e := by
  have hsize := pass_slotWindow_size (B := B) window m.highWaterSlot (m.pending e)
  simp only [balance, matched_evict, pending_evict, unmatchedEvicted_evict, h]
  omega

/-! ## The board the two pending maps hold -/

/-- The two pending maps, read as one board: the entry at a key waits on exactly one side. -/
def Holds (m : PairMatcher B K) (P : Board K EndpointRole MatchPending) : Prop :=
  ∀ e k p, (m.pending e).lookup k = some p ↔ P k = some (e, p)

theorem holds_new (eviction : EvictionPolicy) :
    (new B K eviction).Holds Rendezvous.empty := by
  intro e k p
  simp

variable {m} {P : Board K EndpointRole MatchPending}

theorem Holds.lookup_eq_none (h : m.Holds P) {e : EndpointRole} {k : K} :
    (m.pending e).lookup k = none ↔ ∀ p, P k ≠ some (e, p) := by
  rw [Option.eq_none_iff_forall_ne_some]
  exact forall_congr' fun p => not_congr (h e k p)

/-- **No key is pending on both endpoints.** -/
theorem Holds.disjoint (h : m.Holds P) {e : EndpointRole} {k : K} (hk : k ∈ m.pending e) :
    k ∉ m.pending e.other := by
  obtain ⟨p, hp⟩ := Finmap.mem_iff.mp hk
  rw [← Finmap.lookup_eq_none, h.lookup_eq_none, (h e k p).mp hp]
  intro q hq
  exact e.other_ne (Prod.mk.inj (Option.some.inj hq)).1.symm

/-- Matchers that hold the same board have the same pending maps. -/
theorem Holds.pending_eq {m' : PairMatcher B K} (h : m.Holds P) (h' : m'.Holds P)
    (e : EndpointRole) : m.pending e = m'.pending e := by
  refine Finmap.ext_lookup fun k => Option.ext fun p => ?_
  rw [← Option.mem_def, ← Option.mem_def]
  exact (h e k p).trans (h' e k p).symm

/-- The lookups of a call find what the board has at its key. -/
theorem Holds.outcome (h : m.Holds P) (c : Call K) :
    m.outcome c = (Rendezvous.step P c.arrival).2 := by
  rw [Rendezvous.step_snd, Call.arrival_key, Call.arrival_side, Call.arrival_val]
  rcases hP : P c.key with _ | ⟨s, p⟩
  · have hnone : ∀ e, (m.pending e).lookup c.key = none := fun e =>
      h.lookup_eq_none.mpr fun p => by simp [hP]
    simp only [PairMatcher.outcome, hnone, Rendezvous.arrive_none]
  · by_cases hs : s = c.endpoint
    · subst hs
      have hown := (h c.endpoint c.key p).mpr hP
      have hother : (m.pending c.endpoint.other).lookup c.key = none :=
        Finmap.lookup_eq_none.mpr (h.disjoint (Finmap.mem_of_lookup_eq_some hown))
      simp only [PairMatcher.outcome, hown, hother, Rendezvous.arrive_same]
    · have hs' : s = c.endpoint.other := EndpointRole.eq_other_of_ne hs
      subst hs'
      have hother := (h c.endpoint.other c.key p).mpr hP
      simp only [PairMatcher.outcome, hother, Rendezvous.arrive_other hs]

/-- Where the lookups of a call meet an entry, the board frees the key. -/
theorem Holds.step_of_met (h : m.Holds P) (c : Call K) {other : MatchPending}
    (hlook : (m.pending c.endpoint.other).lookup c.key = some other) :
    (Rendezvous.step P c.arrival).1 c.key = none := by
  have hP : P c.key = some (c.endpoint.other, other) := (h _ _ _).mp hlook
  have hself := Rendezvous.step_fst_self P c.arrival
  rw [Call.arrival_key, hP, Call.arrival_side, Rendezvous.arrive_other c.endpoint.other_ne] at hself
  exact hself

/-- Where they meet none, the board has the call's own entry at the key. -/
theorem Holds.step_of_not_met (h : m.Holds P) (c : Call K)
    (hlook : (m.pending c.endpoint.other).lookup c.key = none) :
    (Rendezvous.step P c.arrival).1 c.key = some (c.endpoint, ⟨c.ts, c.slot⟩) := by
  have hself := Rendezvous.step_fst_self P c.arrival
  rw [Call.arrival_key, Call.arrival_side, Call.arrival_val] at hself
  rw [hself]
  rcases hP : P c.key with _ | ⟨s, p⟩
  · rw [Rendezvous.arrive_none]
  · have hs : s = c.endpoint := by
      by_contra hs
      have hs' : s = c.endpoint.other := EndpointRole.eq_other_of_ne hs
      subst hs'
      exact h.lookup_eq_none.mp hlook p hP
    subst hs
    rw [Rendezvous.arrive_same]

/-- **Settling is one step of the board.** -/
theorem Holds.settle (h : m.Holds P) (c : Call K) :
    (m.settleCall c).2.Holds (Rendezvous.step P c.arrival).1 := by
  intro e k q
  rcases m.settle_cases c with ⟨other, hlook, -, hset⟩ | ⟨hlook, -, hset⟩
  · -- a match: the entry leaves the other endpoint, and the key is free
    rw [hset, pending_recordMatch, lookup_setPending_erase]
    by_cases hk : k = c.key
    · subst hk
      rw [h.step_of_met c hlook]
      by_cases he : e = c.endpoint.other
      · simp [he]
      · have hnone : (m.pending e).lookup c.key = none := by
          rw [h.lookup_eq_none, (h _ _ _).mp hlook]
          intro p hp
          exact he (Prod.mk.inj (Option.some.inj hp)).1.symm
        simp [he, hnone]
    · rw [Rendezvous.step_fst_of_ne P hk, if_neg (fun hke => hk hke.1)]
      exact h e k q
  · -- no match: the call's own entry is left at its key
    rw [hset, lookup_setPending_insert]
    by_cases hk : k = c.key
    · subst hk
      rw [h.step_of_not_met c hlook]
      by_cases he : e = c.endpoint
      · simp [he]
      · have he' : e = c.endpoint.other := EndpointRole.eq_other_of_ne he
        subst he'
        simp [hlook, c.endpoint.other_ne, Ne.symm c.endpoint.other_ne]
    · rw [Rendezvous.step_fst_of_ne P hk, if_neg (fun hke => hk hke.1)]
      exact h e k q

/-- **A slot-window pass filters the board.** -/
theorem Holds.evict (h : m.Holds P) {window : UInt64} (hw : m.eviction = .slotWindow window) :
    m.evict.Holds fun k =>
      (P k).filter fun x => decide (saturatingSub m.highWaterSlot window ≤ x.2.slot) := by
  intro e k p
  rw [pending_evict, hw]
  show Finmap.lookup k (Finmap.retain _ _) = some p ↔ _
  rw [Finmap.lookup_retain, Option.filter_eq_some_iff, Option.filter_eq_some_iff, h e k p]

end PairMatcher

end GrpcBench
