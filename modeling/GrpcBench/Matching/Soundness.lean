import GrpcBench.Matching.Lanes

/-!
# Sound matchers

Every matcher of a run has the slot-window policy and pending maps that hold one board, from its
construction on: no event breaks that, and neither does an eviction or a flush.

* `PairMatcher.Sound`, `StreamMatchers.Sound`: the invariant.
* `StreamMatchers.Sound.dispatch`, `StreamMatchers.sound_dispatchAll`: events keep it.
* `PairMatcher.Sound.lookup_stepWith`: where an entry that is pending after an observation comes
  from.
* `PairMatcher.Sound.met_of_stepWith`: what a returned match was computed from.
-/

namespace GrpcBench

open Rendezvous (Board)

variable {B : Backend} {K : Type} [DecidableEq K]

/-- The matcher has the window policy, and its pending maps hold one board. -/
structure PairMatcher.Sound (m : PairMatcher B K) : Prop where
  policy : m.eviction = matchWindow
  board : ∃ P, m.Holds P

namespace PairMatcher.Sound

variable {m : PairMatcher B K}

theorem new : (PairMatcher.new B K matchWindow).Sound :=
  ⟨rfl, _, holds_new matchWindow⟩

theorem evict (h : m.Sound) : m.evict.Sound := by
  obtain ⟨P, hP⟩ := h.board
  exact ⟨h.policy, _, hP.evict h.policy⟩

theorem flush (h : m.Sound) : m.flush.Sound := by
  obtain ⟨P, hP⟩ := h.board
  exact ⟨h.policy, P, fun e k p => by rw [pending_flush]; exact hP e k p⟩

theorem step (h : m.Sound) (c : Call K) : (m.stepWith batched c).2.Sound := by
  obtain ⟨P, hP⟩ := h.board
  obtain ⟨P', hP', -⟩ := hP.admitWith batched c.slot h.policy
  exact ⟨by rw [eviction_stepWith, h.policy], _, hP'.settle c⟩

/-- No key is pending on both endpoints. -/
theorem disjoint (h : m.Sound) {e : EndpointRole} {k : K} (hk : k ∈ m.pending e) :
    k ∉ m.pending e.other := by
  obtain ⟨P, hP⟩ := h.board
  exact hP.disjoint hk

/-- A summary leaves the books as they are. -/
theorem balance_settled (h : m.Sound) (e : EndpointRole) :
    m.evict.flush.balance e = m.balance e := by
  rw [balance_flush, balance_evict m h.policy]

/-- Admission adds no entry. -/
theorem lookup_of_admit (h : m.Sound) {slot : UInt64} {e : EndpointRole} {k : K} {p : MatchPending}
    (hp : ((m.admitWith batched slot).pending e).lookup k = some p) :
    (m.pending e).lookup k = some p := by
  obtain ⟨P, hP⟩ := h.board
  obtain ⟨P', hP', hkeep⟩ := hP.admitWith batched slot h.policy
  have hk' := (hP' e k p).mp hp
  refine (hP e k p).mpr ?_
  rcases hkeep k with hkeep | hkeep
  · rw [← hkeep, hk']
  · rw [hkeep] at hk'
    exact (Option.filter_eq_some_iff.mp hk').1

/-- **Where a pending entry comes from.**  After an observation, an entry is the one the observation
left, or it was there before and the observation was of another key or endpoint. -/
theorem lookup_stepWith (h : m.Sound) (c : Call K) {e : EndpointRole} {k : K} {p : MatchPending}
    (hp : ((m.stepWith batched c).2.pending e).lookup k = some p) :
    (c.key = k ∧ c.endpoint = e ∧ p = ⟨c.ts, c.slot⟩) ∨
      (m.pending e).lookup k = some p ∧ ¬ (c.key = k ∧ c.endpoint = e) := by
  obtain ⟨P, hP⟩ := h.board
  obtain ⟨P', hP', -⟩ := hP.admitWith batched c.slot h.policy
  have hsettle := (hP'.settle c e k p).mp hp
  by_cases hk : k = c.key
  · subst hk
    have hstep := Rendezvous.step_fst_self P' c.arrival
    rw [Call.arrival_key, Call.arrival_side, Call.arrival_val] at hstep
    rw [hstep] at hsettle
    have hcases : e = c.endpoint ∧ p = ⟨c.ts, c.slot⟩ := by
      rcases hQ : P' c.key with _ | ⟨s, q⟩
      · rw [hQ, Rendezvous.arrive_none] at hsettle
        have := Prod.mk.inj (Option.some.inj hsettle)
        exact ⟨this.1.symm, this.2.symm⟩
      · by_cases hs : s = c.endpoint
        · subst hs
          rw [hQ, Rendezvous.arrive_same] at hsettle
          have := Prod.mk.inj (Option.some.inj hsettle)
          exact ⟨this.1.symm, this.2.symm⟩
        · rw [hQ, Rendezvous.arrive_other hs] at hsettle
          cases hsettle
    exact Or.inl ⟨rfl, hcases.1.symm, hcases.2⟩
  · rw [Rendezvous.step_fst_of_ne P' hk] at hsettle
    exact Or.inr ⟨h.lookup_of_admit ((hP' e k p).mpr hsettle), fun hc => hk hc.1.symm⟩

/-- **What a match is computed from**: the entry that was pending on the other endpoint. -/
theorem met_of_stepWith (h : m.Sound) (c : Call K) {r : MatchResult}
    (hr : (m.stepWith batched c).1 = some r) :
    ∃ p, (m.pending c.endpoint.other).lookup c.key = some p ∧
      r = matchResult B c.endpoint c.ts p.ts := by
  rcases (m.admitWith batched c.slot).settle_cases c with ⟨p, hlook, -, hset⟩ | ⟨-, -, hset⟩
  · rw [stepWith, hset] at hr
    exact ⟨p, h.lookup_of_admit hlook, (Option.some.inj hr).symm⟩
  · rw [stepWith, hset] at hr
    cases hr

end PairMatcher.Sound

/-! ## All matchers -/

/-- Every matcher is sound. -/
structure StreamMatchers.Sound (m : StreamMatchers B) : Prop where
  slots : ∀ stage p, m.slots.matcherFor stage = some p → p.Sound
  policy : m.accounts.eviction = matchWindow
  accounts : ∀ owner, (m.accounts.shardOf owner).main.Sound
  transactions : m.transactions.inner.Sound
  blocks : m.blocks.inner.Sound

namespace StreamMatchers

theorem shardOf_start (names : Finmap fun _ : Pubkey32 => String) (strict : Bool)
    (owner : Pubkey32) :
    (start B names strict).accounts.shardOf owner = PerProgramShard.new B matchWindow :=
  AccountMatcher.shardOf_new matchWindow names owner

theorem sound_start (names : Finmap fun _ : Pubkey32 => String) (strict : Bool) :
    (start B names strict).Sound where
  slots stage p hp := by
    cases stage <;> cases hp <;> exact PairMatcher.Sound.new
  policy := rfl
  accounts owner := by
    rw [shardOf_start]
    exact PairMatcher.Sound.new
  transactions := PairMatcher.Sound.new
  blocks := PairMatcher.Sound.new

/-- Every event keeps the matchers sound. -/
theorem Sound.dispatch {m : StreamMatchers B} (hm : m.Sound) (event : Event) :
    (dispatch m event).Sound where
  slots stage p hp := by
    rw [matcherFor_dispatch] at hp
    rcases hc : event.slotCall stage with _ | c
    · rw [hc] at hp
      exact hm.slots stage p hp
    · rw [hc] at hp
      obtain ⟨q, hq, rfl⟩ := Option.map_eq_some_iff.mp hp
      exact (hm.slots stage q hq).step c
  policy := by
    rw [accounts_dispatch]
    cases event.accountUpdate <;> exact hm.policy
  accounts owner := by
    rw [accounts_dispatch]
    rcases event.accountUpdate with _ | u
    · exact hm.accounts owner
    · rw [Option.elim_some, AccountMatcher.observeUpdate, AccountMatcher.shardOf_observe]
      split_ifs
      · rw [PerProgramShard.main_observe]
        exact (hm.accounts owner).step ⟨u.endpoint, _, u.ts, u.slot⟩
      · exact hm.accounts owner
  transactions := by
    rw [transactions_dispatch]
    rcases event.txCall with _ | c
    · exact hm.transactions
    · exact hm.transactions.step c
  blocks := by
    rw [blocks_dispatch]
    rcases event.blockCall with _ | c
    · exact hm.blocks
    · exact hm.blocks.step c

/-- Every run keeps the matchers sound. -/
theorem sound_dispatchAll {m : StreamMatchers B} (hm : m.Sound) (events : List Event) :
    (dispatchAll m events).Sound :=
  Folds.foldl_invariant (fun _ event _ h => h.dispatch event) hm

end StreamMatchers

end GrpcBench
