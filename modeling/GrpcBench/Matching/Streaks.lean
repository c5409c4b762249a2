import GrpcBench.Matching.Staleness
import Mathlib.Algebra.Group.Nat.Even

/-!
# Streaks

Which of its observations a matcher matches can be read off the history of their key.  The *streak*
of a key is the longest run of its latest observations in which the endpoints take turns and,
between one observation and the next, no pass finds the slot of the one more than a window behind.
The first observation of a streak leaves an entry, the second takes it out, the third leaves one
again, and so on.

* `Call.latest`, `Call.Drops`, `Call.streak`: the streak of a key in a history, the newest call
  first.
* `PairMatcher.Streaked`, `Streaked.step`: an entry is pending exactly when the streak is odd, and
  it is that of the latest observation.
* `PairMatcher.isSome_run_iff`: an observation is matched exactly when its streak is even.
-/

namespace GrpcBench

variable {B : Backend} {K : Type} [DecidableEq K]

namespace Call

/-! ## The streak of a key -/

/-- The latest call at a key. -/
def latest (k : K) (history : List (Call K)) : Option (Call K) :=
  history.find? fun c => c.key = k

/-- The newest call of a history runs a pass, and the pass drops the entries of a slot. -/
def Drops (window slot : UInt64) (history : List (Call K)) : Prop :=
  history.length % 256 = 0 ∧ ∃ c ∈ history, slot.toNat + window.toNat < c.slot.toNat

instance (window slot : UInt64) (history : List (Call K)) : Decidable (Drops window slot history) :=
  inferInstanceAs (Decidable (_ ∧ _))

/-- The streak of a key in a history, the newest call first. -/
def streak (window : UInt64) (k : K) : List (Call K) → ℕ
  | [] => 0
  | c :: past =>
    match latest k past with
    | none => if c.key = k then 1 else 0
    | some last =>
      let kept := if Drops window last.slot (c :: past) then 0 else streak window k past
      if c.key ≠ k then kept
      else if c.endpoint = last.endpoint then 1
      else kept + 1

theorem latest_cons (k : K) (c : Call K) (past : List (Call K)) :
    latest k (c :: past) = if c.key = k then some c else latest k past := by
  by_cases h : c.key = k <;> simp [latest, h]

variable {window : UInt64} {k : K} {c last : Call K} {past : List (Call K)}

/-- A key that was never observed has no streak. -/
theorem streak_of_latest_none (h : latest k past = none) : streak window k past = 0 := by
  induction past with
  | nil => rfl
  | cons c past ih =>
    rw [latest_cons] at h
    split_ifs at h with hk
    rw [streak, h]
    exact if_neg hk

/-- An observation at another key keeps the streak, unless it runs a pass that drops the entry. -/
theorem odd_streak_cons_of_ne (hk : c.key ≠ k) : Odd (streak window k (c :: past)) ↔
    Odd (streak window k past) ∧
      ∀ last, latest k past = some last → ¬ Drops window last.slot (c :: past) := by
  rcases hlast : latest k past with _ | last
  · rw [streak, hlast, streak_of_latest_none hlast]
    simp [hk]
  · rw [streak, hlast]
    dsimp only
    rw [if_pos hk]
    by_cases hdrop : Drops window last.slot (c :: past)
    · simp [hdrop]
    · simp [hdrop]

/-- An observation makes the streak of its key even when it meets the entry of the latest one. -/
theorem even_streak_cons_iff : Even (streak window c.key (c :: past)) ↔
    ∃ last, latest c.key past = some last ∧ last.endpoint = c.endpoint.other ∧
      Odd (streak window c.key past) ∧ ¬ Drops window last.slot (c :: past) := by
  rcases hlast : latest c.key past with _ | last
  · rw [streak, hlast]
    simp
  · rw [streak, hlast]
    dsimp only
    rw [if_neg (not_not.mpr rfl)]
    by_cases hend : c.endpoint = last.endpoint
    · rw [if_pos hend]
      have hne : last.endpoint ≠ c.endpoint.other := by
        rw [← hend]
        exact c.endpoint.other_ne.symm
      simp [hne]
    · rw [if_neg hend]
      have hother : last.endpoint = c.endpoint.other :=
        EndpointRole.eq_other_of_ne fun h => hend h.symm
      by_cases hdrop : Drops window last.slot (c :: past)
      · simp [hdrop]
      · simp [hdrop, hother, Nat.even_add_one, Nat.not_even_iff_odd]

/-- Two observations of a key, by the two endpoints. -/
theorem streak_pair {d : Call K} (hk : d.key = c.key) (he : d.endpoint = c.endpoint.other) :
    streak window d.key [d, c] = 2 := by
  have hdrop : ∀ h : List (Call K), h.length = 2 → ¬ Drops window c.slot h := by
    rintro h hlen ⟨hdue, -⟩
    rw [hlen] at hdue
    exact absurd hdue (by decide)
  have hne : d.endpoint ≠ c.endpoint := by
    rw [he]
    exact c.endpoint.other_ne
  simp [streak, latest, hk, hne, hdrop]

end Call

namespace PairMatcher

open Call (latest Drops streak)

/-! ## The matcher and the streaks -/

/-- The matcher has come from a history: its counters are those of the history, and an entry is
pending where a streak is odd. -/
structure Streaked (window : UInt64) (m : PairMatcher B K) (history : List (Call K)) : Prop where
  policy : m.eviction = .slotWindow window
  count : m.obsCount.toNat % 256 = history.length % 256
  highest : ∀ n, n < m.highWaterSlot.toNat ↔ ∃ c ∈ history, n < c.slot.toNat
  entry : ∀ e k p, (m.pending e).lookup k = some p ↔
    ∃ c, latest k history = some c ∧ c.endpoint = e ∧ ⟨c.ts, c.slot⟩ = p ∧
      Odd (streak window k history)

theorem streaked_new (window : UInt64) : (new B K (.slotWindow window)).Streaked window [] := by
  refine ⟨rfl, rfl, fun n => by simp [new], fun e k p => ?_⟩
  rw [pending_new, Finmap.lookup_empty]
  simp [latest]

namespace Streaked

variable {m : PairMatcher B K} {history : List (Call K)}

/-- The pass of an observation, if it runs one, drops what `Drops` says. -/
theorem drops_iff (h : m.Streaked window history) (c : Call K) (slot : UInt64) :
    Drops window slot (c :: history) ↔
      batched (m.obsCount + 1) = true ∧ ¬ Live window (raise m.highWaterSlot c.slot) slot := by
  have hcount : (m.obsCount + 1).toNat % 256 = (c :: history).length % 256 := by
    have := h.count
    rw [UInt64.toNat_add, List.length_cons]
    show (m.obsCount.toNat + 1) % 2 ^ 64 % 256 = _
    omega
  rw [batched_iff, hcount, Drops, Live, toNat_raise, not_le, lt_max_iff, h.highest,
    List.exists_mem_cons_iff]
  exact and_congr_right fun _ => or_comm

/-- **What admission leaves pending**: the entry of the latest observation, if the streak is odd and
no pass drops it. -/
theorem lookup_admit (h : m.Streaked window history) (c : Call K) (e : EndpointRole) (k : K)
    (p : MatchPending) : ((m.admitWith batched c.slot).pending e).lookup k = some p ↔
      ∃ last, latest k history = some last ∧ last.endpoint = e ∧ ⟨last.ts, last.slot⟩ = p ∧
        Odd (streak window k history) ∧ ¬ Drops window last.slot (c :: history) := by
  rw [lookup_admitWith batched h.policy, h.entry]
  constructor
  · rintro ⟨⟨last, hlast, he, rfl, hodd⟩, hlive⟩
    refine ⟨last, hlast, he, rfl, hodd, fun hdrop => ?_⟩
    obtain ⟨hdue, hdead⟩ := (h.drops_iff c last.slot).mp hdrop
    exact hdead (hlive hdue)
  · rintro ⟨last, hlast, he, rfl, hodd, hkeep⟩
    refine ⟨⟨last, hlast, he, rfl, hodd⟩, fun hdue => ?_⟩
    by_contra hdead
    exact hkeep ((h.drops_iff c last.slot).mpr ⟨hdue, hdead⟩)

/-- **Which observations are matched**: those that make the streak of their key even. -/
theorem isSome_step_iff (h : m.Streaked window history) (c : Call K) :
    (m.stepWith batched c).1.isSome = true ↔ Even (streak window c.key (c :: history)) := by
  rw [Call.even_streak_cons_iff]
  rcases (m.admitWith batched c.slot).settle_cases c with ⟨p, hlook, -, hset⟩ | ⟨hlook, -, hset⟩
  · rw [stepWith, hset]
    obtain ⟨last, hlast, he, -, hodd, hkeep⟩ := (h.lookup_admit c _ _ _).mp hlook
    exact ⟨fun _ => ⟨last, hlast, he, hodd, hkeep⟩, fun _ => rfl⟩
  · rw [stepWith, hset]
    refine ⟨fun hsome => absurd hsome Bool.false_ne_true, ?_⟩
    rintro ⟨last, hlast, he, hodd, hkeep⟩
    rw [(h.lookup_admit c _ _ _).mpr ⟨last, hlast, he, rfl, hodd, hkeep⟩] at hlook
    cases hlook

/-- What is pending at the key of an observation, after it. -/
theorem lookup_step_self (h : m.Streaked window history) (c : Call K) (e : EndpointRole)
    (p : MatchPending) : ((m.stepWith batched c).2.pending e).lookup c.key = some p ↔
      c.endpoint = e ∧ ⟨c.ts, c.slot⟩ = p ∧ Odd (streak window c.key (c :: history)) := by
  have hsome := h.isSome_step_iff c
  rcases (m.admitWith batched c.slot).settle_cases c with ⟨q, hlook, -, hset⟩ | ⟨hlook, -, hset⟩
  · -- the entry of the other endpoint is taken out, and its own has none
    rw [stepWith, hset] at hsome ⊢
    have heven := hsome.mp rfl
    rw [pending_recordMatch, lookup_setPending_erase]
    refine ⟨fun hp => ?_, fun hp => absurd heven (Nat.not_even_iff_odd.mpr hp.2.2)⟩
    split_ifs at hp with he
    obtain ⟨last, hlast, hend, -⟩ := (h.lookup_admit c _ _ _).mp hlook
    obtain ⟨last', hlast', hend', -⟩ := (h.lookup_admit c _ _ _).mp hp
    rw [hlast] at hlast'
    refine absurd ⟨rfl, ?_⟩ he
    rw [← hend', ← Option.some.inj hlast', hend]
  · rw [stepWith, hset] at hsome ⊢
    have hodd : Odd (streak window c.key (c :: history)) :=
      Nat.not_even_iff_odd.mp fun heven => Bool.false_ne_true (hsome.mpr heven)
    rw [lookup_setPending_insert]
    by_cases he : e = c.endpoint
    · rw [if_pos ⟨rfl, he⟩]
      simp [he, hodd]
    · rw [if_neg fun hc => he hc.2, EndpointRole.eq_other_of_ne he, hlook]
      simp [c.endpoint.other_ne.symm]

/-- What is pending at another key is what admission leaves there. -/
theorem lookup_step_of_ne (m : PairMatcher B K) {c : Call K} {k : K} (hk : c.key ≠ k)
    (e : EndpointRole) : ((m.stepWith batched c).2.pending e).lookup k =
      ((m.admitWith batched c.slot).pending e).lookup k := by
  rcases (m.admitWith batched c.slot).settle_cases c with ⟨q, -, -, hset⟩ | ⟨-, -, hset⟩
  · rw [stepWith, hset, pending_recordMatch, lookup_setPending_erase, if_neg fun hc => hk hc.1.symm]
  · rw [stepWith, hset, lookup_setPending_insert, if_neg fun hc => hk hc.1.symm]

/-- **One observation.** -/
theorem step (h : m.Streaked window history) (c : Call K) :
    (m.stepWith batched c).2.Streaked window (c :: history) where
  policy := by rw [eviction_stepWith, h.policy]
  count := by
    have := h.count
    rw [obsCount_stepWith, UInt64.toNat_add, List.length_cons]
    show (m.obsCount.toNat + 1) % 2 ^ 64 % 256 = _
    omega
  highest n := by
    rw [highWaterSlot_stepWith, toNat_raise, lt_max_iff, h.highest, List.exists_mem_cons_iff]
    exact or_comm
  entry e k p := by
    rw [Call.latest_cons]
    by_cases hk : c.key = k
    · subst hk
      rw [if_pos rfl, h.lookup_step_self c e p]
      simp
    · rw [if_neg hk, lookup_step_of_ne m hk, h.lookup_admit, Call.odd_streak_cons_of_ne hk]
      refine exists_congr fun last => and_congr_right fun hlast => ?_
      refine and_congr_right fun _ => and_congr_right fun _ => and_congr_right fun _ => ?_
      exact ⟨fun hkeep last' h' => Option.some.inj (hlast.symm.trans h') ▸ hkeep,
        fun hkeep => hkeep last hlast⟩

/-- **A run.** -/
theorem run (h : m.Streaked window history) (cs : List (Call K)) :
    (m.run cs).2.Streaked window (cs.reverse ++ history) := by
  induction cs generalizing m history with
  | nil => exact h
  | cons c cs ih =>
    rw [List.reverse_cons, List.append_assoc]
    exact ih (h.step c)

end Streaked

/-- **Which observations of a run are matched.** -/
theorem isSome_run_iff (window : UInt64) (cs : List (Call K)) (c : Call K) :
    (((new B K (.slotWindow window)).run cs).2.stepWith batched c).1.isSome = true ↔
      Even (streak window c.key (c :: cs.reverse)) := by
  have hrun := (streaked_new (B := B) window).run cs
  rw [List.append_nil] at hrun
  exact hrun.isSome_step_iff c

end PairMatcher

end GrpcBench
