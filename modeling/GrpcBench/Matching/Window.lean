import GrpcBench.Matching.Runs

/-!
# Eviction inside the window is invisible

A slot-window pass drops the entries whose slot is more than `window` behind the high-water slot.
If the slot is a function of the key and every call is inside the window, then a dropped entry could
no longer have been met: every later call at its key would lie outside the window.  So whatever the
passes drop, and whenever they run, the matcher answers as the board that never forgets.

* `InWindow`: every call's slot is at least the highest slot so far minus the window.
* `Tracks`: the matcher holds the ideal board up to entries that are no longer live.
* `Tracks.step`, `Tracks.run`: the simulation, for one call and for a run.
* `Tracks.evict`: a final pass leaves exactly the live part of the ideal board.
-/

namespace GrpcBench

open Rendezvous (Board Outcome Arrival)

variable {B : Backend} {K : Type} [DecidableEq K]

/-- A slot is live: it is at most `window` behind the high-water slot. -/
def Live (window highWaterSlot slot : UInt64) : Prop :=
  highWaterSlot.toNat ≤ slot.toNat + window.toNat

instance (window highWaterSlot slot : UInt64) : Decidable (Live window highWaterSlot slot) :=
  inferInstanceAs (Decidable (_ ≤ _))

/-- The test of an eviction pass. -/
theorem cutoff_le_iff {window highWaterSlot slot : UInt64} :
    saturatingSub highWaterSlot window ≤ slot ↔ Live window highWaterSlot slot := by
  rw [UInt64.le_iff_toNat_le, toNat_saturatingSub, Live]
  omega

theorem Live.of_raise {window highWaterSlot slot s : UInt64}
    (h : Live window (raise highWaterSlot s) slot) : Live window highWaterSlot slot := by
  rw [Live, toNat_raise] at h
  rw [Live]
  omega

/-- The high-water slot after a list of calls. -/
def highWaterAfter (highWaterSlot : UInt64) (cs : List (Call K)) : UInt64 :=
  cs.foldl (fun hw c => raise hw c.slot) highWaterSlot

/-- Every call's slot is at least the highest slot so far, its own included, minus the window. -/
def InWindow (window : UInt64) : UInt64 → List (Call K) → Prop
  | _, [] => True
  | highWaterSlot, c :: cs =>
    Live window (raise highWaterSlot c.slot) c.slot ∧
      InWindow window (raise highWaterSlot c.slot) cs

instance decidableInWindow (window : UInt64) :
    (highWaterSlot : UInt64) → (cs : List (Call K)) → Decidable (InWindow window highWaterSlot cs)
  | _, [] => isTrue trivial
  | highWaterSlot, c :: cs =>
    have := decidableInWindow window (raise highWaterSlot c.slot) cs
    inferInstanceAs (Decidable (_ ∧ _))

omit [DecidableEq K] in
/-- A part of the calls, seen by a matcher that has seen no more, is in the window as well. -/
theorem InWindow.filter {window hw hw' : UInt64} {cs : List (Call K)} (h : InWindow window hw cs)
    (hle : hw'.toNat ≤ hw.toNat) (p : Call K → Bool) : InWindow window hw' (cs.filter p) := by
  induction cs generalizing hw hw' with
  | nil => trivial
  | cons c cs ih =>
    obtain ⟨hc, hcs⟩ := h
    have hraise : (raise hw' c.slot).toNat ≤ (raise hw c.slot).toNat := by
      rw [toNat_raise, toNat_raise]
      omega
    by_cases hp : p c = true
    · rw [List.filter_cons_of_pos hp]
      refine ⟨?_, ih hcs hraise⟩
      rw [Live] at hc ⊢
      omega
    · rw [List.filter_cons_of_neg hp]
      refine ih hcs (le_trans hle ?_)
      rw [toNat_raise]
      omega

omit [DecidableEq K] in
/-- The calls up to any moment are in the window. -/
theorem InWindow.of_append {window hw : UInt64} {cs cs' : List (Call K)}
    (h : InWindow window hw (cs ++ cs')) : InWindow window hw cs := by
  induction cs generalizing hw with
  | nil => trivial
  | cons c cs ih => exact ⟨h.1, ih h.2⟩

omit [DecidableEq K] in
theorem highWaterAfter_perm {hw : UInt64} {cs cs' : List (Call K)} (h : cs.Perm cs') :
    highWaterAfter hw cs = highWaterAfter hw cs' := by
  refine h.foldl_eq' (fun a _ b _ hw => ?_) hw
  rw [← UInt64.toNat_inj, toNat_raise, toNat_raise, toNat_raise, toNat_raise]
  omega

namespace PairMatcher

variable {m : PairMatcher B K} {slotOf : K → UInt64} {window : UInt64}
  {I : Board K EndpointRole MatchPending}

theorem highWaterSlot_runWith (passDue : UInt64 → Bool) (m : PairMatcher B K)
    (cs : List (Call K)) :
    (m.runWith passDue cs).2.highWaterSlot = highWaterAfter m.highWaterSlot cs := by
  induction cs generalizing m with
  | nil => rfl
  | cons c cs ih => rw [runWith_cons, ih, highWaterSlot_stepWith, highWaterAfter, highWaterAfter,
      List.foldl_cons]

/-- The matcher holds the ideal board `I`, up to entries at keys whose slot is no longer live. -/
structure Tracks (slotOf : K → UInt64) (window : UInt64) (m : PairMatcher B K)
    (I : Board K EndpointRole MatchPending) : Prop where
  policy : m.eviction = .slotWindow window
  slots : ∀ k s p, I k = some (s, p) → p.slot = slotOf k
  forgets : ∃ P, m.Holds P ∧
    Rendezvous.Forgets (fun k => Live window m.highWaterSlot (slotOf k)) P I

/-- A matcher that has nothing pending tracks the empty board. -/
theorem tracks_empty (hpolicy : m.eviction = .slotWindow window)
    (hempty : ∀ e, m.pending e = ∅) : m.Tracks slotOf window Rendezvous.empty := by
  have hholds : m.Holds Rendezvous.empty := fun e k p => by
    rw [hempty]
    simp
  exact ⟨hpolicy, fun k s p h => absurd h (by simp), _, hholds, Rendezvous.Forgets.refl _ _⟩

theorem tracks_new (slotOf : K → UInt64) (window : UInt64) :
    (new B K (.slotWindow window)).Tracks slotOf window Rendezvous.empty :=
  tracks_empty rfl fun e => pending_new e _

omit [DecidableEq K] in
/-- Filtering by the slot drops only entries at keys that are not live. -/
theorem filter_live {hw : UInt64} {P : Board K EndpointRole MatchPending} {k : K}
    (hslot : ∀ s p, P k = some (s, p) → p.slot = slotOf k) :
    (P k).filter (fun x => decide (saturatingSub hw window ≤ x.2.slot)) = P k ∨
      ((P k).filter (fun x => decide (saturatingSub hw window ≤ x.2.slot)) = none ∧
        ¬ Live window hw (slotOf k)) := by
  rcases hP : P k with _ | ⟨s, p⟩
  · exact Or.inl rfl
  · rw [Option.filter_some, hslot s p hP]
    by_cases hl : Live window hw (slotOf k)
    · exact Or.inl (if_pos (decide_eq_true (cutoff_le_iff.mpr hl)))
    · refine Or.inr ⟨if_neg fun h => hl (cutoff_le_iff.mp (of_decide_eq_true h)), hl⟩

omit [DecidableEq K] in
/-- What the matcher holds is part of the ideal board. -/
theorem slot_of_forgets {live : K → Prop} {P : Board K EndpointRole MatchPending}
    (hforgets : Rendezvous.Forgets live P I)
    (hslots : ∀ k s p, I k = some (s, p) → p.slot = slotOf k)
    (k : K) (s : EndpointRole) (p : MatchPending) (hP : P k = some (s, p)) :
    p.slot = slotOf k := by
  rcases hforgets k with hk | ⟨hk, -⟩
  · exact hslots k s p (hk ▸ hP)
  · rw [hk] at hP
    cases hP

/-- **One call inside the window.**  It finds what it would find on the ideal board, whether or not
a pass runs first. -/
theorem Tracks.step (h : m.Tracks slotOf window I) (passDue : UInt64 → Bool) {c : Call K}
    (hslot : c.slot = slotOf c.key) (hlive : Live window (raise m.highWaterSlot c.slot) c.slot) :
    m.foundWith passDue c = (Rendezvous.step I c.arrival).2 ∧
      (m.stepWith passDue c).2.Tracks slotOf window (Rendezvous.step I c.arrival).1 := by
  obtain ⟨P, hholds, hforgets⟩ := h.forgets
  obtain ⟨P', hholds', hP'⟩ := hholds.admitWith passDue c.slot h.policy
  have hforgets' : Rendezvous.Forgets
      (fun k => Live window (raise m.highWaterSlot c.slot) (slotOf k)) P' I := by
    refine (hforgets.mono fun k => Live.of_raise).drop fun k => ?_
    rcases hP' k with hk | hk
    · exact Or.inl hk
    · rw [hk]
      exact filter_live (slot_of_forgets hforgets h.slots k)
  have hkey : Live window (raise m.highWaterSlot c.slot) (slotOf c.arrival.key) := by
    rw [Call.arrival_key, ← hslot]
    exact hlive
  obtain ⟨hout, hnext⟩ := hforgets'.step hkey
  refine ⟨(hholds'.outcome c).trans hout, ?_, ?_, ?_⟩
  · rw [eviction_stepWith, h.policy]
  · -- the entry a call leaves behind has the slot of its key
    intro k s p hI
    have hfin : Rendezvous.final I [c.arrival] k = some (s, p) := hI
    rcases Rendezvous.exists_of_final hfin with hI' | hmem
    · exact h.slots k s p hI'
    · have ha := List.mem_singleton.mp hmem
      have hk : k = c.key := congrArg Arrival.key ha
      have hp : p = ⟨c.ts, c.slot⟩ := congrArg Arrival.val ha
      rw [hk, hp]
      exact hslot
  · rw [highWaterSlot_stepWith]
    exact ⟨_, hholds'.settle c, hnext⟩

/-- **A run inside the window** finds, call by call, what the ideal board has. -/
theorem Tracks.run (h : m.Tracks slotOf window I) (passDue : UInt64 → Bool) {cs : List (Call K)}
    (hslot : ∀ c ∈ cs, c.slot = slotOf c.key) (hwin : InWindow window m.highWaterSlot cs) :
    m.traceWith passDue cs = Rendezvous.trace I (cs.map Call.arrival) ∧
      (m.runWith passDue cs).2.Tracks slotOf window
        (Rendezvous.final I (cs.map Call.arrival)) := by
  induction cs generalizing m I with
  | nil => exact ⟨rfl, h⟩
  | cons c cs ih =>
    obtain ⟨hlive, hrest⟩ := hwin
    obtain ⟨hfound, hnext⟩ := h.step passDue (hslot c List.mem_cons_self) hlive
    rw [← highWaterSlot_stepWith passDue m c] at hrest
    obtain ⟨htrace, hfinal⟩ :=
      ih hnext (fun d hd => hslot d (List.mem_cons_of_mem c hd)) hrest
    refine ⟨?_, hfinal⟩
    rw [traceWith_cons, List.map_cons, Rendezvous.trace_cons, hfound, htrace]

/-- **A final pass** leaves exactly the live entries of the ideal board. -/
theorem Tracks.evict (h : m.Tracks slotOf window I) :
    m.evict.Holds fun k =>
      (I k).filter fun x => decide (saturatingSub m.highWaterSlot window ≤ x.2.slot) := by
  obtain ⟨P, hholds, hforgets⟩ := h.forgets
  have hpass := hholds.evict h.policy
  have hboard : (fun k => (P k).filter fun x =>
      decide (saturatingSub m.highWaterSlot window ≤ x.2.slot)) =
      fun k => (I k).filter fun x =>
        decide (saturatingSub m.highWaterSlot window ≤ x.2.slot) := by
    funext k
    rcases hforgets k with hk | ⟨hk, hdead⟩
    · rw [hk]
    · -- the entry was dropped before, and a final pass would drop it too
      rcases hIk : I k with _ | ⟨s, p⟩
      · rw [hk]
      · rw [hk, Option.filter_none, Option.filter_some, h.slots k s p hIk,
          if_neg fun hd => hdead (cutoff_le_iff.mp (of_decide_eq_true hd))]
  rw [← hboard]
  exact hpass

/-- What a matcher holds is part of the ideal board it tracks. -/
theorem Tracks.lookup (h : m.Tracks slotOf window I) {e : EndpointRole} {k : K} {p : MatchPending}
    (hp : (m.pending e).lookup k = some p) : I k = some (e, p) := by
  obtain ⟨P, hholds, hforgets⟩ := h.forgets
  have hP := (hholds e k p).mp hp
  rcases hforgets k with hk | ⟨hk, -⟩
  · rw [← hk, hP]
  · rw [hk] at hP
    cases hP

end PairMatcher

end GrpcBench
