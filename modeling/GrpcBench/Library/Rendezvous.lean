import Mathlib.Data.Finset.Basic
import Mathlib.Data.Multiset.Count
import Mathlib.Logic.Function.Basic

/-!
# Rendezvous by key

A *rendezvous* pairs up arrivals that carry the same key and come from different sides.  The board
remembers, for each key, at most one party that waits there.  An arrival at a free key waits; an
arrival from the side of the waiting party takes its place; an arrival from another side meets the
waiting party, and the key is free again.

The board never forgets, so it says what the pairing is *for*, before any question of memory.
Four facts make it a useful reference for real implementations.

* **Locality** (`trace_filter`): what happens at some keys depends only on the arrivals at those
  keys.  Splitting the arrivals by key, in any way, splits the trace.
* **Forgetting** (`Forgets.step`): an implementation may drop parties at keys that are no longer
  live.  As long as every arrival is at a live key, its outcomes are those of the board.
* **Joining** (`Once.coe_metKeys`, `Once.final_eq_some_iff`): if no side arrives twice at a key, the
  meetings are the relational join of the two sides, whatever the order of the arrivals.
* **Renaming** (`trace_rename`): other names for the sides and the parties change nothing.
-/

namespace Rendezvous

universe u v w

variable {K : Type u} {S : Type v} {V : Type w}

/-- A party `val` of a side arrives at a key. -/
structure Arrival (K : Type u) (S : Type v) (V : Type w) where
  side : S
  key : K
  val : V
  deriving DecidableEq

/-- What an arrival finds: nobody, an earlier party of its own side, or a party to meet. -/
inductive Outcome (V : Type w) where
  | waits : Outcome V
  | replaces (old : V) : Outcome V
  | meets (other : V) : Outcome V
  deriving DecidableEq

/-- The party met, if any. -/
def Outcome.met : Outcome V → Option V
  | .waits => none
  | .replaces _ => none
  | .meets other => some other

@[simp] theorem Outcome.met_waits : (Outcome.waits : Outcome V).met = none := rfl

@[simp] theorem Outcome.met_replaces (v : V) : (Outcome.replaces v).met = none := rfl

@[simp] theorem Outcome.met_meets (v : V) : (Outcome.meets v).met = some v := rfl

/-- The waiting party of each key, with its side. -/
abbrev Board (K : Type u) (S : Type v) (V : Type w) := K → Option (S × V)

variable [DecidableEq S]

/-- What an arrival does at its own key. -/
def arrive (waiting : Option (S × V)) (s : S) (v : V) : Option (S × V) × Outcome V :=
  match waiting with
  | none => (some (s, v), .waits)
  | some (s', v') => if s' = s then (some (s, v), .replaces v') else (none, .meets v')

@[simp] theorem arrive_none (s : S) (v : V) :
    arrive (none : Option (S × V)) s v = (some (s, v), .waits) := rfl

theorem arrive_same (s : S) (v v' : V) :
    arrive (some (s, v')) s v = (some (s, v), .replaces v') := if_pos rfl

theorem arrive_other {s s' : S} (h : s' ≠ s) (v v' : V) :
    arrive (some (s', v')) s v = (none, .meets v') := if_neg h

variable [DecidableEq K]

/-- The board after an arrival, and what the arrival found. -/
def step (P : Board K S V) (a : Arrival K S V) : Board K S V × Outcome V :=
  (Function.update P a.key (arrive (P a.key) a.side a.val).1, (arrive (P a.key) a.side a.val).2)

@[simp] theorem step_snd (P : Board K S V) (a : Arrival K S V) :
    (step P a).2 = (arrive (P a.key) a.side a.val).2 := rfl

theorem step_fst_self (P : Board K S V) (a : Arrival K S V) :
    (step P a).1 a.key = (arrive (P a.key) a.side a.val).1 :=
  Function.update_self ..

theorem step_fst_of_ne (P : Board K S V) {a : Arrival K S V} {k : K} (h : k ≠ a.key) :
    (step P a).1 k = P k :=
  Function.update_of_ne h ..

/-- The board after a list of arrivals. -/
def final (P : Board K S V) : List (Arrival K S V) → Board K S V
  | [] => P
  | a :: as => final (step P a).1 as

/-- Every arrival together with what it found. -/
def trace (P : Board K S V) : List (Arrival K S V) → List (Arrival K S V × Outcome V)
  | [] => []
  | a :: as => (a, (step P a).2) :: trace (step P a).1 as

@[simp] theorem final_nil (P : Board K S V) : final P [] = P := rfl

@[simp] theorem final_cons (P : Board K S V) (a : Arrival K S V) (as : List (Arrival K S V)) :
    final P (a :: as) = final (step P a).1 as := rfl

@[simp] theorem trace_nil (P : Board K S V) : trace P [] = [] := rfl

@[simp] theorem trace_cons (P : Board K S V) (a : Arrival K S V) (as : List (Arrival K S V)) :
    trace P (a :: as) = (a, (step P a).2) :: trace (step P a).1 as := rfl

/-! ## Locality -/

/-- Boards that agree on a set of keys still agree there after arrivals that they share on it. -/
theorem step_congr {P Q : Board K S V} {p : K → Prop} (h : ∀ k, p k → P k = Q k)
    {a : Arrival K S V} (ha : p a.key) :
    (step P a).2 = (step Q a).2 ∧ ∀ k, p k → (step P a).1 k = (step Q a).1 k := by
  have hkey := h a.key ha
  refine ⟨by rw [step_snd, step_snd, hkey], fun k hk => ?_⟩
  by_cases hka : k = a.key
  · rw [hka, step_fst_self, step_fst_self, hkey]
  · rw [step_fst_of_ne P hka, step_fst_of_ne Q hka, h k hk]

/-- **Locality.**  The part of a trace at the keys in `p` is the trace of the arrivals at the keys
in `p`, from any board that agrees there. -/
theorem trace_filter {P Q : Board K S V} {p : K → Prop} [DecidablePred p]
    (h : ∀ k, p k → P k = Q k) (as : List (Arrival K S V)) :
    (trace P as).filter (fun x => p x.1.key) = trace Q (as.filter fun a => p a.key) := by
  induction as generalizing P Q with
  | nil => rfl
  | cons a as ih =>
    by_cases ha : p a.key
    · obtain ⟨hout, hboard⟩ := step_congr h ha
      rw [trace_cons, List.filter_cons_of_pos (by simpa using ha),
        List.filter_cons_of_pos (by simpa using ha), trace_cons, ih hboard, hout]
    · have hboard : ∀ k, p k → (step P a).1 k = Q k := by
        intro k hk
        have hne : k ≠ a.key := fun e => ha (e ▸ hk)
        rw [step_fst_of_ne P hne, h k hk]
      rw [trace_cons, List.filter_cons_of_neg (by simpa using ha),
        List.filter_cons_of_neg (by simpa using ha), ih hboard]

/-- **Locality**, for the board that is left. -/
theorem final_filter {P Q : Board K S V} {p : K → Prop} [DecidablePred p]
    (h : ∀ k, p k → P k = Q k) (as : List (Arrival K S V)) {k : K} (hk : p k) :
    final P as k = final Q (as.filter fun a => p a.key) k := by
  induction as generalizing P Q with
  | nil => exact h k hk
  | cons a as ih =>
    by_cases ha : p a.key
    · rw [final_cons, List.filter_cons_of_pos (by simpa using ha), final_cons]
      exact ih (step_congr h ha).2
    · rw [final_cons, List.filter_cons_of_neg (by simpa using ha)]
      refine ih fun k' hk' => ?_
      have hne : k' ≠ a.key := fun e => ha (e ▸ hk')
      rw [step_fst_of_ne P hne, h k' hk']

/-! ## Forgetting -/

/-- `P` is the board `I` with some parties dropped, all of them at keys that are not live. -/
def Forgets (live : K → Prop) (P I : Board K S V) : Prop :=
  ∀ k, P k = I k ∨ (P k = none ∧ ¬ live k)

omit [DecidableEq S] [DecidableEq K] in
theorem Forgets.refl (live : K → Prop) (P : Board K S V) : Forgets live P P :=
  fun _ => Or.inl rfl

omit [DecidableEq S] [DecidableEq K] in
theorem Forgets.eq_of_live {live : K → Prop} {P I : Board K S V} (h : Forgets live P I) {k : K}
    (hk : live k) : P k = I k :=
  (h k).resolve_right fun hn => hn.2 hk

omit [DecidableEq S] [DecidableEq K] in
/-- Keys that stop being live stay forgotten. -/
theorem Forgets.mono {live live' : K → Prop} {P I : Board K S V} (h : Forgets live P I)
    (hl : ∀ k, live' k → live k) : Forgets live' P I :=
  fun k => (h k).imp id fun hn => ⟨hn.1, fun hk => hn.2 (hl k hk)⟩

omit [DecidableEq S] [DecidableEq K] in
/-- A pass that drops only parties at keys that are not live forgets no more than that. -/
theorem Forgets.drop {live : K → Prop} {P P' I : Board K S V} (h : Forgets live P I)
    (hP : ∀ k, P' k = P k ∨ (P' k = none ∧ ¬ live k)) : Forgets live P' I := by
  intro k
  rcases hP k with hk | hk
  · rw [hk]
    exact h k
  · exact Or.inr hk

/-- **Forgetting is invisible at live keys.**  An arrival at a live key finds the same on both
boards, and the relation goes on. -/
theorem Forgets.step {live : K → Prop} {P I : Board K S V} (h : Forgets live P I)
    {a : Arrival K S V} (ha : live a.key) :
    (Rendezvous.step P a).2 = (Rendezvous.step I a).2 ∧
      Forgets live (Rendezvous.step P a).1 (Rendezvous.step I a).1 := by
  have hkey := h.eq_of_live ha
  refine ⟨by rw [step_snd, step_snd, hkey], fun k => ?_⟩
  by_cases hka : k = a.key
  · left
    rw [hka, step_fst_self, step_fst_self, hkey]
  · rw [step_fst_of_ne P hka, step_fst_of_ne I hka]
    exact h k

/-! ## Joining two sides -/

/-- The keys at which a side has arrived. -/
def keysOf (s : S) (as : List (Arrival K S V)) : Finset K :=
  ((as.filter fun a => a.side = s).map Arrival.key).toFinset

theorem mem_keysOf {s : S} {as : List (Arrival K S V)} {k : K} :
    k ∈ keysOf s as ↔ ∃ a ∈ as, a.side = s ∧ a.key = k := by
  simp only [keysOf, List.mem_toFinset, List.mem_map, List.mem_filter, decide_eq_true_eq]
  constructor
  · rintro ⟨a, ⟨ha, hs⟩, hk⟩
    exact ⟨a, ha, hs, hk⟩
  · rintro ⟨a, ha, hs, hk⟩
    exact ⟨a, ⟨ha, hs⟩, hk⟩

/-- The keys at which an arrival met somebody, in the order of the meetings. -/
def metKeys (t : List (Arrival K S V × Outcome V)) : List K :=
  (t.filter fun x => x.2.met.isSome).map fun x => x.1.key

/-- The empty board. -/
def empty : Board K S V := fun _ => none

omit [DecidableEq S] [DecidableEq K] in
@[simp] theorem empty_apply (k : K) : (empty : Board K S V) k = none := rfl

/-- A party that waits has arrived. -/
theorem exists_of_final {as : List (Arrival K S V)} {P : Board K S V} {k : K} {s : S} {v : V}
    (h : final P as k = some (s, v)) :
    P k = some (s, v) ∨ ⟨s, k, v⟩ ∈ as := by
  induction as generalizing P with
  | nil => exact Or.inl h
  | cons a as ih =>
    rcases ih h with hstep | hmem
    · by_cases hka : k = a.key
      · subst hka
        rw [step_fst_self] at hstep
        -- the only party an arrival leaves behind is itself
        rcases hP : P a.key with _ | ⟨s', v'⟩
        · rw [hP, arrive_none, Option.some_inj, Prod.mk.injEq] at hstep
          obtain ⟨rfl, rfl⟩ := hstep
          exact Or.inr List.mem_cons_self
        · by_cases hs : s' = a.side
          · rw [hP, hs, arrive_same, Option.some_inj, Prod.mk.injEq] at hstep
            obtain ⟨rfl, rfl⟩ := hstep
            exact Or.inr List.mem_cons_self
          · rw [hP, arrive_other hs] at hstep
            exact absurd hstep (by simp)
      · rw [step_fst_of_ne P hka] at hstep
        exact Or.inl hstep
    · exact Or.inr (List.mem_cons_of_mem _ hmem)

/-- **Soundness of meetings.**  The party met has arrived before, at the same key and from another
side. -/
theorem exists_of_meets {as : List (Arrival K S V)} {P : Board K S V} {a : Arrival K S V} {v : V}
    (h : (a, Outcome.meets v) ∈ trace P as) :
    a ∈ as ∧ ∃ s, s ≠ a.side ∧ (P a.key = some (s, v) ∨ ⟨s, a.key, v⟩ ∈ as) := by
  induction as generalizing P with
  | nil => exact absurd h (by simp)
  | cons b as ih =>
    rw [trace_cons, List.mem_cons] at h
    rcases h with h | h
    · obtain ⟨rfl, hout⟩ := Prod.mk.inj h
      refine ⟨List.mem_cons_self, ?_⟩
      rw [step_snd] at hout
      rcases hP : P a.key with _ | ⟨s', v'⟩
      · rw [hP, arrive_none] at hout
        exact absurd hout (by simp)
      · by_cases hs : s' = a.side
        · rw [hP, hs, arrive_same] at hout
          exact absurd hout (by simp)
        · rw [hP, arrive_other hs, Outcome.meets.injEq] at hout
          exact ⟨s', hs, Or.inl (by rw [hout])⟩
    · obtain ⟨ha, s, hs, hP⟩ := ih h
      refine ⟨List.mem_cons_of_mem _ ha, s, hs, ?_⟩
      rcases hP with hP | hmem
      · have hfin : final P [b] a.key = some (s, v) := hP
        rcases exists_of_final hfin with hP' | hmem
        · exact Or.inl hP'
        · rw [List.mem_singleton] at hmem
          exact Or.inr (hmem ▸ List.mem_cons_self)
      · exact Or.inr (List.mem_cons_of_mem _ hmem)

/-! ### Two sides that arrive once

With two sides and no repeated arrival, at most two arrivals share a key, and `trace_filter` reduces
every question about that key to those two. -/

/-- Every arrival is from one of the two sides `l` and `r`, and no side arrives twice at a key. -/
structure Once (l r : S) (as : List (Arrival K S V)) : Prop where
  ne : l ≠ r
  sides : ∀ a ∈ as, a.side = l ∨ a.side = r
  once : as.Pairwise fun a b => a.key = b.key → a.side ≠ b.side

/-- The keys at which both sides have arrived. -/
def sharedKeys (l r : S) (as : List (Arrival K S V)) : Finset K :=
  keysOf l as ∩ keysOf r as

variable {l r : S}

omit [DecidableEq S] in
/-- The arrivals at one key: none, one, or one of each side. -/
theorem Once.at_key {as : List (Arrival K S V)} (h : Once l r as) (k : K) :
    (as.filter fun a => a.key = k) = [] ∨ (∃ a, (as.filter fun a => a.key = k) = [a]) ∨
      ∃ a b, a.side ≠ b.side ∧ (as.filter fun a => a.key = k) = [a, b] := by
  have hkey : ∀ a ∈ as.filter fun a => a.key = k, a.key = k ∧ (a.side = l ∨ a.side = r) := by
    intro a ha
    rw [List.mem_filter, decide_eq_true_eq] at ha
    exact ⟨ha.2, h.sides a ha.1⟩
  have honce := h.once.filter (fun a => decide (a.key = k))
  rcases hL : as.filter fun a => a.key = k with _ | ⟨a, _ | ⟨b, _ | ⟨c, L⟩⟩⟩
  · exact Or.inl hL
  · exact Or.inr (Or.inl ⟨a, hL⟩)
  · rw [hL] at hkey honce
    have hab := (List.pairwise_cons.mp honce).1 b (by simp)
    rw [(hkey a (by simp)).1, (hkey b (by simp)).1] at hab
    exact Or.inr (Or.inr ⟨a, b, hab rfl, hL⟩)
  · -- three arrivals at one key would need three sides
    exfalso
    rw [hL] at hkey honce
    obtain ⟨ha, hbc⟩ := List.pairwise_cons.mp honce
    obtain ⟨hb, -⟩ := List.pairwise_cons.mp hbc
    have ka := hkey a (by simp)
    have kb := hkey b (by simp)
    have kc := hkey c (by simp)
    have hab := ha b (by simp) (ka.1.trans kb.1.symm)
    have hac := ha c (by simp) (ka.1.trans kc.1.symm)
    have hbc' := hb c (by simp) (kb.1.trans kc.1.symm)
    rcases ka.2 with e1 | e1 <;> rcases kb.2 with e2 | e2 <;> rcases kc.2 with e3 | e3 <;>
      simp [e1, e2, e3] at hab hac hbc'

theorem mem_keysOf_iff_filter {s : S} {as : List (Arrival K S V)} {k : K} :
    k ∈ keysOf s as ↔ ∃ a ∈ as.filter fun a => a.key = k, a.side = s := by
  rw [mem_keysOf]
  constructor
  · rintro ⟨a, ha, hs, hk⟩
    exact ⟨a, List.mem_filter.mpr ⟨ha, by simpa using hk⟩, hs⟩
  · rintro ⟨a, ha, hs⟩
    obtain ⟨hmem, hk⟩ := List.mem_filter.mp ha
    exact ⟨a, hmem, hs, by simpa using hk⟩

theorem final_empty_eq_filter (as : List (Arrival K S V)) (k : K) :
    final empty as k = final empty (as.filter fun a => a.key = k) k :=
  final_filter (p := fun k' => k' = k) (fun _ _ => rfl) as rfl

/-- **Who is left waiting.**  A party waits at the end exactly when it arrived and its key saw no
arrival from another side. -/
theorem Once.final_eq_some_iff {as : List (Arrival K S V)} (h : Once l r as) {k : K} {s : S}
    {v : V} : final empty as k = some (s, v) ↔
      ⟨s, k, v⟩ ∈ as ∧ ∀ s', s' ≠ s → k ∉ keysOf s' as := by
  have hmem : ∀ a, a ∈ as ∧ a.key = k ↔ a ∈ as.filter fun a => a.key = k := by
    intro a
    rw [List.mem_filter, decide_eq_true_eq]
  have hiff : (⟨s, k, v⟩ : Arrival K S V) ∈ as ↔
      (⟨s, k, v⟩ : Arrival K S V) ∈ as.filter fun a => a.key = k := by
    rw [← hmem]
    simp
  rw [final_empty_eq_filter, hiff]
  simp only [mem_keysOf_iff_filter]
  rcases h.at_key k with hL | ⟨a, hL⟩ | ⟨a, b, hab, hL⟩
  · simp [hL]
  · have hk : a.key = k := ((hmem a).mpr (by simp [hL])).2
    subst hk
    rw [hL, final_cons, final_nil, step_fst_self, empty_apply, arrive_none]
    constructor
    · intro he
      obtain ⟨rfl, rfl⟩ := Prod.mk.inj (Option.some.inj he)
      exact ⟨by simp, fun s' hs' => by simpa using fun e => hs' e.symm⟩
    · rintro ⟨ha, -⟩
      rw [List.mem_singleton] at ha
      rw [← ha]
  · have hka : a.key = k := ((hmem a).mpr (by simp [hL])).2
    have hkb : b.key = k := ((hmem b).mpr (by simp [hL])).2
    have hfin : final empty [a, b] k = none := by
      rw [final_cons, final_cons, final_nil, ← hkb, step_fst_self, hkb, ← hka, step_fst_self,
        empty_apply, arrive_none, arrive_other hab]
    rw [hL, hfin]
    constructor
    · intro he
      exact absurd he (by simp)
    · rintro ⟨hin, hother⟩
      exfalso
      rcases List.mem_pair.mp hin with rfl | rfl
      · exact hother b.side (Ne.symm hab) ⟨b, by simp, rfl⟩
      · exact hother a.side hab ⟨a, by simp, rfl⟩

theorem count_metKeys (as : List (Arrival K S V)) (k : K) :
    (metKeys (trace empty as)).count k =
      (metKeys (trace empty (as.filter fun a => a.key = k))).length := by
  have hloc := trace_filter (P := empty) (Q := empty) (p := fun k' => k' = k)
    (fun _ _ => rfl) as
  rw [← hloc, metKeys, metKeys, List.count_eq_countP, List.countP_map, List.countP_filter,
    List.length_map, List.filter_filter, List.countP_eq_length_filter]
  refine congrArg List.length (List.filter_congr fun x _ => ?_)
  rw [Bool.and_comm, Function.comp_apply, beq_eq_decide]

/-- **The meetings of a run are a join.**  The keys at which parties met are the keys that both
sides arrived at, each of them once. -/
theorem Once.coe_metKeys {as : List (Arrival K S V)} (h : Once l r as) :
    (metKeys (trace empty as) : Multiset K) = (sharedKeys l r as).val := by
  refine Multiset.ext.mpr fun k => ?_
  rw [Multiset.coe_count, count_metKeys, Multiset.count_eq_of_nodup (sharedKeys l r as).nodup]
  have hmem : k ∈ (sharedKeys l r as).val ↔ k ∈ keysOf l as ∧ k ∈ keysOf r as := by
    rw [Finset.mem_val, sharedKeys, Finset.mem_inter]
  rw [if_congr hmem rfl rfl]
  simp only [mem_keysOf_iff_filter]
  rcases h.at_key k with hL | ⟨a, hL⟩ | ⟨a, b, hab, hL⟩
  · simp [hL, metKeys]
  · have hne : ¬ ((∃ b ∈ [a], b.side = l) ∧ ∃ b ∈ [a], b.side = r) := by
      simp only [List.mem_singleton, exists_eq_left]
      exact fun hlr => h.ne (hlr.1.symm.trans hlr.2)
    rw [hL, if_neg hne]
    simp [metKeys]
  · have hmemL : ∀ c ∈ [a, b], c ∈ as ∧ c.key = k := by
      intro c hc
      rw [← hL, List.mem_filter, decide_eq_true_eq] at hc
      exact hc
    have hboth : (∃ c ∈ [a, b], c.side = l) ∧ ∃ c ∈ [a, b], c.side = r := by
      rcases h.sides a (hmemL a (by simp)).1 with ha | ha <;>
        rcases h.sides b (hmemL b (by simp)).1 with hb | hb
      · exact absurd (ha.trans hb.symm) hab
      · exact ⟨⟨a, by simp, ha⟩, ⟨b, by simp, hb⟩⟩
      · exact ⟨⟨b, by simp, hb⟩, ⟨a, by simp, ha⟩⟩
      · exact absurd (ha.trans hb.symm) hab
    have hkey : b.key = a.key := (hmemL b (by simp)).2.trans (hmemL a (by simp)).2.symm
    have hout : (step (step empty a).1 b).2 = .meets a.val := by
      rw [step_snd, hkey, step_fst_self, empty_apply, arrive_none, arrive_other hab]
    rw [hL, if_pos hboth, metKeys, trace_cons, trace_cons, trace_nil, hout]
    simp [List.filter_cons]

/-- A quantity of the meetings that depends only on the key is that quantity of the join. -/
theorem Once.map_met {as : List (Arrival K S V)} (h : Once l r as) {γ : Type*}
    {f : Arrival K S V × Outcome V → γ} {g : K → γ}
    (hfg : ∀ x ∈ trace empty as, x.2.met.isSome → f x = g x.1.key) :
    ((((trace empty as).filter fun x => x.2.met.isSome).map f : List γ) : Multiset γ) =
      (sharedKeys l r as).val.map g := by
  have hmap : ((trace empty as).filter fun x => x.2.met.isSome).map f =
      (metKeys (trace empty as)).map g := by
    rw [metKeys, List.map_map]
    refine List.map_congr_left fun x hx => ?_
    rw [List.mem_filter] at hx
    exact hfg x hx.1 hx.2
  rw [hmap, ← Multiset.map_coe, h.coe_metKeys]

/-! ## Renaming -/

section Rename

variable {S' : Type*} {V' : Type*} (f : S → S') (g : K → V → V')

/-- An arrival with its side and its party renamed. -/
def Arrival.rename (a : Arrival K S V) : Arrival K S' V' :=
  ⟨f a.side, a.key, g a.key a.val⟩

/-- The outcome with the party found renamed. -/
def Outcome.map (h : V → V') : Outcome V → Outcome V'
  | .waits => .waits
  | .replaces old => .replaces (h old)
  | .meets other => .meets (h other)

@[simp] theorem Outcome.met_map (h : V → V') (o : Outcome V) : (o.map h).met = o.met.map h := by
  cases o <;> rfl

/-- The waiting parties, renamed. -/
def Board.rename (P : Board K S V) : Board K S' V' :=
  fun k => (P k).map fun w => (f w.1, g k w.2)

omit [DecidableEq S] [DecidableEq K] in
theorem rename_empty : Board.rename f g empty = empty := rfl

variable [DecidableEq S'] {f}

omit [DecidableEq K] in
theorem arrive_rename (hf : Function.Injective f) (h : V → V') (waiting : Option (S × V)) (s : S)
    (v : V) : arrive (waiting.map fun w => (f w.1, h w.2)) (f s) (h v) =
      ((arrive waiting s v).1.map (fun w => (f w.1, h w.2)), (arrive waiting s v).2.map h) := by
  rcases waiting with _ | ⟨s', v'⟩
  · rfl
  · by_cases hs : s' = s
    · subst hs
      rw [Option.map_some, arrive_same, arrive_same]
      rfl
    · rw [Option.map_some, arrive_other hs, arrive_other fun he => hs (hf he)]
      rfl

theorem step_rename_snd (hf : Function.Injective f) (P : Board K S V) (a : Arrival K S V) :
    (step (Board.rename f g P) (a.rename f g)).2 = (step P a).2.map (g a.key) := by
  have harrive := arrive_rename hf (g a.key) (P a.key) a.side a.val
  exact (Prod.ext_iff.mp harrive).2

theorem step_rename_fst (hf : Function.Injective f) (P : Board K S V) (a : Arrival K S V) :
    (step (Board.rename f g P) (a.rename f g)).1 = Board.rename f g (step P a).1 := by
  have harrive := arrive_rename hf (g a.key) (P a.key) a.side a.val
  funext k
  by_cases hk : k = a.key
  · subst hk
    have hself := step_fst_self (Board.rename f g P) (a.rename f g)
    refine hself.trans ((Prod.ext_iff.mp harrive).1.trans ?_)
    rw [← step_fst_self]
    rfl
  · have hother := step_fst_of_ne (Board.rename f g P) (a := a.rename f g) hk
    refine hother.trans ?_
    unfold Board.rename
    rw [step_fst_of_ne P hk]

/-- **Renaming.**  The trace of renamed arrivals is the renamed trace: sides that stay apart meet as
before. -/
theorem trace_rename (hf : Function.Injective f) (P : Board K S V) (as : List (Arrival K S V)) :
    trace (Board.rename f g P) (as.map (Arrival.rename f g)) =
      (trace P as).map fun x => (x.1.rename f g, x.2.map (g x.1.key)) := by
  induction as generalizing P with
  | nil => rfl
  | cons a as ih =>
    rw [List.map_cons, trace_cons, step_rename_fst g hf, step_rename_snd g hf, ih, trace_cons,
      List.map_cons]

end Rename

end Rendezvous
