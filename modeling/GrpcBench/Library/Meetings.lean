import GrpcBench.Library.Rendezvous

/-!
# Meetings at one key

By locality, who meets whom at a key depends on the arrivals there.  At one key a board is down to
the party that waits, if any.

* `meetings`: who met whom, in order, with `meetings_trace` for the part of a trace at a key.
* `meetings_of_side`: arrivals from one side never meet.
* `length_meetings_eq_one_iff`: there is exactly one meeting when all arrivals up to the first
  change of side come from one side, and all arrivals after it do.
* `length_encounters`, `head?_encounters_some`: the same where the first party of a side waits, not
  the last.
* `meetings_lone`: a lone arrival among arrivals from another side meets the last one before it, or
  else it is met by the first one after it.
-/

namespace Rendezvous

universe u v w

variable {K : Type u} {S : Type v} {V : Type w} [DecidableEq S]

/-- The meetings at a key: the party that arrived, and the party it met. -/
def meetings (waiting : Option (S × V)) : List (S × V) → List ((S × V) × V)
  | [] => []
  | a :: as => ((arrive waiting a.1 a.2).2.met.map fun v => (a, v)).toList ++
      meetings (arrive waiting a.1 a.2).1 as

/-- Who waits at a key after the arrivals there. -/
def waitingAfter (waiting : Option (S × V)) (as : List (S × V)) : Option (S × V) :=
  as.foldl (fun waiting a => (arrive waiting a.1 a.2).1) waiting

@[simp] theorem meetings_nil (waiting : Option (S × V)) : meetings waiting [] = [] := rfl

theorem meetings_cons_none (a : S × V) (as : List (S × V)) :
    meetings none (a :: as) = meetings (some a) as := rfl

theorem meetings_cons_same {a : S × V} {s : S} (h : s = a.1) (v : V) (as : List (S × V)) :
    meetings (some (s, v)) (a :: as) = meetings (some a) as := by
  subst h
  rw [meetings, arrive_same]
  rfl

theorem meetings_cons_other {a : S × V} {s : S} (h : s ≠ a.1) (v : V) (as : List (S × V)) :
    meetings (some (s, v)) (a :: as) = (a, v) :: meetings none as := by
  rw [meetings, arrive_other h]
  rfl

theorem meetings_append (waiting : Option (S × V)) (as bs : List (S × V)) :
    meetings waiting (as ++ bs) = meetings waiting as ++ meetings (waitingAfter waiting as) bs := by
  induction as generalizing waiting with
  | nil => rfl
  | cons a as ih =>
    rw [List.cons_append, meetings, meetings, ih, List.append_assoc]
    rfl

/-- **Locality.**  The part of a trace at a key has the meetings of the arrivals there. -/
theorem meetings_trace [DecidableEq K] (P : Board K S V) (k : K) (as : List (Arrival K S V)) :
    ((trace P as).filter fun x => x.1.key = k).filterMap
        (fun x => x.2.met.map fun v => ((x.1.side, x.1.val), v)) =
      meetings (P k) ((as.filter fun a => a.key = k).map fun a => (a.side, a.val)) := by
  induction as generalizing P with
  | nil => rfl
  | cons a as ih =>
    by_cases hk : a.key = k
    · subst hk
      rw [trace_cons, List.filter_cons_of_pos (by simp), List.filter_cons_of_pos (by simp),
        List.map_cons, meetings, List.filterMap_cons, ih, step_fst_self, step_snd]
      cases (arrive (P a.key) a.side a.val).2.met <;> rfl
    · rw [trace_cons, List.filter_cons_of_neg (by simpa using hk),
        List.filter_cons_of_neg (by simpa using hk), ih, step_fst_of_ne P (Ne.symm hk)]

/-! ## One side -/

/-- An arrival from the side of the waiting party, if there is one, meets nobody and waits. -/
theorem arrive_of_side {waiting : Option (S × V)} {a : S × V} (h : ∀ w ∈ waiting, w.1 = a.1) :
    (arrive waiting a.1 a.2).1 = some a ∧ (arrive waiting a.1 a.2).2.met = none := by
  rcases waiting with _ | ⟨s, v⟩
  · exact ⟨rfl, rfl⟩
  · have hs : s = a.1 := h (s, v) rfl
    rw [hs, arrive_same]
    exact ⟨rfl, rfl⟩

/-- Arrivals from one side never meet, if nobody of another side waits. -/
theorem meetings_of_side {waiting : Option (S × V)} {s : S} {as : List (S × V)}
    (hw : ∀ w ∈ waiting, w.1 = s) (has : ∀ a ∈ as, a.1 = s) : meetings waiting as = [] := by
  induction as generalizing waiting with
  | nil => rfl
  | cons a as ih =>
    have ha := has a List.mem_cons_self
    obtain ⟨hnext, hmet⟩ := arrive_of_side fun w hin => (hw w hin).trans ha.symm
    rw [meetings, hmet, hnext]
    exact ih (by simpa using ha) fun b hb => has b (List.mem_cons_of_mem a hb)

/-- Of arrivals from one side the last one waits. -/
theorem waitingAfter_of_side {waiting : Option (S × V)} {s : S} {as : List (S × V)}
    (hw : ∀ w ∈ waiting, w.1 = s) (has : ∀ a ∈ as, a.1 = s) :
    waitingAfter waiting as = as.getLast?.or waiting := by
  induction as generalizing waiting with
  | nil => rfl
  | cons a as ih =>
    have ha := has a List.mem_cons_self
    obtain ⟨hnext, -⟩ := arrive_of_side fun w hin => (hw w hin).trans ha.symm
    rw [waitingAfter, List.foldl_cons, ← waitingAfter, hnext,
      ih (by simpa using ha) fun b hb => has b (List.mem_cons_of_mem a hb), List.getLast?_cons]
    cases as.getLast? <;> rfl

/-- **A lone arrival** among arrivals from another side. -/
theorem meetings_lone {l r : S} (hne : l ≠ r) (before after : List V) (t : V) :
    meetings none (before.map (fun v => (l, v)) ++ (r, t) :: after.map fun v => (l, v)) =
      match before.getLast?, after.head? with
      | some v, _ => [((r, t), v)]
      | none, some v => [((l, v), t)]
      | none, none => [] := by
  have hside : ∀ vs : List V, ∀ a ∈ vs.map (fun v => (l, v)), a.1 = l := by
    intro vs a ha
    obtain ⟨v, -, rfl⟩ := List.mem_map.mp ha
    rfl
  rw [meetings_append, meetings_of_side (by simp) (hside before),
    waitingAfter_of_side (by simp) (hside before), List.nil_append,
    List.getLast?_map]
  rcases before.getLast? with _ | v
  · rw [Option.map_none, Option.none_or, meetings_cons_none]
    rcases after with _ | ⟨v, after⟩
    · rfl
    · rw [List.map_cons, meetings_cons_other hne.symm,
        meetings_of_side (by simp) (hside after)]
      rfl
  · rw [Option.map_some, Option.some_or, meetings_cons_other hne,
      meetings_of_side (by simp) (hside after)]

omit [DecidableEq S] in
theorem map_fst_eq_replicate_iff {as : List (S × V)} {s : S} :
    (∃ n, as.map Prod.fst = List.replicate n s) ↔ ∀ a ∈ as, a.1 = s := by
  constructor
  · rintro ⟨n, h⟩ a ha
    exact List.eq_of_mem_replicate (h ▸ List.mem_map_of_mem ha)
  · intro h
    exact ⟨as.length, List.eq_replicate_iff.mpr ⟨List.length_map _, by simpa using h⟩⟩

/-! ## Nobody left -/

/-- The sides of a list of arrivals fall into groups, each of them some arrivals from one side and
then one from another. -/
inductive PairedOff : List S → Prop
  | nil : PairedOff []
  | group {s t : S} (h : t ≠ s) (n : ℕ) {rest : List S} :
      PairedOff rest → PairedOff (List.replicate (n + 1) s ++ t :: rest)

/-- Up to the arrival that meets the waiting party, all come from one side. -/
theorem exists_of_waitingAfter {s : S} {v : V} {as : List (S × V)}
    (h : waitingAfter (some (s, v)) as = none) : ∃ (n : ℕ) (t : S) (rest : List (S × V)), t ≠ s ∧
      as.map Prod.fst = List.replicate n s ++ t :: rest.map Prod.fst ∧
      waitingAfter none rest = none ∧ rest.length < as.length := by
  induction as generalizing v with
  | nil => cases h
  | cons a as ih =>
    rw [waitingAfter, List.foldl_cons, ← waitingAfter] at h
    by_cases hs : s = a.1
    · subst hs
      rw [arrive_same] at h
      obtain ⟨n, t, rest, ht, hsides, hwait, hlength⟩ := ih h
      exact ⟨n + 1, t, rest, ht, by rw [List.map_cons, hsides]; rfl, hwait,
        Nat.lt_succ_of_lt hlength⟩
    · rw [arrive_other hs] at h
      exact ⟨0, a.1, as, Ne.symm hs, rfl, h, Nat.lt_succ_self _⟩

/-- **Nobody is left** at a key that was free at first exactly when the arrivals are paired off. -/
theorem waitingAfter_eq_none_iff {as : List (S × V)} :
    waitingAfter none as = none ↔ PairedOff (as.map Prod.fst) := by
  constructor
  · intro h
    induction hn : as.length using Nat.strong_induction_on generalizing as with
    | _ n ih =>
      rcases as with _ | ⟨a, as⟩
      · exact .nil
      · obtain ⟨m, t, rest, ht, hsides, hwait, hlength⟩ := exists_of_waitingAfter h
        have hrest := ih rest.length (by rw [← hn]; exact Nat.lt_succ_of_lt hlength) hwait rfl
        rw [List.map_cons, hsides]
        exact .group ht m hrest
  · intro h
    generalize hsides : as.map Prod.fst = sides at h
    induction h generalizing as with
    | nil => rw [List.map_eq_nil_iff.mp hsides]; rfl
    | @group s t ht n rest _ ih =>
      obtain ⟨first, last, rfl, hfirst, hlast⟩ := List.map_eq_append_iff.mp hsides
      obtain ⟨b, rest, rfl, rfl, hrest⟩ := List.map_eq_cons_iff.mp hlast
      have hside := map_fst_eq_replicate_iff.mp ⟨_, hfirst⟩
      have hne : first ≠ [] := by
        rintro rfl
        cases hfirst
      have hlastMem := List.getLast_mem hne
      rw [waitingAfter, List.foldl_append, ← waitingAfter, ← waitingAfter,
        waitingAfter_of_side (by simp) hside, List.getLast?_eq_some_getLast hne, Option.some_or,
        waitingAfter, List.foldl_cons, ← waitingAfter,
        ← Prod.mk.eta (p := first.getLast hne),
        arrive_other fun heq => ht (heq.symm.trans (hside _ hlastMem))]
      exact ih hrest

/-! ## One meeting -/

/-- While somebody waits, there is no meeting exactly when all arrivals are from that side. -/
theorem meetings_some_eq_nil_iff {s : S} {v : V} {as : List (S × V)} :
    meetings (some (s, v)) as = [] ↔ ∀ a ∈ as, a.1 = s := by
  constructor
  · intro h
    induction as generalizing v with
    | nil => simp
    | cons a as ih =>
      by_cases hs : s = a.1
      · rw [meetings_cons_same hs] at h
        subst hs
        exact List.forall_mem_cons.mpr ⟨rfl, ih h⟩
      · rw [meetings_cons_other hs] at h
        cases h
  · intro h
    exact meetings_of_side (fun w hw => by cases hw; rfl) h

/-- From a free key on, there is no meeting exactly when all arrivals are from one side. -/
theorem meetings_none_eq_nil_iff {s : S} {as : List (S × V)} :
    meetings none as = [] ↔ ∃ t n, as.map Prod.fst = List.replicate n t := by
  rcases as with _ | ⟨a, as⟩
  · exact iff_of_true rfl ⟨s, 0, rfl⟩
  · rw [meetings_cons_none, ← Prod.mk.eta (p := a), meetings_some_eq_nil_iff]
    constructor
    · intro h
      exact ⟨a.1, map_fst_eq_replicate_iff.mpr (List.forall_mem_cons.mpr ⟨rfl, h⟩)⟩
    · rintro ⟨t, h⟩
      obtain ⟨ha, has⟩ := List.forall_mem_cons.mp (map_fst_eq_replicate_iff.mp h)
      exact fun b hb => (has b hb).trans ha.symm

/-- While somebody waits: one meeting, and all arrivals after it from one side. -/
theorem length_meetings_some_eq_one_iff {s : S} {v : V} {as : List (S × V)} :
    (meetings (some (s, v)) as).length = 1 ↔ ∃ b t m n, b ≠ s ∧
      as.map Prod.fst = List.replicate m s ++ b :: List.replicate n t := by
  induction as generalizing v with
  | nil => simp
  | cons a as ih =>
    by_cases hs : s = a.1
    · rw [meetings_cons_same hs, ← Prod.mk.eta (p := a), ← hs, ih]
      constructor
      · rintro ⟨b, t, m, n, hb, h⟩
        exact ⟨b, t, m + 1, n, hb, by rw [List.map_cons, h]; rfl⟩
      · rintro ⟨b, t, _ | m, n, hb, h⟩
        · exact absurd (List.cons.inj h).1.symm hb
        · exact ⟨b, t, m, n, hb, (List.cons.inj h).2⟩
    · rw [meetings_cons_other hs, List.length_cons, Nat.add_eq_right, List.length_eq_zero_iff,
        meetings_none_eq_nil_iff (s := s)]
      constructor
      · rintro ⟨t, n, h⟩
        exact ⟨a.1, t, 0, n, Ne.symm hs, by rw [List.map_cons, h]; rfl⟩
      · rintro ⟨b, t, _ | m, n, hb, h⟩
        · exact ⟨t, n, (List.cons.inj h).2⟩
        · exact absurd (List.cons.inj h).1.symm hs

/-- **One meeting.**  From a free key on, exactly one meeting takes place when the arrivals are some
from one side, one from another, and any number from one side again. -/
theorem length_meetings_eq_one_iff {as : List (S × V)} :
    (meetings none as).length = 1 ↔ ∃ s b t m n, b ≠ s ∧
      as.map Prod.fst = List.replicate (m + 1) s ++ b :: List.replicate n t := by
  rcases as with _ | ⟨a, as⟩
  · simp
  · rw [meetings_cons_none, ← Prod.mk.eta (p := a), length_meetings_some_eq_one_iff]
    constructor
    · rintro ⟨b, t, m, n, hb, h⟩
      exact ⟨a.1, b, t, m, n, hb, by rw [List.map_cons, h]; rfl⟩
    · rintro ⟨s, b, t, m, n, hb, h⟩
      obtain ⟨rfl, h⟩ := List.cons.inj h
      exact ⟨b, t, m, n, hb, h⟩

/-! ## Keeping the first

Where an arrival does not take the place of a party from its own side, the party that waits is the
first of its side. -/

/-- What an arrival does at its own key, and the party it meets, if any. -/
def arriveFirst (waiting : Option (S × V)) (a : S × V) : Option (S × V) × Option V :=
  match waiting with
  | none => (some a, none)
  | some w => if w.1 = a.1 then (some w, none) else (none, some w.2)

theorem arriveFirst_none (a : S × V) : arriveFirst none a = (some a, none) := rfl

theorem arriveFirst_same {a w : S × V} (h : w.1 = a.1) :
    arriveFirst (some w) a = (some w, none) :=
  if_pos h

theorem arriveFirst_other {a w : S × V} (h : w.1 ≠ a.1) :
    arriveFirst (some w) a = (none, some w.2) :=
  if_neg h

/-- Who met whom: the party that arrived, and the party it met. -/
def encounters (waiting : Option (S × V)) : List (S × V) → List ((S × V) × V)
  | [] => []
  | a :: as => ((arriveFirst waiting a).2.map fun v => (a, v)).toList ++
      encounters (arriveFirst waiting a).1 as

/-- There are as many as if the last of a side waited. -/
theorem length_encounters {waiting waiting' : Option (S × V)} {as : List (S × V)}
    (h : waiting.map Prod.fst = waiting'.map Prod.fst) :
    (encounters waiting as).length = (meetings waiting' as).length := by
  induction as generalizing waiting waiting' with
  | nil => rfl
  | cons a as ih =>
    rcases waiting with _ | w <;> rcases waiting' with _ | w'
    · rw [encounters, meetings_cons_none, arriveFirst_none]
      exact ih rfl
    · cases h
    · cases h
    · have hside : w.1 = w'.1 := Option.some_inj.mp h
      by_cases hs : w.1 = a.1
      · rw [encounters, arriveFirst_same hs, ← Prod.mk.eta (p := w'),
          meetings_cons_same (hside.symm.trans hs)]
        exact ih (congrArg some hs)
      · rw [encounters, arriveFirst_other hs, ← Prod.mk.eta (p := w'),
          meetings_cons_other fun heq => hs (hside.trans heq), List.length_append, List.length_cons,
          Nat.add_comm]
        exact congrArg (· + 1) (ih rfl)

/-- The first encounter while `w` waits is with the first arrival from another side. -/
theorem head?_encounters_some (w : S × V) (as : List (S × V)) :
    (encounters (some w) as).head? = (as.find? fun a => w.1 ≠ a.1).map fun a => (a, w.2) := by
  induction as with
  | nil => rfl
  | cons a as ih =>
    by_cases hs : w.1 = a.1
    · rw [encounters, arriveFirst_same hs, List.find?_cons_of_neg (by simpa using hs)]
      exact ih
    · rw [encounters, arriveFirst_other hs, List.find?_cons_of_pos (by simpa using hs)]
      rfl

end Rendezvous
