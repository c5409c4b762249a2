import GrpcBench.Matching.Window

/-!
# A run is a relational join

What a matcher is for: the pairs it reports are the relational join of what the two endpoints
observed.  This file proves it for runs in which no endpoint observes a key twice and every call is
inside the eviction window.

* `joined`, `joinDelta`: the join, defined from the list of calls alone.
* `IsJoin`: the counters, samples and pending maps of a run, read off the join.
* `isJoin_run`: a run of `observe` is the join, however the two endpoints interleave.
-/

namespace GrpcBench

open Rendezvous (Board Outcome Arrival)

variable {B : Backend} {K : Type} [DecidableEq K]

/-! ## The join of two lists of observations -/

/-- The keys an endpoint has observed. -/
def seenBy (e : EndpointRole) (cs : List (Call K)) : Finset K :=
  ((cs.filter fun c => c.endpoint = e).map Call.key).toFinset

/-- The keys both endpoints have observed. -/
def joined (cs : List (Call K)) : Finset K :=
  seenBy .one cs ∩ seenBy .two cs

/-- The keys an endpoint has observed and the other has not. -/
def soleBy (e : EndpointRole) (cs : List (Call K)) : Finset K :=
  seenBy e cs \ seenBy e.other cs

/-- The reading of an endpoint at a key, in nanoseconds. -/
def readingAt (e : EndpointRole) (k : K) (cs : List (Call K)) : ℤ :=
  ((cs.find? fun c => c.endpoint = e ∧ c.key = k).map fun c => (c.ts.monoNs.toNat : ℤ)).getD 0

/-- `ts2(k) - ts1(k)`. -/
def joinDelta (cs : List (Call K)) (k : K) : ℤ :=
  readingAt .two k cs - readingAt .one k cs

/-- No endpoint observes a key twice. -/
def NoRepeat (cs : List (Call K)) : Prop :=
  cs.Pairwise fun a b => a.endpoint = b.endpoint → a.key ≠ b.key

instance (cs : List (Call K)) : Decidable (NoRepeat cs) :=
  inferInstanceAs (Decidable (cs.Pairwise _))

/-- The results `rs` and the final matcher `m` are those of the join of `cs`. -/
structure IsJoin (cs : List (Call K)) (rs : List (Option MatchResult)) (m : PairMatcher B K) :
    Prop where
  matched : m.counts.matched = (joined cs).card
  deltas : ((rs.reduceOption.map fun r => r.delta.toInt : List ℤ) : Multiset ℤ) =
    (joined cs).val.map (joinDelta cs)
  samples : m.samples = (joined cs).val.map fun k => B.toMs (joinDelta cs k)
  ep1Faster : m.counts.ep1Faster = ((joined cs).filter fun k => 0 < joinDelta cs k).card
  ep2Faster : m.counts.ep2Faster = ((joined cs).filter fun k => joinDelta cs k < 0).card
  pending_sole : ∀ e, (m.pending e).keys ⊆ soleBy e cs
  evicted : ∀ e, m.counts.unmatchedEvicted e = (soleBy e cs \ (m.pending e).keys).card

/-- What an endpoint saw alone is pending or evicted. -/
theorem IsJoin.pending_add_evicted {cs : List (Call K)} {rs : List (Option MatchResult)}
    {m : PairMatcher B K} (h : IsJoin cs rs m) (e : EndpointRole) :
    (m.pending e).size + m.counts.unmatchedEvicted e = (soleBy e cs).card := by
  have hle := Finset.card_le_card (h.pending_sole e)
  rw [h.evicted e, Finset.card_sdiff_of_subset (h.pending_sole e), Finmap.size]
  omega

/-! ## Observations at most once -/

theorem mem_seenBy {e : EndpointRole} {cs : List (Call K)} {k : K} :
    k ∈ seenBy e cs ↔ ∃ c ∈ cs, c.endpoint = e ∧ c.key = k := by
  simp only [seenBy, List.mem_toFinset, List.mem_map, List.mem_filter, decide_eq_true_eq]
  constructor
  · rintro ⟨c, ⟨hc, he⟩, hk⟩
    exact ⟨c, hc, he, hk⟩
  · rintro ⟨c, hc, he, hk⟩
    exact ⟨c, ⟨hc, he⟩, hk⟩

theorem keysOf_map_arrival (e : EndpointRole) (cs : List (Call K)) :
    Rendezvous.keysOf e (cs.map Call.arrival) = seenBy e cs := by
  ext k
  rw [Rendezvous.mem_keysOf, mem_seenBy]
  constructor
  · rintro ⟨a, ha, hs, hk⟩
    obtain ⟨c, hc, rfl⟩ := List.mem_map.mp ha
    exact ⟨c, hc, hs, hk⟩
  · rintro ⟨c, hc, he, hk⟩
    exact ⟨c.arrival, List.mem_map_of_mem hc, he, hk⟩

theorem sharedKeys_map_arrival (cs : List (Call K)) :
    Rendezvous.sharedKeys .one .two (cs.map Call.arrival) = joined cs := by
  rw [Rendezvous.sharedKeys, keysOf_map_arrival, keysOf_map_arrival, joined]

omit [DecidableEq K] in
theorem NoRepeat.once {cs : List (Call K)} (h : NoRepeat cs) :
    Rendezvous.Once .one .two (cs.map Call.arrival) where
  ne := by decide
  sides a _ := by cases a.side <;> simp
  once := by
    rw [List.pairwise_map]
    exact h.imp fun {a b} hab hk he => hab he hk

instance : Std.Symm fun a b : Call K => a.endpoint = b.endpoint → a.key ≠ b.key where
  symm _ _ hab he hk := hab he.symm hk.symm

omit [DecidableEq K] in
/-- An endpoint's observation of a key is unique. -/
theorem NoRepeat.unique {cs : List (Call K)} (h : NoRepeat cs) {c d : Call K} (hc : c ∈ cs)
    (hd : d ∈ cs) (he : c.endpoint = d.endpoint) (hk : c.key = d.key) : c = d := by
  by_contra hne
  exact List.Pairwise.forall h hc hd hne he hk

theorem NoRepeat.readingAt {cs : List (Call K)} (h : NoRepeat cs) {c : Call K} (hc : c ∈ cs) :
    readingAt c.endpoint c.key cs = c.ts.monoNs.toNat := by
  rcases hf : cs.find? fun d => d.endpoint = c.endpoint ∧ d.key = c.key with _ | d
  · have := List.find?_eq_none.mp hf c hc
    simp at this
  · have hd := List.mem_of_find?_eq_some hf
    have hdk := List.find?_some hf
    rw [decide_eq_true_eq] at hdk
    rw [GrpcBench.readingAt, hf, h.unique hd hc hdk.1 hdk.2]
    rfl

theorem NoRepeat.card_seenBy {cs : List (Call K)} (h : NoRepeat cs) (e : EndpointRole) :
    (seenBy e cs).card = cs.countP fun c => c.endpoint = e := by
  have hnodup : ((cs.filter fun c => c.endpoint = e).map Call.key).Nodup := by
    rw [List.Nodup, List.pairwise_map]
    refine (List.Pairwise.filter _ h).imp_of_mem fun {a b} ha hb hab => ?_
    have hea := of_decide_eq_true (List.mem_filter.mp ha).2
    have heb := of_decide_eq_true (List.mem_filter.mp hb).2
    exact hab (hea.trans heb.symm)
  rw [seenBy, List.toFinset_card_of_nodup hnodup, List.length_map, List.countP_eq_length_filter]

omit [DecidableEq K] in
/-- A list of calls is its two endpoints' observations, in some order. -/
theorem perm_of_filter_eq {cs cs' : List (Call K)}
    (h : ∀ e : EndpointRole, cs'.filter (fun c => c.endpoint = e) =
      cs.filter fun c => c.endpoint = e) : cs'.Perm cs := by
  have hsplit : ∀ l : List (Call K), (l.filter (fun c => c.endpoint = .one) ++
      l.filter fun c => c.endpoint = .two).Perm l := by
    intro l
    have hnot : (l.filter fun c => c.endpoint = .two) =
        l.filter fun c => !decide (c.endpoint = .one) :=
      List.filter_congr fun c _ => by cases c.endpoint <;> rfl
    rw [hnot]
    exact List.filter_append_perm _ l
  exact (hsplit cs').symm.trans (by rw [h .one, h .two]; exact hsplit cs)

section SameObservations

variable {cs cs' : List (Call K)}
  (h : ∀ e : EndpointRole, cs'.filter (fun c => c.endpoint = e) =
    cs.filter fun c => c.endpoint = e)

include h

theorem seenBy_congr (e : EndpointRole) : seenBy e cs' = seenBy e cs := by
  rw [seenBy, seenBy, h]

theorem joined_congr : joined cs' = joined cs := by
  rw [joined, joined, seenBy_congr h, seenBy_congr h]

theorem readingAt_congr (e : EndpointRole) (k : K) : readingAt e k cs' = readingAt e k cs := by
  have hfind : ∀ l : List (Call K), (l.find? fun c => c.endpoint = e ∧ c.key = k) =
      (l.filter fun c => c.endpoint = e).find? fun c => c.key = k := by
    intro l
    rw [List.find?_filter]
    exact congrArg (List.find? · l) (funext fun c => by simp)
  rw [readingAt, readingAt, hfind, hfind, h]

theorem joinDelta_congr : joinDelta cs' = joinDelta cs := by
  funext k
  rw [joinDelta, joinDelta, readingAt_congr h, readingAt_congr h]

omit [DecidableEq K] in
theorem NoRepeat.congr (hcs : NoRepeat cs) : NoRepeat cs' :=
  ((perm_of_filter_eq h).pairwise_iff fun hab he hk => hab he.symm hk.symm).mpr hcs

end SameObservations

namespace PairMatcher

/-! ## The join -/

omit [DecidableEq K] in
theorem arrivalResult_isSome {x : Arrival K EndpointRole MatchPending × Outcome MatchPending} :
    (arrivalResult B x).isSome = x.2.met.isSome := by
  rw [arrivalResult, Option.isSome_map]

/-- A quantity of the matches of a list, computed where the matches are. -/
theorem map_reduceOption_map {α β γ : Type*} (f : α → Option β) (g : β → γ) (d : γ)
    (l : List α) : (l.map f).reduceOption.map g =
      (l.filter fun x => (f x).isSome).map fun x => ((f x).map g).getD d := by
  induction l with
  | nil => rfl
  | cons x l ih =>
    rcases hx : f x with _ | y
    · rw [List.map_cons, hx, List.reduceOption_cons_of_none, ih,
        List.filter_cons_of_neg (by simp [hx])]
    · rw [List.map_cons, hx, List.reduceOption_cons_of_some, List.map_cons, ih,
        List.filter_cons_of_pos (by simp [hx]), List.map_cons, hx, Option.map_some,
        Option.getD_some]

variable {cs : List (Call K)}

/-- The difference a match records is that of the two observations of its key. -/
theorem delta_of_met (hcs : NoRepeat cs) (hts : ∀ c ∈ cs, c.ts.monoNs.toNat < 2 ^ 63)
    {x : Arrival K EndpointRole MatchPending × Outcome MatchPending}
    (hx : x ∈ Rendezvous.trace Rendezvous.empty (cs.map Call.arrival)) {r : MatchResult}
    (hr : arrivalResult B x = some r) :
    r.delta.toInt = joinDelta cs x.1.key ∧ r.deltaMs = B.toMs (joinDelta cs x.1.key) := by
  obtain ⟨a, out⟩ := x
  rcases out with _ | old | other
  · cases hr
  · cases hr
  · obtain ⟨ha, s, hs, hother⟩ := Rendezvous.exists_of_meets hx
    obtain ⟨c, hc, rfl⟩ := List.mem_map.mp ha
    have hmem := hother.resolve_left (by simp)
    obtain ⟨d, hd, hdarr⟩ := List.mem_map.mp hmem
    have hde : d.endpoint = s := congrArg Arrival.side hdarr
    have hdk : d.key = c.key := congrArg Arrival.key hdarr
    have hdts : other.ts = d.ts := congrArg MatchPending.ts (congrArg Arrival.val hdarr).symm
    have hdc : d.endpoint = c.endpoint.other :=
      EndpointRole.eq_other_of_ne (by rw [hde]; exact hs)
    have hrc := hcs.readingAt hc
    have hrd := hcs.readingAt hd
    have hr' : r = matchResult B c.endpoint c.ts d.ts := by
      rw [← hdts]
      exact (Option.some.inj hr).symm
    have hdelta : r.delta.toInt = joinDelta cs c.key := by
      rw [hdk, hdc] at hrd
      rw [hr', joinDelta]
      rcases hce : c.endpoint with _ | _ <;> rw [hce] at hrc hrd
      · show (deltaNs d.ts c.ts).toInt = _
        rw [toInt_deltaNs, clampNs_of_lt (hts c hc), clampNs_of_lt (hts d hd), hrc]
        exact congrArg (· - _) hrd.symm
      · show (deltaNs c.ts d.ts).toInt = _
        rw [toInt_deltaNs, clampNs_of_lt (hts c hc), clampNs_of_lt (hts d hd), hrc]
        exact congrArg (_ - ·) hrd.symm
    refine ⟨hdelta, ?_⟩
    show r.deltaMs = B.toMs (joinDelta cs c.key)
    rw [← hdelta, hr', deltaMs_matchResult]

/-- No entry is replaced when no endpoint observes a key twice. -/
theorem not_replaced (hcs : NoRepeat cs) :
    ∀ x ∈ Rendezvous.trace Rendezvous.empty (cs.map Call.arrival), isReplaced x.2 = false := by
  intro x hx
  have hloc := Rendezvous.trace_filter (P := Rendezvous.empty) (Q := Rendezvous.empty)
    (p := fun k => k = x.1.key) (fun _ _ => rfl) (cs.map Call.arrival)
  have hx' : x ∈ Rendezvous.trace Rendezvous.empty
      ((cs.map Call.arrival).filter fun a => decide (a.key = x.1.key)) := by
    rw [← hloc, List.mem_filter]
    exact ⟨hx, by simp⟩
  -- at one key there are at most two arrivals, and they come from different endpoints
  rcases hcs.once.at_key x.1.key with hL | ⟨a, hL⟩ | ⟨a, b, hab, hL⟩
  · rw [hL] at hx'
    cases hx'
  · rw [hL, Rendezvous.trace_cons, Rendezvous.trace_nil, List.mem_singleton] at hx'
    rw [hx']
    rfl
  · have hkeys : ∀ c ∈ [a, b], c.key = x.1.key := by
      intro c hc
      rw [← hL, List.mem_filter, decide_eq_true_eq] at hc
      exact hc.2
    have hbk : b.key = a.key := (hkeys b (by simp)).trans (hkeys a (by simp)).symm
    rw [hL, Rendezvous.trace_cons, Rendezvous.trace_cons, Rendezvous.trace_nil,
      List.mem_pair] at hx'
    rcases hx' with hx' | hx'
    · rw [hx']
      rfl
    · rw [hx', Rendezvous.step_snd, hbk, Rendezvous.step_fst_self, Rendezvous.empty_apply,
        Rendezvous.arrive_none, Rendezvous.arrive_other hab]
      rfl

variable {window : UInt64} {slotOf : K → UInt64}

/-- **What a run reports is a join.**  A quantity of the matches that depends on their difference
only is that quantity of the join. -/
theorem coe_map_results (hcs : NoRepeat cs) {rs : List (Option MatchResult)}
    (hrs : rs = (Rendezvous.trace Rendezvous.empty (cs.map Call.arrival)).map (arrivalResult B))
    {γ : Type} (g : MatchResult → γ) (G : ℤ → γ)
    (hg : ∀ x ∈ Rendezvous.trace Rendezvous.empty (cs.map Call.arrival), ∀ r,
      arrivalResult B x = some r → g r = G (joinDelta cs x.1.key)) :
    ((rs.reduceOption.map g : List γ) : Multiset γ) =
      (joined cs).val.map fun k => G (joinDelta cs k) := by
  rw [hrs, map_reduceOption_map _ g (G 0), ← sharedKeys_map_arrival]
  simp only [arrivalResult_isSome]
  refine hcs.once.map_met fun x hx hmet => ?_
  rw [← arrivalResult_isSome (B := B), Option.isSome_iff_exists] at hmet
  obtain ⟨r, hr⟩ := hmet
  rw [hr, Option.map_some, Option.getD_some]
  exact hg x hx r hr

/-- A count of the differences is a count over the join. -/
theorem countP_of_deltas {rs : List (Option MatchResult)}
    (h : ((rs.reduceOption.map fun r => r.delta.toInt : List ℤ) : Multiset ℤ) =
      (joined cs).val.map (joinDelta cs)) (p : ℤ → Bool) :
    (rs.reduceOption.countP fun r => p r.delta.toInt) =
      ((joined cs).filter fun k => p (joinDelta cs k)).card := by
  have hcount := congrArg (Multiset.countP (fun d => p d = true)) h
  rw [Multiset.coe_countP, List.countP_map, Multiset.countP_map] at hcount
  rw [Finset.card_def, Finset.filter_val]
  simpa [Function.comp_def] using hcount

theorem card_joined_add_soleBy (cs : List (Call K)) (e : EndpointRole) :
    (joined cs).card + (soleBy e cs).card = (seenBy e cs).card := by
  have hj : joined cs = seenBy e cs ∩ seenBy e.other cs := by
    cases e
    · rfl
    · exact Finset.inter_comm _ _
  rw [hj, soleBy, Finset.card_inter_add_card_sdiff]

/-- The books of a run without repetition: nothing is replaced. -/
theorem balance_run (hcs : NoRepeat cs) (hslot : ∀ c ∈ cs, c.slot = slotOf c.key)
    (hwin : InWindow window 0 cs) (e : EndpointRole) :
    ((new B K (.slotWindow window)).run cs).2.balance e = (seenBy e cs).card := by
  have htrace := ((tracks_new slotOf window (B := B)).run batched hslot hwin).1
  have hpolicy : (new B K (.slotWindow window)).eviction = .slotWindow window := rfl
  have hbal := balance_runWith batched _ cs hpolicy e
  have hrep : (((new B K (.slotWindow window)).traceWith batched cs).countP fun x =>
      decide (x.1.side = e) && isReplaced x.2) = 0 := by
    rw [List.countP_eq_zero]
    intro x hx
    rw [htrace] at hx
    rw [not_replaced hcs x hx, Bool.and_false]
    simp
  have hzero : (new B K (.slotWindow window)).balance e = 0 := by
    rw [balance, pending_new]
    cases e <;> rfl
  rw [hrep, hzero, ← hcs.card_seenBy e, add_zero, zero_add] at hbal
  exact hbal

/-- **Every run is the join of its observations.** -/
theorem isJoin_of_run (hcs : NoRepeat cs) (hslot : ∀ c ∈ cs, c.slot = slotOf c.key)
    (hwin : InWindow window 0 cs) (hts : ∀ c ∈ cs, c.ts.monoNs.toNat < 2 ^ 63) :
    IsJoin cs ((new B K (.slotWindow window)).run cs).1
      ((new B K (.slotWindow window)).run cs).2 := by
  set m := new B K (.slotWindow window) with hm
  obtain ⟨htrace, htracks⟩ := (tracks_new slotOf window (B := B)).run batched hslot hwin
  have hres : (m.run cs).1 =
      (Rendezvous.trace Rendezvous.empty (cs.map Call.arrival)).map (arrivalResult B) := by
    rw [run, fst_runWith, hm, htrace]
  have hdeltas := coe_map_results hcs hres (fun r => r.delta.toInt) id
    fun x hx r hr => (delta_of_met hcs hts hx hr).1
  have hsamples := coe_map_results hcs hres MatchResult.deltaMs B.toMs
    fun x hx r hr => (delta_of_met hcs hts hx hr).2
  have hmatched : (m.run cs).2.counts.matched = (joined cs).card := by
    have h1 := congrArg Multiset.card hdeltas
    rw [Multiset.coe_card, List.length_map, Multiset.card_map] at h1
    rw [run, matched_runWith, ← run, h1]
    exact Nat.zero_add _
  have hpend : ∀ e, ((m.run cs).2.pending e).keys ⊆ soleBy e cs := by
    intro e k hk
    obtain ⟨p, hp⟩ := Finmap.mem_iff.mp (Finmap.mem_keys.mp hk)
    obtain ⟨hin, hout⟩ := hcs.once.final_eq_some_iff.mp (htracks.lookup hp)
    rw [soleBy, Finset.mem_sdiff, ← keysOf_map_arrival, ← keysOf_map_arrival]
    exact ⟨Rendezvous.mem_keysOf.mpr ⟨_, hin, rfl, rfl⟩, hout _ e.other_ne⟩
  refine ⟨hmatched, hdeltas, ?_, ?_, ?_, hpend, fun e => ?_⟩
  · rw [run, samples_runWith, ← run, hsamples, hm, samples_new, add_zero]
  · have h1 := countP_of_deltas hdeltas fun d => decide (0 < d)
    rw [run, ep1Faster_runWith, ← run, h1]
    simp [hm, new]
  · have h1 := countP_of_deltas hdeltas fun d => decide (d < 0)
    rw [run, ep2Faster_runWith, ← run, h1]
    simp [hm, new]
  · -- the books: what the endpoint saw is shared, pending or evicted
    have hbal : (m.run cs).2.balance e = (seenBy e cs).card := balance_run hcs hslot hwin e
    have hsplit := card_joined_add_soleBy cs e
    rw [balance, hmatched] at hbal
    rw [Finset.card_sdiff_of_subset (hpend e)]
    show _ = _ - ((m.run cs).2.pending e).size
    omega

/-- A run's ideal board depends on the observations only, not on their interleaving. -/
theorem final_congr (hcs : NoRepeat cs) {cs' : List (Call K)}
    (h : ∀ e : EndpointRole, cs'.filter (fun c => c.endpoint = e) =
      cs.filter fun c => c.endpoint = e) :
    Rendezvous.final Rendezvous.empty (cs'.map Call.arrival) =
      Rendezvous.final Rendezvous.empty (cs.map Call.arrival) := by
  funext k
  refine Option.ext fun x => ?_
  obtain ⟨s, p⟩ := x
  have hperm := (perm_of_filter_eq h).map Call.arrival
  rw [← Option.mem_def, ← Option.mem_def, Option.mem_def, Option.mem_def,
    (hcs.congr h).once.final_eq_some_iff, hcs.once.final_eq_some_iff, hperm.mem_iff]
  simp only [keysOf_map_arrival, seenBy_congr h]

/-- **Reference join.**  A run of `observe` in which no endpoint observes a key twice, inside the
eviction window, computes the relational join of the two endpoints' observations; every interleaving
of the same observations computes the same counters and samples, and after a final pass the same
pending maps and evicted counts. -/
theorem isJoin_run (slotOf : K → UInt64) (hcs : NoRepeat cs)
    (hslot : ∀ c ∈ cs, c.slot = slotOf c.key) (hwin : InWindow window 0 cs)
    (hts : ∀ c ∈ cs, c.ts.monoNs.toNat < 2 ^ 63) :
    IsJoin cs ((new B K (.slotWindow window)).run cs).1
      ((new B K (.slotWindow window)).run cs).2 ∧
    ∀ cs' : List (Call K),
      (∀ e : EndpointRole, cs'.filter (fun c => c.endpoint = e) =
        cs.filter fun c => c.endpoint = e) →
      InWindow window 0 cs' →
      let m := ((new B K (.slotWindow window)).run cs).2
      let m' := ((new B K (.slotWindow window)).run cs').2
      m'.counts.matched = m.counts.matched ∧ m'.counts.ep1Faster = m.counts.ep1Faster ∧
        m'.counts.ep2Faster = m.counts.ep2Faster ∧ m'.samples = m.samples ∧
        (∀ e, (m'.pending e).size + m'.counts.unmatchedEvicted e =
          (m.pending e).size + m.counts.unmatchedEvicted e) ∧
        (∀ e, m'.evict.pending e = m.evict.pending e) ∧
        ∀ e, m'.evict.counts.unmatchedEvicted e = m.evict.counts.unmatchedEvicted e := by
  have hjoin := isJoin_of_run (B := B) hcs hslot hwin hts
  refine ⟨hjoin, fun cs' h hwin' => ?_⟩
  have hperm := perm_of_filter_eq h
  have hslot' : ∀ c ∈ cs', c.slot = slotOf c.key := fun c hc => hslot c (hperm.mem_iff.mp hc)
  have hjoin' := isJoin_of_run (B := B) (hcs.congr h) hslot' hwin'
    fun c hc => hts c (hperm.mem_iff.mp hc)
  intro m m'
  have htracks : m.Tracks slotOf window _ := ((tracks_new slotOf window).run batched hslot hwin).2
  have htracks' : m'.Tracks slotOf window _ :=
    ((tracks_new slotOf window).run batched hslot' hwin').2
  have hwater : m'.highWaterSlot = m.highWaterSlot := by
    have h1 : m'.highWaterSlot = highWaterAfter 0 cs' := highWaterSlot_runWith ..
    have h2 : m.highWaterSlot = highWaterAfter 0 cs := highWaterSlot_runWith ..
    rw [h1, h2, highWaterAfter_perm hperm]
  have hmatched : m'.counts.matched = m.counts.matched := by
    rw [hjoin'.matched, hjoin.matched, joined_congr h]
  have hsum : ∀ e, (m'.pending e).size + m'.counts.unmatchedEvicted e =
      (m.pending e).size + m.counts.unmatchedEvicted e := by
    intro e
    rw [hjoin'.pending_add_evicted e, hjoin.pending_add_evicted e, soleBy, soleBy,
      seenBy_congr h, seenBy_congr h]
  have hpend : ∀ e, m'.evict.pending e = m.evict.pending e := by
    have hev := htracks'.evict
    rw [hwater, final_congr hcs h] at hev
    exact hev.pending_eq htracks.evict
  refine ⟨hmatched, ?_, ?_, ?_, hsum, hpend, fun e => ?_⟩
  · rw [hjoin'.ep1Faster, hjoin.ep1Faster, joined_congr h, joinDelta_congr h]
  · rw [hjoin'.ep2Faster, hjoin.ep2Faster, joined_congr h, joinDelta_congr h]
  · rw [hjoin'.samples, hjoin.samples, joined_congr h, joinDelta_congr h]
  · have hb := balance_evict m htracks.policy e
    have hb' := balance_evict m' htracks'.policy e
    have hs := hsum e
    simp only [balance, matched_evict, hpend e] at hb hb'
    omega

/-- Slot 7 seen on both endpoints five milliseconds apart, and slot 8 on one of them. -/
theorem isJoin_run_five_ms :
    let cs : List (Call UInt64) := [⟨.one, 7, ⟨1000000, 1⟩, 7⟩, ⟨.two, 7, ⟨6000000, 6⟩, 7⟩,
      ⟨.one, 8, ⟨7000000, 7⟩, 8⟩]
    ((new Backend.exact UInt64 (.slotWindow 64)).run cs).2.counts.matched = 1 ∧
      ((new Backend.exact UInt64 (.slotWindow 64)).run cs).2.samples =
        {Backend.exact.toMs 5000000} := by
  intro cs
  have h : IsJoin cs ((new Backend.exact UInt64 (.slotWindow 64)).run cs).1
      ((new Backend.exact UInt64 (.slotWindow 64)).run cs).2 :=
    (isJoin_run id (by decide) (by decide) (by decide) (by decide)).1
  have hjoined : joined cs = {7} := by decide
  refine ⟨?_, ?_⟩
  · rw [h.matched, hjoined, Finset.card_singleton]
  · have hdelta : joinDelta cs 7 = 5000000 := by decide
    rw [h.samples, hjoined, Finset.singleton_val, Multiset.map_singleton, hdelta]

end PairMatcher

end GrpcBench
