import GrpcBench.Matching.Shards
import GrpcBench.Matching.Window
import Mathlib.Algebra.Group.Action.Defs

/-!
# Sharding by program does not change the result

Every shard has a high-water slot, an observation counter and eviction passes of its own, so shards
drop different entries than a single matcher would, and at different moments.  Inside the window
none of that can be seen: the single matcher and every shard track an ideal board, and the board is
local, so the trace of a shard is the part of the single trace that belongs to its owner.

* `tally`: an additive quantity of the matches of a run.
* `traceWith_shard`: the trace of a shard is a part of the single trace.
* `summary_eq_unsharded`: the totals of `summary` are those of one unsharded matcher.
-/

namespace GrpcBench

open Rendezvous (Arrival Outcome)

/-! ## Quantities of a run -/

section Tally

variable {B : Backend} {K : Type} [DecidableEq K] {M : Type*} [AddCommMonoid M]

/-- The sum of a quantity over the matches of a trace. -/
def tally (B : Backend) (g : MatchResult → M)
    (t : List (Arrival K EndpointRole MatchPending × Outcome MatchPending)) : M :=
  (t.map fun x => ((arrivalResult B x).map g).getD 0).sum

omit [DecidableEq K] in
theorem sum_reduceOption (g : MatchResult → M)
    (t : List (Arrival K EndpointRole MatchPending × Outcome MatchPending)) :
    ((t.map (arrivalResult B)).reduceOption.map g).sum = tally B g t := by
  induction t with
  | nil => rfl
  | cons x t ih =>
    rcases hx : arrivalResult B x with _ | r
    · rw [List.map_cons, hx, List.reduceOption_cons_of_none, ih, tally, tally, List.map_cons, hx,
        List.sum_cons, Option.map_none, Option.getD_none, zero_add]
    · rw [List.map_cons, hx, List.reduceOption_cons_of_some, List.map_cons, List.sum_cons, ih,
        tally, tally, List.map_cons, hx, List.sum_cons, Option.map_some, Option.getD_some]

variable (m : PairMatcher B K) (cs : List (Call K))

theorem matched_eq_tally : (m.run cs).2.counts.matched =
    m.counts.matched + tally B (fun _ => 1) (m.traceWith batched cs) := by
  rw [PairMatcher.run, PairMatcher.matched_runWith, PairMatcher.fst_runWith, ← sum_reduceOption,
    List.map_const', List.sum_replicate, smul_eq_mul, mul_one]

theorem countP_eq_sum {α : Type*} (p : α → Prop) [DecidablePred p] (l : List α) :
    (l.countP fun x => p x) = (l.map fun x => if p x then 1 else 0).sum := by
  induction l with
  | nil => rfl
  | cons x l ih => rw [List.countP_cons, ih, List.map_cons, List.sum_cons, add_comm]; simp

theorem ep1Faster_eq_tally : (m.run cs).2.counts.ep1Faster = m.counts.ep1Faster +
    tally B (fun r => if 0 < r.delta.toInt then 1 else 0) (m.traceWith batched cs) := by
  rw [PairMatcher.run, PairMatcher.ep1Faster_runWith, PairMatcher.fst_runWith, ← sum_reduceOption,
    countP_eq_sum]

theorem ep2Faster_eq_tally : (m.run cs).2.counts.ep2Faster = m.counts.ep2Faster +
    tally B (fun r => if r.delta.toInt < 0 then 1 else 0) (m.traceWith batched cs) := by
  rw [PairMatcher.run, PairMatcher.ep2Faster_runWith, PairMatcher.fst_runWith, ← sum_reduceOption,
    countP_eq_sum]

theorem samples_eq_tally : (m.run cs).2.samples =
    tally B (fun r => ({r.deltaMs} : Multiset ℚ)) (m.traceWith batched cs) + m.samples := by
  have hsum : ∀ l : List MatchResult, ((l.map MatchResult.deltaMs : List ℚ) : Multiset ℚ) =
      (l.map fun r => ({r.deltaMs} : Multiset ℚ)).sum := by
    intro l
    induction l with
    | nil => rfl
    | cons r l ih => rw [List.map_cons, List.map_cons, List.sum_cons, ← ih, ← Multiset.cons_coe,
        Multiset.singleton_add]
  rw [PairMatcher.run, PairMatcher.samples_runWith, PairMatcher.fst_runWith, ← sum_reduceOption,
    hsum]

end Tally

/-! ## Traces of shards -/

variable {B : Backend}

/-- The updates of one owner are the calls whose key belongs to that owner. -/
theorem filter_owner {strict : Bool} {ownerOf : AccountKey → Pubkey32} {us : List AccountUpdate}
    (howner : ∀ u ∈ us, u.owner = ownerOf (u.key strict)) (owner : Pubkey32) :
    ((us.filter fun u => u.owner = owner).map (AccountUpdate.call strict)) =
      (us.map (AccountUpdate.call strict)).filter fun c => ownerOf c.key = owner := by
  rw [List.filter_map]
  refine congrArg _ (List.filter_congr fun u hu => ?_)
  rw [howner u hu]
  rfl

/-- **The trace of a shard** is the part of the single trace at the keys of its owner. -/
theorem traceWith_shard {window : UInt64} {ownerOf : AccountKey → Pubkey32}
    {cs : List (Call AccountKey)} (hslot : ∀ c ∈ cs, c.slot = c.key.1)
    (hwin : InWindow window 0 cs) (owner : Pubkey32) :
    (PairMatcher.new B AccountKey (.slotWindow window)).traceWith batched
        (cs.filter fun c => ownerOf c.key = owner) =
      ((PairMatcher.new B AccountKey (.slotWindow window)).traceWith batched cs).filter fun x =>
        ownerOf x.1.key = owner := by
  have hall := ((PairMatcher.tracks_new Prod.fst window (B := B)).run batched hslot hwin).1
  have hpart := ((PairMatcher.tracks_new Prod.fst window (B := B)).run batched
    (fun c hc => hslot c (List.mem_of_mem_filter hc))
    (hwin.filter (le_refl _) fun c => decide (ownerOf c.key = owner))).1
  rw [hpart, hall, Rendezvous.trace_filter (P := Rendezvous.empty) (Q := Rendezvous.empty)
    (p := fun k => ownerOf k = owner) fun _ _ => rfl, List.filter_map]
  rfl

/-- The sum of a quantity over the matches of all shards is its sum over the matches of one
unsharded matcher. -/
theorem sum_tally_shards {M : Type*} [AddCommMonoid M] {window : UInt64}
    {ownerOf : AccountKey → Pubkey32} {cs : List (Call AccountKey)}
    (hslot : ∀ c ∈ cs, c.slot = c.key.1) (hwin : InWindow window 0 cs) (g : MatchResult → M)
    {owners : Finset Pubkey32} (howners : ∀ c ∈ cs, ownerOf c.key ∈ owners) :
    ∑ owner ∈ owners, tally B g
        ((PairMatcher.new B AccountKey (.slotWindow window)).traceWith batched
          (cs.filter fun c => ownerOf c.key = owner)) =
      tally B g ((PairMatcher.new B AccountKey (.slotWindow window)).traceWith batched cs) := by
  rw [Finset.sum_congr rfl fun owner _ =>
    congrArg (tally B g) (traceWith_shard hslot hwin owner)]
  refine Finmap.sum_fibers _ (fun x : Arrival AccountKey EndpointRole MatchPending ×
    Outcome MatchPending => ownerOf x.1.key) owners _ fun x hx => ?_
  have hx1 := List.mem_map_of_mem (f := Prod.fst) hx
  rw [PairMatcher.map_fst_traceWith, List.mem_map] at hx1
  obtain ⟨c, hc, hcx⟩ := hx1
  rw [← hcx]
  exact howners c hc

namespace AccountMatcher

variable {window : UInt64} (names : Finmap fun _ : Pubkey32 => String) (strict : Bool)

/-- An account matcher as a run starts it. -/
def start (B : Backend) (eviction : EvictionPolicy) (names : Finmap fun _ : Pubkey32 => String)
    (strict : Bool) : AccountMatcher B :=
  (new B eviction names).withStrictAccountKey strict

/-- The matcher of an owner's shard, after a run from the start. -/
theorem main_shardOf_start (eviction : EvictionPolicy) (us : List AccountUpdate)
    (owner : Pubkey32) : (((start B eviction names strict).observeAll us).shardOf owner).main =
      ((PairMatcher.new B AccountKey eviction).run
        ((us.filter fun u => u.owner = owner).map (AccountUpdate.call strict))).2 := by
  have hstart : (start B eviction names strict).shardOf owner = PerProgramShard.new B eviction :=
    shardOf_new eviction names owner
  rw [shardOf_observeAll, PerProgramShard.main_run, hstart]
  rfl

theorem keys_start (eviction : EvictionPolicy) (us : List AccountUpdate) (owner : Pubkey32) :
    owner ∈ ((start B eviction names strict).observeAll us).shards.keys ↔
      ∃ u ∈ us, u.owner = owner := by
  rw [Finmap.mem_keys, mem_shards_observeAll]
  exact or_iff_right (Finmap.notMem_empty)

/-- A quantity of the matches of a matcher, summed over all shards, is that quantity of one
unsharded matcher. -/
theorem total_eq_unsharded {M : Type*} [AddCommMonoid M] {ownerOf : AccountKey → Pubkey32}
    {us : List AccountUpdate} (howner : ∀ u ∈ us, u.owner = ownerOf (u.key strict))
    (hwin : InWindow window 0 (us.map (AccountUpdate.call strict)))
    {q : PairMatcher B AccountKey → M} {g : MatchResult → M}
    (hq : ∀ cs, q ((PairMatcher.new B AccountKey (.slotWindow window)).run cs).2 =
      tally B g ((PairMatcher.new B AccountKey (.slotWindow window)).traceWith batched cs)) :
    Finmap.total (fun shard => q shard.main)
        ((start B (.slotWindow window) names strict).observeAll us).shards =
      q ((PairMatcher.new B AccountKey (.slotWindow window)).run
        (us.map (AccountUpdate.call strict))).2 := by
  have hslot : ∀ c ∈ us.map (AccountUpdate.call strict), c.slot = c.key.1 := by
    intro c hc
    obtain ⟨u, -, rfl⟩ := List.mem_map.mp hc
    rfl
  have howners : ∀ c ∈ us.map (AccountUpdate.call strict), ownerOf c.key ∈
      ((start B (.slotWindow window) names strict).observeAll us).shards.keys := by
    intro c hc
    obtain ⟨u, hu, rfl⟩ := List.mem_map.mp hc
    exact (keys_start names strict _ us _).mpr ⟨u, hu, howner u hu⟩
  rw [total_shards, hq, ← sum_tally_shards hslot hwin g howners]
  refine Finset.sum_congr rfl fun owner _ => ?_
  rw [main_shardOf_start, filter_owner howner, hq]

/-- **Sharding does not change the result.**  If the owner is determined by the identity key and
every update is inside the window of the highest slot over all owners, then the totals of `summary`
and the samples of all shards are those of one unsharded matcher, in both key modes and for every
order in which the shards are visited. -/
theorem summary_eq_unsharded (ownerOf : AccountKey → Pubkey32) (us : List AccountUpdate)
    (howner : ∀ u ∈ us, u.owner = ownerOf (u.key strict))
    (hwin : InWindow window 0 (us.map (AccountUpdate.call strict))) :
    let m := (start B (.slotWindow window) names strict).observeAll us
    let p := ((PairMatcher.new B AccountKey (.slotWindow window)).run
      (us.map (AccountUpdate.call strict))).2
    (∀ order, (m.summary order).1.matched = p.counts.matched ∧
      (m.summary order).1.ep1Faster = p.counts.ep1Faster ∧
      (m.summary order).1.ep2Faster = p.counts.ep2Faster) ∧
      Finmap.total (fun shard => shard.main.samples) m.shards = p.samples := by
  intro m p
  refine ⟨fun order => ⟨?_, ?_, ?_⟩, ?_⟩
  · rw [summary_matched]
    exact total_eq_unsharded (q := fun n => n.counts.matched) names strict howner hwin fun cs =>
      (matched_eq_tally _ cs).trans (Nat.zero_add _)
  · rw [summary_ep1Faster]
    exact total_eq_unsharded (q := fun n => n.counts.ep1Faster) names strict howner hwin fun cs =>
      (ep1Faster_eq_tally _ cs).trans (Nat.zero_add _)
  · rw [summary_ep2Faster]
    exact total_eq_unsharded (q := fun n => n.counts.ep2Faster) names strict howner hwin fun cs =>
      (ep2Faster_eq_tally _ cs).trans (Nat.zero_add _)
  · exact total_eq_unsharded (q := PairMatcher.samples) names strict howner hwin fun cs =>
      (samples_eq_tally _ cs).trans (by rw [PairMatcher.samples_new, add_zero])

/-- Two owners, one update of each on both endpoints: the shards together match twice. -/
theorem summary_eq_unsharded_two_owners :
    let owner := fun n : UInt8 => (Vector.replicate 32 n : Pubkey32)
    let update := fun (e : EndpointRole) (n : UInt8) (ns : UInt64) =>
      (⟨e, 9, owner n, 0, none, owner n, ⟨ns, 0⟩⟩ : AccountUpdate)
    let us := [update .one 1 100, update .two 2 150, update .two 1 300, update .one 2 400]
    let m := (start Backend.exact (.slotWindow 64) ∅ false).observeAll us
    Finmap.total (fun shard => shard.main.samples) m.shards =
      ((PairMatcher.new Backend.exact AccountKey (.slotWindow 64)).run
        (us.map (AccountUpdate.call false))).2.samples := by
  intro owner update us m
  exact (summary_eq_unsharded ∅ false (fun key => key.2.1) us (by decide) (by decide)).2

end AccountMatcher

end GrpcBench
