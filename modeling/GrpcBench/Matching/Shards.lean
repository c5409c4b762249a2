import GrpcBench.Library.Folds
import GrpcBench.Matching.Accounts
import GrpcBench.Matching.Runs

/-!
# Runs of the account matcher

A run of the account matcher is one run for each owner: the shard of an owner has seen the updates
of that owner, in their order, and nothing else.

* `AccountUpdate`: the arguments of one `AccountMatcher::observe`.
* `shardOf_observeAll`: the shard of an owner after a run.
* `mem_shards_observeAll`: an owner has a shard when one of its updates has been observed.
* `PerProgramShard.main_run`: the matcher of a shard is a `PairMatcher` run.
* `Agrees`: the counters of a shard's digest are those of its matcher.
-/

namespace GrpcBench

variable {B : Backend}

/-- The arguments of one `AccountMatcher::observe`. -/
structure AccountUpdate where
  endpoint : EndpointRole
  slot : UInt64
  pubkey : Pubkey32
  writeVersion : UInt64
  txnSignature : Option Signature64
  owner : Pubkey32
  ts : EventTimestamp
  deriving DecidableEq

namespace AccountUpdate

/-- The identity key of an update. -/
def key (strict : Bool) (u : AccountUpdate) : AccountKey :=
  AccountMatcher.keyOf strict u.slot u.pubkey u.writeVersion u.txnSignature

/-- What an update asks of a pair matcher. -/
def call (strict : Bool) (u : AccountUpdate) : Call AccountKey :=
  ⟨u.endpoint, u.key strict, u.ts, u.slot⟩

@[simp] theorem key_call (strict : Bool) (u : AccountUpdate) :
    (u.call strict).key = u.key strict := rfl

end AccountUpdate

namespace PerProgramShard

/-- `observe`, applied to a call. -/
def step (shard : PerProgramShard B) (c : Call AccountKey) : PerProgramShard B :=
  shard.observe c.endpoint c.key c.ts c.slot

/-- A run of one shard. -/
def run (shard : PerProgramShard B) (cs : List (Call AccountKey)) : PerProgramShard B :=
  cs.foldl step shard

/-- A call runs the matcher, and pushes the sample of a match into the digest. -/
theorem step_eq (shard : PerProgramShard B) (c : Call AccountKey) : shard.step c =
    { main := (shard.main.stepWith batched c).2,
      digest := (shard.main.stepWith batched c).1.elim shard.digest fun r =>
        shard.digest.push r.deltaMs } := by
  rw [PairMatcher.stepWith_batched, step, observe]
  rcases shard.main.observe c.endpoint c.key c.ts c.slot with ⟨_ | r, main⟩ <;> rfl

/-- The matcher of a shard does not see the digest. -/
theorem main_run (shard : PerProgramShard B) (cs : List (Call AccountKey)) :
    (shard.run cs).main = (shard.main.run cs).2 := by
  rw [PairMatcher.run_eq_foldl]
  induction cs generalizing shard with
  | nil => rfl
  | cons c cs ih =>
    rw [List.foldl_cons, ← main_observe shard]
    exact ih (shard.step c)

/-- The digest of a shard counts what its matcher counts. -/
structure Agrees (shard : PerProgramShard B) : Prop where
  matched : shard.digest.counts.matched = shard.main.counts.matched
  ep1Faster : shard.digest.counts.ep1Faster = shard.main.counts.ep1Faster
  ep2Faster : shard.digest.counts.ep2Faster = shard.main.counts.ep2Faster
  samples : shard.digest.deltas.samples = shard.main.samples

theorem agrees_new (eviction : EvictionPolicy) : (new B eviction).Agrees :=
  ⟨rfl, rfl, rfl, rfl⟩

/-- **The digest agrees with the matcher after every call.**  The matcher compares the nanosecond
difference with zero and the digest the sample in milliseconds; the conversion keeps the sign. -/
theorem Agrees.step {shard : PerProgramShard B} (h : shard.Agrees) (c : Call AccountKey) :
    (shard.step c).Agrees := by
  have hm := PairMatcher.matched_stepWith batched shard.main c
  have h1 := PairMatcher.ep1Faster_stepWith batched shard.main c
  have h2 := PairMatcher.ep2Faster_stepWith batched shard.main c
  have hs := PairMatcher.samples_stepWith batched shard.main c
  rw [step_eq]
  rcases hr : (shard.main.stepWith batched c).1 with _ | r
  · rw [hr] at hm h1 h2 hs
    exact ⟨h.matched.trans hm.symm, h.ep1Faster.trans h1.symm, h.ep2Faster.trans h2.symm,
      h.samples.trans (hs.trans (zero_add _)).symm⟩
  · have hms := PairMatcher.deltaMs_of_stepWith hr
    rw [hr] at hm h1 h2 hs
    simp only [Option.toList_some, List.length_singleton, List.countP_singleton,
      decide_eq_true_eq, List.map_singleton, Multiset.coe_singleton] at hm h1 h2 hs
    have hpush1 := B.toMs_pos r.delta.toInt
    have hpush2 := B.toMs_neg_iff r.delta.toInt
    refine ⟨?_, ?_, ?_, ?_⟩
    · rw [hm, ← h.matched]
      simp only [Option.elim_some, ProgramDigest.push, ProgramDigest.record]
      split_ifs <;> rfl
    · rw [h1, ← h.ep1Faster, ← if_congr hpush1 rfl rfl, ← hms]
      simp only [Option.elim_some, ProgramDigest.push, ProgramDigest.record]
      split_ifs <;> rfl
    · rw [h2, ← h.ep2Faster, ← if_congr hpush2 rfl rfl, ← hms]
      simp only [Option.elim_some, ProgramDigest.push, ProgramDigest.record]
      split_ifs with hpos hneg
      · exact absurd hneg (not_lt.mpr (le_of_lt hpos))
      · rfl
      · rfl
      · rfl
    · rw [hs, ← h.samples]
      exact BufferedDigest.samples_push _ _

theorem Agrees.run {shard : PerProgramShard B} (h : shard.Agrees) (cs : List (Call AccountKey)) :
    (shard.run cs).Agrees :=
  Folds.foldl_invariant (fun _ c _ hs => hs.step c) h

end PerProgramShard

namespace AccountMatcher

/-- `observe`, applied to an update. -/
def observeUpdate (m : AccountMatcher B) (u : AccountUpdate) : AccountMatcher B :=
  m.observe u.endpoint u.slot u.pubkey u.writeVersion u.txnSignature u.owner u.ts

/-- A run of the account matcher. -/
def observeAll (m : AccountMatcher B) (us : List AccountUpdate) : AccountMatcher B :=
  us.foldl observeUpdate m

variable (m : AccountMatcher B) (us : List AccountUpdate)

/-- The configuration of the matcher does not change. -/
theorem config_observeAll : (m.observeAll us).strictAccountKey = m.strictAccountKey ∧
    (m.observeAll us).eviction = m.eviction ∧
    (m.observeAll us).programShortNames = m.programShortNames := by
  induction us generalizing m with
  | nil => exact ⟨rfl, rfl, rfl⟩
  | cons u us ih => exact ih (m.observeUpdate u)

theorem mem_shards_observeAll (owner : Pubkey32) :
    owner ∈ (m.observeAll us).shards ↔ owner ∈ m.shards ∨ ∃ u ∈ us, u.owner = owner := by
  induction us generalizing m with
  | nil => simp [observeAll]
  | cons u us ih =>
    show owner ∈ ((m.observeUpdate u).observeAll us).shards ↔ _
    rw [ih, observeUpdate, mem_shards_observe, List.exists_mem_cons_iff, or_assoc, or_left_comm,
      eq_comm]

/-- **One run for each owner.** -/
theorem shardOf_observeAll (owner : Pubkey32) : (m.observeAll us).shardOf owner =
    (m.shardOf owner).run
      ((us.filter fun u => u.owner = owner).map (AccountUpdate.call m.strictAccountKey)) := by
  induction us generalizing m with
  | nil => rfl
  | cons u us ih =>
    show ((m.observeUpdate u).observeAll us).shardOf owner = _
    rw [ih, observeUpdate, strictAccountKey_observe, shardOf_observe]
    by_cases h : u.owner = owner
    · rw [if_pos h, List.filter_cons_of_pos (by simpa using h), List.map_cons]
      rfl
    · rw [if_neg h, List.filter_cons_of_neg (by simpa using h)]

theorem shardOf_new (eviction : EvictionPolicy) (names : Finmap fun _ : Pubkey32 => String)
    (owner : Pubkey32) : (new B eviction names).shardOf owner = PerProgramShard.new B eviction := by
  rw [shardOf, new, Finmap.lookup_empty, Option.getD_none]

/-- A shard whose digest agrees with its matcher keeps it so over a run. -/
theorem agrees_observeAll {owner : Pubkey32} (h : (m.shardOf owner).Agrees) :
    ((m.observeAll us).shardOf owner).Agrees := by
  rw [shardOf_observeAll]
  exact h.run _

theorem agrees_shardOf_new (eviction : EvictionPolicy) (names : Finmap fun _ : Pubkey32 => String)
    (owner : Pubkey32) : ((new B eviction names).shardOf owner).Agrees := by
  rw [shardOf_new]
  exact PerProgramShard.agrees_new eviction

/-- Runs with the same updates of every owner end in the same state. -/
theorem observeAll_congr {us us' : List AccountUpdate}
    (h : ∀ owner, us.filter (fun u => u.owner = owner) = us'.filter fun u => u.owner = owner) :
    m.observeAll us = m.observeAll us' := by
  have hmem : ∀ owner, owner ∈ (m.observeAll us).shards ↔ owner ∈ (m.observeAll us').shards := by
    intro owner
    have hex : ∀ l : List AccountUpdate, (∃ u ∈ l, u.owner = owner) ↔
        l.filter (fun u => u.owner = owner) ≠ [] := by
      intro l
      rw [Ne, List.filter_eq_nil_iff]
      simp
    rw [mem_shards_observeAll, mem_shards_observeAll, hex, hex, h]
  have hshards : (m.observeAll us).shards = (m.observeAll us').shards := by
    refine Finmap.ext_lookup fun owner => ?_
    by_cases hin : owner ∈ (m.observeAll us).shards
    · rw [lookup_shards _ hin, lookup_shards _ ((hmem owner).mp hin), shardOf_observeAll,
        shardOf_observeAll, h]
    · rw [Finmap.lookup_eq_none.mpr hin,
        Finmap.lookup_eq_none.mpr fun hin' => hin ((hmem owner).mpr hin')]
  have hc := m.config_observeAll us
  have hc' := m.config_observeAll us'
  rcases h1 : m.observeAll us with ⟨shards, names, eviction, strict⟩
  rcases h2 : m.observeAll us' with ⟨shards', names', eviction', strict'⟩
  rw [h1] at hc hshards
  rw [h2] at hc' hshards
  obtain ⟨rfl, rfl, rfl⟩ := hc
  obtain ⟨rfl, rfl, rfl⟩ := hc'
  dsimp only at hshards
  rw [hshards]

end AccountMatcher

end GrpcBench
