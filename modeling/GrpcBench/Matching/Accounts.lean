import GrpcBench.Matching.PairMatcher

/-!
# Account matching

`matching/accounts.rs`.  Account updates are routed to one shard per owner program.  A shard has a
pair matcher of its own and a digest of its own; the overall summary is computed from the matchers
and the per-program summary from the digests.

The concurrent map is a finite map, and an iteration over it takes the order of the visit as an
argument (`Finmap.Enumeration`): every statement about a summary is for every order.
-/

namespace GrpcBench

variable {B : Backend}

/-- `(slot, pubkey, txn_signature, write_version_opt)`. -/
abbrev AccountKey := UInt64 × Pubkey32 × Option Signature64 × Option UInt64

/-- `PairMatcher<K>::counts`, added up over shards. -/
def MatchCounts.add (c d : MatchCounts) : MatchCounts where
  matched := c.matched + d.matched
  ep1Faster := c.ep1Faster + d.ep1Faster
  ep2Faster := c.ep2Faster + d.ep2Faster
  ep1UnmatchedEvicted := c.ep1UnmatchedEvicted + d.ep1UnmatchedEvicted
  ep2UnmatchedEvicted := c.ep2UnmatchedEvicted + d.ep2UnmatchedEvicted

/-! ## Program digests -/

/-- Per-program digest buffer. -/
structure ProgramDigest (B : Backend) where
  deltas : BufferedDigest B
  counts : MatchCounts

namespace ProgramDigest

/-- `ProgramDigest::new`. -/
def new (B : Backend) : ProgramDigest B where
  deltas := BufferedDigest.new B
  counts := {}

/-- The counters after a push: the sign is read off the sample in milliseconds. -/
def record (c : MatchCounts) (deltaMs : ℚ) : MatchCounts :=
  let c := { c with matched := c.matched + 1 }
  if 0 < deltaMs then { c with ep1Faster := c.ep1Faster + 1 }
  else if deltaMs < 0 then { c with ep2Faster := c.ep2Faster + 1 }
  else c

/-- `ProgramDigest::push`. -/
def push (d : ProgramDigest B) (deltaMs : ℚ) : ProgramDigest B where
  deltas := d.deltas.push deltaMs
  counts := record d.counts deltaMs

/-- `ProgramDigest::flush`. -/
def flush (d : ProgramDigest B) : ProgramDigest B :=
  { d with deltas := d.deltas.flush }

/-- `ProgramDigest::quantile`. -/
def quantile (d : ProgramDigest B) (q : ℚ) : Option ℚ × ProgramDigest B :=
  let r := d.deltas.quantile q
  (r.1, { d with deltas := r.2 })

/-- `ProgramDigest::summary`. -/
def summary (d : ProgramDigest B) : LatencyDigestSummary × ProgramDigest B :=
  let counts := d.counts
  let (p50, d) := d.quantile 0.50
  let (p90, d) := d.quantile 0.90
  let (p99, d) := d.quantile 0.99
  let (p999, d) := d.quantile 0.999
  ({ p50, p90, p99, p999,
     matched := counts.matched, ep1Faster := counts.ep1Faster, ep2Faster := counts.ep2Faster }, d)

@[simp] theorem snd_quantile (d : ProgramDigest B) (q : ℚ) : (d.quantile q).2 = d.flush := by
  rw [quantile, flush, BufferedDigest.snd_quantile]

@[simp] theorem flush_flush (d : ProgramDigest B) : d.flush.flush = d.flush := by
  simp [flush]

/-- A summary flushes the digest and reads its counters. -/
theorem snd_summary (d : ProgramDigest B) : d.summary.2 = d.flush := by
  simp [summary]

@[simp] theorem summary_matched (d : ProgramDigest B) : d.summary.1.matched = d.counts.matched :=
  rfl

@[simp] theorem summary_ep1Faster (d : ProgramDigest B) :
    d.summary.1.ep1Faster = d.counts.ep1Faster := rfl

@[simp] theorem summary_ep2Faster (d : ProgramDigest B) :
    d.summary.1.ep2Faster = d.counts.ep2Faster := rfl

end ProgramDigest

/-! ## Shards -/

/-- Per-program shard: the matcher of its updates and the digest of its matches. -/
structure PerProgramShard (B : Backend) where
  main : PairMatcher B AccountKey
  digest : ProgramDigest B

namespace PerProgramShard

/-- `PerProgramShard::new`. -/
def new (B : Backend) (eviction : EvictionPolicy) : PerProgramShard B where
  main := PairMatcher.new B AccountKey eviction
  digest := ProgramDigest.new B

/-- The part of `AccountMatcher::observe` that runs under the lock of one shard. -/
def observe (shard : PerProgramShard B) (endpoint : EndpointRole) (key : AccountKey)
    (ts : EventTimestamp) (slot : UInt64) : PerProgramShard B :=
  match shard.main.observe endpoint key ts slot with
  | (some r, main) => { main, digest := shard.digest.push r.deltaMs }
  | (none, main) => { shard with main }

@[simp] theorem main_observe (shard : PerProgramShard B) (endpoint : EndpointRole)
    (key : AccountKey) (ts : EventTimestamp) (slot : UInt64) :
    (shard.observe endpoint key ts slot).main = (shard.main.observe endpoint key ts slot).2 := by
  unfold observe
  split <;> simp_all

end PerProgramShard

/-! ## The matcher -/

/-- Account matcher with per-program shard dispatch. -/
structure AccountMatcher (B : Backend) where
  shards : Finmap fun _ : Pubkey32 => PerProgramShard B
  programShortNames : Finmap fun _ : Pubkey32 => String
  eviction : EvictionPolicy
  strictAccountKey : Bool

/-- `PerProgramSummary`. -/
abbrev PerProgramSummary := Finmap fun _ : String => LatencyDigestSummary

namespace AccountMatcher

/-- `AccountMatcher::new`. -/
def new (B : Backend) (eviction : EvictionPolicy)
    (programShortNames : Finmap fun _ : Pubkey32 => String) : AccountMatcher B where
  shards := ∅
  programShortNames := programShortNames
  eviction := eviction
  strictAccountKey := false

/-- `AccountMatcher::with_strict_account_key`. -/
def withStrictAccountKey (m : AccountMatcher B) (strict : Bool) : AccountMatcher B :=
  { m with strictAccountKey := strict }

/-- The shard of an owner; `or_insert_with` makes a fresh one. -/
def shardOf (m : AccountMatcher B) (owner : Pubkey32) : PerProgramShard B :=
  (m.shards.lookup owner).getD (PerProgramShard.new B m.eviction)

/-- The identity key of an update: the write version is part of it in strict mode only. -/
def keyOf (strict : Bool) (slot : UInt64) (pubkey : Pubkey32) (writeVersion : UInt64)
    (txnSignature : Option Signature64) : AccountKey :=
  (slot, pubkey, txnSignature, if strict then some writeVersion else none)

/-- `AccountMatcher::observe`. -/
def observe (m : AccountMatcher B) (endpoint : EndpointRole) (slot : UInt64) (pubkey : Pubkey32)
    (writeVersion : UInt64) (txnSignature : Option Signature64) (owner : Pubkey32)
    (ts : EventTimestamp) : AccountMatcher B :=
  let key := keyOf m.strictAccountKey slot pubkey writeVersion txnSignature
  { m with shards := m.shards.insert owner ((m.shardOf owner).observe endpoint key ts slot) }

/-- What `summary` does to one shard: a final eviction, and a flush of the matcher's digest. -/
def settleShard (_ : Pubkey32) (shard : PerProgramShard B) : PerProgramShard B :=
  { shard with main := shard.main.evict.snapshotDigest.2 }

/-- `AccountMatcher::summary`, visiting the shards in the given order. -/
def summary (m : AccountMatcher B) (order : Finmap.Enumeration m.shards) :
    LatencyDigestSummary × AccountMatcher B :=
  let digests := order.1.map fun entry => entry.2.main.evict.snapshotDigest.1
  let counts := order.1.foldl
    (fun counts entry => MatchCounts.add counts entry.2.main.evict.snapshotDigest.2.counts) {}
  let merged := if digests.isEmpty then B.newWithSize tdigestCompression
    else B.mergeDigests digests
  let quantile := fun q => if B.isEmpty merged then none else some (B.estimateQuantile merged q)
  ({ p50 := quantile 0.50, p90 := quantile 0.90, p99 := quantile 0.99, p999 := quantile 0.999,
     matched := counts.matched, ep1Faster := counts.ep1Faster, ep2Faster := counts.ep2Faster },
   { m with shards := m.shards.mapVals settleShard })

/-- The display name of an owner. -/
def bucketName (m : AccountMatcher B) (owner : Pubkey32) : String :=
  (m.programShortNames.lookup owner).getD "unknown"

/-- What `per_program_summary` does to one shard: a flush of its digest. -/
def flushShard (_ : Pubkey32) (shard : PerProgramShard B) : PerProgramShard B :=
  { shard with digest := shard.digest.summary.2 }

/-- `AccountMatcher::per_program_summary`, visiting the shards in the given order. -/
def perProgramSummary (m : AccountMatcher B) (order : Finmap.Enumeration m.shards) :
    PerProgramSummary × AccountMatcher B :=
  (order.1.foldl
    (fun out entry => out.insert (m.bucketName entry.1) entry.2.digest.summary.1) ∅,
   { m with shards := m.shards.mapVals flushShard })

/-! ## What one update does -/

section Observe

variable (m : AccountMatcher B) (endpoint : EndpointRole) (slot : UInt64) (pubkey : Pubkey32)
  (writeVersion : UInt64) (txnSignature : Option Signature64) (owner : Pubkey32)
  (ts : EventTimestamp)

@[simp] theorem strictAccountKey_observe :
    (m.observe endpoint slot pubkey writeVersion txnSignature owner ts).strictAccountKey =
      m.strictAccountKey := rfl

@[simp] theorem eviction_observe :
    (m.observe endpoint slot pubkey writeVersion txnSignature owner ts).eviction =
      m.eviction := rfl

@[simp] theorem programShortNames_observe :
    (m.observe endpoint slot pubkey writeVersion txnSignature owner ts).programShortNames =
      m.programShortNames := rfl

/-- An update reaches the shard of its owner and no other. -/
theorem shardOf_observe (o : Pubkey32) :
    (m.observe endpoint slot pubkey writeVersion txnSignature owner ts).shardOf o =
      if owner = o then (m.shardOf o).observe endpoint
        (keyOf m.strictAccountKey slot pubkey writeVersion txnSignature) ts slot
      else m.shardOf o := by
  rw [shardOf, observe, Finmap.lookup_insert_ite]
  by_cases h : owner = o
  · rw [if_pos h.symm, if_pos h, h]
    rfl
  · rw [if_neg (Ne.symm h), if_neg h]
    rfl

theorem mem_shards_observe (o : Pubkey32) :
    o ∈ (m.observe endpoint slot pubkey writeVersion txnSignature owner ts).shards ↔
      o = owner ∨ o ∈ m.shards := by
  rw [observe]
  exact Finmap.mem_insert

end Observe

/-- A shard that exists is the shard of its owner. -/
theorem lookup_shards (m : AccountMatcher B) {owner : Pubkey32} (h : owner ∈ m.shards) :
    m.shards.lookup owner = some (m.shardOf owner) := by
  obtain ⟨shard, hs⟩ := Finmap.mem_iff.mp h
  rw [shardOf, hs, Option.getD_some]

/-! ## What a summary reads -/

/-- Adding up counters, one entry after the other. -/
theorem foldl_add {α : Type*} (f : α → MatchCounts) (l : List α) (c : MatchCounts) :
    (l.foldl (fun c x => c.add (f x)) c).matched =
        c.matched + (l.map fun x => (f x).matched).sum ∧
      (l.foldl (fun c x => c.add (f x)) c).ep1Faster =
        c.ep1Faster + (l.map fun x => (f x).ep1Faster).sum ∧
      (l.foldl (fun c x => c.add (f x)) c).ep2Faster =
        c.ep2Faster + (l.map fun x => (f x).ep2Faster).sum := by
  induction l generalizing c with
  | nil => exact ⟨rfl, rfl, rfl⟩
  | cons x l ih =>
    obtain ⟨h1, h2, h3⟩ := ih (c.add (f x))
    rw [List.foldl_cons, h1, h2, h3]
    simp only [MatchCounts.add, List.map_cons, List.sum_cons, add_assoc, true_and]

variable (m : AccountMatcher B) (order : Finmap.Enumeration m.shards)

/-- **The overall counts are sums over the shards**, in whatever order they are visited. -/
theorem summary_matched : (m.summary order).1.matched =
    Finmap.total (fun shard => shard.main.counts.matched) m.shards := by
  rw [← order.sum_map]
  exact (foldl_add _ order.1 {}).1.trans (Nat.zero_add _)

theorem summary_ep1Faster : (m.summary order).1.ep1Faster =
    Finmap.total (fun shard => shard.main.counts.ep1Faster) m.shards := by
  rw [← order.sum_map]
  exact (foldl_add _ order.1 {}).2.1.trans (Nat.zero_add _)

theorem summary_ep2Faster : (m.summary order).1.ep2Faster =
    Finmap.total (fun shard => shard.main.counts.ep2Faster) m.shards := by
  rw [← order.sum_map]
  exact (foldl_add _ order.1 {}).2.2.trans (Nat.zero_add _)

/-- A sum over the shards, owner by owner. -/
theorem total_shards {M : Type*} [AddCommMonoid M] (f : PerProgramShard B → M) :
    Finmap.total f m.shards = ∑ owner ∈ m.shards.keys, f (m.shardOf owner) := by
  rw [Finmap.total_eq_sum_keys]
  refine Finset.sum_congr rfl fun owner h => ?_
  rw [m.lookup_shards (Finmap.mem_keys.mp h), Option.map_some, Option.getD_some]

end AccountMatcher

end GrpcBench
