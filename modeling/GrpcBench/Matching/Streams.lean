import GrpcBench.Matching.PairMatcher

/-!
# Slot, transaction and block matching

`matching/slots.rs`, `matching/transactions.rs`, `matching/blocks.rs`: pair matchers with an
identity key for one stream kind each.  Slots have one matcher per stage, except for dead slots,
which are not matched.  The block key carries the commitment level, so that a block seen at one
level is never paired with the same block seen at another.
-/

namespace GrpcBench

variable {B : Backend} {K : Type} [DecidableEq K]

/-- A summary evicts once more and flushes. -/
theorem LatencyDigestSummary.snd_fromMatcher (m : PairMatcher B K) :
    (LatencyDigestSummary.fromMatcher m).2 = m.evict.flush := by
  simp [fromMatcher]

/-! ## Slots -/

/-- One matcher per stage. -/
structure SlotMatcher (B : Backend) where
  firstShredReceived : PairMatcher B UInt64
  completed : PairMatcher B UInt64
  createdBank : PairMatcher B UInt64
  processed : PairMatcher B UInt64
  confirmed : PairMatcher B UInt64
  finalized : PairMatcher B UInt64

/-- Output shape of the slot-status section. -/
structure SlotStatusSummary where
  firstShredDelay : LatencyDigestSummary
  completedDelay : LatencyDigestSummary
  createdBankDelay : LatencyDigestSummary
  processedDelay : LatencyDigestSummary
  confirmedDelay : LatencyDigestSummary
  finalizedDelay : LatencyDigestSummary

namespace SlotMatcher

/-- `SlotMatcher::new`. -/
def new (B : Backend) (eviction : EvictionPolicy) : SlotMatcher B where
  firstShredReceived := PairMatcher.new B UInt64 eviction
  completed := PairMatcher.new B UInt64 eviction
  createdBank := PairMatcher.new B UInt64 eviction
  processed := PairMatcher.new B UInt64 eviction
  confirmed := PairMatcher.new B UInt64 eviction
  finalized := PairMatcher.new B UInt64 eviction

/-- `SlotMatcher::matcher_for`, as a value. -/
def matcherFor (m : SlotMatcher B) : SlotStage → Option (PairMatcher B UInt64)
  | .firstShredReceived => some m.firstShredReceived
  | .completed => some m.completed
  | .createdBank => some m.createdBank
  | .processed => some m.processed
  | .confirmed => some m.confirmed
  | .finalized => some m.finalized
  | .dead => none

/-- Write back what `matcher_for` hands out by reference. -/
def setMatcherFor (m : SlotMatcher B) (stage : SlotStage) (p : PairMatcher B UInt64) :
    SlotMatcher B :=
  match stage with
  | .firstShredReceived => { m with firstShredReceived := p }
  | .completed => { m with completed := p }
  | .createdBank => { m with createdBank := p }
  | .processed => { m with processed := p }
  | .confirmed => { m with confirmed := p }
  | .finalized => { m with finalized := p }
  | .dead => m

/-- `SlotMatcher::observe_stage`. -/
def observeStage (m : SlotMatcher B) (endpoint : EndpointRole) (slot : UInt64) (stage : SlotStage)
    (ts : EventTimestamp) : SlotMatcher B :=
  match m.matcherFor stage with
  | none => m
  | some p => m.setMatcherFor stage (p.observe endpoint slot ts slot).2

/-- `SlotMatcher::summary`. -/
def summary (m : SlotMatcher B) : SlotStatusSummary × SlotMatcher B :=
  let r1 := LatencyDigestSummary.fromMatcher m.firstShredReceived
  let r2 := LatencyDigestSummary.fromMatcher m.completed
  let r3 := LatencyDigestSummary.fromMatcher m.createdBank
  let r4 := LatencyDigestSummary.fromMatcher m.processed
  let r5 := LatencyDigestSummary.fromMatcher m.confirmed
  let r6 := LatencyDigestSummary.fromMatcher m.finalized
  (⟨r1.1, r2.1, r3.1, r4.1, r5.1, r6.1⟩, ⟨r1.2, r2.2, r3.2, r4.2, r5.2, r6.2⟩)

/-- An observation of a stage reaches the matcher of that stage and no other. -/
theorem matcherFor_observeStage (m : SlotMatcher B) (endpoint : EndpointRole) (slot : UInt64)
    (stage : SlotStage) (ts : EventTimestamp) (s : SlotStage) :
    (m.observeStage endpoint slot stage ts).matcherFor s =
      if stage = s then (m.matcherFor s).map fun p => (p.observe endpoint slot ts slot).2
      else m.matcherFor s := by
  cases stage <;> cases s <;> rfl

/-- A write reaches the stage it is for and no other. -/
theorem matcherFor_setMatcherFor (m : SlotMatcher B) (stage : SlotStage) (p : PairMatcher B UInt64)
    (s : SlotStage) :
    (m.setMatcherFor stage p).matcherFor s =
      if stage = s then (m.matcherFor s).map fun _ => p else m.matcherFor s := by
  cases stage <;> cases s <;> rfl

/-- A summary evicts and flushes every stage. -/
theorem matcherFor_summary (m : SlotMatcher B) (s : SlotStage) :
    m.summary.2.matcherFor s = (m.matcherFor s).map fun p => p.evict.flush := by
  cases s <;> simp [summary, matcherFor, LatencyDigestSummary.snd_fromMatcher]

@[simp] theorem observeStage_dead (m : SlotMatcher B) (endpoint : EndpointRole) (slot : UInt64)
    (ts : EventTimestamp) : m.observeStage endpoint slot .dead ts = m := rfl

/-- A slot matcher is its six stages. -/
theorem ext_matcherFor {m m' : SlotMatcher B} (h : ∀ s, m.matcherFor s = m'.matcherFor s) :
    m = m' := by
  obtain ⟨a1, a2, a3, a4, a5, a6⟩ := m
  obtain ⟨b1, b2, b3, b4, b5, b6⟩ := m'
  have h1 := Option.some.inj (h .firstShredReceived)
  have h2 := Option.some.inj (h .completed)
  have h3 := Option.some.inj (h .createdBank)
  have h4 := Option.some.inj (h .processed)
  have h5 := Option.some.inj (h .confirmed)
  have h6 := Option.some.inj (h .finalized)
  subst h1 h2 h3 h4 h5 h6
  rfl

end SlotMatcher

/-! ## Transactions -/

/-- `(slot, signature)`. -/
abbrev TxKey := UInt64 × Signature64

/-- A pair matcher keyed on `(slot, signature)`. -/
structure TransactionMatcher (B : Backend) where
  inner : PairMatcher B TxKey

namespace TransactionMatcher

/-- `TransactionMatcher::new`. -/
def new (B : Backend) (eviction : EvictionPolicy) : TransactionMatcher B where
  inner := PairMatcher.new B TxKey eviction

/-- `TransactionMatcher::observe`. -/
def observe (m : TransactionMatcher B) (endpoint : EndpointRole) (slot : UInt64)
    (signature : Signature64) (ts : EventTimestamp) : TransactionMatcher B where
  inner := (m.inner.observe endpoint (slot, signature) ts slot).2

/-- `TransactionMatcher::summary`. -/
def summary (m : TransactionMatcher B) : LatencyDigestSummary × TransactionMatcher B :=
  let r := LatencyDigestSummary.fromMatcher m.inner
  (r.1, ⟨r.2⟩)

end TransactionMatcher

/-! ## Blocks -/

/-- `(commitment, slot, blockhash)`. -/
abbrev BlockKey := Commitment × UInt64 × Pubkey32

/-- A pair matcher keyed on `(commitment, slot, blockhash)`. -/
structure BlockMatcher (B : Backend) where
  inner : PairMatcher B BlockKey

namespace BlockMatcher

/-- `BlockMatcher::new`. -/
def new (B : Backend) (eviction : EvictionPolicy) : BlockMatcher B where
  inner := PairMatcher.new B BlockKey eviction

/-- `BlockMatcher::observe`. -/
def observe (m : BlockMatcher B) (endpoint : EndpointRole) (commitment : Commitment)
    (slot : UInt64) (blockhash : Pubkey32) (ts : EventTimestamp) : BlockMatcher B where
  inner := (m.inner.observe endpoint (commitment, slot, blockhash) ts slot).2

/-- `BlockMatcher::summary`. -/
def summary (m : BlockMatcher B) : LatencyDigestSummary × BlockMatcher B :=
  let r := LatencyDigestSummary.fromMatcher m.inner
  (r.1, ⟨r.2⟩)

end BlockMatcher

end GrpcBench
