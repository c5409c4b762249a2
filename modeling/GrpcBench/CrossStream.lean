import GrpcBench.Matching.Streams

/-!
# Cross-stream ordering within one endpoint

`crossstream.rs`: one tracker per endpoint.  Transactions and account updates of one endpoint
rendezvous on `(slot, signature)`; whichever comes second records the difference `account - tx`.
Unlike the pair matchers, this one runs its eviction after every observation and compares the slot
of the key.
-/

namespace GrpcBench

/-- p50/p90/p99 triple in milliseconds. -/
structure Quartiles where
  p50 : Option ℚ
  p90 : Option ℚ
  p99 : Option ℚ

/-- `comparative.cross_stream.<endpoint>` shape. -/
structure CrossStreamSummary where
  txVsAccount : Option Quartiles
  entriesVsTx : Option Quartiles
  entriesVsAccount : Option Quartiles
  notes : List String

/-- `CrossStreamSummary::empty`. -/
def CrossStreamSummary.empty : CrossStreamSummary where
  txVsAccount := none
  entriesVsTx := none
  entriesVsAccount := none
  notes := ["entries_vs_tx / entries_vs_account are null in v1: standard Yellowstone " ++
    "SubscribeUpdateEntry does not include transaction signatures; index-based correlation is a " ++
    "follow-up. See PROTO.md."]

/-- `StreamingDigest`: a buffered digest and nothing else. -/
abbrev StreamingDigest (B : Backend) := BufferedDigest B

variable {B : Backend}

/-- `StreamingDigest::summary`. -/
def StreamingDigest.summary (d : StreamingDigest B) : Option Quartiles × StreamingDigest B :=
  let d := d.flush
  if B.isEmpty d.digest then (none, d)
  else
    let (p50, d) := d.quantile 0.50
    let (p90, d) := d.quantile 0.90
    let (p99, d) := d.quantile 0.99
    (some { p50, p90, p99 }, d)

/-- Pending-event pool keyed on `(slot, signature)`. -/
structure TxAccountPairer (B : Backend) where
  pendingTx : Finmap fun _ : TxKey => EventTimestamp
  pendingAccount : Finmap fun _ : TxKey => EventTimestamp
  digest : StreamingDigest B
  highWaterSlot : UInt64

namespace TxAccountPairer

/-- `TxAccountPairer::new`. -/
def new (B : Backend) : TxAccountPairer B where
  pendingTx := ∅
  pendingAccount := ∅
  digest := BufferedDigest.new B
  highWaterSlot := 0

/-- `TxAccountPairer::bump_water`. -/
def bumpWater (p : TxAccountPairer B) (slot : UInt64) : TxAccountPairer B :=
  if p.highWaterSlot < slot then { p with highWaterSlot := slot } else p

/-- `TxAccountPairer::evict`. -/
def evict (p : TxAccountPairer B) : TxAccountPairer B :=
  let cutoff := saturatingSub p.highWaterSlot 64
  { p with
    pendingTx := p.pendingTx.retain fun key _ => decide (cutoff ≤ key.1)
    pendingAccount := p.pendingAccount.retain fun key _ => decide (cutoff ≤ key.1) }

/-- `TxAccountPairer::record`. -/
def record (p : TxAccountPairer B) (accTs txTs : EventTimestamp) : TxAccountPairer B :=
  { p with digest := p.digest.push (B.toMs (deltaNs accTs txTs).toInt) }

/-- `TxAccountPairer::observe_tx`. -/
def observeTx (p : TxAccountPairer B) (slot : UInt64) (signature : Signature64)
    (ts : EventTimestamp) : TxAccountPairer B :=
  let p := p.bumpWater slot
  let key := (slot, signature)
  let p := match p.pendingAccount.lookup key with
    | some accTs => { p with pendingAccount := p.pendingAccount.erase key }.record accTs ts
    | none => { p with pendingTx := p.pendingTx.insert key ts }
  p.evict

/-- `TxAccountPairer::observe_account`. -/
def observeAccount (p : TxAccountPairer B) (slot : UInt64) (signature : Signature64)
    (ts : EventTimestamp) : TxAccountPairer B :=
  let p := p.bumpWater slot
  let key := (slot, signature)
  let p := match p.pendingTx.lookup key with
    | some txTs => { p with pendingTx := p.pendingTx.erase key }.record ts txTs
    | none => { p with pendingAccount := p.pendingAccount.insert key ts }
  p.evict

end TxAccountPairer

/-- Per-endpoint cross-stream tracker. -/
structure CrossStreamTracker (B : Backend) where
  endpoint : EndpointRole
  txVsAccount : TxAccountPairer B

namespace CrossStreamTracker

/-- `CrossStreamTracker::new`. -/
def new (B : Backend) (endpoint : EndpointRole) : CrossStreamTracker B where
  endpoint := endpoint
  txVsAccount := TxAccountPairer.new B

/-- `CrossStreamTracker::observe`. -/
def observe (t : CrossStreamTracker B) (event : Event) : CrossStreamTracker B :=
  if event.endpoint ≠ t.endpoint then t
  else match event.payload with
    | .transaction slot signature _ =>
      { t with txVsAccount := t.txVsAccount.observeTx slot signature event.ts }
    | .account slot _ _ _ (some sig) _ =>
      { t with txVsAccount := t.txVsAccount.observeAccount slot sig event.ts }
    | _ => t

/-- `CrossStreamTracker::summary`. -/
def summary (t : CrossStreamTracker B) : CrossStreamSummary × CrossStreamTracker B :=
  let r := StreamingDigest.summary t.txVsAccount.digest
  ({ txVsAccount := r.1, entriesVsTx := none, entriesVsAccount := none,
     notes := CrossStreamSummary.empty.notes },
   { t with txVsAccount := { t.txVsAccount with digest := r.2 } })

end CrossStreamTracker

end GrpcBench
