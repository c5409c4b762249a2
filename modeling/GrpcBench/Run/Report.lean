import GrpcBench.Run.Capture
import GrpcBench.Run.Ping
import GrpcBench.Summary

/-!
# The report

`run.rs`: the end of `execute`, which takes over the state of the dispatchers, adds up the counters
of the rings and puts the output together.  It does so at moments of its own: a dispatcher that has
not exited when its result is asked for is replaced by an empty one, and the matchers are replaced
by empty ones if some dispatcher still holds them when the coordinator takes them, which is later.
The pings, the host, the versions and the time are given.

* `assembleOutput`: the output.
* `EndOfRun`: the moments at which the coordinator looks; `EndOfRun.output`.
-/

namespace GrpcBench

variable {B : Backend} {R : RawSink} {roles : List SubscriptionRole}

/-! ## Counters -/

/-- `IngestCounters`. -/
structure IngestCounters where
  totalSlotsCollected : ℕ
  accounts : PerEndpoint
  transactions : PerEndpoint
  blocks : PerEndpoint
  entries : PerEndpoint

/-- The counters of the two dispatchers and the slot counter. -/
def IngestCounters.merge (totalSlotsCollected : ℕ)
    (partials : EndpointRole → IngestCountersPartial) : IngestCounters where
  totalSlotsCollected := totalSlotsCollected
  accounts := ((partials .one).accounts, (partials .two).accounts)
  transactions := ((partials .one).transactions, (partials .two).transactions)
  blocks := ((partials .one).blocks, (partials .two).blocks)
  entries := ((partials .one).entries, (partials .two).entries)

/-- `DroppedTotals`. -/
structure DroppedTotals where
  ep1 : ℕ := 0
  ep2 : ℕ := 0
  deriving DecidableEq, Repr

/-- `compute_dropped_totals`. -/
def computeDroppedTotals (roles : List SubscriptionRole) (stats : List ReceiverStats) :
    DroppedTotals :=
  (stats.zip roles).foldl (fun out p =>
    match p.2.endpoint with
    | .one => { out with ep1 := saturatingAdd out.ep1 p.1.dropped }
    | .two => { out with ep2 := saturatingAdd out.ep2 p.1.dropped }) {}

/-! ## The output -/

/-- `endpoint_info`. -/
def endpointInfo (url : String) (role : EndpointRole) (version : EndpointVersion)
    (totalUpdates : ℕ) (ping : PingTracker) : EndpointInfo where
  endpoint := url
  role := RunOutput.roleLabel role
  pluginType := version.package.getD "yellowstone"
  pluginVersion := version.pluginVersion.getD "unknown"
  avgPingMs := ping.averageMs
  totalUpdates := totalUpdates
  uniqueSlots := 0

/-- What `execute` has learned before the run and around it. -/
structure RunContext (Host : Type) where
  config : RunConfig
  programs : ProgramSet
  hostMetadata : Host
  protoMetadata : ProtoMetadata
  ep1Version : EndpointVersion
  ep2Version : Option EndpointVersion
  ping : EndpointRole → PingTracker
  startWallMs : UInt64
  durationMs : UInt64
  /-- `RunOutput::rfc3339_from_wall_ms`. -/
  rfc3339FromWallMs : UInt64 → String

/-- `assemble_output`, with the orders in which the account shards are visited. -/
def assembleOutput {Host : Type} (ctx : RunContext Host) (matchers : StreamMatchers B)
    (stability : EndpointRole → StabilityTracker B) (cross : EndpointRole → CrossStreamTracker B)
    (counters : IngestCounters) (totals : CaptureTotals) (dropped : DroppedTotals)
    (order : Finmap.Enumeration matchers.accounts.shards)
    (order' : Finmap.Enumeration (matchers.accounts.summary order).2.shards) : RunOutput Host :=
  let config := ctx.config
  let slotStatus := matchers.slots.summary.1
  let accountDelay := (matchers.accounts.summary order).1
  let perProgram := ((matchers.accounts.summary order).2.perProgramSummary order').1
  let transactionDelay :=
    if config.withTransactions then some matchers.transactions.summary.1 else none
  let blockDelay := if config.withBlocks then some matchers.blocks.summary.1 else none
  let endpoints :=
    endpointInfo config.endpoint1.url .one ctx.ep1Version totals.ep1 (ctx.ping .one) ::
      match config.endpoint2, ctx.ep2Version with
      | some ep2Spec, some ep2Version =>
        [endpointInfo ep2Spec.url .two ep2Version totals.ep2 (ctx.ping .two)]
      | _, _ => []
  { version := "0.1.0"
    harness := "grpc-bench"
    runStartedWallMs := ctx.startWallMs
    runStartedIso := ctx.rfc3339FromWallMs ctx.startWallMs
    hostMetadata := ctx.hostMetadata
    protoMetadata := ctx.protoMetadata
    config := ConfigEcho.fromConfig config
    programs := ctx.programs.entries
    metadata :=
      { totalSlotsCollected := counters.totalSlotsCollected
        commonSlots := 0
        durationMs := ctx.durationMs
        totalAccountUpdates := counters.accounts
        totalTransactionUpdates := counters.transactions
        totalBlockUpdates := counters.blocks
        totalEntryUpdates := counters.entries
        droppedEventsEp1 := dropped.ep1
        droppedEventsEp2 := dropped.ep2 }
    endpoints
    comparative := { slotStatus, accountDelay, transactionDelay, blockDelay }
    perProgramAccountDelay := perProgram
    crossStream := ((∅ : Finmap fun _ : String => CrossStreamSummary).insert "endpoint1"
      (cross .one).summary.1).insert "endpoint2" (cross .two).summary.1
    stability := ((∅ : Finmap fun _ : String => StabilitySummary).insert "endpoint1"
      (stability .one).summary.1).insert "endpoint2" (stability .two).summary.1 }

/-! ## The end of a run -/

namespace Pipeline

/-- Both dispatchers have exited: nobody else holds the matchers. -/
def allExited (s : Pipeline B R roles) : Bool :=
  (s.loops .one).point = .exited && (s.loops .two).point = .exited

/-- `Arc::try_unwrap` of the matchers, and the fallback. -/
def reclaimMatchers (s : Pipeline B R roles) : StreamMatchers B :=
  if s.allExited then s.ingest.shared.matchers else StreamMatchers.new B ∅

/-- Some steps of the threads. -/
def Reaches (s s' : Pipeline B R roles) : Prop :=
  ∃ actions, s.run actions = some s'

end Pipeline

/-- The moments at which the coordinator looks at the threads: when it asks for the result of a
dispatcher, when it reads the slot counter, when it reads the statistics of a ring, once for each
total, and when it takes the matchers. -/
structure EndOfRun (B : Backend) (R : RawSink) (roles : List SubscriptionRole) where
  reclaimed : EndpointRole → Pipeline B R roles
  counted : Pipeline B R roles
  captured : Fin roles.length → Pipeline B R roles
  dropped : Fin roles.length → Pipeline B R roles
  unwrapped : Pipeline B R roles

/-- The rings, each as it is at a moment of its own. -/
def Pipeline.ringsAt (s : Pipeline B R roles) (moment : Fin roles.length → Pipeline B R roles) :
    Pipeline B R roles :=
  { s with subs := fun i => (moment i).subs i }

namespace EndOfRun

/-- The moments come in this order, after a start. -/
structure Of (start : Pipeline B R roles) (r : EndOfRun B R roles) : Prop where
  first : start.Reaches (r.reclaimed .one)
  second : (r.reclaimed .one).Reaches (r.reclaimed .two)
  third : (r.reclaimed .two).Reaches r.counted
  captured : ∀ i, r.counted.Reaches (r.captured i)
  dropped : ∀ i j, (r.captured i).Reaches (r.dropped j) ∧ (r.dropped j).Reaches r.unwrapped
  last : r.counted.Reaches r.unwrapped

/-- The state of a dispatcher, as it is taken over. -/
def dispatcher (r : EndOfRun B R roles) (e : EndpointRole) : DispatcherState B :=
  (r.reclaimed e).reclaim e

/-- The output of a run. -/
def output {Host : Type} (r : EndOfRun B R roles) (ctx : RunContext Host)
    (order : Finmap.Enumeration r.unwrapped.reclaimMatchers.accounts.shards)
    (order' : Finmap.Enumeration (r.unwrapped.reclaimMatchers.accounts.summary order).2.shards) :
    RunOutput Host :=
  assembleOutput ctx r.unwrapped.reclaimMatchers (fun e => (r.dispatcher e).stability)
    (fun e => (r.dispatcher e).cross)
    (IngestCounters.merge r.counted.ingest.shared.totalSlots fun e => (r.dispatcher e).counters)
    (computeCaptureTotals roles (r.counted.ringsAt r.captured).statsPerSpec)
    (computeDroppedTotals roles (r.counted.ringsAt r.dropped).statsPerSpec) order order'

end EndOfRun

end GrpcBench
