import GrpcBench.Config.Overlay
import GrpcBench.CrossStream
import GrpcBench.Matching.Dispatch
import GrpcBench.Programs
import GrpcBench.Proto
import GrpcBench.Stability

/-!
# The output

`summary.rs`: `RunOutput`, all that a run reports, and the echo of its configuration.  The host
block is collected from the operating system; here it is of any type.  An RFC 3339 time is a
library's.

* `RunOutput`, `ConfigEcho.fromConfig`, `detectQnRole`.
* `ConfigEcho.fromConfig_withoutTokens`: the echo does not show the tokens.
-/

namespace GrpcBench

/-! ## Where Quicknode is -/

/-- `QnRoleHint`. -/
inductive QnRoleHint where
  | endpoint1 | endpoint2 | both
  deriving DecidableEq, Repr

/-- `is_quicknode`. -/
def isQuicknode (url : String) : Bool :=
  let lower := url.toList.map Char.toLower
  decide ("quiknode".toList <:+: lower) || decide ("quicknode".toList <:+: lower)

/-- `detect_qn_role`. -/
def detectQnRole (endpoint1Url : String) (endpoint2Url : Option String) : QnRoleHint :=
  match isQuicknode endpoint1Url, endpoint2Url.any isQuicknode with
  | true, false => .endpoint1
  | true, true => .both
  | _, _ => .endpoint2

/-! ## The blocks of the output -/

/-- `ConfigEcho`: the configuration, without the tokens. -/
structure ConfigEcho where
  endpoint1 : String
  endpoint2 : Option String
  entriesEndpoint1 : Option String
  entriesEndpoint2 : Option String
  stop : StopCondition
  commitments : List Commitment
  withBlocks : Bool
  withTransactions : Bool
  reconnectTestSecs : Option UInt64
  cpuAffinity : List UInt32
  cpuAffinityPlan : AffinitySpec
  realtime : Bool
  allocator : Allocator
  qnRole : QnRoleHint
  solo : Bool
  deriving DecidableEq, Repr

/-- `ConfigEcho::from_config`. -/
def ConfigEcho.fromConfig (c : RunConfig) : ConfigEcho where
  endpoint1 := c.endpoint1.url
  endpoint2 := c.endpoint2.map EndpointSpec.url
  entriesEndpoint1 := c.entriesEndpoint1.map EndpointSpec.url
  entriesEndpoint2 := c.entriesEndpoint2.map EndpointSpec.url
  stop := c.stop
  commitments := c.commitments
  withBlocks := c.withBlocks
  withTransactions := c.withTransactions
  reconnectTestSecs := c.reconnectTestSecs
  cpuAffinity := c.cpuAffinity.allCores
  cpuAffinityPlan := c.cpuAffinity
  realtime := c.realtime
  allocator := c.allocator
  qnRole := detectQnRole c.endpoint1.url (c.endpoint2.map EndpointSpec.url)
  solo := c.solo

/-- A pair of values, one for each endpoint: `[u64; 2]`. -/
abbrev PerEndpoint := ℕ × ℕ

/-- The value of an endpoint. -/
def PerEndpoint.of (p : PerEndpoint) : EndpointRole → ℕ
  | .one => p.1
  | .two => p.2

/-- `RunMetadata`. -/
structure RunMetadata where
  totalSlotsCollected : ℕ
  commonSlots : ℕ
  durationMs : UInt64
  totalAccountUpdates : PerEndpoint
  totalTransactionUpdates : PerEndpoint
  totalBlockUpdates : PerEndpoint
  totalEntryUpdates : PerEndpoint
  droppedEventsEp1 : ℕ
  droppedEventsEp2 : ℕ

/-- `EndpointInfo`; the ping is `none` where it is NaN. -/
structure EndpointInfo where
  endpoint : String
  role : String
  pluginType : String
  pluginVersion : String
  avgPingMs : Option ℚ
  totalUpdates : ℕ
  uniqueSlots : ℕ

/-- `ComparativeSummary`. -/
structure ComparativeSummary where
  slotStatus : SlotStatusSummary
  accountDelay : LatencyDigestSummary
  transactionDelay : Option LatencyDigestSummary
  blockDelay : Option LatencyDigestSummary

/-- `RunOutput`. -/
structure RunOutput (Host : Type) where
  version : String
  harness : String
  runStartedWallMs : UInt64
  runStartedIso : String
  hostMetadata : Host
  protoMetadata : ProtoMetadata
  config : ConfigEcho
  programs : List ProgramEntry
  metadata : RunMetadata
  endpoints : List EndpointInfo
  comparative : ComparativeSummary
  perProgramAccountDelay : PerProgramSummary
  crossStream : Finmap fun _ : String => CrossStreamSummary
  stability : Finmap fun _ : String => StabilitySummary

/-- `RunOutput::role_label`. -/
def RunOutput.roleLabel : EndpointRole → String
  | .one => "comparison"
  | .two => "sut"

/-! ## Tokens -/

/-- The endpoint with no token. -/
def EndpointSpec.withoutToken (e : EndpointSpec) : EndpointSpec :=
  { e with xToken := "" }

/-- The configuration with no token. -/
def RunConfig.withoutTokens (c : RunConfig) : RunConfig :=
  { c with
    endpoint1 := c.endpoint1.withoutToken
    endpoint2 := c.endpoint2.map EndpointSpec.withoutToken
    entriesEndpoint1 := c.entriesEndpoint1.map EndpointSpec.withoutToken
    entriesEndpoint2 := c.entriesEndpoint2.map EndpointSpec.withoutToken }

/-- **The echo shows no token.** -/
theorem ConfigEcho.fromConfig_withoutTokens (c : RunConfig) :
    fromConfig c.withoutTokens = fromConfig c := by
  have hurl : EndpointSpec.url ∘ EndpointSpec.withoutToken = EndpointSpec.url := rfl
  simp only [fromConfig, RunConfig.withoutTokens, Option.map_map, hurl]
  rfl

end GrpcBench
