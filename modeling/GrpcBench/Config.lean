import GrpcBench.Library.Repeats
import GrpcBench.Subscribe.Roles
import Mathlib.Data.List.Nodup

/-!
# Configuration

`config.rs`: the command line, and the checks that turn it into a `Config`.  Modelled are the
settings that the planner, the matchers and the coordinator read, with every check `from_cli` makes
on them.  The other settings, namely paths, logging, the allocator, real-time scheduling and the
core list of `--cpu-affinity` (with a syntax and errors of its own), have no influence on these.

* `Config.Validated`: what passes the checks.
* `Config.Validated.nodup_commitments`, `Config.Validated.endpoint2_isSome`: what a validated
  configuration is known to satisfy.
-/

namespace GrpcBench

/-- Per-endpoint connection settings. -/
structure EndpointSpec where
  url : String
  xToken : String
  tlsForced : Bool
  deriving DecidableEq, Repr

/-- Stop condition for the run: `--slots`, `--duration`, or both. -/
inductive StopCondition where
  | slots (n : UInt64)
  | duration (secs : UInt64)
  | either (slots duration : UInt64)
  deriving DecidableEq, Repr

/-- The command line. -/
structure Cli where
  endpoint1 : String
  xToken1 : String
  endpoint1Tls : Bool := false
  endpoint2 : Option String := none
  xToken2 : Option String := none
  endpoint2Tls : Bool := false
  solo : Bool := false
  soloStreams : List MainStream := [.slots]
  entriesEndpoint1 : Option String := none
  entriesXToken1 : Option String := none
  entriesEndpoint1Tls : Bool := false
  entriesEndpoint2 : Option String := none
  entriesXToken2 : Option String := none
  entriesEndpoint2Tls : Bool := false
  slots : Option UInt64 := none
  duration : Option UInt64 := none
  commitment : List Commitment := [.processed, .confirmed]
  withBlocks : Bool := false
  withTransactions : Bool := false
  strictAccountKey : Bool := false
  accountsProgramsPerFilter : ℕ := 1

/-- Two endpoints, the default commitments and a slot cap: `base_cli` of the tests. -/
def Cli.base : Cli where
  endpoint1 := "host1:10000"
  xToken1 := "t1"
  endpoint2 := some "host2:10000"
  xToken2 := some "t2"
  slots := some 1000

/-- Validated configuration. -/
structure Config where
  endpoint1 : EndpointSpec
  endpoint2 : Option EndpointSpec
  entriesEndpoint1 : Option EndpointSpec
  entriesEndpoint2 : Option EndpointSpec
  stop : StopCondition
  commitments : List Commitment
  withBlocks : Bool
  withTransactions : Bool
  strictAccountKey : Bool
  accountsProgramsPerFilter : ℕ
  solo : Bool
  soloStreams : List MainStream

/-- `ConfigError`, for the checks modelled here. -/
inductive ConfigError where
  | noStopCondition
  | endpoint2Missing
  | entriesTokenMismatch (which : ℕ)
  | entriesEndpointMismatch (which : ℕ)
  | duplicateCommitment (value : String)
  | emptyCommitment
  deriving DecidableEq, Repr

/-- The `#[error]` text. -/
def ConfigError.message : ConfigError → String
  | .noStopCondition => "at least one of --slots or --duration must be supplied"
  | .endpoint2Missing => "--endpoint2 and --x-token2 are required unless --solo is set"
  | .entriesTokenMismatch which =>
    "--entries-endpoint" ++ toString which ++ " requires --entries-x-token" ++ toString which
  | .entriesEndpointMismatch which =>
    "--entries-x-token" ++ toString which ++ " requires --entries-endpoint" ++ toString which
  | .duplicateCommitment value => "--commitment has duplicate value \"" ++ value ++ "\""
  | .emptyCommitment => "--commitment must list at least one level"

/-- The lowercase token of a commitment level. -/
def Commitment.token : Commitment → String
  | .processed => "processed"
  | .confirmed => "confirmed"
  | .finalized => "finalized"

/-- `validate_entries_pair`. -/
def validateEntriesPair (which : ℕ) (endpoint token : Option String) : Except ConfigError Unit :=
  match endpoint, token with
  | some _, none => .error (.entriesTokenMismatch which)
  | none, some _ => .error (.entriesEndpointMismatch which)
  | _, _ => .ok ()

/-- `build_optional_endpoint`. -/
def buildOptionalEndpoint (url token : Option String) (tls : Bool) : Option EndpointSpec :=
  match url, token with
  | some url, some token => some ⟨url, token, tls⟩
  | _, _ => none

/-- The duplicate check on `--commitment`: the first level that occurs before its own position. -/
def firstDuplicate (earlier : List Commitment) : List Commitment → Option Commitment
  | [] => none
  | c :: rest => if c ∈ earlier then some c else firstDuplicate (earlier ++ [c]) rest

namespace Config

/-- The stop condition asked for. -/
def stopOf (cli : Cli) : Except ConfigError StopCondition :=
  match cli.slots, cli.duration with
  | none, none => .error .noStopCondition
  | some s, none => .ok (.slots s)
  | none, some d => .ok (.duration d)
  | some s, some d => .ok (.either s d)

/-- The second endpoint: required unless `--solo` is set, and ignored if it is. -/
def endpoint2Of (cli : Cli) : Except ConfigError (Option EndpointSpec) :=
  if cli.solo then .ok none
  else
    match cli.endpoint2, cli.xToken2 with
    | some url, some xToken => .ok (some ⟨url, xToken, cli.endpoint2Tls⟩)
    | _, _ => .error .endpoint2Missing

/-- The checks on `--commitment`. -/
def validateCommitments (cs : List Commitment) : Except ConfigError Unit :=
  if cs = [] then .error .emptyCommitment
  else
    match firstDuplicate [] cs with
    | some c => .error (.duplicateCommitment c.token)
    | none => .ok ()

/-- `Config::from_cli_and_overlay`. -/
def fromCli (cli : Cli) : Except ConfigError Config := do
  let stop ← stopOf cli
  validateEntriesPair 1 cli.entriesEndpoint1 cli.entriesXToken1
  validateEntriesPair 2 cli.entriesEndpoint2 cli.entriesXToken2
  validateCommitments cli.commitment
  let endpoint2 ← endpoint2Of cli
  return {
    endpoint1 := ⟨cli.endpoint1, cli.xToken1, cli.endpoint1Tls⟩
    endpoint2
    entriesEndpoint1 :=
      buildOptionalEndpoint cli.entriesEndpoint1 cli.entriesXToken1 cli.entriesEndpoint1Tls
    entriesEndpoint2 :=
      buildOptionalEndpoint cli.entriesEndpoint2 cli.entriesXToken2 cli.entriesEndpoint2Tls
    stop
    commitments := cli.commitment
    withBlocks := cli.withBlocks
    withTransactions := cli.withTransactions
    strictAccountKey := cli.strictAccountKey
    accountsProgramsPerFilter := max cli.accountsProgramsPerFilter 1
    solo := cli.solo
    soloStreams := cli.soloStreams }

/-- A configuration that some command line passes the checks with. -/
def Validated (config : Config) : Prop :=
  ∃ cli, fromCli cli = .ok config

end Config

/-! ## What the checks establish -/

/-- A sequence of checks that succeeds succeeds in each of its parts. -/
theorem ok_of_bind {E A R : Type} {x : Except E A} {f : A → Except E R} {r : R}
    (h : (x >>= f) = .ok r) : ∃ a, x = .ok a ∧ f a = .ok r := by
  cases x with
  | error e => cases h
  | ok a => exact ⟨a, rfl, h⟩

theorem firstDuplicate_eq (earlier cs : List Commitment) :
    firstDuplicate earlier cs = Repeats.firstRepeated earlier cs := by
  induction cs generalizing earlier with
  | nil => rfl
  | cons c rest ih => rw [firstDuplicate, Repeats.firstRepeated, ih]

/-- No duplicate is reported exactly when there is none. -/
theorem firstDuplicate_eq_none_iff (cs : List Commitment) :
    firstDuplicate [] cs = none ↔ cs.Nodup := by
  rw [firstDuplicate_eq, Repeats.firstRepeated_nil_eq_none_iff]

namespace Config

/-- The check accepts the nonempty lists without repetition. -/
theorem validateCommitments_eq_ok_iff (cs : List Commitment) :
    validateCommitments cs = .ok () ↔ cs ≠ [] ∧ cs.Nodup := by
  unfold validateCommitments
  by_cases hne : cs = []
  · rw [if_pos hne]
    exact iff_of_false (by simp) fun h => h.1 hne
  · rw [if_neg hne]
    have hdup := firstDuplicate_eq_none_iff cs
    rcases h : firstDuplicate [] cs with _ | c
    · exact iff_of_true rfl ⟨hne, hdup.mp h⟩
    · refine iff_of_false (by simp) fun hnd => ?_
      rw [hdup.mpr hnd.2] at h
      cases h

/-- A validated configuration, and the command line it comes from. -/
theorem Validated.of_cli {config : Config} (h : config.Validated) : ∃ cli : Cli,
    validateCommitments cli.commitment = .ok () ∧ endpoint2Of cli = .ok config.endpoint2 ∧
    config.commitments = cli.commitment ∧ config.solo = cli.solo := by
  obtain ⟨cli, h⟩ := h
  obtain ⟨stop, -, h⟩ := ok_of_bind h
  obtain ⟨⟨⟩, -, h⟩ := ok_of_bind h
  obtain ⟨⟨⟩, -, h⟩ := ok_of_bind h
  obtain ⟨⟨⟩, hc, h⟩ := ok_of_bind h
  obtain ⟨endpoint2, hep, h⟩ := ok_of_bind h
  cases h
  exact ⟨cli, hc, hep, rfl, rfl⟩

variable {config : Config}

theorem Validated.nodup_commitments (h : config.Validated) : config.commitments.Nodup := by
  obtain ⟨cli, hcheck, -, hc, -⟩ := h.of_cli
  rw [hc]
  exact ((validateCommitments_eq_ok_iff _).mp hcheck).2

/-- There is a second endpoint exactly when the run is not a solo run. -/
theorem Validated.endpoint2_isSome (h : config.Validated) :
    config.endpoint2.isSome = !config.solo := by
  obtain ⟨cli, -, hep, -, hsolo⟩ := h.of_cli
  rw [hsolo]
  unfold endpoint2Of at hep
  rcases hs : cli.solo with _ | _
  · rw [hs, if_neg (by simp)] at hep
    split at hep
    · rw [← Except.ok.inj hep]
      rfl
    · cases hep
  · rw [hs, if_pos rfl] at hep
    rw [← Except.ok.inj hep]
    rfl

end Config

end GrpcBench
