import GrpcBench.Collect.Affinity.Layout
import GrpcBench.Config

/-!
# The whole configuration

`config.rs`: `Config::from_cli`, with every setting of the command line and the overlay of the
`--config` file.  A setting of the command line is taken before that of the overlay; as the default
level `info` cannot be told from a given one, it counts as not given.  Reading the file and parsing
TOML are a library's; here they are functions.

`Config.fromCli` is about the settings of the planner and the matchers alone.

* `RunConfig.fromCliAndOverlay`, `RunConfig.fromCli`.
* `RunConfig.run_fromCliAndOverlay`: its checks, against those of `Config.fromCli`.
* `RunConfig.fromCli_exact`: what is accepted and which error comes first, and what the
  overlay can change.
-/

namespace GrpcBench

/-- Allocator selection. -/
inductive Allocator where
  | jemalloc | mimalloc | system
  deriving DecidableEq, Repr

/-- `DEFAULT_RING_CAPACITY`. -/
def defaultRingCapacity : ℕ := 65536

/-- The command line, with all of its flags. -/
structure CommandLine extends Cli where
  programs : String
  reconnectTest : Option UInt64 := none
  output : String
  rawRecords : Option String := none
  config : Option String := none
  cpuAffinity : Option String := none
  realtime : Bool := false
  allocator : Allocator := .jemalloc
  logLevel : String := "info"
  maxDecodeMb : ℕ := 256
  ringCapacity : ℕ := defaultRingCapacity

/-- `TomlOverlay`. -/
structure TomlOverlay where
  logLevel : Option String := none
  rawRecords : Option String := none
  cpuAffinity : Option (List UInt32) := none
  deriving DecidableEq, Repr

/-- Validated configuration, with all of its settings. -/
structure RunConfig extends Config where
  programsPath : String
  reconnectTestSecs : Option UInt64
  output : String
  rawRecords : Option String
  cpuAffinity : AffinitySpec
  realtime : Bool
  allocator : Allocator
  logLevel : String
  maxDecodeMb : ℕ
  ringCapacity : ℕ

/-- `ConfigError`, with the errors of the core list and of the overlay. -/
inductive RunConfigError where
  | check (error : ConfigError)
  | cpuAffinityParse (error : AffinityParseError)
  | tomlRead (path source : String)
  | tomlParse (path source : String)
  deriving DecidableEq, Repr

/-- The `#[error]` text. -/
def RunConfigError.message : RunConfigError → String
  | .check error => error.message
  | .cpuAffinityParse error => error.message
  | .tomlRead path source => "failed to read TOML overlay " ++ path ++ ": " ++ source
  | .tomlParse path source => "failed to parse TOML overlay " ++ path ++ ": " ++ source

/-- What is printed when `--realtime` takes the pin of the processor away. -/
def realtimeWarning (dropped : UInt32) : String :=
  "grpc-bench: WARNING --realtime + --cpu-affinity proc=" ++ toString dropped ++
    " has been observed to wedge the coordinator on 16+ vCPU rigs " ++
    "(see rt_coordinator_pin_wedge). Dropping proc= pin for safety; " ++
    "the processor will float on a kernel-scheduled core."

namespace RunConfig

/-- A check that cannot panic. -/
def check {A : Type} (x : Except ConfigError A) : ExceptT RunConfigError Option A :=
  ExceptT.mk (some (x.mapError .check))

/-- The core list, of the command line or else of the overlay; `none` is a panic. -/
def affinityOf (nproc : Option ℕ) (cli : CommandLine) (overlay : TomlOverlay) :
    Option (Except AffinityParseError AffinitySpec) :=
  match cli.cpuAffinity with
  | some raw => AffinitySpec.parse nproc raw
  | none =>
    match overlay.cpuAffinity with
    | some cores => some (AffinitySpec.fromFlatVec cores)
    | none => some (.ok {})

/-- The level of logging. -/
def logLevelOf (cli : CommandLine) (overlay : TomlOverlay) : String :=
  if cli.logLevel = "info" then overlay.logLevel.getD cli.logLevel else cli.logLevel

/-- `Config::from_cli_and_overlay`: the configuration, and what is printed on the way. -/
def fromCliAndOverlay (nproc : Option ℕ) (cli : CommandLine) (overlay : TomlOverlay) :
    ExceptT RunConfigError Option (RunConfig × Option String) := do
  let stop ← check (Config.stopOf cli.toCli)
  check (validateEntriesPair 1 cli.entriesEndpoint1 cli.entriesXToken1)
  check (validateEntriesPair 2 cli.entriesEndpoint2 cli.entriesXToken2)
  check (Config.validateCommitments cli.commitment)
  let cpuAffinity ← ExceptT.mk
    ((affinityOf nproc cli overlay).map fun r => r.mapError .cpuAffinityParse)
  let dropped := if cli.realtime then cpuAffinity.processor else none
  let cpuAffinity := if cli.realtime then { cpuAffinity with processor := none } else cpuAffinity
  let endpoint2 ← check (Config.endpoint2Of cli.toCli)
  return ({
    endpoint1 := ⟨cli.endpoint1, cli.xToken1, cli.endpoint1Tls⟩
    endpoint2
    entriesEndpoint1 :=
      buildOptionalEndpoint cli.entriesEndpoint1 cli.entriesXToken1 cli.entriesEndpoint1Tls
    entriesEndpoint2 :=
      buildOptionalEndpoint cli.entriesEndpoint2 cli.entriesXToken2 cli.entriesEndpoint2Tls
    programsPath := cli.programs
    stop
    commitments := cli.commitment
    withBlocks := cli.withBlocks
    withTransactions := cli.withTransactions
    strictAccountKey := cli.strictAccountKey
    accountsProgramsPerFilter := max cli.accountsProgramsPerFilter 1
    reconnectTestSecs := cli.reconnectTest
    output := cli.output
    rawRecords := cli.rawRecords <|> overlay.rawRecords
    cpuAffinity
    realtime := cli.realtime
    allocator := cli.allocator
    logLevel := logLevelOf cli overlay
    solo := cli.solo
    soloStreams := cli.soloStreams
    maxDecodeMb := cli.maxDecodeMb
    ringCapacity := cli.ringCapacity }, dropped.map realtimeWarning)

/-- `load_toml_overlay`. -/
def loadTomlOverlay (readToString : String → Except String String)
    (parseToml : String → Except String TomlOverlay) (path : String) :
    Except RunConfigError TomlOverlay :=
  match readToString path with
  | .error source => .error (.tomlRead path source)
  | .ok raw => (parseToml raw).mapError (.tomlParse path)

/-- `Config::from_cli`. -/
def fromCli (readToString : String → Except String String)
    (parseToml : String → Except String TomlOverlay) (nproc : Option ℕ) (cli : CommandLine) :
    ExceptT RunConfigError Option (RunConfig × Option String) :=
  match cli.config with
  | none => fromCliAndOverlay nproc cli {}
  | some path =>
    match loadTomlOverlay readToString parseToml path with
    | .error e => ExceptT.mk (some (.error e))
    | .ok overlay => fromCliAndOverlay nproc cli overlay

/-! ## Acceptance -/

/-- The checks that come before the core list. -/
def earlyChecks (cli : Cli) : Except ConfigError Unit := do
  let _ ← Config.stopOf cli
  validateEntriesPair 1 cli.entriesEndpoint1 cli.entriesXToken1
  validateEntriesPair 2 cli.entriesEndpoint2 cli.entriesXToken2
  Config.validateCommitments cli.commitment

/-- The settings next to those of the planner. -/
def assemble (cli : CommandLine) (overlay : TomlOverlay) (spec : AffinitySpec) (config : Config) :
    RunConfig × Option String :=
  ({ toConfig := config
     programsPath := cli.programs
     reconnectTestSecs := cli.reconnectTest
     output := cli.output
     rawRecords := cli.rawRecords <|> overlay.rawRecords
     cpuAffinity := if cli.realtime then { spec with processor := none } else spec
     realtime := cli.realtime
     allocator := cli.allocator
     logLevel := logLevelOf cli overlay
     maxDecodeMb := cli.maxDecodeMb
     ringCapacity := cli.ringCapacity },
   if cli.realtime then spec.processor.map realtimeWarning else none)

variable (nproc : Option ℕ) (cli : CommandLine) (overlay : TomlOverlay)

/-- Laying out the cores never panics. -/
theorem exists_affinityOf : ∃ r, affinityOf nproc cli overlay = some r := by
  have hauto : ∃ spec, AffinitySpec.autoFromNproc nproc = some spec := by
    by_cases h : 6 ≤ nproc.getD 4
    · obtain ⟨spec, hspec, -⟩ := AffinitySpec.exists_autoForCoreCount h
      exact ⟨spec, hspec⟩
    · exact ⟨{}, if_pos (Nat.lt_of_not_le h)⟩
  unfold affinityOf
  split
  · unfold AffinitySpec.parse
    dsimp only
    split_ifs
    · exact ⟨_, rfl⟩
    · obtain ⟨spec, hspec⟩ := hauto
      exact ⟨_, by rw [hspec]; rfl⟩
    · exact ⟨_, rfl⟩
    · exact ⟨_, rfl⟩
  · split
    · exact ⟨_, rfl⟩
    · exact ⟨_, rfl⟩

/-- The configuration against the settings of the planner: they are checked around the core list. -/
theorem run_fromCliAndOverlay : (fromCliAndOverlay nproc cli overlay).run =
    match earlyChecks cli.toCli, affinityOf nproc cli overlay, Config.fromCli cli.toCli with
    | .error e, _, _ => some (.error (.check e))
    | .ok (), none, _ => none
    | .ok (), some (.error e), _ => some (.error (.cpuAffinityParse e))
    | .ok (), some (.ok _), .error e => some (.error (.check e))
    | .ok (), some (.ok spec), .ok config => some (.ok (assemble cli overlay spec config)) := by
  unfold fromCliAndOverlay earlyChecks Config.fromCli
  rcases Config.stopOf cli.toCli with e | stop
  · rfl
  rcases validateEntriesPair 1 cli.entriesEndpoint1 cli.entriesXToken1 with e | ⟨⟩
  · rfl
  rcases validateEntriesPair 2 cli.entriesEndpoint2 cli.entriesXToken2 with e | ⟨⟩
  · rfl
  rcases Config.validateCommitments cli.commitment with e | ⟨⟩
  · rfl
  rcases affinityOf nproc cli overlay with _ | e | spec
  · rfl
  · rfl
  rcases Config.endpoint2Of cli.toCli with e | endpoint2
  · rfl
  rcases hrt : cli.realtime with _ | _
  · simp only [assemble, hrt]
    rfl
  · simp only [assemble, hrt]
    rfl

/-- What an error of the planner's settings is, once the first checks have passed. -/
theorem fromCli_error_iff (cli : Cli) (h : earlyChecks cli = .ok ()) (e : ConfigError) :
    Config.fromCli cli = .error e ↔
      cli.solo = false ∧ (cli.endpoint2 = none ∨ cli.xToken2 = none) ∧ e = .endpoint2Missing := by
  obtain ⟨stop, hstop, h⟩ := ok_of_bind h
  obtain ⟨⟨⟩, h1, h⟩ := ok_of_bind h
  obtain ⟨⟨⟩, h2, h⟩ := ok_of_bind h
  unfold Config.fromCli
  rw [hstop, h1, h2, h]
  show (Config.endpoint2Of cli >>= fun endpoint2 => _) = _ ↔ _
  unfold Config.endpoint2Of
  rcases hs : cli.solo with _ | _
  · rw [if_neg (by simp)]
    rcases cli.endpoint2 with _ | url
    · simp [bind, Except.bind, eq_comm]
    · rcases cli.xToken2 with _ | token
      · simp [bind, Except.bind, eq_comm]
      · simp [bind, Except.bind, pure, Except.pure]
  · rw [if_pos rfl]
    simp [bind, Except.bind, pure, Except.pure]

/-- The planner's settings pass the first checks. -/
theorem earlyChecks_of_fromCli {cli : Cli} {config : Config} (h : Config.fromCli cli = .ok config) :
    earlyChecks cli = .ok () := by
  obtain ⟨stop, hstop, h⟩ := ok_of_bind h
  obtain ⟨⟨⟩, h1, h⟩ := ok_of_bind h
  obtain ⟨⟨⟩, h2, h⟩ := ok_of_bind h
  obtain ⟨⟨⟩, hc, h⟩ := ok_of_bind h
  unfold earlyChecks
  rw [hstop, h1, h2, hc]
  rfl

theorem exists_run_fromCliAndOverlay :
    ∃ answer, (fromCliAndOverlay nproc cli overlay).run = some answer := by
  obtain ⟨r, hr⟩ := exists_affinityOf nproc cli overlay
  rw [run_fromCliAndOverlay, hr]
  rcases earlyChecks cli.toCli with c | ⟨⟩
  · exact ⟨_, rfl⟩
  rcases r with c | spec
  · exact ⟨_, rfl⟩
  rcases Config.fromCli cli.toCli with c | config
  · exact ⟨_, rfl⟩
  · exact ⟨_, rfl⟩

theorem run_fromCliAndOverlay_eq_ok_iff (config : RunConfig) (warning : Option String) :
    (fromCliAndOverlay nproc cli overlay).run = some (.ok (config, warning)) ↔
      ∃ spec, Config.fromCli cli.toCli = .ok config.toConfig ∧
        affinityOf nproc cli overlay = some (.ok spec) ∧
        (config, warning) = assemble cli overlay spec config.toConfig := by
  rw [run_fromCliAndOverlay]
  constructor
  · intro h
    rcases hchecks : earlyChecks cli.toCli with c | ⟨⟩
    · rw [hchecks] at h
      cases h
    rcases haffinity : affinityOf nproc cli overlay with _ | c | spec
    · rw [hchecks, haffinity] at h
      cases h
    · rw [hchecks, haffinity] at h
      cases h
    rcases hconfig : Config.fromCli cli.toCli with c | planned
    · rw [hchecks, haffinity, hconfig] at h
      cases h
    · rw [hchecks, haffinity, hconfig] at h
      cases h
      exact ⟨spec, rfl, rfl, rfl⟩
  · rintro ⟨spec, hconfig, haffinity, heq⟩
    rw [earlyChecks_of_fromCli hconfig, haffinity, hconfig, heq]

theorem run_fromCliAndOverlay_eq_error_iff (e : RunConfigError) :
    (fromCliAndOverlay nproc cli overlay).run = some (.error e) ↔
      (∃ c, earlyChecks cli.toCli = .error c ∧ e = .check c) ∨
      earlyChecks cli.toCli = .ok () ∧
        ((∃ c, affinityOf nproc cli overlay = some (.error c) ∧ e = .cpuAffinityParse c) ∨
        (∃ spec, affinityOf nproc cli overlay = some (.ok spec)) ∧ cli.solo = false ∧
          (cli.endpoint2 = none ∨ cli.xToken2 = none) ∧ e = .check .endpoint2Missing) := by
  rw [run_fromCliAndOverlay]
  rcases hchecks : earlyChecks cli.toCli with c | ⟨⟩
  · constructor
    · intro h
      cases h
      exact Or.inl ⟨c, rfl, rfl⟩
    · rintro (⟨c', hc, rfl⟩ | ⟨hc, -⟩)
      · cases hc
        rfl
      · cases hc
  rcases haffinity : affinityOf nproc cli overlay with _ | c | spec
  · simp
  · constructor
    · intro h
      cases h
      exact Or.inr ⟨rfl, Or.inl ⟨c, rfl, rfl⟩⟩
    · rintro (⟨c', hc, -⟩ | ⟨-, ⟨c', hc, rfl⟩ | ⟨⟨spec, hspec⟩, -⟩⟩)
      · cases hc
      · cases hc
        rfl
      · cases hspec
  have hlast := fromCli_error_iff cli.toCli hchecks
  rcases hconfig : Config.fromCli cli.toCli with c | config
  · obtain ⟨hsolo, hmissing, rfl⟩ := (hlast c).mp hconfig
    constructor
    · intro h
      cases h
      exact Or.inr ⟨rfl, Or.inr ⟨⟨spec, rfl⟩, hsolo, hmissing, rfl⟩⟩
    · rintro (⟨c, hc, -⟩ | ⟨-, ⟨c, hc, -⟩ | ⟨-, -, -, rfl⟩⟩)
      · cases hc
      · cases hc
      · rfl
  · refine iff_of_false (fun h => by cases h) ?_
    rintro (⟨c, hc, -⟩ | ⟨-, ⟨c, hc, -⟩ | ⟨-, hsolo, hmissing, -⟩⟩)
    · cases hc
    · cases hc
    · have herr := (hlast .endpoint2Missing).mpr ⟨hsolo, hmissing, rfl⟩
      rw [hconfig] at herr
      cases herr

/-- A setting of the overlay counts nowhere but where the command line has none; for the log level,
`info` is none. -/
theorem fromCliAndOverlay_congr {overlay' : TomlOverlay}
    (haffinity : cli.cpuAffinity = none → overlay.cpuAffinity = overlay'.cpuAffinity)
    (hrecords : cli.rawRecords = none → overlay.rawRecords = overlay'.rawRecords)
    (hlevel : cli.logLevel = "info" → overlay.logLevel = overlay'.logLevel) :
    fromCliAndOverlay nproc cli overlay = fromCliAndOverlay nproc cli overlay' := by
  have h1 : affinityOf nproc cli overlay = affinityOf nproc cli overlay' := by
    unfold affinityOf
    rcases ha : cli.cpuAffinity with _ | raw
    · rw [haffinity ha]
    · rfl
  have h2 : (cli.rawRecords <|> overlay.rawRecords) = (cli.rawRecords <|> overlay'.rawRecords) := by
    rcases hr : cli.rawRecords with _ | path
    · rw [hrecords hr]
    · rfl
  have h3 : logLevelOf cli overlay = logLevelOf cli overlay' := by
    unfold logLevelOf
    split_ifs with hl
    · rw [hlevel hl]
    · rfl
  have hassemble : assemble cli overlay = assemble cli overlay' := by
    funext spec config
    rw [assemble, assemble, h2, h3]
  refine ExceptT.ext ?_
  rw [run_fromCliAndOverlay, run_fromCliAndOverlay, h1, hassemble]

/-- The overlay of a run. -/
def overlayOf (readToString : String → Except String String)
    (parseToml : String → Except String TomlOverlay) (cli : CommandLine) :
    Except RunConfigError TomlOverlay :=
  match cli.config with
  | none => .ok {}
  | some path => loadTomlOverlay readToString parseToml path

theorem run_fromCli (readToString : String → Except String String)
    (parseToml : String → Except String TomlOverlay) :
    (fromCli readToString parseToml nproc cli).run =
      match overlayOf readToString parseToml cli with
      | .error e => some (.error e)
      | .ok overlay => (fromCliAndOverlay nproc cli overlay).run := by
  unfold fromCli overlayOf
  rcases cli.config with _ | path
  · rfl
  · dsimp only
    rcases loadTomlOverlay readToString parseToml path with e | overlay
    · rfl
    · rfl

/-- **The command line over the overlay.**  A command line always gets an answer.  It is accepted
exactly when its overlay can be read, the settings of the planner pass their checks and the core
list is one; the configuration is then that of the planner, and `--realtime` has taken the pin of
the processor away with a warning.  The first error is that of the overlay, then that of the
settings, then that of the core list, and last that of the second endpoint.  And a setting of the
overlay counts nowhere but where the command line has none; for the log level, `info` is none,
whether it is given or not. -/
theorem fromCli_exact (readToString : String → Except String String)
    (parseToml : String → Except String TomlOverlay) :
    (∃ answer, (fromCli readToString parseToml nproc cli).run = some answer) ∧
    (∀ config warning, (fromCli readToString parseToml nproc cli).run =
        some (.ok (config, warning)) ↔
      ∃ overlay spec, overlayOf readToString parseToml cli = .ok overlay ∧
        Config.fromCli cli.toCli = .ok config.toConfig ∧
        affinityOf nproc cli overlay = some (.ok spec) ∧
        (config, warning) = assemble cli overlay spec config.toConfig) ∧
    (∀ e, (fromCli readToString parseToml nproc cli).run = some (.error e) ↔
      overlayOf readToString parseToml cli = .error e ∨
      ∃ overlay, overlayOf readToString parseToml cli = .ok overlay ∧
        ((∃ c, earlyChecks cli.toCli = .error c ∧ e = .check c) ∨
        earlyChecks cli.toCli = .ok () ∧
          ((∃ c, affinityOf nproc cli overlay = some (.error c) ∧ e = .cpuAffinityParse c) ∨
          (∃ spec, affinityOf nproc cli overlay = some (.ok spec)) ∧ cli.solo = false ∧
            (cli.endpoint2 = none ∨ cli.xToken2 = none) ∧ e = .check .endpoint2Missing))) ∧
    ∀ overlay overlay' : TomlOverlay,
      (cli.cpuAffinity = none → overlay.cpuAffinity = overlay'.cpuAffinity) →
      (cli.rawRecords = none → overlay.rawRecords = overlay'.rawRecords) →
      (cli.logLevel = "info" → overlay.logLevel = overlay'.logLevel) →
      fromCliAndOverlay nproc cli overlay = fromCliAndOverlay nproc cli overlay' := by
  rw [run_fromCli]
  refine ⟨?_, fun config warning => ?_, fun e => ?_,
    fun overlay overlay' => fromCliAndOverlay_congr nproc cli overlay⟩
  all_goals rcases overlayOf readToString parseToml cli with e₀ | overlay
  · exact ⟨_, rfl⟩
  · exact exists_run_fromCliAndOverlay nproc cli overlay
  · simp
  · simp [run_fromCliAndOverlay_eq_ok_iff]
  · simp
  · simp [run_fromCliAndOverlay_eq_error_iff]

end RunConfig

end GrpcBench
