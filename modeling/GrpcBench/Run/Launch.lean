import GrpcBench.Proto.Audit
import GrpcBench.Run.Programs
import GrpcBench.Run.Solo
import GrpcBench.Subscribe.Plan

/-!
# The start of a run

`run.rs` and `subscribe/yellowstone.rs`: what `execute` does before it spawns the threads.  It loads
the programs, connects to each endpoint and evaluates its version, and plans the subscriptions; what
fails first ends it.  The transport and the servers are outside; here they are what they answer.
The token and the URL of an endpoint are parsed before anything is sent.

An endpoint is asked for its version, the server of an entries stream is not.

* `launch`: the start; `run_launch_eq_ok_iff` says when it succeeds.
* `System.measures_accepted`: what is measured came over endpoints that were not refused.
* `executes_of_tokensAlike`: no output shows a token.
-/

namespace GrpcBench

variable {B : Backend} {R : RawSink}

/-! ## Connecting -/

/-- `YellowstoneError`, for the errors of a connection. -/
inductive ConnectError where
  | invalidEndpoint (url source : String)
  | invalidXToken (url source : String)
  | connect (url source : String)
  deriving DecidableEq, Repr

/-- What the transport and the server of an endpoint answer. -/
structure Server where
  tlsConfig : Except String Unit
  /-- The connection, with TLS or without. -/
  connect : Bool → Except String Unit
  /-- `GetVersion`, asked with a token. -/
  getVersion : String → Except String String

/-- What a run meets when it starts. -/
structure Surroundings where
  decode : String → Except String (List UInt8)
  file : String → Except String (List (Except String String))
  reader : BlobReader
  quoted : String → String
  /-- `AsciiMetadataValue::from_str`. -/
  parseToken : String → Except String Unit
  /-- `Endpoint::from_shared`. -/
  fromShared : String → Except String Unit
  server : EndpointRole → Server

/-- TLS is used if it is forced, or if the URL asks for it. -/
def EndpointSpec.usesTls (e : EndpointSpec) : Bool :=
  e.tlsForced || "https://".toList.isPrefixOf e.url.toList

/-- `connect_with_decode_limit`. -/
def connectWithDecodeLimit (env : Surroundings) (server : Server) (e : EndpointSpec) :
    Except ConnectError Unit := do
  (env.parseToken e.xToken).mapError (.invalidXToken e.url)
  (env.fromShared e.url).mapError (.invalidEndpoint e.url)
  if e.usesTls then server.tlsConfig.mapError (.connect e.url)
  (server.connect e.usesTls).mapError (.connect e.url)

/-! ## The start -/

/-- What ends `execute` before it spawns the threads. -/
inductive LaunchError where
  | programs (error : ProgramsError)
  | endpoint2NotConfigured
  | connect (url : String) (error : ConnectError)
  | getVersion (url : String) (error : YellowstoneError)
  | emptyPlan
  deriving DecidableEq

/-- The text of the error, or of the context it is reported in. -/
def LaunchError.message : LaunchError → String
  | .programs _ => "load --programs TSV"
  | .endpoint2NotConfigured => "endpoint2 not configured (only valid with --solo)"
  | .connect url _ => "connect " ++ url
  | .getVersion url _ => "GetVersion " ++ url
  | .emptyPlan => "subscription plan is empty (no endpoints / commitments configured)"

/-- What a run starts with. -/
structure Launched where
  programs : ProgramSet
  ep1Version : EndpointVersion
  ep2Version : Option EndpointVersion
  protoMetadata : ProtoMetadata
  plan : SubscriptionPlan

/-- The metadata of the versions. -/
def protoMetadataOf (ep1Version : EndpointVersion) : Option EndpointVersion → ProtoMetadata
  | some v2 => ProtoMetadata.fromEndpoints ep1Version v2
  | none => ProtoMetadata.fromSingleEndpoint ep1Version

section Launch

variable (env : Surroundings)

/-- `connect_and_eval`; `none` is a panic. -/
def connectAndEval (config : Config) (role : EndpointRole) :
    ExceptT LaunchError Option EndpointVersion :=
  match config.endpointSpec role with
  | none => throw .endpoint2NotConfigured
  | some endpoint => do
    ExceptT.mk (some ((connectWithDecodeLimit env (env.server role) endpoint).mapError
      (.connect endpoint.url)))
    ExceptT.mk ((fetchAndEvaluateVersion env.reader env.quoted endpoint.url
      ((env.server role).getVersion endpoint.xToken)).map fun r =>
        r.mapError (.getVersion endpoint.url))

/-- The version of the second endpoint, if it is not a solo run. -/
def evalSecond (config : Config) : ExceptT LaunchError Option (Option EndpointVersion) :=
  if config.solo then pure none else some <$> connectAndEval env config .two

/-- The plan; an empty one ends the run. -/
def planned (config : Config) (programs : ProgramSet) :
    ExceptT LaunchError Option SubscriptionPlan :=
  let plan := SubscriptionPlan.fromRunConfig config programs
  if plan.specs = [] then throw .emptyPlan else pure plan

/-- The start of `execute`; `none` is a panic. -/
def launch (config : RunConfig) : ExceptT LaunchError Option Launched := do
  let programs ← ExceptT.mk (some ((ProgramSet.load env.decode config.programsPath
    (env.file config.programsPath)).mapError .programs))
  let ep1Version ← connectAndEval env config.toConfig .one
  let ep2Version ← evalSecond env config.toConfig
  let plan ← planned config.toConfig programs
  return ⟨programs, ep1Version, ep2Version, protoMetadataOf ep1Version ep2Version, plan⟩

end Launch

/-! ## When it succeeds -/

section Exact

variable {env : Surroundings}

/-- A sequence of actions succeeds if each of them does. -/
theorem run_bind_eq_ok_iff {E A C : Type} {x : ExceptT E Option A} {f : A → ExceptT E Option C}
    {c : C} : (x >>= f).run = some (.ok c) ↔
      ∃ a, x.run = some (.ok a) ∧ (f a).run = some (.ok c) := by
  show (x.run >>= ExceptT.bindCont f) = some (.ok c) ↔ _
  rcases x.run with _ | e | a
  · exact iff_of_false (fun h => by cases h) fun ⟨_, h, _⟩ => by cases h
  · exact iff_of_false (fun h => by cases h) fun ⟨_, h, _⟩ => by cases h
  · exact ⟨fun h => ⟨a, rfl, h⟩, fun ⟨a', ha, h⟩ => by cases ha; exact h⟩

theorem run_mapError_eq_ok_iff {E E' A : Type} {x : Option (Except E A)} {f : E → E'} {a : A} :
    (ExceptT.mk (x.map fun r => r.mapError f)).run = some (.ok a) ↔ x = some (.ok a) := by
  rcases x with _ | e | a'
  · exact iff_of_false (fun h => by cases h) fun h => by cases h
  · exact iff_of_false (fun h => by cases h) fun h => by cases h
  · exact ⟨fun h => by cases h; rfl, fun h => by cases h; rfl⟩

theorem fetch_eq_ok_iff {reader : BlobReader} {quoted : String → String} {url : String}
    {response : Except String String} {v : EndpointVersion} :
    fetchAndEvaluateVersion reader quoted url response = some (.ok v) ↔
      ∃ raw, response = .ok raw ∧ evaluate reader quoted raw = some v ∧
        v.compatibility.isRefusal = false := by
  constructor
  · intro h
    have hrefusal := not_isRefusal_of_fetch h
    rcases response with source | raw
    · cases h
    · obtain ⟨evaluation, hevaluate, h⟩ := Option.map_eq_some_iff.mp h
      refine ⟨raw, rfl, ?_, hrefusal⟩
      split at h <;> cases h
      exact hevaluate
  · rintro ⟨raw, rfl, hevaluate, hrefusal⟩
    rw [fetchAndEvaluateVersion, hevaluate, Option.map_some]
    split
    · rename_i hc
      rw [hc] at hrefusal
      cases hrefusal
    · rename_i hc
      rw [hc] at hrefusal
      cases hrefusal
    · rfl

/-- The endpoint connects, and answers with a version that is not refused. -/
def Accepted (env : Surroundings) (config : Config) (role : EndpointRole) (v : EndpointVersion) :
    Prop :=
  ∃ endpoint raw, config.endpointSpec role = some endpoint ∧
    connectWithDecodeLimit env (env.server role) endpoint = .ok () ∧
    (env.server role).getVersion endpoint.xToken = .ok raw ∧
    evaluate env.reader env.quoted raw = some v ∧ v.compatibility.isRefusal = false

theorem run_connectAndEval_eq_ok_iff {config : Config} {role : EndpointRole}
    {v : EndpointVersion} :
    (connectAndEval env config role).run = some (.ok v) ↔ Accepted env config role v := by
  rw [connectAndEval, Accepted]
  rcases config.endpointSpec role with _ | endpoint
  · exact iff_of_false (fun h => by cases h) fun ⟨_, _, h, _⟩ => by cases h
  · dsimp only
    rw [run_bind_eq_ok_iff]
    constructor
    · rintro ⟨⟨⟩, hconnect, hfetch⟩
      obtain ⟨raw, hraw, hevaluate, hrefusal⟩ :=
        fetch_eq_ok_iff.mp (run_mapError_eq_ok_iff.mp hfetch)
      have hconnect := run_mapError_eq_ok_iff (x := some _).mp hconnect
      exact ⟨endpoint, raw, rfl, Option.some.inj hconnect, hraw, hevaluate, hrefusal⟩
    · rintro ⟨endpoint', raw, hendpoint, hconnect, hraw, hevaluate, hrefusal⟩
      obtain rfl := Option.some.inj hendpoint
      exact ⟨(), run_mapError_eq_ok_iff (x := some _).mpr (congrArg some hconnect),
        run_mapError_eq_ok_iff.mpr (fetch_eq_ok_iff.mpr ⟨raw, hraw, hevaluate, hrefusal⟩)⟩

theorem run_evalSecond_eq_ok_iff {config : Config} {ep2Version : Option EndpointVersion} :
    (evalSecond env config).run = some (.ok ep2Version) ↔
      (∀ v, ep2Version = some v → Accepted env config .two v) ∧
        ep2Version.isSome = !config.solo := by
  rw [evalSecond]
  rcases hsolo : config.solo with _ | _
  · rw [if_neg Bool.false_ne_true, map_eq_pure_bind, run_bind_eq_ok_iff]
    constructor
    · rintro ⟨v, hv, heq⟩
      cases heq
      exact ⟨fun v' hv' => Option.some.inj hv' ▸ run_connectAndEval_eq_ok_iff.mp hv, rfl⟩
    · rintro ⟨haccepted, hsome⟩
      obtain ⟨v, rfl⟩ := Option.isSome_iff_exists.mp hsome
      exact ⟨v, run_connectAndEval_eq_ok_iff.mpr (haccepted v rfl), rfl⟩
  · rw [if_pos rfl]
    constructor
    · intro heq
      cases heq
      exact ⟨fun v hv => (by cases hv), rfl⟩
    · rintro ⟨-, hnone⟩
      rw [Option.isSome_eq_false_iff.mp hnone |> Option.isNone_iff_eq_none.mp]
      rfl

theorem run_planned_eq_ok_iff {config : Config} {programs : ProgramSet}
    {plan : SubscriptionPlan} : (planned config programs).run = some (.ok plan) ↔
      plan = SubscriptionPlan.fromRunConfig config programs ∧ plan.specs ≠ [] := by
  rw [planned]
  split_ifs with hempty
  · exact iff_of_false (fun h => by cases h) fun ⟨heq, hne⟩ => hne (heq ▸ hempty)
  · constructor
    · intro heq
      cases heq
      exact ⟨rfl, hempty⟩
    · rintro ⟨rfl, -⟩
      rfl

/-- The version of an endpoint. -/
def Launched.versionOf (l : Launched) : EndpointRole → Option EndpointVersion
  | .one => some l.ep1Version
  | .two => l.ep2Version

/-- **When a run starts**: the programs file loads, every endpoint that is asked is accepted, and
there is something to subscribe to. -/
theorem run_launch_eq_ok_iff {config : RunConfig} {l : Launched} :
    (launch env config).run = some (.ok l) ↔
      ProgramSet.load env.decode config.programsPath (env.file config.programsPath) =
        .ok l.programs ∧
      (∀ e v, l.versionOf e = some v → Accepted env config.toConfig e v) ∧
      l.ep2Version.isSome = !config.solo ∧
      l.protoMetadata = protoMetadataOf l.ep1Version l.ep2Version ∧
      l.plan = SubscriptionPlan.fromRunConfig config.toConfig l.programs ∧ l.plan.specs ≠ [] := by
  simp only [launch, run_bind_eq_ok_iff, run_connectAndEval_eq_ok_iff, run_evalSecond_eq_ok_iff,
    run_planned_eq_ok_iff]
  constructor
  · rintro ⟨programs, hload, v1, hone, ep2Version, ⟨htwo, hsome⟩, plan, ⟨hplan, hne⟩, heq⟩
    cases heq
    have hload := run_mapError_eq_ok_iff (x := some _).mp hload
    refine ⟨Option.some.inj hload, fun e v hv => ?_, hsome, rfl, hplan, hne⟩
    cases e
    · exact Option.some.inj hv ▸ hone
    · exact htwo v hv
  · rintro ⟨hload, haccepted, hsome, hproto, hplan, hne⟩
    refine ⟨l.programs, run_mapError_eq_ok_iff (x := some _).mpr (congrArg some hload),
      l.ep1Version, haccepted .one _ rfl, l.ep2Version, ⟨haccepted .two, hsome⟩, l.plan,
      ⟨hplan, hne⟩, ?_⟩
    rw [← hproto]
    rfl

end Exact

/-! ## What is on an accepted endpoint -/

/-- The endpoint that the configuration has for a subscription. -/
def Config.specFor (config : Config) : SubscriptionRole → Option EndpointSpec
  | .main e _ _ => config.endpointSpec e
  | .entries e => config.entriesSpec e

/-- A subscription is on the endpoint that the configuration has for it. -/
theorem SubscriptionPlan.specFor_of_mem {config : Config} {programs : ProgramSet}
    {spec : SubscriptionSpec} (h : spec ∈ (fromRunConfig config programs).specs) :
    config.specFor spec.role = some spec.endpoint := by
  have hmain : ∀ e, spec ∈ mainSpecs config programs.programIds e →
      config.specFor spec.role = some spec.endpoint := by
    intro e hin
    unfold mainSpecs at hin
    rcases hendpoint : config.endpointSpec e with _ | endpoint
    · rw [hendpoint] at hin
      cases hin
    · rw [hendpoint] at hin
      rcases List.mem_cons.mp hin with rfl | hin
      · exact hendpoint
      · obtain ⟨commitment, -, hin⟩ := List.mem_flatMap.mp hin
        obtain ⟨stream, owners, -, rfl⟩ := mem_commitmentSpecs hin
        exact hendpoint
  have hentries : ∀ e, spec ∈ entriesSpecs config e →
      config.specFor spec.role = some spec.endpoint := by
    intro e hin
    unfold entriesSpecs at hin
    rcases hendpoint : config.entriesSpec e with _ | endpoint
    · rw [hendpoint] at hin
      cases hin
    · rw [hendpoint] at hin
      rw [List.mem_singleton.mp hin]
      exact hendpoint
  unfold fromRunConfig at h
  dsimp only at h
  split_ifs at h
  · obtain ⟨stream, rfl⟩ := mem_soloSpecs h
    rfl
  · rw [List.mem_append, List.mem_append, List.mem_append] at h
    rcases h with ((h | h) | h) | h
    · exact hmain _ h
    · exact hmain _ h
    · exact hentries _ h
    · exact hentries _ h

/-- A main subscription is on an endpoint of the configuration. -/
theorem SubscriptionPlan.endpoint_of_mem {config : Config} {programs : ProgramSet}
    {spec : SubscriptionSpec} (h : spec ∈ (fromRunConfig config programs).specs)
    (hmain : spec.role.isEntries = false) :
    config.endpointSpec spec.role.endpoint = some spec.endpoint := by
  have hspec := specFor_of_mem h
  rcases hrole : spec.role with ⟨e, commitment, stream⟩ | e
  · rw [hrole] at hspec
    exact hspec
  · rw [hrole] at hmain
    cases hmain

/-! ## The whole run -/

/-- The roles of the subscriptions. -/
def Launched.roles (l : Launched) : List SubscriptionRole :=
  l.plan.specs.map SubscriptionSpec.role

/-- What the report is put together from, with what is known around the run. -/
def Launched.context {Host : Type} (l : Launched) (config : RunConfig) (ctx : RunContext Host) :
    RunContext Host :=
  { ctx with
    config := config
    programs := l.programs
    protoMetadata := l.protoMetadata
    ep1Version := l.ep1Version
    ep2Version := l.ep2Version }

/-- The receiver of a subscription can connect: some server lets it. -/
def Launched.CanConnect (env : Surroundings) (l : Launched) (i : ℕ) : Prop :=
  ∀ spec, l.plan.specs[i]? = some spec →
    ∃ server, connectWithDecodeLimit env server spec.endpoint = .ok ()

namespace System

/-- A finished run of the system with these subscriptions and settings, in which only receivers that
can have connected, and its output. -/
def Outputs {Host : Type} (B : Backend) (R : RawSink) (roles : List SubscriptionRole)
    (names : Finmap fun _ : Pubkey32 => String) (rawWriter : Option R.State) (canConnect : ℕ → Prop)
    (ctx : RunContext Host) (out : RunOutput Host) : Prop :=
  ∃ (s : System B R roles) (actions : List (SystemAction roles.length)),
    (start (Pipeline.start B names ctx.config.strictAccountKey rawWriter roles
      ctx.config.ringCapacity)).run ctx.config.stop actions = some s ∧
    (∀ i : Fin roles.length, .receiver i (.connect (.ok ())) ∈ actions → canConnect i) ∧
    s.Finished ∧
    ∃ order order', out = s.seen.output ctx order order'

end System

/-- `execute` writes this output, in some run. -/
def Executes {Host : Type} (B : Backend) (R : RawSink) (env : Surroundings) (config : RunConfig)
    (rawWriter : Option R.State) (ctx : RunContext Host) (out : RunOutput Host) : Prop :=
  ∃ l, (launch env config).run = some (.ok l) ∧
    System.Outputs B R l.roles (l.programs.programNames env.decode) rawWriter (l.CanConnect env)
      (l.context config ctx) out

/-! ## What is measured -/

/-- A main subscription is on an endpoint that was accepted. -/
theorem Launched.accepted_of_mem {env : Surroundings} {config : RunConfig} {l : Launched}
    (h : (launch env config).run = some (.ok l)) {spec : SubscriptionSpec}
    (hspec : spec ∈ l.plan.specs) (hmain : spec.role.isEntries = false) :
    config.endpointSpec spec.role.endpoint = some spec.endpoint ∧
      ∃ v, l.versionOf spec.role.endpoint = some v ∧
        Accepted env config.toConfig spec.role.endpoint v := by
  obtain ⟨-, haccepted, hsome, -, hplan, -⟩ := run_launch_eq_ok_iff.mp h
  rw [hplan] at hspec
  refine ⟨SubscriptionPlan.endpoint_of_mem hspec hmain, ?_⟩
  have hversion : (l.versionOf spec.role.endpoint).isSome = true := by
    rcases he : spec.role.endpoint with _ | _
    · rfl
    · rcases hsolo : config.solo with _ | _
      · rw [versionOf, hsome, hsolo]
        rfl
      · rw [SubscriptionPlan.endpoint_of_solo hsolo hspec] at he
        cases he
  obtain ⟨v, hv⟩ := Option.isSome_iff_exists.mp hversion
  exact ⟨v, hv, haccepted _ v hv⟩

/-- A line of the report is that of an endpoint that was accepted, with the version it gave. -/
theorem Launched.accepted_of_line {env : Surroundings} {config : RunConfig} {l : Launched}
    (h : (launch env config).run = some (.ok l)) {Host : Type} {roles : List SubscriptionRole}
    (r : EndOfRun B R roles) (ctx : RunContext Host) (order order') {line : EndpointInfo}
    (hline : line ∈ (r.output (l.context config ctx) order order').endpoints) :
    ∃ e endpoint v, config.endpointSpec e = some endpoint ∧ Accepted env config.toConfig e v ∧
      line.role = RunOutput.roleLabel e ∧ line.endpoint = endpoint.url ∧
      line.pluginType = v.package.getD "yellowstone" ∧
      line.pluginVersion = v.pluginVersion.getD "unknown" := by
  obtain ⟨-, haccepted, -⟩ := run_launch_eq_ok_iff.mp h
  rcases List.mem_cons.mp hline with rfl | hline
  · exact ⟨.one, config.endpoint1, l.ep1Version, rfl, haccepted .one _ rfl, rfl, rfl, rfl, rfl⟩
  · simp only [context] at hline
    split at hline
    · rename_i endpoint v hendpoint hv
      rw [List.mem_singleton.mp hline]
      exact ⟨.two, endpoint, v, hendpoint, haccepted .two v hv, rfl, rfl, rfl, rfl⟩
    · cases hline

/-- **What is measured was accepted.**  Whatever the threads do, an event that the trackers have
taken from a main subscription came over an endpoint that connected and whose version was not
refused, and so did every line of the report.  Entries are no main subscription: their servers are
not asked. -/
theorem System.measures_accepted {env : Surroundings} {config : RunConfig} {l : Launched}
    (hlaunch : (launch env config).run = some (.ok l)) {stop : StopCondition}
    {names : Finmap fun _ : Pubkey32 => String} {strict : Bool} {rawWriter : Option R.State}
    {ringCapacity : ℕ} {s : System B R l.roles} {actions : List (SystemAction l.roles.length)}
    (h : (start (Pipeline.start B names strict rawWriter l.roles ringCapacity)).run stop actions =
      some s) :
    (∃ taken : List Event,
      s.pipeline.ingest = (IngestState.start B names strict rawWriter).ingestAll taken ∧
      ∀ event ∈ taken, event.subscription.isEntries = false →
        ∃ spec ∈ l.plan.specs, spec.role = event.subscription ∧
          config.endpointSpec event.endpoint = some spec.endpoint ∧
          ∃ v, l.versionOf event.endpoint = some v ∧
            Accepted env config.toConfig event.endpoint v) ∧
    ∀ {Host : Type} (ctx : RunContext Host) order order',
      ∀ line ∈ (s.seen.output (l.context config ctx) order order').endpoints,
        ∃ e endpoint v, config.endpointSpec e = some endpoint ∧
          Accepted env config.toConfig e v ∧ line.role = RunOutput.roleLabel e ∧
          line.endpoint = endpoint.url ∧ line.pluginType = v.package.getD "yellowstone" ∧
          line.pluginVersion = v.pluginVersion.getD "unknown" := by
  refine ⟨?_, fun ctx order order' line hline =>
    Launched.accepted_of_line hlaunch s.seen ctx order order' hline⟩
  have hreach := (inOrder_run h).reaches
  rw [Pipeline.start_eq_spawn] at hreach
  obtain ⟨threads, hrun⟩ := hreach
  obtain ⟨t, -, -, hingest, hsubscription, -⟩ := Pipeline.exists_dispatched hrun
  refine ⟨(dispatched t.history).map Prod.snd, hingest, fun event hevent hmain => ?_⟩
  obtain ⟨p, hp, rfl⟩ := List.mem_map.mp hevent
  have hrole : p.2.subscription ∈ l.roles := by
    rw [hsubscription p hp]
    exact List.get_mem _ _
  obtain ⟨spec, hspec, hspecrole⟩ := List.mem_map.mp hrole
  obtain ⟨hendpoint, hversion⟩ := Launched.accepted_of_mem hlaunch hspec (hspecrole ▸ hmain)
  rw [hspecrole] at hendpoint hversion
  exact ⟨spec, hspec, hspecrole, hendpoint, hversion⟩

section Example

/-- The slots of one endpoint. -/
def soloConfig : RunConfig :=
  { EndOfRun.transactionContext.config with
    endpoint2 := none
    solo := true
    soloStreams := [.slots] }

/-- A programs file with the system program, and servers of the build's own version. -/
def sameVersion : Surroundings where
  decode := (FrameLibrary.base58 fun _ => none).bs58Decode
  file _ := .ok [.ok "system\t11111111111111111111111111111111"]
  reader := ⟨fun _ => none, fun _ => none⟩
  quoted s := "\"" ++ s ++ "\""
  parseToken token :=
    if token.toList.all fun c => c = '\t' || (' ' ≤ c && c ≤ '~') then .ok ()
    else .error "failed to parse metadata value"
  fromShared _ := .ok ()
  server _ := ⟨.ok (), fun _ => .ok (), fun _ => .ok "12.3.0"⟩

/-- What the run starts with. -/
def soloLaunched : Launched :=
  let version := evaluatePlain harnessProto "12.3.0" "\"12.3.0\""
  ⟨⟨"programs.csv", ProgramSet.system.entries⟩, version, none, protoMetadataOf version none,
    ⟨[⟨.main .one .processed .slots, soloConfig.endpoint1,
      buildMainRequestFor .processed ["11111111111111111111111111111111"] .slots⟩]⟩⟩

theorem run_launch_sameVersion :
    (launch sameVersion soloConfig).run = some (.ok soloLaunched) := by
  have hversion : evaluate sameVersion.reader sameVersion.quoted "12.3.0" =
      some soloLaunched.ep1Version := by decide +kernel
  have haccept : soloLaunched.ep1Version.compatibility.isRefusal = false := by decide +kernel
  refine run_launch_eq_ok_iff.mpr ⟨rfl, fun e v hv => ?_, rfl, rfl, rfl, List.cons_ne_nil _ _⟩
  cases e with
  | one =>
    obtain rfl := Option.some.inj hv
    exact ⟨soloConfig.endpoint1, "12.3.0", rfl, rfl, rfl, hversion, haccept⟩
  | two => cases hv

/-- A solo run over the slots of a server of the build's own version: a slot comes. -/
theorem System.measures_accepted_one_slot :
    let actions : List (SystemAction soloLaunched.roles.length) :=
      deliver ⟨0, Nat.zero_lt_one⟩ (.event ⟨4, 0⟩ (.slot 5 .processed)) ++ [.dispatcher .one false]
    ∃ s : System Backend.exact ⟨Unit, fun _ _ => ()⟩ soloLaunched.roles,
      (start (Pipeline.start Backend.exact ∅ false none soloLaunched.roles 16)).run (.duration 60)
        actions = some s ∧ s.pipeline.ingest.shared.totalSlots = 1 ∧
      ∃ taken : List Event,
        s.pipeline.ingest = (IngestState.start Backend.exact ∅ false none).ingestAll taken ∧
        ∀ event ∈ taken, event.subscription.isEntries = false →
          ∃ v, Accepted sameVersion soloConfig.toConfig event.endpoint v := by
  intro actions
  have hrun : ((start (Pipeline.start Backend.exact ∅ false none soloLaunched.roles 16 :
      Pipeline Backend.exact ⟨Unit, fun _ _ => ()⟩ soloLaunched.roles)).run (.duration 60)
        actions).map (fun s => s.pipeline.ingest.shared.totalSlots) = some 1 := by decide
  obtain ⟨s, hs, htotal⟩ := Option.map_eq_some_iff.mp hrun
  obtain ⟨⟨taken, hingest, htaken⟩, -⟩ := measures_accepted run_launch_sameVersion hs
  refine ⟨s, hs, htotal, taken, hingest, fun event hevent hmain => ?_⟩
  obtain ⟨-, -, -, -, v, -, hv⟩ := htaken event hevent hmain
  exact ⟨v, hv⟩

end Example

/-! ## Tokens -/

/-- The subscription with no token. -/
def SubscriptionSpec.withoutToken (spec : SubscriptionSpec) : SubscriptionSpec :=
  { spec with endpoint := spec.endpoint.withoutToken }

/-- The start with no token. -/
def Launched.withoutTokens (l : Launched) : Launched :=
  { l with plan := ⟨l.plan.specs.map SubscriptionSpec.withoutToken⟩ }

@[simp] theorem Launched.roles_withoutTokens (l : Launched) : l.withoutTokens.roles = l.roles := by
  rw [roles, withoutTokens, List.map_map]
  rfl

/-- The endpoints with no token. -/
theorem RunConfig.endpointSpec_withoutTokens (c : RunConfig) (e : EndpointRole) :
    c.withoutTokens.toConfig.endpointSpec e =
      (c.toConfig.endpointSpec e).map EndpointSpec.withoutToken := by
  cases e <;> rfl

theorem RunConfig.entriesSpec_withoutTokens (c : RunConfig) (e : EndpointRole) :
    c.withoutTokens.toConfig.entriesSpec e =
      (c.toConfig.entriesSpec e).map EndpointSpec.withoutToken := by
  cases e <;> rfl

namespace SubscriptionPlan

variable (c : RunConfig) (programIds : List String)

theorem soloSpecs_withoutTokens (seen streams : List MainStream) :
    soloSpecs c.withoutTokens.toConfig programIds seen streams =
      (soloSpecs c.toConfig programIds seen streams).map SubscriptionSpec.withoutToken := by
  induction streams generalizing seen with
  | nil => rfl
  | cons stream rest ih =>
    rw [soloSpecs, soloSpecs]
    split_ifs
    · exact ih seen
    · rw [List.map_cons, ih]
      rfl

theorem mainSpecs_withoutTokens (e : EndpointRole) :
    mainSpecs c.withoutTokens.toConfig programIds e =
      (mainSpecs c.toConfig programIds e).map SubscriptionSpec.withoutToken := by
  rw [mainSpecs, mainSpecs, c.endpointSpec_withoutTokens]
  rcases c.toConfig.endpointSpec e with _ | endpoint
  · rfl
  · rw [Option.map_some]
    dsimp only
    rw [List.map_cons, List.map_flatMap]
    refine congrArg₂ _ rfl (List.flatMap_congr fun commitment _ => ?_)
    rw [commitmentSpecs, commitmentSpecs, List.map_append, List.map_map, List.map_map]
    rfl

theorem entriesSpecs_withoutTokens (e : EndpointRole) :
    entriesSpecs c.withoutTokens.toConfig e =
      (entriesSpecs c.toConfig e).map SubscriptionSpec.withoutToken := by
  rw [entriesSpecs, entriesSpecs, c.entriesSpec_withoutTokens]
  rcases c.toConfig.entriesSpec e with _ | endpoint <;> rfl

/-- The plan with no token. -/
theorem fromRunConfig_withoutTokens (programs : ProgramSet) :
    fromRunConfig c.withoutTokens.toConfig programs =
      ⟨(fromRunConfig c.toConfig programs).specs.map SubscriptionSpec.withoutToken⟩ := by
  have hsolo : c.withoutTokens.toConfig.solo = c.toConfig.solo := rfl
  rw [fromRunConfig, fromRunConfig, hsolo]
  split_ifs
  · exact congrArg mk (soloSpecs_withoutTokens c programs.programIds [] _)
  · simp only [List.map_append, mainSpecs_withoutTokens, entriesSpecs_withoutTokens]

end SubscriptionPlan

theorem planned_withoutTokens (c : RunConfig) (programs : ProgramSet) :
    planned c.withoutTokens.toConfig programs =
      (fun plan => ⟨plan.specs.map SubscriptionSpec.withoutToken⟩) <$>
        planned c.toConfig programs := by
  have hempty : (SubscriptionPlan.fromRunConfig c.withoutTokens.toConfig programs).specs = [] ↔
      (SubscriptionPlan.fromRunConfig c.toConfig programs).specs = [] := by
    rw [SubscriptionPlan.fromRunConfig_withoutTokens, List.map_eq_nil_iff]
  simp only [planned, hempty]
  split_ifs
  · rfl
  · rw [SubscriptionPlan.fromRunConfig_withoutTokens]
    rfl

/-- The start of a run, with the tokens taken out of its plan. -/
theorem launch_withoutTokens (env : Surroundings) (c : RunConfig) :
    Launched.withoutTokens <$> launch env c = (do
      let programs ← ExceptT.mk (some ((ProgramSet.load env.decode c.programsPath
        (env.file c.programsPath)).mapError .programs))
      let ep1Version ← connectAndEval env c.toConfig .one
      let ep2Version ← evalSecond env c.toConfig
      let plan ← planned c.withoutTokens.toConfig programs
      return ⟨programs, ep1Version, ep2Version, protoMetadataOf ep1Version ep2Version, plan⟩) := by
  rw [launch]
  simp only [planned_withoutTokens, map_eq_pure_bind, bind_assoc, pure_bind]
  rfl

/-- The output does not show the tokens. -/
theorem EndOfRun.output_withoutTokens {Host : Type} {roles : List SubscriptionRole}
    (r : EndOfRun B R roles) (c : RunConfig) (l : Launched) (ctx : RunContext Host) (order order') :
    r.output (l.withoutTokens.context c.withoutTokens ctx) order order' =
      r.output (l.context c ctx) order order' := by
  have hecho := ConfigEcho.fromConfig_withoutTokens c
  have htwo : c.withoutTokens.endpoint2 = c.endpoint2.map EndpointSpec.withoutToken := rfl
  simp only [output, assembleOutput, Launched.context, hecho, htwo]
  rcases c.endpoint2 with _ | endpoint2
  · rfl
  · rcases hversion : l.withoutTokens.ep2Version with _ | v <;>
      rw [show l.ep2Version = _ from hversion] <;> rfl

/-- A token that does not parse ends the start. -/
theorem run_launch_of_invalid_token {env : Surroundings} {c : RunConfig} {programs : ProgramSet}
    (hload : ProgramSet.load env.decode c.programsPath (env.file c.programsPath) = .ok programs)
    {source : String} (htoken : env.parseToken c.endpoint1.xToken = .error source) :
    (launch env c).run = some (.error (.connect c.endpoint1.url
      (.invalidXToken c.endpoint1.url source))) := by
  have hconnect : connectWithDecodeLimit env (env.server .one) c.endpoint1 =
      .error (.invalidXToken c.endpoint1.url source) := by
    rw [connectWithDecodeLimit, htoken]
    rfl
  have hone : connectAndEval env c.toConfig .one = ExceptT.mk (some (.error
      (.connect c.endpoint1.url (.invalidXToken c.endpoint1.url source)))) := by
    have hendpoint : c.toConfig.endpointSpec .one = some c.endpoint1 := rfl
    simp only [connectAndEval, hendpoint, hconnect]
    rfl
  rw [launch, hload, hone]
  rfl

/-! ## Tokens that fare alike -/

/-- The two configurations differ in their tokens only, and these fare alike: they parse alike, and
the server of an endpoint answers both with the same version. -/
structure RunConfig.TokensAlike (env : Surroundings) (c c' : RunConfig) : Prop where
  rest : c.withoutTokens = c'.withoutTokens
  parse : ∀ role s s', c.toConfig.specFor role = some s → c'.toConfig.specFor role = some s' →
    env.parseToken s.xToken = env.parseToken s'.xToken
  version : ∀ e s s', c.toConfig.endpointSpec e = some s → c'.toConfig.endpointSpec e = some s' →
    (env.server e).getVersion s.xToken = (env.server e).getVersion s'.xToken

section Alike

variable {env : Surroundings} {c c' : RunConfig}

theorem RunConfig.TokensAlike.symm (h : c.TokensAlike env c') : c'.TokensAlike env c where
  rest := h.rest.symm
  parse role s s' hs hs' := (h.parse role s' s hs' hs).symm
  version e s s' hs hs' := (h.version e s' s hs' hs).symm

/-- An endpoint connects as the other does, if the two differ in tokens that parse alike. -/
theorem connectWithDecodeLimit_congr {s s' : EndpointSpec}
    (hrest : s.withoutToken = s'.withoutToken)
    (hparse : env.parseToken s.xToken = env.parseToken s'.xToken) (server : Server) :
    connectWithDecodeLimit env server s = connectWithDecodeLimit env server s' := by
  have hurl : s.url = s'.url := (congrArg EndpointSpec.url hrest :)
  have htls : s.usesTls = s'.usesTls := (congrArg EndpointSpec.usesTls hrest :)
  rw [connectWithDecodeLimit, connectWithDecodeLimit, hparse, hurl, htls]

theorem RunConfig.TokensAlike.connectAndEval_eq (h : c.TokensAlike env c') (e : EndpointRole) :
    connectAndEval env c.toConfig e = connectAndEval env c'.toConfig e := by
  have hspecs : (c.toConfig.endpointSpec e).map EndpointSpec.withoutToken =
      (c'.toConfig.endpointSpec e).map EndpointSpec.withoutToken := by
    rw [← c.endpointSpec_withoutTokens, ← c'.endpointSpec_withoutTokens, h.rest]
  rw [connectAndEval, connectAndEval]
  rcases hs : c.toConfig.endpointSpec e with _ | s <;>
    rcases hs' : c'.toConfig.endpointSpec e with _ | s' <;> rw [hs, hs'] at hspecs
  · cases hspecs
  · cases hspecs
  · have hrest := Option.some.inj hspecs
    have hurl : s.url = s'.url := (congrArg EndpointSpec.url hrest :)
    dsimp only
    rw [connectWithDecodeLimit_congr hrest (h.parse (.main e .processed .slots) s s' hs hs'),
      h.version e s s' hs hs', hurl]

/-- The start of a run does not depend on the tokens. -/
theorem RunConfig.TokensAlike.launch_eq (h : c.TokensAlike env c') :
    Launched.withoutTokens <$> launch env c = Launched.withoutTokens <$> launch env c' := by
  have hpath : c.programsPath = c'.programsPath :=
    (congrArg (fun c : RunConfig => c.programsPath) h.rest :)
  have hsolo : c.solo = c'.solo := (congrArg (fun c : RunConfig => c.solo) h.rest :)
  have hsecond : evalSecond env c.toConfig = evalSecond env c'.toConfig := by
    rw [evalSecond, evalSecond, h.connectAndEval_eq, hsolo]
  rw [launch_withoutTokens, launch_withoutTokens, h.rest, hpath, hsecond, h.connectAndEval_eq]

/-- The receivers that can connect are the same. -/
theorem RunConfig.TokensAlike.canConnect (h : c.TokensAlike env c') {l l' : Launched}
    (hl : (launch env c).run = some (.ok l)) (hl' : (launch env c').run = some (.ok l'))
    (hsame : l.withoutTokens = l'.withoutTokens) {i : ℕ} (hi : l.CanConnect env i) :
    l'.CanConnect env i := by
  intro spec' hspec'
  obtain ⟨-, -, -, -, hplan, -⟩ := run_launch_eq_ok_iff.mp hl
  obtain ⟨-, -, -, -, hplan', -⟩ := run_launch_eq_ok_iff.mp hl'
  have hspecs : l.plan.specs.map SubscriptionSpec.withoutToken =
      l'.plan.specs.map SubscriptionSpec.withoutToken :=
    congrArg (fun l => l.plan.specs) hsame
  have hget := congrArg (fun specs => specs[i]?) hspecs
  simp only [List.getElem?_map, hspec', Option.map_some] at hget
  obtain ⟨spec, hspec, heq⟩ := Option.map_eq_some_iff.mp hget
  obtain ⟨server, hserver⟩ := hi spec hspec
  have hrole : spec.role = spec'.role := (congrArg SubscriptionSpec.role heq :)
  have hmem := SubscriptionPlan.specFor_of_mem (hplan ▸ List.mem_of_getElem? hspec)
  have hmem' := SubscriptionPlan.specFor_of_mem (hplan' ▸ List.mem_of_getElem? hspec')
  rw [hrole] at hmem
  refine ⟨server, ?_⟩
  rw [← hserver]
  exact (connectWithDecodeLimit_congr (congrArg SubscriptionSpec.endpoint heq :)
    (h.parse _ _ _ hmem hmem') server).symm

theorem System.outputs_withoutTokens {Host : Type} (l : Launched) (c : RunConfig)
    (names : Finmap fun _ : Pubkey32 => String) (rawWriter : Option R.State)
    (canConnect : ℕ → Prop) (ctx : RunContext Host) (out : RunOutput Host) :
    Outputs B R l.withoutTokens.roles names rawWriter canConnect
        (l.withoutTokens.context c.withoutTokens ctx) out ↔
      Outputs B R l.roles names rawWriter canConnect (l.context c ctx) out := by
  rw [Launched.roles_withoutTokens, Outputs, Outputs]
  simp only [EndOfRun.output_withoutTokens]
  rfl

theorem RunConfig.TokensAlike.executes (h : c.TokensAlike env c') {Host : Type}
    {rawWriter : Option R.State} {ctx : RunContext Host} {out : RunOutput Host}
    (hout : Executes B R env c rawWriter ctx out) : Executes B R env c' rawWriter ctx out := by
  obtain ⟨l, hl, hout⟩ := hout
  have hrun := congrArg ExceptT.run h.launch_eq
  rw [ExceptT.run_map, ExceptT.run_map, hl] at hrun
  obtain ⟨r, hr, hsame⟩ := Option.map_eq_some_iff.mp hrun.symm
  rcases r with e | l'
  · cases hsame
  · have hsame : l.withoutTokens = l'.withoutTokens := (Except.ok.inj hsame).symm
    have hcan : l.CanConnect env = l'.CanConnect env := funext fun i => propext
      ⟨h.canConnect hl hr hsame, h.symm.canConnect hr hl hsame.symm⟩
    have hprograms : l.programs = l'.programs := (congrArg Launched.programs hsame :)
    refine ⟨l', hr, ?_⟩
    rw [← System.outputs_withoutTokens, ← hsame, ← h.rest, ← hcan, ← hprograms,
      System.outputs_withoutTokens]
    exact hout

/-- **The tokens do not matter.**  Two configurations that differ in their tokens only start, or
fail to start, in the same way and can write the same outputs, if the tokens parse alike and the
servers answer alike: nothing of a token is in an output. -/
theorem executes_of_tokensAlike {Host : Type} (h : c.TokensAlike env c')
    (rawWriter : Option R.State) (ctx : RunContext Host) :
    (launch env c).run.map (Except.map fun _ => ()) =
        (launch env c').run.map (Except.map fun _ => ()) ∧
      ∀ out, Executes B R env c rawWriter ctx out ↔ Executes B R env c' rawWriter ctx out := by
  refine ⟨?_, fun out => ⟨h.executes, h.symm.executes⟩⟩
  have hunit : ∀ r : Option (Except LaunchError Launched), r.map (Except.map fun _ => ()) =
      (Except.map Launched.withoutTokens <$> r).map (Except.map fun _ => ()) := by
    rintro (_ | e | l) <;> rfl
  rw [hunit (launch env c).run, hunit (launch env c').run, ← ExceptT.run_map, ← ExceptT.run_map,
    h.launch_eq]

/-- Two tokens that parse, and a server that looks at neither. -/
theorem executes_of_tokensAlike_two_tokens :
    let c := soloConfig
    let c' := { soloConfig with endpoint1 := { soloConfig.endpoint1 with xToken := "other" } }
    c.endpoint1.xToken ≠ c'.endpoint1.xToken ∧
      (launch sameVersion c').run.map (Except.map fun _ => ()) = some (.ok ()) ∧
      ∀ rawWriter (ctx : RunContext Unit) out,
        Executes Backend.exact ⟨Unit, fun _ _ => ()⟩ sameVersion c rawWriter ctx out ↔
          Executes Backend.exact ⟨Unit, fun _ _ => ()⟩ sameVersion c' rawWriter ctx out := by
  intro c c'
  have halike : c.TokensAlike sameVersion c' := by
    refine ⟨rfl, fun role s s' hs hs' => ?_, fun e s s' hs hs' => ?_⟩
    · rcases role with ⟨_ | _⟩ | ⟨_ | _⟩ <;> cases hs
      cases hs'
      exact (if_pos (by decide)).trans (if_pos (by decide)).symm
    · rfl
  have hsame (rawWriter) (ctx : RunContext Unit) := executes_of_tokensAlike (B := Backend.exact)
    (R := ⟨Unit, fun _ _ => ()⟩) halike rawWriter ctx
  refine ⟨by decide, ?_, fun rawWriter ctx => (hsame rawWriter ctx).2⟩
  rw [← (hsame none EndOfRun.transactionContext).1, run_launch_sameVersion]
  rfl

end Alike

end GrpcBench
