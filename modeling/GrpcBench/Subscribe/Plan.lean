import GrpcBench.Config
import GrpcBench.Programs
import Mathlib.Data.Finmap

/-!
# The subscription plan

`subscribe/mod.rs`: the subscriptions a run opens, each with the request it sends.  Outside of
`--solo` an endpoint gets one slot subscription, and for every commitment level the accounts
subscriptions (the known-heavy programs one by one, the others in chunks) and, if asked for, one
transactions and one blocks subscription; the entries subscriptions come last.

The requests have the filters the harness sets.  Their remaining fields (`accounts_data_slice`,
`ping` and the `filters` of an accounts filter) are empty in every request built here.

* `SubscriptionPlan.mem_fromRunConfig`: the subscriptions of a plan.
* `SubscriptionPlan.slotLabel_of_mem`: every main subscription with a slots filter carries the label
  of the first configured commitment, and `SubscriptionPlan.exists_slotSpec`: there is one per
  endpoint.
-/

namespace GrpcBench

/-- Programs that dominate any accounts filter they share. -/
def knownHeavyPrograms : List String :=
  ["11111111111111111111111111111111",
   "TokenkegQfeZyiNwAJbNbGKPFXCWuBvf9Ss623VQ5DA",
   "TokenzQdBNbLqP5VEhdkAS6EPFLC1PHnBqCXEpPxuEb"]

/-- `is_known_heavy_program`. -/
def isKnownHeavyProgram (programId : String) : Bool :=
  knownHeavyPrograms.contains programId

namespace FilterNames

/-- `filter_names::SLOTS`. -/
def slots : String := "slots-all"

/-- `filter_names::ACCOUNTS`. -/
def accounts : String := "all-programs"

/-- `filter_names::TRANSACTIONS`. -/
def transactions : String := "all-programs-tx"

/-- `filter_names::BLOCKS`. -/
def blocks : String := "all-blocks"

/-- `filter_names::ENTRIES`. -/
def entries : String := "all-entries"

end FilterNames

/-! ## Requests -/

/-- `SubscribeRequestFilterSlots`. -/
structure SubscribeRequestFilterSlots where
  filterByCommitment : Option Bool
  interslotUpdates : Option Bool
  deriving DecidableEq

/-- `SubscribeRequestFilterAccounts`. -/
structure SubscribeRequestFilterAccounts where
  account : List String
  owner : List String
  nonemptyTxnSignature : Option Bool
  deriving DecidableEq

/-- `SubscribeRequestFilterTransactions`. -/
structure SubscribeRequestFilterTransactions where
  vote : Option Bool
  failed : Option Bool
  signature : Option String
  accountInclude : List String
  accountExclude : List String
  accountRequired : List String
  deriving DecidableEq

/-- `SubscribeRequestFilterBlocks`. -/
structure SubscribeRequestFilterBlocks where
  accountInclude : List String
  includeTransactions : Option Bool
  includeAccounts : Option Bool
  includeEntries : Option Bool
  deriving DecidableEq

/-- `SubscribeRequestFilterBlocksMeta`. -/
structure SubscribeRequestFilterBlocksMeta where
  deriving DecidableEq

/-- `SubscribeRequestFilterEntry`. -/
structure SubscribeRequestFilterEntry where
  deriving DecidableEq

/-- `CommitmentLevel` of the protocol. -/
inductive YsCommitment where
  | processed | confirmed | finalized
  deriving DecidableEq

/-- The wire number of a level. -/
def YsCommitment.toI32 : YsCommitment → Int32
  | .processed => 0
  | .confirmed => 1
  | .finalized => 2

/-- `to_ys_commitment`. -/
def toYsCommitment : Commitment → YsCommitment
  | .processed => .processed
  | .confirmed => .confirmed
  | .finalized => .finalized

/-- `SubscribeRequest`. -/
structure SubscribeRequest where
  accounts : Finmap fun _ : String => SubscribeRequestFilterAccounts := ∅
  slots : Finmap fun _ : String => SubscribeRequestFilterSlots := ∅
  transactions : Finmap fun _ : String => SubscribeRequestFilterTransactions := ∅
  transactionsStatus : Finmap fun _ : String => SubscribeRequestFilterTransactions := ∅
  blocks : Finmap fun _ : String => SubscribeRequestFilterBlocks := ∅
  blocksMeta : Finmap fun _ : String => SubscribeRequestFilterBlocksMeta := ∅
  entry : Finmap fun _ : String => SubscribeRequestFilterEntry := ∅
  commitment : Option Int32 := none
  fromSlot : Option UInt64 := none
  deriving DecidableEq

/-- `build_slot_request`. -/
def buildSlotRequest : SubscribeRequest where
  slots := Finmap.insert FilterNames.slots ⟨some false, some true⟩ ∅

/-- `build_main_request_for`. -/
def buildMainRequestFor (commitment : Commitment) (programIds : List String) (stream : MainStream) :
    SubscribeRequest :=
  let base : SubscribeRequest := { commitment := some (toYsCommitment commitment).toI32 }
  match stream with
  | .slots => { base with
      slots := Finmap.insert FilterNames.slots ⟨some false, some true⟩ ∅ }
  | .accounts => { base with
      accounts := Finmap.insert FilterNames.accounts ⟨[], programIds, none⟩ ∅ }
  | .transactions => { base with
      transactions := Finmap.insert FilterNames.transactions
        ⟨some false, some false, none, programIds, [], []⟩ ∅ }
  | .blocks => { base with
      blocks := Finmap.insert FilterNames.blocks ⟨[], some true, some false, some false⟩ ∅ }

/-- `build_entries_request`. -/
def buildEntriesRequest (commitment : Commitment) : SubscribeRequest where
  slots := Finmap.insert FilterNames.slots ⟨some false, some false⟩ ∅
  entry := Finmap.insert FilterNames.entries ⟨⟩ ∅
  commitment := some (toYsCommitment commitment).toI32

/-! ## Plans -/

/-- One subscription the harness will open. -/
structure SubscriptionSpec where
  role : SubscriptionRole
  endpoint : EndpointSpec
  request : SubscribeRequest

/-- Aggregate of all subscriptions for one run. -/
structure SubscriptionPlan where
  specs : List SubscriptionSpec

/-- The first configured commitment, or `Processed`. -/
def Config.firstCommitment (config : Config) : Commitment :=
  config.commitments.head?.getD .processed

/-- The settings of an endpoint. -/
def Config.endpointSpec (config : Config) : EndpointRole → Option EndpointSpec
  | .one => some config.endpoint1
  | .two => config.endpoint2

/-- The settings of an endpoint's entries stream. -/
def Config.entriesSpec (config : Config) : EndpointRole → Option EndpointSpec
  | .one => config.entriesEndpoint1
  | .two => config.entriesEndpoint2

namespace SubscriptionPlan

/-- The `--solo` plan, with the streams still to be opened and those already seen. -/
def soloSpecs (config : Config) (programIds : List String) :
    List MainStream → List MainStream → List SubscriptionSpec
  | _, [] => []
  | seen, stream :: rest =>
    if stream ∈ seen then soloSpecs config programIds seen rest
    else
      ⟨.main .one config.firstCommitment stream, config.endpoint1,
        buildMainRequestFor config.firstCommitment programIds stream⟩ ::
        soloSpecs config programIds (stream :: seen) rest

/-- The owner lists of the accounts subscriptions: heavy programs alone, the rest in chunks. -/
def accountsOwners (config : Config) (programIds : List String) : List (List String) :=
  let (heavyPrograms, restPrograms) := programIds.partition isKnownHeavyProgram
  heavyPrograms.map (fun heavy => [heavy]) ++
    restPrograms.toChunks (max config.accountsProgramsPerFilter 1)

/-- The streams that are not chunked. -/
def otherStreams (config : Config) : List MainStream :=
  (if config.withTransactions then [.transactions] else []) ++
    if config.withBlocks then [.blocks] else []

/-- The main subscriptions of one endpoint at one commitment level. -/
def commitmentSpecs (config : Config) (programIds : List String) (endpoint : EndpointRole)
    (endpointSpec : EndpointSpec) (commitment : Commitment) : List SubscriptionSpec :=
  (accountsOwners config programIds).map (fun owners =>
    ⟨.main endpoint commitment .accounts, endpointSpec,
      buildMainRequestFor commitment owners .accounts⟩) ++
  (otherStreams config).map fun stream =>
    ⟨.main endpoint commitment stream, endpointSpec,
      buildMainRequestFor commitment programIds stream⟩

/-- The main subscriptions of one endpoint. -/
def mainSpecs (config : Config) (programIds : List String) (endpoint : EndpointRole) :
    List SubscriptionSpec :=
  match config.endpointSpec endpoint with
  | none => []
  | some endpointSpec =>
    ⟨.main endpoint config.firstCommitment .slots, endpointSpec, buildSlotRequest⟩ ::
      config.commitments.flatMap (commitmentSpecs config programIds endpoint endpointSpec)

/-- The entries subscription of one endpoint. -/
def entriesSpecs (config : Config) (endpoint : EndpointRole) : List SubscriptionSpec :=
  match config.entriesSpec endpoint with
  | none => []
  | some ep => [⟨.entries endpoint, ep, buildEntriesRequest config.firstCommitment⟩]

/-- `SubscriptionPlan::from_run_config`. -/
def fromRunConfig (config : Config) (programs : ProgramSet) : SubscriptionPlan :=
  let programIds := programs.programIds
  if config.solo then ⟨soloSpecs config programIds [] config.soloStreams⟩
  else ⟨mainSpecs config programIds .one ++ mainSpecs config programIds .two ++
    entriesSpecs config .one ++ entriesSpecs config .two⟩

/-! ## What a plan contains -/

variable {config : Config} {programs : ProgramSet} {programIds : List String}
  {spec : SubscriptionSpec}

theorem mem_soloSpecs {seen streams : List MainStream}
    (h : spec ∈ soloSpecs config programIds seen streams) : ∃ stream,
    spec = ⟨.main .one config.firstCommitment stream, config.endpoint1,
      buildMainRequestFor config.firstCommitment programIds stream⟩ := by
  induction streams generalizing seen with
  | nil => cases h
  | cons stream rest ih =>
    rw [soloSpecs] at h
    split_ifs at h with hseen
    · exact ih h
    · rcases List.mem_cons.mp h with rfl | h
      · exact ⟨stream, rfl⟩
      · exact ih h

theorem mem_commitmentSpecs {endpoint : EndpointRole} {endpointSpec : EndpointSpec}
    {commitment : Commitment}
    (h : spec ∈ commitmentSpecs config programIds endpoint endpointSpec commitment) :
    ∃ stream owners, stream ≠ .slots ∧ spec =
      ⟨.main endpoint commitment stream, endpointSpec,
        buildMainRequestFor commitment owners stream⟩ := by
  rw [commitmentSpecs, List.mem_append, List.mem_map, List.mem_map] at h
  rcases h with ⟨owners, -, rfl⟩ | ⟨stream, hstream, rfl⟩
  · exact ⟨.accounts, owners, by decide, rfl⟩
  · refine ⟨stream, programIds, ?_, rfl⟩
    rintro rfl
    unfold otherStreams at hstream
    split_ifs at hstream <;> simp at hstream

/-- **What a plan contains.**  A subscription of a plan is a main subscription at the first
configured commitment with a slots filter, a main subscription of another stream, or an entries
subscription. -/
theorem mem_fromRunConfig (h : spec ∈ (fromRunConfig config programs).specs) :
    (∃ endpoint, spec.role = .main endpoint config.firstCommitment .slots) ∨
    (∃ endpoint commitment stream owners, stream ≠ .slots ∧
      spec.role = .main endpoint commitment stream ∧
      spec.request = buildMainRequestFor commitment owners stream) ∨
    ∃ endpoint, spec.role = .entries endpoint := by
  have hmain : ∀ endpoint, spec ∈ mainSpecs config programs.programIds endpoint →
      (∃ endpoint, spec.role = .main endpoint config.firstCommitment .slots) ∨
      ∃ endpoint commitment stream owners, stream ≠ .slots ∧
        spec.role = .main endpoint commitment stream ∧
        spec.request = buildMainRequestFor commitment owners stream := by
    intro endpoint h
    unfold mainSpecs at h
    split at h
    · cases h
    · rcases List.mem_cons.mp h with rfl | h
      · exact Or.inl ⟨endpoint, rfl⟩
      · obtain ⟨commitment, -, h⟩ := List.mem_flatMap.mp h
        obtain ⟨stream, owners, hstream, rfl⟩ := mem_commitmentSpecs h
        exact Or.inr ⟨endpoint, commitment, stream, owners, hstream, rfl, rfl⟩
  have hentries : ∀ endpoint, spec ∈ entriesSpecs config endpoint →
      ∃ endpoint, spec.role = .entries endpoint := by
    intro endpoint h
    unfold entriesSpecs at h
    split at h
    · cases h
    · rw [List.mem_singleton] at h
      exact ⟨endpoint, h ▸ rfl⟩
  unfold fromRunConfig at h
  dsimp only at h
  split_ifs at h with hsolo
  · obtain ⟨stream, rfl⟩ := mem_soloSpecs h
    by_cases hstream : stream = .slots
    · exact Or.inl ⟨.one, by rw [hstream]⟩
    · exact Or.inr (Or.inl ⟨.one, config.firstCommitment, stream, programs.programIds, hstream,
        rfl, rfl⟩)
  · rcases List.mem_append.mp h with h | h
    · rcases List.mem_append.mp h with h | h
      · rcases List.mem_append.mp h with h | h
        · exact (hmain _ h).imp_right Or.inl
        · exact (hmain _ h).imp_right Or.inl
      · exact Or.inr (Or.inr (hentries _ h))
    · exact Or.inr (Or.inr (hentries _ h))

/-- A main subscription with a slots filter carries the label of the first configured commitment. -/
theorem slotLabel_of_mem (h : spec ∈ (fromRunConfig config programs).specs)
    (hslots : spec.request.slots ≠ ∅) {endpoint : EndpointRole} {commitment : Commitment}
    {stream : MainStream} (hrole : spec.role = .main endpoint commitment stream) :
    commitment = config.firstCommitment := by
  rcases mem_fromRunConfig h with ⟨e, he⟩ | ⟨e, c, s, owners, hs, -, hreq⟩ | ⟨e, he⟩
  · rw [he] at hrole
    cases hrole
    rfl
  · exfalso
    rw [hreq] at hslots
    cases s <;> first | exact hs rfl | exact hslots rfl
  · rw [he] at hrole
    cases hrole

/-- Outside of `--solo`, every endpoint has a slot subscription with that label. -/
theorem exists_slotSpec (programs : ProgramSet) (hsolo : config.solo = false)
    {endpoint : EndpointRole} (h : (config.endpointSpec endpoint).isSome = true) :
    ∃ spec ∈ (fromRunConfig config programs).specs,
      spec.role = .main endpoint config.firstCommitment .slots ∧ spec.request.slots ≠ ∅ := by
  obtain ⟨endpointSpec, hspec⟩ := Option.isSome_iff_exists.mp h
  let spec : SubscriptionSpec :=
    ⟨.main endpoint config.firstCommitment .slots, endpointSpec, buildSlotRequest⟩
  have hmem : spec ∈ mainSpecs config programs.programIds endpoint := by
    rw [mainSpecs, hspec]
    exact List.mem_cons_self
  refine ⟨spec, ?_, rfl, show buildSlotRequest.slots ≠ ∅ by decide⟩
  rw [fromRunConfig, hsolo]
  simp only [Bool.false_eq_true, if_false, List.mem_append]
  cases endpoint with
  | one => exact Or.inl (Or.inl (Or.inl hmem))
  | two => exact Or.inl (Or.inl (Or.inr hmem))

end SubscriptionPlan

end GrpcBench
