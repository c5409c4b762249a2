import GrpcBench.Library.Chunks
import GrpcBench.Subscribe.Plan

/-!
# Exactness of the plan

Outside of `--solo`, an endpoint's main subscriptions are one slot subscription and, for every
commitment level, the accounts subscriptions over the program set, cut into owner lists, and the
optional transactions and blocks subscriptions.  The two endpoints get the same ones.

* `SubscriptionPlan.mainOn_eq`, `SubscriptionPlan.withRole_eq`: the main subscriptions of an
  endpoint, and those of one stream at one level.
* `SubscriptionPlan.cuts_accountsOwners`, `SubscriptionPlan.countP_accountsOwners`: the owner lists.
* `SubscriptionPlan.exact`: the plan of a validated configuration and a loaded program set.
-/

namespace GrpcBench

/-- The level and the stream of a main subscription. -/
def SubscriptionRole.levelAndStream : SubscriptionRole → Option (Commitment × MainStream)
  | .main _ commitment stream => some (commitment, stream)
  | .entries _ => none

/-- The owner list of the accounts filter. -/
def SubscribeRequest.owners (request : SubscribeRequest) : List String :=
  ((request.accounts.lookup FilterNames.accounts).map SubscribeRequestFilterAccounts.owner).getD []

namespace SubscriptionPlan

/-- The main subscriptions of an endpoint. -/
def mainOn (plan : SubscriptionPlan) (e : EndpointRole) : List SubscriptionSpec :=
  plan.specs.filter fun spec =>
    decide (spec.role.endpoint = e) && !spec.role.isEntries

/-- The subscriptions with a role. -/
def withRole (plan : SubscriptionPlan) (role : SubscriptionRole) : List SubscriptionSpec :=
  plan.specs.filter fun spec => decide (spec.role = role)

variable {config : Config} {programs : ProgramSet} {programIds : List String}

/-! ## The subscriptions of an endpoint -/

theorem role_of_mem_mainSpecs {e : EndpointRole} {spec : SubscriptionSpec}
    (h : spec ∈ mainSpecs config programIds e) :
    spec.role.endpoint = e ∧ spec.role.isEntries = false := by
  unfold mainSpecs at h
  split at h
  · cases h
  · rcases List.mem_cons.mp h with rfl | h
    · exact ⟨rfl, rfl⟩
    · obtain ⟨commitment, -, h⟩ := List.mem_flatMap.mp h
      obtain ⟨stream, owners, -, rfl⟩ := mem_commitmentSpecs h
      exact ⟨rfl, rfl⟩

theorem role_of_mem_entriesSpecs {e : EndpointRole} {spec : SubscriptionSpec}
    (h : spec ∈ entriesSpecs config e) : spec.role = .entries e := by
  unfold entriesSpecs at h
  split at h
  · cases h
  · rw [List.mem_singleton.mp h]

/-- The main subscriptions of an endpoint are the block the planner pushes for it. -/
theorem mainOn_eq (hsolo : config.solo = false) (e : EndpointRole) :
    (fromRunConfig config programs).mainOn e = mainSpecs config programs.programIds e := by
  have hother : ∀ f, f ≠ e → (mainSpecs config programs.programIds f).filter (fun spec =>
      decide (spec.role.endpoint = e) && !spec.role.isEntries) = [] := by
    intro f hf
    refine List.filter_eq_nil_iff.mpr fun spec hspec => ?_
    rw [(role_of_mem_mainSpecs hspec).1]
    simp [hf]
  have hown : (mainSpecs config programs.programIds e).filter (fun spec =>
      decide (spec.role.endpoint = e) && !spec.role.isEntries) =
      mainSpecs config programs.programIds e := by
    refine List.filter_eq_self.mpr fun spec hspec => ?_
    rw [(role_of_mem_mainSpecs hspec).1, (role_of_mem_mainSpecs hspec).2]
    simp
  have hentries : ∀ f, (entriesSpecs config f).filter (fun spec =>
      decide (spec.role.endpoint = e) && !spec.role.isEntries) = [] := by
    intro f
    refine List.filter_eq_nil_iff.mpr fun spec hspec => ?_
    rw [role_of_mem_entriesSpecs hspec]
    simp [SubscriptionRole.isEntries]
  rw [mainOn, fromRunConfig, hsolo]
  simp only [Bool.false_eq_true, if_false, List.filter_append, hentries, List.append_nil]
  cases e with
  | one => rw [hown, hother .two (by decide), List.append_nil]
  | two => rw [hown, hother .one (by decide), List.nil_append]

/-- Both endpoints are configured. -/
theorem exists_mainSpecs (h : config.Validated) (hsolo : config.solo = false)
    (programIds : List String) (e : EndpointRole) : ∃ endpointSpec,
    mainSpecs config programIds e =
      ⟨.main e config.firstCommitment .slots, endpointSpec, buildSlotRequest⟩ ::
        config.commitments.flatMap (commitmentSpecs config programIds e endpointSpec) := by
  have hsome : (config.endpointSpec e).isSome = true := by
    cases e with
    | one => rfl
    | two => exact h.endpoint2_isSome.trans (by rw [hsolo]; rfl)
  obtain ⟨endpointSpec, heq⟩ := Option.isSome_iff_exists.mp hsome
  exact ⟨endpointSpec, by rw [mainSpecs, heq]⟩

/-! ## The subscriptions of one stream at one level -/

/-- Of a list without repetition, one member is looked at. -/
theorem flatMap_eq_of_mem {α β : Type*} {l : List α} (hl : l.Nodup) {a : α} (ha : a ∈ l)
    {f : α → List β} (hf : ∀ b ∈ l, b ≠ a → f b = []) : l.flatMap f = f a := by
  induction l with
  | nil => cases ha
  | cons b l ih =>
    rw [List.nodup_cons] at hl
    rw [List.flatMap_cons]
    rcases List.mem_cons.mp ha with rfl | ha
    · have hrest : l.flatMap f = [] := List.flatMap_eq_nil_iff.mpr fun c hc =>
        hf c (List.mem_cons_of_mem _ hc) fun heq => hl.1 (heq ▸ hc)
      rw [hrest, List.append_nil]
    · rw [hf b List.mem_cons_self fun heq => hl.1 (heq ▸ ha), List.nil_append,
        ih hl.2 ha fun c hc => hf c (List.mem_cons_of_mem _ hc)]

/-- The subscriptions of a stream other than the slots, at a configured level, are among those
pushed for that level. -/
theorem withRole_eq (programs : ProgramSet) (h : config.Validated) (hsolo : config.solo = false)
    (e : EndpointRole) {commitment : Commitment} (hc : commitment ∈ config.commitments)
    {stream : MainStream} (hstream : stream ≠ .slots) : ∃ endpointSpec,
    (fromRunConfig config programs).withRole (.main e commitment stream) =
      (commitmentSpecs config programs.programIds e endpointSpec commitment).filter
        fun spec => decide (spec.role = .main e commitment stream) := by
  obtain ⟨endpointSpec, hmain⟩ := exists_mainSpecs h hsolo programs.programIds e
  refine ⟨endpointSpec, ?_⟩
  have hon : (fromRunConfig config programs).withRole (.main e commitment stream) =
      ((fromRunConfig config programs).mainOn e).filter
        fun spec => decide (spec.role = .main e commitment stream) := by
    rw [mainOn, withRole, List.filter_filter]
    refine List.filter_congr fun spec _ => ?_
    by_cases hrole : spec.role = .main e commitment stream
    · simp [hrole, SubscriptionRole.endpoint, SubscriptionRole.isEntries]
    · simp [hrole]
  rw [hon, mainOn_eq hsolo, hmain, List.filter_cons_of_neg (by simp [Ne.symm hstream]),
    List.filter_flatMap]
  refine flatMap_eq_of_mem h.nodup_commitments hc fun c _ hne => ?_
  refine List.filter_eq_nil_iff.mpr fun spec hspec => ?_
  obtain ⟨s, owners, -, rfl⟩ := mem_commitmentSpecs hspec
  simp [hne]

/-! ## Owner lists -/

/-- The owner lists are the heavy programs one by one, then the others in chunks. -/
theorem cuts_accountsOwners (config : Config) (programIds : List String) : ∃ chunks,
    Chunks.Cuts (max 1 config.accountsProgramsPerFilter)
      (programIds.filter fun p => !isKnownHeavyProgram p) chunks ∧
    accountsOwners config programIds =
      (programIds.filter isKnownHeavyProgram).map (fun p => [p]) ++ chunks := by
  refine ⟨_, Chunks.cuts_toChunks (by omega) _, ?_⟩
  rw [accountsOwners, List.partition_eq_filter_filter, Nat.max_comm]
  rfl

/-- What is in a list of lists, and nowhere twice, is in one of the lists. -/
theorem countP_of_nodup_flatten {α : Type*} [DecidableEq α] {lists : List (List α)}
    (h : lists.flatten.Nodup) {a : α} (ha : a ∈ lists.flatten) :
    lists.countP (fun l => decide (a ∈ l)) = 1 := by
  induction lists with
  | nil => cases ha
  | cons l lists ih =>
    rw [List.flatten_cons] at h ha
    have hdisjoint := List.disjoint_of_nodup_append h
    rw [List.countP_cons]
    by_cases hl : a ∈ l
    · have hnone : lists.countP (fun l => decide (a ∈ l)) = 0 := by
        refine List.countP_eq_zero.mpr fun l' hl' hmem => ?_
        exact hdisjoint hl (List.mem_flatten_of_mem hl' (by simpa using hmem))
      rw [hnone, if_pos (by simpa using hl)]
    · rw [ih (List.Nodup.of_append_right h) ((List.mem_append.mp ha).resolve_left hl),
        if_neg (by simpa using hl)]

/-- Every program is in one owner list. -/
theorem countP_accountsOwners (config : Config) (hids : programIds.Nodup) {id : String}
    (hid : id ∈ programIds) :
    (accountsOwners config programIds).countP (fun owners => decide (id ∈ owners)) = 1 := by
  obtain ⟨chunks, hcuts, heq⟩ := cuts_accountsOwners config programIds
  have hflatten : (accountsOwners config programIds).flatten.Perm programIds := by
    rw [heq, List.flatten_append, hcuts.flatten, ← List.flatMap_def, List.flatMap_singleton']
    exact List.filter_append_perm isKnownHeavyProgram programIds
  exact countP_of_nodup_flatten (hflatten.nodup_iff.mpr hids) (hflatten.mem_iff.mpr hid)

/-! ## The streams of a level -/

theorem owners_buildMainRequestFor (commitment : Commitment) (owners : List String) :
    (buildMainRequestFor commitment owners .accounts).owners = owners := by
  simp [buildMainRequestFor, SubscribeRequest.owners]

variable {e : EndpointRole} {commitment : Commitment}

/-- The accounts subscriptions of an endpoint at a level have the planner's owner lists. -/
theorem owners_withRole (h : config.Validated) (hsolo : config.solo = false)
    (hc : commitment ∈ config.commitments) :
    ((fromRunConfig config programs).withRole (.main e commitment .accounts)).map
      (fun spec => spec.request.owners) = accountsOwners config programs.programIds := by
  have hslots : MainStream.accounts ≠ .slots := by decide
  obtain ⟨endpointSpec, heq⟩ := withRole_eq programs h hsolo e hc hslots
  have hothers : (otherStreams config).filter (fun stream => decide (stream = .accounts)) = [] := by
    unfold otherStreams
    split_ifs <;> rfl
  rw [heq, commitmentSpecs, List.filter_append, List.filter_map, List.filter_map]
  simp only [Function.comp_def, SubscriptionRole.main.injEq, true_and, hothers, decide_true,
    List.filter_true, List.map_nil, List.append_nil, List.map_map, owners_buildMainRequestFor,
    List.map_id']

/-- The other streams have one subscription at a level if they are asked for. -/
theorem length_withRole (h : config.Validated) (hsolo : config.solo = false)
    (hc : commitment ∈ config.commitments) {stream : MainStream} (hslots : stream ≠ .slots)
    (haccounts : stream ≠ .accounts) :
    ((fromRunConfig config programs).withRole (.main e commitment stream)).length =
      (otherStreams config).count stream := by
  obtain ⟨endpointSpec, heq⟩ := withRole_eq programs h hsolo e hc hslots
  rw [heq, commitmentSpecs, List.filter_append, List.filter_map, List.filter_map]
  simp only [Function.comp_def, SubscriptionRole.main.injEq, true_and, Ne.symm haccounts,
    decide_false, List.filter_false, List.map_nil, List.nil_append, List.length_map]
  rw [List.count, List.countP_eq_length_filter]
  rfl

theorem length_commitmentSpecs (config : Config) (programIds : List String) (e : EndpointRole)
    (endpointSpec : EndpointSpec) (commitment : Commitment) :
    (commitmentSpecs config programIds e endpointSpec commitment).length =
      (programIds.filter isKnownHeavyProgram).length +
        ((programIds.filter fun p => !isKnownHeavyProgram p).length +
          max 1 config.accountsProgramsPerFilter - 1) / max 1 config.accountsProgramsPerFilter +
        (if config.withTransactions then 1 else 0) + if config.withBlocks then 1 else 0 := by
  obtain ⟨chunks, hcuts, heq⟩ := cuts_accountsOwners config programIds
  rw [commitmentSpecs, List.length_append, List.length_map, List.length_map, heq,
    List.length_append, List.length_map, hcuts.length_eq (by omega), otherStreams,
    List.length_append, Nat.add_assoc _ (if config.withTransactions then 1 else 0)]
  split_ifs <;> rfl

/-- What the main subscriptions of an endpoint carry does not depend on the endpoint. -/
theorem map_mainOn (h : config.Validated) (hsolo : config.solo = false) (e : EndpointRole) :
    ((fromRunConfig config programs).mainOn e).map
        (fun spec => (spec.request, spec.role.levelAndStream)) =
      (buildSlotRequest, some (config.firstCommitment, .slots)) ::
        config.commitments.flatMap fun commitment =>
          (accountsOwners config programs.programIds).map (fun owners =>
            (buildMainRequestFor commitment owners .accounts, some (commitment, .accounts))) ++
          (otherStreams config).map fun stream =>
            (buildMainRequestFor commitment programs.programIds stream,
              some (commitment, stream)) := by
  obtain ⟨endpointSpec, hmain⟩ := exists_mainSpecs h hsolo programs.programIds e
  rw [mainOn_eq hsolo, hmain, List.map_cons, List.map_flatMap]
  simp only [commitmentSpecs, List.map_append, List.map_map]
  rfl

/-! ## The plan -/

/-- **The plan is exact.**  At every configured level an endpoint's accounts subscriptions own the
known-heavy programs one by one and then the others in chunks, so that every program is in one of
them; the transactions and the blocks stream have one subscription each if asked for; this gives
the number of main subscriptions of an endpoint; and both endpoints get the same ones. -/
theorem exact (decode : String → Except String (List UInt8)) (config : Config)
    (programs : ProgramSet) (hconfig : config.Validated) (hsolo : config.solo = false)
    (hprograms : programs.Loaded decode) :
    let plan := fromRunConfig config programs
    let chunk := max 1 config.accountsProgramsPerFilter
    let heavy := programs.programIds.filter isKnownHeavyProgram
    let rest := programs.programIds.filter fun p => !isKnownHeavyProgram p
    (∀ e, ∀ commitment ∈ config.commitments,
      (∃ chunks, Chunks.Cuts chunk rest chunks ∧
        (plan.withRole (.main e commitment .accounts)).map (fun spec => spec.request.owners) =
          heavy.map (fun p => [p]) ++ chunks) ∧
      (∀ id ∈ programs.programIds, (plan.withRole (.main e commitment .accounts)).countP
        (fun spec => decide (id ∈ spec.request.owners)) = 1) ∧
      (plan.withRole (.main e commitment .transactions)).length =
        (if config.withTransactions then 1 else 0) ∧
      (plan.withRole (.main e commitment .blocks)).length = if config.withBlocks then 1 else 0) ∧
    (∀ e, (plan.mainOn e).length = 1 + config.commitments.length *
      (heavy.length + (rest.length + chunk - 1) / chunk +
        (if config.withTransactions then 1 else 0) + if config.withBlocks then 1 else 0)) ∧
    (plan.mainOn .one).map (fun spec => (spec.request, spec.role.levelAndStream)) =
      (plan.mainOn .two).map fun spec => (spec.request, spec.role.levelAndStream) := by
  intro plan chunk heavy rest
  refine ⟨fun e commitment hc => ⟨?_, fun id hid => ?_, ?_, ?_⟩, fun e => ?_, ?_⟩
  · obtain ⟨chunks, hcuts, heq⟩ := cuts_accountsOwners config programs.programIds
    exact ⟨chunks, hcuts, (owners_withRole hconfig hsolo hc).trans heq⟩
  · rw [← countP_accountsOwners config hprograms.nodup_programIds hid,
      ← owners_withRole hconfig hsolo hc, List.countP_map]
    rfl
  · rw [length_withRole hconfig hsolo hc (by decide) (by decide), otherStreams]
    split_ifs <;> rfl
  · rw [length_withRole hconfig hsolo hc (by decide) (by decide), otherStreams]
    split_ifs <;> rfl
  · obtain ⟨endpointSpec, hmain⟩ := exists_mainSpecs hconfig hsolo programs.programIds e
    rw [mainOn_eq hsolo, hmain, List.length_cons, List.length_flatMap]
    simp only [length_commitmentSpecs, List.map_const', List.sum_replicate_nat]
    rw [Nat.add_comm]
  · rw [map_mainOn hconfig hsolo, map_mainOn hconfig hsolo]

/-- Two programs, the second of them heavy. -/
def pumpfunAndSystem : ProgramSet where
  source := "programs.tsv"
  entries :=
    [⟨"pumpfun", "6EF8rrecthR5Dkzon8Nwu78hRvfCKubJ14M5uBEwF6P", "pump.fun bonding curve"⟩,
      ⟨"system", "11111111111111111111111111111111", ""⟩]

/-- What base58 makes of these two. -/
def decodePumpfunAndSystem (s : String) : Except String (List UInt8) :=
  if s = "11111111111111111111111111111111" then .ok (List.replicate 32 0)
  else if s = "6EF8rrecthR5Dkzon8Nwu78hRvfCKubJ14M5uBEwF6P" then
    .ok [1, 86, 224, 246, 147, 102, 90, 207, 68, 219, 21, 104, 191, 23, 91, 170, 81, 137, 203, 151,
      245, 210, 255, 59, 101, 93, 43, 182, 253, 109, 24, 176]
  else .error "provided string contained invalid character"

theorem loaded_pumpfunAndSystem : pumpfunAndSystem.Loaded decodePumpfunAndSystem := by
  refine ⟨"programs.tsv", .ok [.ok "# short_name, program_id, description", .ok
    "pumpfun\t6EF8rrecthR5Dkzon8Nwu78hRvfCKubJ14M5uBEwF6P\tpump.fun bonding curve", .ok
    "system\t11111111111111111111111111111111"], ?_⟩
  decide +kernel

/-- With the default levels and transactions: one slot subscription, and at both levels one accounts
subscription for each of the two programs and one for the transactions. -/
theorem exact_pumpfunAndSystem :
    ∃ config, Config.fromCli { Cli.base with withTransactions := true } = .ok config ∧
      ∀ e, ((fromRunConfig config pumpfunAndSystem).mainOn e).length = 1 + 2 * (1 + 1 + 1 + 0) := by
  refine ⟨_, rfl, fun e => ?_⟩
  have hexact := exact decodePumpfunAndSystem _ pumpfunAndSystem
    ⟨{ Cli.base with withTransactions := true }, rfl⟩ rfl loaded_pumpfunAndSystem
  exact hexact.2.1 e

end SubscriptionPlan

end GrpcBench
