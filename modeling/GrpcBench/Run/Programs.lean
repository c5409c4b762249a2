import GrpcBench.Collect.Decode
import GrpcBench.Programs.RoundTrip
import GrpcBench.Run.Coordinator

/-!
# Programs in the report

`run.rs`: the map from the key of a program to its name, which `execute` makes of the loaded
programs.  An entry that does not decode is left out; of a loaded set none is, and no two entries
have one key.  So the buckets of the report are those of the programs file, each with the matches of
its own program, whatever the order in which the shards are visited.

* `ProgramSet.programNames`: the map; `lookup_programNames` says what is in it.
* `AccountMatcher.lookup_perProgramSummary`: the bucket of a name that one owner has.
* `System.program_buckets`: the buckets of a report.
-/

namespace GrpcBench

variable {B : Backend} {R : RawSink} {roles : List SubscriptionRole}

/-! ## The names -/

/-- The key of a program. -/
def programKey (decode : String → Except String (List UInt8)) (programId : String) :
    Option Pubkey32 :=
  match decode programId with
  | .error _ => none
  | .ok decoded => if h : decoded.length = 32 then some ⟨decoded.toArray, h⟩ else none

/-- The `program_names` of `execute`. -/
def ProgramSet.programNames (decode : String → Except String (List UInt8))
    (programs : ProgramSet) : Finmap fun _ : Pubkey32 => String :=
  Finmap.collect (programs.entries.filterMap fun p =>
    (programKey decode p.programId).map fun key => (key, p.shortName))

section Names

variable {decode : String → Except String (List UInt8)} {encode : List UInt8 → String}

/-- A program has a key exactly when it is the text of one. -/
theorem programKey_eq_some_iff
    (hdecode : ∀ text bytes, decode text = .ok bytes ↔ encode bytes = text) {programId : String}
    {key : Pubkey32} : programKey decode programId = some key ↔ programId = encode key.toList := by
  rw [programKey]
  rcases h : decode programId with e | decoded
  · refine iff_of_false (fun heq => by cases heq) fun heq => ?_
    rw [(hdecode _ _).mpr heq.symm] at h
    cases h
  · have htext := (hdecode _ _).mp h
    dsimp only
    constructor
    · intro heq
      split_ifs at heq with hlength
      rw [← Option.some.inj heq]
      exact htext.symm
    · intro heq
      have hbytes : decoded = key.toList := by
        rw [(hdecode _ _).mpr heq.symm] at h
        exact (Except.ok.inj h).symm
      subst hbytes
      exact dif_pos key.length_toList

/-- Programs that are all different have different keys. -/
theorem ProgramSet.nodup_programKeys
    (hdecode : ∀ text bytes, decode text = .ok bytes ↔ encode bytes = text) {programs : ProgramSet}
    (h : programs.programIds.Nodup) :
    ((programs.entries.filterMap fun p =>
      (programKey decode p.programId).map fun key => (key, p.shortName)).map Prod.fst).Nodup := by
  have hkeys : (programs.entries.filterMap fun p =>
      (programKey decode p.programId).map fun key => (key, p.shortName)).map Prod.fst =
      programs.programIds.filterMap (programKey decode) := by
    rw [List.map_filterMap, ProgramSet.programIds, List.filterMap_map]
    refine List.filterMap_congr fun p _ => ?_
    rw [Option.map_map]
    exact congrFun Option.map_id _
  rw [hkeys]
  refine h.filterMap fun a a' key ha ha' => ?_
  rw [(programKey_eq_some_iff hdecode).mp ha, (programKey_eq_some_iff hdecode).mp ha']

variable {programs : ProgramSet}

/-- **The names of a loaded set.** -/
theorem ProgramSet.Loaded.lookup_programNames (h : programs.Loaded decode)
    (hdecode : ∀ text bytes, decode text = .ok bytes ↔ encode bytes = text) {key : Pubkey32}
    {name : String} : (programs.programNames decode).lookup key = some name ↔
      ∃ p ∈ programs.entries, p.programId = encode key.toList ∧ p.shortName = name := by
  have hnodup := nodup_programKeys hdecode h.nodup_programIds
  rw [programNames, Finmap.lookup_collect_eq_some_iff hnodup, List.mem_filterMap]
  refine exists_congr fun p => and_congr_right fun _ => ?_
  rw [Option.map_eq_some_iff]
  constructor
  · rintro ⟨key', hkey, heq⟩
    obtain ⟨rfl, rfl⟩ := Prod.mk.inj heq
    exact ⟨(programKey_eq_some_iff hdecode).mp hkey, rfl⟩
  · rintro ⟨hid, rfl⟩
    exact ⟨key, (programKey_eq_some_iff hdecode).mpr hid, rfl⟩

/-- Every program of a loaded set has a key. -/
theorem ProgramSet.Loaded.exists_key (h : programs.Loaded decode)
    (hdecode : ∀ text bytes, decode text = .ok bytes ↔ encode bytes = text) {p : ProgramEntry}
    (hp : p ∈ programs.entries) : ∃ key : Pubkey32, p.programId = encode key.toList := by
  obtain ⟨path, file, hload⟩ := h
  unfold load at hload
  split at hload
  · cases hload
  · obtain ⟨-, hrows⟩ := loadRows_of_fromReader hload
    obtain ⟨texts, -, found, hfound, hparsed⟩ := loadRows_sound hrows
    rw [hfound] at hp
    obtain ⟨bytes, hbytes, hlength⟩ := (programIds_of_rows hparsed).2 p hp
    exact ⟨⟨bytes.toArray, hlength⟩, ((hdecode _ _).mp hbytes).symm⟩

/-- A name that is not `"unknown"` is that of one program, and of one key. -/
theorem ProgramSet.Loaded.eq_of_name (h : programs.Loaded decode)
    (hdecode : ∀ text bytes, decode text = .ok bytes ↔ encode bytes = text) {p : ProgramEntry}
    (hp : p ∈ programs.entries) (hname : p.shortName ≠ "unknown") {key key' : Pubkey32}
    (hkey : p.programId = encode key.toList)
    (heq : ((programs.programNames decode).lookup key').getD "unknown" = p.shortName) :
    key' = key := by
  rcases hlookup : (programs.programNames decode).lookup key' with _ | name
  · rw [hlookup] at heq
    exact absurd heq.symm hname
  · rw [hlookup, Option.getD_some] at heq
    obtain ⟨p', hp', hid, hname'⟩ := (h.lookup_programNames hdecode).mp hlookup
    have hsame : p' = p := List.inj_on_of_nodup_map h.distinct.2.1 hp' hp (hname'.trans heq)
    subst hsame
    have htext : encode key'.toList = encode key.toList := hid.symm.trans hkey
    have hbytes := (hdecode _ _).mpr htext
    rw [(hdecode _ key.toList).mpr rfl] at hbytes
    exact Vector.toList_inj.mp (Except.ok.inj hbytes).symm

end Names

/-! ## The buckets -/

namespace AccountMatcher

/-- The bucket of a name that one owner has is the summary of its shard. -/
theorem lookup_perProgramSummary (m : AccountMatcher B) (order : Finmap.Enumeration m.shards)
    {owner : Pubkey32} {name : String} (hname : m.bucketName owner = name)
    (hone : ∀ owner' ∈ m.shards, m.bucketName owner' = name → owner' = owner) :
    (m.perProgramSummary order).1.lookup name =
      (m.shards.lookup owner).map fun shard => shard.digest.summary.1 := by
  rw [fst_perProgramSummary]
  rcases hlookup : m.shards.lookup owner with _ | shard
  · rw [Option.map_none, Finmap.lookup_eq_none, Finmap.mem_collect]
    intro hmem
    obtain ⟨x, hx, heq⟩ := List.mem_map.mp hmem
    obtain ⟨entry, hentry, rfl⟩ := List.mem_map.mp hx
    have hin := (m.eq_shardOf order hentry).1
    rw [hone entry.1 hin heq, Finmap.mem_iff, hlookup] at hin
    obtain ⟨shard, hshard⟩ := hin
    cases hshard
  · have hentry : (⟨owner, shard⟩ : Sigma fun _ => PerProgramShard B) ∈ order.1 := by
      have hin := Finmap.mem_lookup_iff.mp hlookup
      rwa [← order.2] at hin
    refine Finmap.lookup_collect_of_forall (List.mem_map.mpr ⟨_, hentry, by rw [hname]⟩) ?_
    intro x hx heq
    obtain ⟨entry, hentry', rfl⟩ := List.mem_map.mp hx
    obtain ⟨hin, hshard'⟩ := m.eq_shardOf order hentry'
    have howner := hone entry.1 hin heq
    have hshard := (m.eq_shardOf order hentry).2
    dsimp only at hshard ⊢
    rw [hshard', howner, hshard]

/-- A name that has a bucket is that of an owner. -/
theorem exists_bucketName_of_mem {m : AccountMatcher B} {order : Finmap.Enumeration m.shards}
    {name : String} (h : name ∈ (m.perProgramSummary order).1) :
    ∃ owner ∈ m.shards, m.bucketName owner = name := by
  rw [fst_perProgramSummary, Finmap.mem_collect] at h
  obtain ⟨x, hx, rfl⟩ := List.mem_map.mp h
  obtain ⟨entry, hentry, rfl⟩ := List.mem_map.mp hx
  exact ⟨entry.1, (m.eq_shardOf order hentry).1, rfl⟩

/-- What is reported for a program with these account updates: the summary of its matches, or
nothing if it has no update. -/
def ownSummary (B : Backend) (strict : Bool) (updates : List AccountUpdate) (owner : Pubkey32) :
    Option LatencyDigestSummary :=
  let own := updates.filter fun u => u.owner = owner
  if own = [] then none
  else some ((PerProgramShard.new B matchWindow).run
    (own.map (AccountUpdate.call strict))).digest.summary.1

/-- The shard of an owner after a run, if there is one. -/
theorem lookup_shards_start (names : Finmap fun _ : Pubkey32 => String) (strict : Bool)
    (updates : List AccountUpdate) (owner : Pubkey32) :
    (((start B matchWindow names strict).observeAll updates).shards.lookup owner).map
      (fun shard => shard.digest.summary.1) = ownSummary B strict updates owner := by
  have hmem := keys_start (B := B) names strict matchWindow updates owner
  rw [Finmap.mem_keys] at hmem
  rw [ownSummary]
  split_ifs with hown
  · rw [Finmap.lookup_eq_none.mpr, Option.map_none]
    intro hin
    obtain ⟨u, hu, howner⟩ := hmem.mp hin
    exact List.filter_eq_nil_iff.mp hown u hu (by simpa using howner)
  · obtain ⟨u, hu⟩ := List.exists_mem_of_ne_nil _ hown
    rw [List.mem_filter, decide_eq_true_eq] at hu
    rw [lookup_shards _ (hmem.mpr ⟨u, hu⟩), Option.map_some, shardOf_observeAll]
    rfl

end AccountMatcher

theorem IngestState.accounts_ingestAll (names : Finmap fun _ : Pubkey32 => String) (strict : Bool)
    (rawWriter : Option R.State) (events : List Event) :
    ((start B names strict rawWriter).ingestAll events).shared.matchers.accounts =
      (AccountMatcher.start B matchWindow names strict).observeAll
        (events.filterMap Event.accountUpdate) :=
  Folds.foldl_projection (fun s : IngestState B R => s.shared.matchers.accounts)
    (fun s event u hu => by
      rw [matchers_ingest, accounts_dispatch, hu, Option.elim_some])
    (fun s event hu => by rw [matchers_ingest, accounts_dispatch, hu, Option.elim_none]) events _

/-- The buckets of a report: each is that of a program in the set, or `"unknown"`, and a program
that is not called so has its own account updates in its bucket. -/
structure ProgramSet.Buckets (programs : ProgramSet) (encode : List UInt8 → String) (B : Backend)
    (strict : Bool) (updates : List AccountUpdate) (out : PerProgramSummary) : Prop where
  named : ∀ name ∈ out, name = "unknown" ∨ ∃ p ∈ programs.entries, p.shortName = name
  own : ∀ p ∈ programs.entries, p.shortName ≠ "unknown" → ∃ owner : Pubkey32,
    p.programId = encode owner.toList ∧
    out.lookup p.shortName = AccountMatcher.ownSummary B strict updates owner

/-- The buckets that a matcher has after its overall summary. -/
theorem ProgramSet.Loaded.buckets {decode : String → Except String (List UInt8)}
    {encode : List UInt8 → String} {programs : ProgramSet} (h : programs.Loaded decode)
    (hdecode : ∀ text bytes, decode text = .ok bytes ↔ encode bytes = text) (strict : Bool)
    (updates : List AccountUpdate) {m : AccountMatcher B}
    (hm : m = (AccountMatcher.start B matchWindow (programs.programNames decode) strict).observeAll
      updates) (order : Finmap.Enumeration m.shards)
    (order' : Finmap.Enumeration (m.summary order).2.shards) :
    programs.Buckets encode B strict updates ((m.summary order).2.perProgramSummary order').1 := by
  have hnames : m.programShortNames = programs.programNames decode := by
    rw [hm, (AccountMatcher.config_observeAll _ updates).2.2]
    rfl
  have hname : ∀ owner, (m.summary order).2.bucketName owner =
      ((programs.programNames decode).lookup owner).getD "unknown" := by
    intro owner
    rw [← hnames]
    rfl
  refine ⟨fun name hin => ?_, fun p hp hknown => ?_⟩
  · obtain ⟨owner, -, howner⟩ := AccountMatcher.exists_bucketName_of_mem hin
    rw [hname] at howner
    rcases hlookup : (programs.programNames decode).lookup owner with _ | name'
    · rw [hlookup] at howner
      exact Or.inl howner.symm
    · rw [hlookup, Option.getD_some] at howner
      obtain ⟨p, hp, -, hshort⟩ := (h.lookup_programNames hdecode).mp hlookup
      exact Or.inr ⟨p, hp, hshort.trans howner⟩
  · obtain ⟨owner, hkey⟩ := h.exists_key hdecode hp
    have hlookup := (h.lookup_programNames hdecode).mpr ⟨p, hp, hkey, rfl⟩
    refine ⟨owner, hkey, ?_⟩
    have howner : (m.summary order).2.bucketName owner = p.shortName := by
      rw [hname, hlookup, Option.getD_some]
    rw [AccountMatcher.lookup_perProgramSummary _ order' howner fun owner' _ heq =>
      h.eq_of_name hdecode hp hknown hkey ((hname owner').symm.trans heq)]
    have hsettled : (m.summary order).2.shards.lookup owner =
        (m.shards.lookup owner).map (AccountMatcher.settleShard owner) :=
      Finmap.lookup_mapVals _ m.shards owner
    have hshards := AccountMatcher.lookup_shards_start (B := B) (programs.programNames decode)
      strict updates owner
    rw [hsettled, Option.map_map, ← hshards, ← hm]
    rfl

/-- A matcher with no shard has no bucket. -/
theorem ProgramSet.Loaded.buckets_of_empty {decode : String → Except String (List UInt8)}
    {encode : List UInt8 → String} {programs : ProgramSet} (h : programs.Loaded decode)
    (hdecode : ∀ text bytes, decode text = .ok bytes ↔ encode bytes = text) (strict : Bool)
    {m : AccountMatcher B} (hm : ∀ owner, owner ∉ m.shards) (order : Finmap.Enumeration m.shards) :
    programs.Buckets encode B strict [] (m.perProgramSummary order).1 := by
  have hnone : ∀ name, name ∉ (m.perProgramSummary order).1 := fun name hin => by
    obtain ⟨owner, howner, -⟩ := AccountMatcher.exists_bucketName_of_mem hin
    exact hm owner howner
  refine ⟨fun name hin => absurd hin (hnone name), fun p hp _ => ?_⟩
  obtain ⟨owner, hkey⟩ := h.exists_key hdecode hp
  exact ⟨owner, hkey, Finmap.lookup_eq_none.mpr (hnone _)⟩

namespace System

variable {stop : StopCondition} {s : System B R roles} {actions : List (SystemAction roles.length)}
  {strict : Bool} {rawWriter : Option R.State} {ringCapacity : ℕ} {Host : Type}

/-- **The buckets of a report.**  The dispatchers have taken a sequence of events when the matchers
are taken, and if both have returned, the bucket of a program in the programs file is the summary of
its own account updates among them, whatever the other programs do and in whatever order the shards
are visited.  If one has not, there is no bucket. -/
theorem program_buckets {decode : String → Except String (List UInt8)}
    {encode : List UInt8 → String} {programs : ProgramSet} (hprograms : programs.Loaded decode)
    (hdecode : ∀ text bytes, decode text = .ok bytes ↔ encode bytes = text)
    (h : (start (Pipeline.start B (programs.programNames decode) strict rawWriter roles
      ringCapacity)).run stop actions = some s) (hfinished : s.Finished) :
    ∃ taken : List (Fin roles.length × Event),
      s.seen.unwrapped.ingest = (IngestState.start B (programs.programNames decode) strict
        rawWriter).ingestAll (taken.map Prod.snd) ∧
      (∀ i, ((s.seen.unwrapped.subs i).ring.stats.received) =
        (taken.filter fun p => p.1 = i).length) ∧
      ∀ (ctx : RunContext Host) order order',
        programs.Buckets encode B strict
          (if s.seen.unwrapped.allExited then taken.filterMap fun p => p.2.accountUpdate else [])
          (s.seen.output ctx order order').perProgramAccountDelay := by
  have hof := endOfRun_of h hfinished
  have hreach := ((hof.first.trans hof.second).trans hof.third).trans hof.last
  rw [Pipeline.start_eq_spawn] at hreach
  obtain ⟨threads, hrun⟩ := hreach
  obtain ⟨t, -, -, hingest, -, hring⟩ := Pipeline.exists_dispatched hrun
  refine ⟨dispatched t.history, hingest, fun i => ?_, fun ctx order order' => ?_⟩
  · rw [(hring i).1, dispatchedOn_eq, List.length_filterMap_eq_countP,
      ← List.countP_eq_length_filter]
    refine List.countP_congr fun p _ => ?_
    split_ifs with hp <;> simp [hp]
  · by_cases hexited : s.seen.unwrapped.allExited = true
    · rw [if_pos hexited]
      refine hprograms.buckets hdecode strict _ ?_ order order'
      rw [Pipeline.reclaimMatchers, if_pos hexited, hingest, IngestState.accounts_ingestAll,
        List.filterMap_map]
      rfl
    · rw [if_neg hexited]
      refine hprograms.buckets_of_empty hdecode strict ?_ order'
      intro owner hin
      have hmem : owner ∈ s.seen.unwrapped.reclaimMatchers.accounts.shards :=
        (Finmap.mem_mapVals _ _ owner).mp hin
      rw [Pipeline.reclaimMatchers, if_neg hexited] at hmem
      exact Finmap.notMem_empty hmem

/-- An account of the system program on both endpoints, then the signal. -/
theorem program_buckets_system :
    let lib := FrameLibrary.base58 fun _ => none
    let roles : List SubscriptionRole :=
      [.main .one .processed .accounts, .main .two .processed .accounts]
    let owner : Pubkey32 := Vector.replicate 32 0
    let item : StreamItem := .event ⟨4, 0⟩ (.account 9 (Vector.replicate 32 7) owner 0 none 0)
    let pass : EndpointRole → List (SystemAction roles.length) := fun e =>
      [.dispatcher e false, .dispatcher e false, .dispatcher e true]
    let actions : List (SystemAction roles.length) :=
      deliver 0 item ++ deliver 1 item ++
        [.dispatcher .one false, .dispatcher .two false, .signal] ++ pass .one ++ pass .two ++
        [.coordinator .loadShutdown] ++ lastTasks 2
    ∃ s : System Backend.exact ⟨Unit, fun _ _ => ()⟩ roles,
      (start (Pipeline.start Backend.exact (ProgramSet.system.programNames lib.bs58Decode) false
        none roles 16)).run (.duration 60) actions = some s ∧
      (s.seen.unwrapped.reclaimMatchers.accounts.shardOf owner).main.counts.matched = 1 ∧
      ∃ taken : List (Fin roles.length × Event),
        (∀ i, (taken.filter fun p => p.1 = i).length = 1) ∧ ∀ order order',
        ProgramSet.system.Buckets Base58.encode Backend.exact false
          (taken.filterMap fun p => p.2.accountUpdate)
          (s.seen.output EndOfRun.transactionContext order order').perProgramAccountDelay := by
  intro lib roles owner item pass actions
  have hrun : ((start (Pipeline.start Backend.exact (ProgramSet.system.programNames lib.bs58Decode)
      false none roles 16 : Pipeline Backend.exact ⟨Unit, fun _ _ => ()⟩ roles)).run (.duration 60)
      actions).map (fun s => (s.coordinator, s.seen.unwrapped.allExited,
        (s.seen.unwrapped.reclaimMatchers.accounts.shardOf owner).main.counts.matched,
        fun i => (s.seen.unwrapped.subs i).ring.stats.received)) =
      some (.ending [], true, 1, fun _ => 1) := by decide
  obtain ⟨s, hs, hval⟩ := Option.map_eq_some_iff.mp hrun
  obtain ⟨hfinished, hval⟩ := Prod.mk.inj hval
  obtain ⟨hexited, hval⟩ := Prod.mk.inj hval
  obtain ⟨hmatched, hreceived⟩ := Prod.mk.inj hval
  have hloaded : ProgramSet.system.Loaded lib.bs58Decode :=
    ⟨"programs.tsv", .ok [.ok "system\t11111111111111111111111111111111"], rfl⟩
  obtain ⟨taken, -, hcount, hbuckets⟩ :=
    program_buckets hloaded (FrameLibrary.bs58Decode_base58 _) hs hfinished
  refine ⟨s, hs, hmatched, taken, fun i => ?_, fun order order' => ?_⟩
  · rw [← hcount i]
    exact congrFun hreceived i
  · have hown := hbuckets EndOfRun.transactionContext order order'
    rwa [if_pos hexited] at hown

end System

end GrpcBench
