import GrpcBench.Matching.Soundness
import GrpcBench.Run.Ingest

/-!
# No observation is lost

The dispatchers count the account, transaction and block events of their endpoint, and the matchers
keep what became of them.  Whatever the two dispatchers do, and whenever a matcher is evicted or
summarized in between, the two agree: every counted event is matched, pending, evicted, or was
replaced by a later event of the same endpoint and key.

* `Maintenance`: the calls on the matchers that are not events, namely evictions and summaries.
* `IngestRun`: the runs, with the number of replaced entries written down on the way.
* `Books.ingest`, `Maintenance.sound`: what one event and one maintenance call do to the books.
* `books_ingestRun`: the books of every run.
-/

namespace GrpcBench

variable {B : Backend}

/-! ## What the books are about -/

/-- The stream kinds whose events the dispatchers count and the matchers pair. -/
inductive StreamKind where
  | accounts | transactions | blocks
  deriving DecidableEq

/-- The dispatcher's counter of a kind. -/
def IngestCountersPartial.of (c : IngestCountersPartial) : StreamKind → ℕ
  | .accounts => c.accounts
  | .transactions => c.transactions
  | .blocks => c.blocks

namespace StreamMatchers

variable (m : StreamMatchers B)

/-- The matches of a kind, summed over the owner shards for accounts. -/
def matched : StreamKind → ℕ
  | .accounts => Finmap.total (fun shard => shard.main.counts.matched) m.accounts.shards
  | .transactions => m.transactions.inner.counts.matched
  | .blocks => m.blocks.inner.counts.matched

/-- The entries of a kind that are pending on an endpoint. -/
def pendingSize (e : EndpointRole) : StreamKind → ℕ
  | .accounts => Finmap.total (fun shard => (shard.main.pending e).size) m.accounts.shards
  | .transactions => (m.transactions.inner.pending e).size
  | .blocks => (m.blocks.inner.pending e).size

/-- The entries of a kind that an endpoint lost to eviction. -/
def unmatchedEvicted (e : EndpointRole) : StreamKind → ℕ
  | .accounts => Finmap.total (fun shard => shard.main.counts.unmatchedEvicted e) m.accounts.shards
  | .transactions => m.transactions.inner.counts.unmatchedEvicted e
  | .blocks => m.blocks.inner.counts.unmatchedEvicted e

/-- Matched, pending and evicted together. -/
def balance (e : EndpointRole) : StreamKind → ℕ
  | .accounts => Finmap.total (fun shard => shard.main.balance e) m.accounts.shards
  | .transactions => m.transactions.inner.balance e
  | .blocks => m.blocks.inner.balance e

theorem balance_eq (e : EndpointRole) (x : StreamKind) :
    m.balance e x = m.matched x + m.pendingSize e x + m.unmatchedEvicted e x := by
  cases x with
  | accounts =>
    rw [balance, matched, pendingSize, unmatchedEvicted, AccountMatcher.total_shards,
      AccountMatcher.total_shards, AccountMatcher.total_shards, AccountMatcher.total_shards,
      ← Finset.sum_add_distrib, ← Finset.sum_add_distrib]
    rfl
  | transactions => rfl
  | blocks => rfl

/-- A call replaces a pending entry of its endpoint and key: it finds one there once it is admitted,
and none on the other endpoint. -/
def replacedBy (event : Event) (x : StreamKind) : Bool :=
  match x with
  | .accounts => event.accountUpdate.elim false fun u =>
      isReplaced ((m.accounts.shardOf u.owner).main.foundWith batched
        (u.call m.accounts.strictAccountKey))
  | .transactions => event.txCall.elim false fun c =>
      isReplaced (m.transactions.inner.foundWith batched c)
  | .blocks => event.blockCall.elim false fun c =>
      isReplaced (m.blocks.inner.foundWith batched c)

end StreamMatchers

/-- The kind an event is counted under. -/
def Event.kind (event : Event) : Option StreamKind :=
  match event.payload with
  | .account .. => some .accounts
  | .transaction .. => some .transactions
  | .block .. => some .blocks
  | _ => none

/-- Block events occur on main subscriptions only. -/
def Event.BlockOnMain (event : Event) : Prop :=
  event.kind = some .blocks → event.subscription.isEntries = false

theorem counters_countEvent (event : Event) (c : IngestCountersPartial) (n : ℕ) (x : StreamKind) :
    (countEvent event c n).1.of x = c.of x + if event.kind = some x then 1 else 0 := by
  obtain ⟨ts, sub, payload⟩ := event
  cases payload with
  | slot slot stage =>
    unfold countEvent
    dsimp only
    split_ifs <;> cases x <;> simp_all [Event.kind, IngestCountersPartial.of]
  | _ => cases x <;> rfl

/-! ## One event -/

/-- Writing back the shard of an owner moves a sum over the shards by the difference of the two. -/
theorem AccountMatcher.total_insert_shard (m : AccountMatcher B) (owner : Pubkey32)
    (shard : PerProgramShard B) (f : PerProgramShard B → ℕ)
    (hf : f (PerProgramShard.new B m.eviction) = 0) :
    Finmap.total f (m.shards.insert owner shard) + f (m.shardOf owner) =
      Finmap.total f m.shards + f shard := by
  by_cases h : owner ∈ m.shards
  · exact Finmap.total_insert_add f (m.lookup_shards h) shard
  · rw [Finmap.total_insert_of_notMem f h, AccountMatcher.shardOf, Finmap.lookup_eq_none.mpr h,
      Option.getD_none, hf]
    omega

/-- The books of the account shards after one update. -/
theorem AccountMatcher.balance_observeUpdate (m : AccountMatcher B) (u : AccountUpdate)
    (hs : (m.shardOf u.owner).main.eviction = matchWindow) (e : EndpointRole) :
    Finmap.total (fun shard => shard.main.balance e) (m.observeUpdate u).shards +
        (if (decide (u.endpoint = e) && isReplaced ((m.shardOf u.owner).main.foundWith batched
          (u.call m.strictAccountKey))) = true then 1 else 0) =
      Finmap.total (fun shard => shard.main.balance e) m.shards +
        if u.endpoint = e then 1 else 0 := by
  have hnew : (PerProgramShard.new B m.eviction).main.balance e = 0 := by
    cases e <;> simp [PerProgramShard.new, PairMatcher.balance, PairMatcher.new,
      PairMatcher.pending, MatchCounts.unmatchedEvicted]
  have hins := m.total_insert_shard u.owner ((m.shardOf u.owner).step (u.call m.strictAccountKey))
    (fun shard => shard.main.balance e) hnew
  have hstep := PairMatcher.balance_stepWith batched (m.shardOf u.owner).main
    (u.call m.strictAccountKey) hs e
  have hmain : ((m.shardOf u.owner).step (u.call m.strictAccountKey)).main =
      ((m.shardOf u.owner).main.stepWith batched (u.call m.strictAccountKey)).2 := by
    rw [PerProgramShard.step_eq]
  rw [← hmain] at hstep
  have hshards : (m.observeUpdate u).shards = m.shards.insert u.owner
      ((m.shardOf u.owner).step (u.call m.strictAccountKey)) := rfl
  have hend : (u.call m.strictAccountKey).endpoint = u.endpoint := rfl
  rw [hend] at hstep
  rw [hshards]
  omega

/-- The books of a matcher after an event that asks it for `call`, if anything. -/
theorem PairMatcher.balance_elim {K : Type} [DecidableEq K] {m : PairMatcher B K}
    (hm : m.eviction = matchWindow) {f : EndpointRole} {call : Option (Call K)}
    (hcall : ∀ c, call = some c → c.endpoint = f) (e : EndpointRole) :
    (call.elim m fun c => (m.observe c.endpoint c.key c.ts c.slot).2).balance e +
        (if (decide (f = e) && call.elim false fun c => isReplaced (m.foundWith batched c)) = true
          then 1 else 0) =
      m.balance e + if f = e ∧ call.isSome = true then 1 else 0 := by
  rcases call with _ | c
  · simp
  · have hstep := balance_stepWith batched m c hm e
    rw [hcall c rfl] at hstep
    simp only [Option.isSome_some, and_true]
    exact hstep

/-- The kind of an event is the matcher that it asks for something. -/
theorem Event.kind_eq_some_iff {event : Event} (hblock : event.BlockOnMain) :
    (event.kind = some .accounts ↔ event.accountUpdate.isSome = true) ∧
      (event.kind = some .transactions ↔ event.txCall.isSome = true) ∧
      (event.kind = some .blocks ↔ event.blockCall.isSome = true) := by
  obtain ⟨ts, sub, payload⟩ := event
  cases payload with
  | block =>
    cases sub with
    | entries f => exact absurd (hblock rfl) (by simp [SubscriptionRole.isEntries])
    | main => simp [kind, accountUpdate, txCall, blockCall, SubscriptionRole.commitment]
  | _ => simp [kind, accountUpdate, txCall, blockCall]

/-- **One event on the books.**  The kind of the event has one more observation of its endpoint on
them, unless the event replaced an older entry; nothing else moves. -/
theorem StreamMatchers.balance_dispatch {m : StreamMatchers B} (hm : m.Sound) {event : Event}
    (hblock : event.BlockOnMain) (e : EndpointRole) (x : StreamKind) :
    (dispatch m event).balance e x +
        (if (decide (event.endpoint = e) && m.replacedBy event x) = true then 1 else 0) =
      m.balance e x + if event.endpoint = e ∧ event.kind = some x then 1 else 0 := by
  obtain ⟨haccounts, htxs, hblocks⟩ := Event.kind_eq_some_iff hblock
  cases x with
  | accounts =>
    rw [balance, balance, accounts_dispatch, replacedBy,
      if_congr (and_congr_right' haccounts) rfl rfl]
    rcases hu : event.accountUpdate with _ | u
    · simp
    · have hbal := m.accounts.balance_observeUpdate u (hm.accounts u.owner).policy e
      rw [(Event.of_accountUpdate hu).1] at hbal
      simp only [Option.isSome_some, and_true]
      exact hbal
  | transactions =>
    rw [balance, balance, transactions_dispatch, replacedBy,
      if_congr (and_congr_right' htxs) rfl rfl]
    exact PairMatcher.balance_elim hm.transactions.policy (fun c hc => (Event.of_txCall hc).1) e
  | blocks =>
    rw [balance, balance, blocks_dispatch, replacedBy, if_congr (and_congr_right' hblocks) rfl rfl]
    exact PairMatcher.balance_elim hm.blocks.policy (fun c hc => (Event.of_blockCall hc).1) e

/-! ## Evictions and summaries -/

/-- The calls on the matchers that are not events: extra evictions, and the summaries with whatever
order the shards are visited in. -/
inductive Maintenance : StreamMatchers B → StreamMatchers B → Prop
  | evictSlots (m) (stage : SlotStage) (p) (h : m.slots.matcherFor stage = some p) :
    Maintenance m { m with slots := m.slots.setMatcherFor stage p.evict }
  | evictShard (m) (owner : Pubkey32) (shard) (h : m.accounts.shards.lookup owner = some shard) :
    Maintenance m { m with accounts := { m.accounts with
      shards := m.accounts.shards.insert owner { shard with main := shard.main.evict } } }
  | evictTransactions (m) :
    Maintenance m { m with transactions := ⟨m.transactions.inner.evict⟩ }
  | evictBlocks (m) : Maintenance m { m with blocks := ⟨m.blocks.inner.evict⟩ }
  | summarySlots (m) : Maintenance m { m with slots := m.slots.summary.2 }
  | summaryAccounts (m) (order : Finmap.Enumeration m.accounts.shards) :
    Maintenance m { m with accounts := (m.accounts.summary order).2 }
  | perProgramSummary (m) (order : Finmap.Enumeration m.accounts.shards) :
    Maintenance m { m with accounts := (m.accounts.perProgramSummary order).2 }
  | summaryTransactions (m) : Maintenance m { m with transactions := m.transactions.summary.2 }
  | summaryBlocks (m) : Maintenance m { m with blocks := m.blocks.summary.2 }

/-- A change of every shard in place is a change of every owner's shard. -/
theorem AccountMatcher.shardOf_mapVals (m : AccountMatcher B)
    (f : Pubkey32 → PerProgramShard B → PerProgramShard B) (owner : Pubkey32) :
    ({ m with shards := m.shards.mapVals f } : AccountMatcher B).shardOf owner =
      if owner ∈ m.shards then f owner (m.shardOf owner) else m.shardOf owner := by
  rw [shardOf, shardOf, Finmap.lookup_mapVals]
  by_cases h : owner ∈ m.shards
  · rw [if_pos h, m.lookup_shards h]
    rfl
  · rw [if_neg h, Finmap.lookup_eq_none.mpr h]
    rfl

/-- If a change in place keeps a quantity of every shard, it keeps the sum. -/
theorem AccountMatcher.total_mapVals (m : AccountMatcher B)
    (f : Pubkey32 → PerProgramShard B → PerProgramShard B) (g : PerProgramShard B → ℕ)
    (h : ∀ owner, g (f owner (m.shardOf owner)) = g (m.shardOf owner)) :
    Finmap.total g (m.shards.mapVals f) = Finmap.total g m.shards := by
  have hnew := total_shards { m with shards := m.shards.mapVals f } g
  rw [total_shards]
  refine hnew.trans ?_
  rw [Finmap.keys_mapVals]
  refine Finset.sum_congr rfl fun owner _ => ?_
  rw [shardOf_mapVals]
  split_ifs
  · exact h owner
  · rfl

/-! A call replaces one sub-matcher.  If it keeps that one sound and balanced, it keeps all of them
so. -/

namespace StreamMatchers.Sound

variable {m : StreamMatchers B}

theorem setSlots (hm : m.Sound) {slots : SlotMatcher B}
    (h : ∀ stage p, slots.matcherFor stage = some p → p.Sound) :
    StreamMatchers.Sound { m with slots := slots } ∧
      ∀ e x, StreamMatchers.balance { m with slots := slots } e x = m.balance e x :=
  ⟨⟨h, hm.policy, hm.accounts, hm.transactions, hm.blocks⟩, fun e x => by cases x <;> rfl⟩

theorem setTransactions (hm : m.Sound) {inner : PairMatcher B TxKey} (h : inner.Sound)
    (hbal : ∀ e, inner.balance e = m.transactions.inner.balance e) :
    StreamMatchers.Sound { m with transactions := ⟨inner⟩ } ∧
      ∀ e x, StreamMatchers.balance { m with transactions := ⟨inner⟩ } e x = m.balance e x := by
  refine ⟨⟨hm.slots, hm.policy, hm.accounts, h, hm.blocks⟩, fun e x => ?_⟩
  cases x with
  | transactions => exact hbal e
  | _ => rfl

theorem setBlocks (hm : m.Sound) {inner : PairMatcher B BlockKey} (h : inner.Sound)
    (hbal : ∀ e, inner.balance e = m.blocks.inner.balance e) :
    StreamMatchers.Sound { m with blocks := ⟨inner⟩ } ∧
      ∀ e x, StreamMatchers.balance { m with blocks := ⟨inner⟩ } e x = m.balance e x := by
  refine ⟨⟨hm.slots, hm.policy, hm.accounts, hm.transactions, h⟩, fun e x => ?_⟩
  cases x with
  | blocks => exact hbal e
  | _ => rfl

theorem insertShard (hm : m.Sound) {owner : Pubkey32} {shard shard' : PerProgramShard B}
    (hs : m.accounts.shards.lookup owner = some shard) (h : shard'.main.Sound)
    (hbal : ∀ e, shard'.main.balance e = shard.main.balance e) :
    StreamMatchers.Sound { m with accounts := { m.accounts with
        shards := m.accounts.shards.insert owner shard' } } ∧
      ∀ e x, StreamMatchers.balance { m with accounts := { m.accounts with
        shards := m.accounts.shards.insert owner shard' } } e x = m.balance e x := by
  refine ⟨⟨hm.slots, hm.policy, fun o => ?_, hm.transactions, hm.blocks⟩, fun e x => ?_⟩
  · rw [AccountMatcher.shardOf, Finmap.lookup_insert_ite]
    split_ifs
    · exact h
    · exact hm.accounts o
  · cases x with
    | accounts =>
      have hins := Finmap.total_insert_add (fun shard => shard.main.balance e) hs shard'
      rw [hbal] at hins
      exact Nat.add_right_cancel hins
    | _ => rfl

theorem mapShards (hm : m.Sound) {f : Pubkey32 → PerProgramShard B → PerProgramShard B}
    (h : ∀ owner shard, shard.main.Sound → (f owner shard).main.Sound)
    (hbal : ∀ e owner shard, shard.main.Sound →
      (f owner shard).main.balance e = shard.main.balance e) :
    StreamMatchers.Sound { m with accounts := { m.accounts with
        shards := m.accounts.shards.mapVals f } } ∧
      ∀ e x, StreamMatchers.balance { m with accounts := { m.accounts with
        shards := m.accounts.shards.mapVals f } } e x = m.balance e x := by
  refine ⟨⟨hm.slots, hm.policy, fun owner => ?_, hm.transactions, hm.blocks⟩, fun e x => ?_⟩
  · show (AccountMatcher.shardOf { m.accounts with
      shards := m.accounts.shards.mapVals f } owner).main.Sound
    rw [AccountMatcher.shardOf_mapVals]
    split_ifs
    · exact h owner _ (hm.accounts owner)
    · exact hm.accounts owner
  · cases x with
    | accounts =>
      exact m.accounts.total_mapVals f (fun shard => shard.main.balance e) fun owner =>
        hbal e owner _ (hm.accounts owner)
    | _ => rfl

end StreamMatchers.Sound

/-- **A maintenance call** keeps the matchers sound and moves nothing on the books. -/
theorem Maintenance.sound {m m' : StreamMatchers B} (h : Maintenance m m') (hm : m.Sound) :
    m'.Sound ∧ ∀ e x, m'.balance e x = m.balance e x := by
  cases h with
  | evictSlots stage p h =>
    refine hm.setSlots fun s q hq => ?_
    rw [SlotMatcher.matcherFor_setMatcherFor] at hq
    split_ifs at hq with hs
    · obtain ⟨-, -, rfl⟩ := Option.map_eq_some_iff.mp hq
      exact (hm.slots stage p h).evict
    · exact hm.slots s q hq
  | evictShard owner shard h =>
    have hshard : m.accounts.shardOf owner = shard := by
      rw [AccountMatcher.shardOf, h, Option.getD_some]
    have hsound : shard.main.Sound := hshard ▸ hm.accounts owner
    exact hm.insertShard h hsound.evict fun e => PairMatcher.balance_evict _ hsound.policy e
  | evictTransactions =>
    exact hm.setTransactions hm.transactions.evict fun e =>
      PairMatcher.balance_evict _ hm.transactions.policy e
  | evictBlocks =>
    exact hm.setBlocks hm.blocks.evict fun e => PairMatcher.balance_evict _ hm.blocks.policy e
  | summarySlots =>
    refine hm.setSlots fun s q hq => ?_
    rw [SlotMatcher.matcherFor_summary] at hq
    obtain ⟨p, hp, rfl⟩ := Option.map_eq_some_iff.mp hq
    exact (hm.slots s p hp).evict.flush
  | summaryAccounts order =>
    exact hm.mapShards (f := AccountMatcher.settleShard) (fun _ _ hs => hs.evict.flush)
      fun e _ _ hs => hs.balance_settled e
  | perProgramSummary order =>
    exact hm.mapShards (f := AccountMatcher.flushShard) (fun _ _ hs => hs) fun _ _ _ _ => rfl
  | summaryTransactions =>
    have hs : m.transactions.summary.2 = ⟨m.transactions.inner.evict.flush⟩ :=
      congrArg TransactionMatcher.mk (LatencyDigestSummary.snd_fromMatcher m.transactions.inner)
    rw [hs]
    exact hm.setTransactions hm.transactions.evict.flush hm.transactions.balance_settled
  | summaryBlocks =>
    have hs : m.blocks.summary.2 = ⟨m.blocks.inner.evict.flush⟩ :=
      congrArg BlockMatcher.mk (LatencyDigestSummary.snd_fromMatcher m.blocks.inner)
    rw [hs]
    exact hm.setBlocks hm.blocks.evict.flush hm.blocks.balance_settled

/-! ## Runs -/

variable {R : RawSink}

/-- The number of observations of each kind and endpoint that replaced a pending entry. -/
abbrev ReplacedTally := StreamKind → EndpointRole → ℕ

/-- The tally after one event. -/
def ReplacedTally.add (replaced : ReplacedTally) (m : StreamMatchers B) (event : Event) :
    ReplacedTally :=
  fun x e => replaced x e +
    if (decide (event.endpoint = e) && m.replacedBy event x) = true then 1 else 0

/-- A run of the two dispatchers, from their start: events in any interleaving, with maintenance
calls in between.  The tally counts the replaced entries. -/
inductive IngestRun (names : Finmap fun _ : Pubkey32 => String) (strict : Bool)
    (rawWriter : Option R.State) : IngestState B R → ReplacedTally → Prop
  | start : IngestRun names strict rawWriter (IngestState.start B names strict rawWriter)
      fun _ _ => 0
  | event {s : IngestState B R} {replaced : ReplacedTally} (event : Event)
      (h : IngestRun names strict rawWriter s replaced) (hblock : event.BlockOnMain) :
      IngestRun names strict rawWriter (s.ingest event) (replaced.add s.shared.matchers event)
  | maintenance {s : IngestState B R} {replaced : ReplacedTally} {m : StreamMatchers B}
      (h : IngestRun names strict rawWriter s replaced)
      (hmaint : Maintenance s.shared.matchers m) :
      IngestRun names strict rawWriter { s with shared := { s.shared with matchers := m } } replaced

/-- The books: the matchers are sound, and every counted observation is accounted for. -/
structure Books (s : IngestState B R) (replaced : ReplacedTally) : Prop where
  sound : s.shared.matchers.Sound
  balanced : ∀ x e, (s.dispatchers e).counters.of x =
    s.shared.matchers.balance e x + replaced x e

theorem books_start (names : Finmap fun _ : Pubkey32 => String) (strict : Bool)
    (rawWriter : Option R.State) :
    Books (IngestState.start B names strict rawWriter) fun _ _ => 0 where
  sound := StreamMatchers.sound_start names strict
  balanced x e := by cases x <;> cases e <;> rfl

theorem Books.ingest {s : IngestState B R} {replaced : ReplacedTally} (h : Books s replaced)
    {event : Event} (hblock : event.BlockOnMain) :
    Books (s.ingest event) (replaced.add s.shared.matchers event) where
  sound := h.sound.dispatch event
  balanced x e := by
    have hbal := StreamMatchers.balance_dispatch h.sound hblock e x
    have hbook := h.balanced x e
    have hcount : ((s.ingest event).dispatchers e).counters.of x =
        (s.dispatchers e).counters.of x +
          if event.endpoint = e ∧ event.kind = some x then 1 else 0 := by
      by_cases he : event.endpoint = e
      · subst he
        rw [IngestState.dispatchers_ingest_self, dispatchEvent]
        dsimp only
        rw [counters_countEvent, if_congr (and_iff_right rfl) rfl rfl]
      · rw [IngestState.dispatchers_ingest_of_ne s (Ne.symm he), if_neg fun hn => he hn.1, add_zero]
    rw [hcount, IngestState.matchers_ingest, ReplacedTally.add]
    omega

/-- **Conservation.**  In every run, the dispatcher's counter of a kind is the sum of its matches,
its pending entries, its evicted entries and the entries that were replaced; no key of any matcher
is pending on both endpoints; and no kind has more matches than either endpoint has events. -/
theorem books_ingestRun {names : Finmap fun _ : Pubkey32 => String} {strict : Bool}
    {rawWriter : Option R.State} {s : IngestState B R} {replaced : ReplacedTally}
    (h : IngestRun names strict rawWriter s replaced) :
    (∀ x e, (s.dispatchers e).counters.of x = s.shared.matchers.matched x +
      s.shared.matchers.pendingSize e x + s.shared.matchers.unmatchedEvicted e x +
        replaced x e) ∧
    (∀ e, (∀ stage p key, s.shared.matchers.slots.matcherFor stage = some p →
        key ∈ p.pending e → key ∉ p.pending e.other) ∧
      (∀ owner shard key, s.shared.matchers.accounts.shards.lookup owner = some shard →
        key ∈ shard.main.pending e → key ∉ shard.main.pending e.other) ∧
      (∀ key, key ∈ s.shared.matchers.transactions.inner.pending e →
        key ∉ s.shared.matchers.transactions.inner.pending e.other) ∧
      ∀ key, key ∈ s.shared.matchers.blocks.inner.pending e →
        key ∉ s.shared.matchers.blocks.inner.pending e.other) ∧
    ∀ x, s.shared.matchers.matched x ≤
      min ((s.dispatchers .one).counters.of x) ((s.dispatchers .two).counters.of x) := by
  have hbooks : Books s replaced := by
    induction h with
    | start => exact books_start names strict rawWriter
    | event event _ hblock ih => exact ih.ingest hblock
    | maintenance _ hmaint ih =>
      obtain ⟨hsound, hbal⟩ := hmaint.sound ih.sound
      exact ⟨hsound, fun x e => (ih.balanced x e).trans (by rw [hbal])⟩
  have hsum : ∀ x e, (s.dispatchers e).counters.of x = s.shared.matchers.matched x +
      s.shared.matchers.pendingSize e x + s.shared.matchers.unmatchedEvicted e x +
        replaced x e := fun x e => by
    rw [hbooks.balanced, StreamMatchers.balance_eq]
  refine ⟨hsum, fun e => ⟨fun stage p key hp hk => ?_, fun owner shard key hs hk => ?_,
    fun key hk => ?_, fun key hk => ?_⟩, fun x => ?_⟩
  · exact (hbooks.sound.slots stage p hp).disjoint hk
  · have hshard : s.shared.matchers.accounts.shardOf owner = shard := by
      rw [AccountMatcher.shardOf, hs, Option.getD_some]
    exact (hshard ▸ hbooks.sound.accounts owner).disjoint hk
  · exact hbooks.sound.transactions.disjoint hk
  · exact hbooks.sound.blocks.disjoint hk
  · have h1 := hsum x .one
    have h2 := hsum x .two
    omega

/-- One transaction from both endpoints, and an eviction afterwards. -/
theorem books_ingestRun_one_match :
    let tx : EndpointRole → Event := fun e =>
      ⟨⟨10, 1⟩, .main e .processed .transactions, .transaction 5 (Vector.replicate 64 0) 0⟩
    let R : RawSink := ⟨Unit, fun _ _ => ()⟩
    let s₀ : IngestState Backend.exact R := IngestState.start Backend.exact ∅ false none
    let s₁ := s₀.ingest (tx .one)
    let s₂ := s₁.ingest (tx .two)
    let replaced := ReplacedTally.add
      (ReplacedTally.add (fun _ _ => 0) s₀.shared.matchers (tx .one)) s₁.shared.matchers (tx .two)
    let m := { s₂.shared.matchers with
      transactions := ⟨s₂.shared.matchers.transactions.inner.evict⟩ }
    (s₂.dispatchers .one).counters.transactions = m.matched .transactions +
        m.pendingSize .one .transactions + m.unmatchedEvicted .one .transactions +
          replaced .transactions .one ∧
      m.matched .transactions ≤ min (s₂.dispatchers .one).counters.transactions
        (s₂.dispatchers .two).counters.transactions := by
  intro tx R s₀ s₁ s₂ replaced m
  have hrun : IngestRun ∅ false none { s₂ with shared := { s₂.shared with matchers := m } }
      replaced :=
    ((IngestRun.start.event (tx .one) fun h => nomatch h).event (tx .two)
      fun h => nomatch h).maintenance (.evictTransactions s₂.shared.matchers)
  obtain ⟨hsum, -, hle⟩ := books_ingestRun hrun
  exact ⟨hsum .transactions .one, hle .transactions⟩

end GrpcBench
