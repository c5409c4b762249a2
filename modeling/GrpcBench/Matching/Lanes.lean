import GrpcBench.Matching.Dispatch
import GrpcBench.Matching.Shards

/-!
# Lanes

The two dispatcher threads share the matchers.  Every event belongs to at most one *lane*: a live
slot stage, an account owner, the transactions, or the blocks of main subscriptions.  A dispatch
touches the sub-matcher of the event's lane and nothing else, so only the order of events within a
lane matters: that is what allows one lock per kind and one shard per owner.

* `matcherFor_dispatchAll`, `accounts_dispatchAll`, `transactions_dispatchAll`,
  `blocks_dispatchAll`: each sub-matcher has run on the calls of its own lane.
* `dispatch_of_no_lane`: events without a lane change nothing.
* `dispatchAll_lanes`: runs that agree lane by lane end in the same state.
-/

namespace GrpcBench

variable {B : Backend}

/-- What an event asks of the matcher of a slot stage. -/
def Event.slotCall (stage : SlotStage) (event : Event) : Option (Call UInt64) :=
  match event.payload with
  | .slot slot s => if s = stage then some ⟨event.endpoint, slot, event.ts, slot⟩ else none
  | _ => none

/-- What an event asks of the account matcher. -/
def Event.accountUpdate (event : Event) : Option AccountUpdate :=
  match event.payload with
  | .account slot pubkey owner writeVersion txnSignature _ =>
    some ⟨event.endpoint, slot, pubkey, writeVersion, txnSignature, owner, event.ts⟩
  | _ => none

/-- What an event asks of the transaction matcher. -/
def Event.txCall (event : Event) : Option (Call TxKey) :=
  match event.payload with
  | .transaction slot signature _ =>
    some ⟨event.endpoint, (slot, signature), event.ts, slot⟩
  | _ => none

/-- What an event asks of the block matcher. -/
def Event.blockCall (event : Event) : Option (Call BlockKey) :=
  match event.payload with
  | .block slot blockhash _ _ _ =>
    event.subscription.commitment.map fun commitment =>
      ⟨event.endpoint, (commitment, slot, blockhash), event.ts, slot⟩
  | _ => none

/-! A call has the endpoint and the timestamp of its event. -/

theorem Event.of_accountUpdate {event : Event} {u : AccountUpdate}
    (h : event.accountUpdate = some u) : u.endpoint = event.endpoint ∧ u.ts = event.ts := by
  obtain ⟨ts, sub, payload⟩ := event
  cases payload <;> cases h
  exact ⟨rfl, rfl⟩

theorem Event.of_txCall {event : Event} {c : Call TxKey} (h : event.txCall = some c) :
    c.endpoint = event.endpoint ∧ c.ts = event.ts := by
  obtain ⟨ts, sub, payload⟩ := event
  cases payload <;> cases h
  exact ⟨rfl, rfl⟩

theorem Event.of_blockCall {event : Event} {c : Call BlockKey} (h : event.blockCall = some c) :
    c.endpoint = event.endpoint ∧ c.ts = event.ts := by
  obtain ⟨ts, sub, payload⟩ := event
  cases payload with
  | block =>
    obtain ⟨commitment, -, rfl⟩ := Option.map_eq_some_iff.mp h
    exact ⟨rfl, rfl⟩
  | _ => cases h

/-! ## What one event does -/

section Dispatch

variable (m : StreamMatchers B) (event : Event)

theorem matcherFor_dispatch (stage : SlotStage) :
    (dispatch m event).slots.matcherFor stage =
      match event.slotCall stage with
      | some c => (m.slots.matcherFor stage).map fun p => (p.observe c.endpoint c.key c.ts c.slot).2
      | none => m.slots.matcherFor stage := by
  obtain ⟨ts, sub, payload⟩ := event
  cases payload with
  | slot slot s =>
    rw [dispatch, Event.slotCall]
    dsimp only
    rw [SlotMatcher.matcherFor_observeStage]
    by_cases h : s = stage
    · rw [if_pos h, if_pos h]
    · rw [if_neg h, if_neg h]
  | account => rfl
  | transaction => rfl
  | block => cases sub <;> rfl
  | entry => rfl

theorem accounts_dispatch : (dispatch m event).accounts =
    event.accountUpdate.elim m.accounts m.accounts.observeUpdate := by
  obtain ⟨ts, sub, payload⟩ := event
  cases payload with
  | block => cases sub <;> rfl
  | _ => rfl

theorem transactions_dispatch : (dispatch m event).transactions.inner =
    event.txCall.elim m.transactions.inner fun c =>
      (m.transactions.inner.observe c.endpoint c.key c.ts c.slot).2 := by
  obtain ⟨ts, sub, payload⟩ := event
  cases payload with
  | block => cases sub <;> rfl
  | _ => rfl

theorem blocks_dispatch : (dispatch m event).blocks.inner =
    event.blockCall.elim m.blocks.inner fun c =>
      (m.blocks.inner.observe c.endpoint c.key c.ts c.slot).2 := by
  obtain ⟨ts, sub, payload⟩ := event
  cases payload with
  | block => cases sub <;> rfl
  | _ => rfl

end Dispatch

/-! ## What a run does to each sub-matcher -/

section DispatchAll

variable (m : StreamMatchers B) (events : List Event)

theorem matcherFor_dispatchAll (stage : SlotStage) :
    (dispatchAll m events).slots.matcherFor stage =
      (m.slots.matcherFor stage).map fun p =>
        (p.run (events.filterMap (Event.slotCall stage))).2 := by
  have hrun : ∀ (cs : List (Call UInt64)) (o : Option (PairMatcher B UInt64)),
      cs.foldl (fun o c => o.map fun p => (p.observe c.endpoint c.key c.ts c.slot).2) o =
        o.map fun p => (p.run cs).2 := by
    intro cs o
    induction cs generalizing o with
    | nil => cases o <;> rfl
    | cons c cs ih =>
      rw [List.foldl_cons, ih]
      cases o <;> rfl
  rw [← hrun]
  exact Folds.foldl_projection (fun m : StreamMatchers B => m.slots.matcherFor stage)
    (fun m event c hc => (matcherFor_dispatch m event stage).trans (by rw [hc]))
    (fun m event hc => (matcherFor_dispatch m event stage).trans (by rw [hc])) events m

theorem accounts_dispatchAll : (dispatchAll m events).accounts =
    m.accounts.observeAll (events.filterMap Event.accountUpdate) :=
  Folds.foldl_projection (fun m : StreamMatchers B => m.accounts)
    (fun m event u hu => (accounts_dispatch m event).trans (by rw [hu, Option.elim_some]))
    (fun m event hu => (accounts_dispatch m event).trans (by rw [hu, Option.elim_none])) events m

theorem transactions_dispatchAll : (dispatchAll m events).transactions.inner =
    (m.transactions.inner.run (events.filterMap Event.txCall)).2 := by
  rw [PairMatcher.run_eq_foldl]
  exact Folds.foldl_projection (fun m : StreamMatchers B => m.transactions.inner)
    (fun m event c hc => (transactions_dispatch m event).trans (by rw [hc, Option.elim_some]))
    (fun m event hc => (transactions_dispatch m event).trans (by rw [hc, Option.elim_none]))
    events m

theorem blocks_dispatchAll : (dispatchAll m events).blocks.inner =
    (m.blocks.inner.run (events.filterMap Event.blockCall)).2 := by
  rw [PairMatcher.run_eq_foldl]
  exact Folds.foldl_projection (fun m : StreamMatchers B => m.blocks.inner)
    (fun m event c hc => (blocks_dispatch m event).trans (by rw [hc, Option.elim_some]))
    (fun m event hc => (blocks_dispatch m event).trans (by rw [hc, Option.elim_none])) events m

end DispatchAll

/-! ## Lanes -/

/-- The call lanes. -/
inductive Lane where
  | slot (stage : SlotStage)
  | account (owner : Pubkey32)
  | transactions
  | blocks
  deriving DecidableEq

/-- The lane of an event.  Dead slots, entries, and blocks of entries-only subscriptions have
none. -/
def Event.lane (event : Event) : Option Lane :=
  match event.payload with
  | .slot _ stage => if stage = .dead then none else some (.slot stage)
  | .account _ _ owner _ _ _ => some (.account owner)
  | .transaction .. => some .transactions
  | .block .. => if event.subscription.isEntries then none else some .blocks
  | .entry .. => none

/-- **Events without a lane change nothing.** -/
theorem dispatch_of_no_lane (m : StreamMatchers B) (event : Event) (h : event.lane = none) :
    dispatch m event = m := by
  obtain ⟨ts, sub, payload⟩ := event
  cases payload with
  | slot slot stage =>
    cases stage with
    | dead => rfl
    | _ => cases h
  | account => cases h
  | transaction => cases h
  | block =>
    cases sub with
    | main => cases h
    | entries => rfl
  | entry => rfl

theorem slotCall_of_lane {stage : SlotStage} (hstage : stage ≠ .dead) {event : Event}
    (h : decide (event.lane = some (.slot stage)) = false) : event.slotCall stage = none := by
  rw [decide_eq_false_iff_not] at h
  obtain ⟨ts, sub, payload⟩ := event
  cases payload with
  | slot slot s =>
    refine if_neg fun hs => h ?_
    subst hs
    exact if_neg hstage
  | _ => rfl

theorem accountUpdate_of_lane {owner : Pubkey32} {event : Event}
    (h : decide (event.lane = some (.account owner)) = false) :
    (event.accountUpdate.filter fun u => u.owner = owner) = none := by
  rw [decide_eq_false_iff_not] at h
  obtain ⟨ts, sub, payload⟩ := event
  cases payload with
  | account slot pubkey o writeVersion txnSignature lamports =>
    refine if_neg fun ho => h ?_
    rw [← of_decide_eq_true ho]
    rfl
  | _ => rfl

theorem txCall_of_lane {event : Event} (h : decide (event.lane = some .transactions) = false) :
    event.txCall = none := by
  obtain ⟨ts, sub, payload⟩ := event
  cases payload with
  | transaction => exact absurd h (by simp [Event.lane])
  | _ => rfl

theorem blockCall_of_lane {event : Event} (h : decide (event.lane = some .blocks) = false) :
    event.blockCall = none := by
  obtain ⟨ts, sub, payload⟩ := event
  cases payload with
  | block =>
    cases sub with
    | main => exact absurd h (by simp [Event.lane, SubscriptionRole.isEntries])
    | entries => rfl
  | _ => rfl

/-- The updates of one owner, picked from the events at once. -/
theorem filter_accountUpdate (events : List Event) (owner : Pubkey32) :
    ((events.filterMap Event.accountUpdate).filter fun u => u.owner = owner) =
      events.filterMap fun event => event.accountUpdate.filter fun u => u.owner = owner := by
  rw [List.filter_filterMap]

/-- **Only the order within a lane matters.**  Two runs that have the same events in every lane, in
the same order there, end in the same state, however the lanes are interleaved; dead slots, entries
and blocks of entries-only subscriptions change nothing. -/
theorem dispatchAll_lanes (m : StreamMatchers B) (events events' : List Event)
    (h : ∀ l : Lane, events.filter (fun event => event.lane = some l) =
      events'.filter fun event => event.lane = some l) :
    dispatchAll m events = dispatchAll m events' ∧
      (∀ ts sub slot, dispatch m ⟨ts, sub, .slot slot .dead⟩ = m) ∧
      (∀ ts sub slot index executed starting,
        dispatch m ⟨ts, sub, .entry slot index executed starting⟩ = m) ∧
      ∀ ts e slot blockhash txs entries size,
        dispatch m ⟨ts, .entries e, .block slot blockhash txs entries size⟩ = m := by
  have hslots : (dispatchAll m events).slots = (dispatchAll m events').slots := by
    refine SlotMatcher.ext_matcherFor fun stage => ?_
    rw [matcherFor_dispatchAll, matcherFor_dispatchAll]
    by_cases hstage : stage = .dead
    · subst hstage
      rfl
    · rw [Folds.filterMap_eq_of_filter_eq (fun event => slotCall_of_lane hstage)
        (h (.slot stage))]
  have haccounts : (dispatchAll m events).accounts = (dispatchAll m events').accounts := by
    rw [accounts_dispatchAll, accounts_dispatchAll]
    refine AccountMatcher.observeAll_congr m.accounts fun owner => ?_
    rw [filter_accountUpdate, filter_accountUpdate]
    exact Folds.filterMap_eq_of_filter_eq (fun event => accountUpdate_of_lane)
      (h (.account owner))
  have htxs : (dispatchAll m events).transactions.inner =
      (dispatchAll m events').transactions.inner := by
    rw [transactions_dispatchAll, transactions_dispatchAll,
      Folds.filterMap_eq_of_filter_eq (fun event => txCall_of_lane) (h .transactions)]
  have hblocks : (dispatchAll m events).blocks.inner = (dispatchAll m events').blocks.inner := by
    rw [blocks_dispatchAll, blocks_dispatchAll,
      Folds.filterMap_eq_of_filter_eq (fun event => blockCall_of_lane) (h .blocks)]
  refine ⟨?_, fun ts sub slot => dispatch_of_no_lane m _ rfl,
    fun ts sub slot index executed starting => dispatch_of_no_lane m _ rfl,
    fun ts e slot blockhash txs entries size => dispatch_of_no_lane m _ rfl⟩
  rcases h1 : dispatchAll m events with ⟨s1, a1, ⟨t1⟩, ⟨b1⟩⟩
  rcases h2 : dispatchAll m events' with ⟨s2, a2, ⟨t2⟩, ⟨b2⟩⟩
  rw [h1, h2] at hslots haccounts htxs hblocks
  dsimp only at hslots haccounts htxs hblocks
  rw [hslots, haccounts, htxs, hblocks]

/-- Two dispatchers, a slot event and a transaction: either may take its lock first. -/
theorem dispatchAll_lanes_two_threads :
    let slotEvent : Event :=
      ⟨⟨10, 1⟩, .main .one .processed .slots, .slot 5 .processed⟩
    let txEvent : Event :=
      ⟨⟨20, 2⟩, .main .two .processed .transactions, .transaction 5 (Vector.replicate 64 0) 0⟩
    let m := StreamMatchers.new Backend.exact ∅
    dispatchAll m [slotEvent, txEvent] = dispatchAll m [txEvent, slotEvent] := by
  intro slotEvent txEvent m
  refine (dispatchAll_lanes m [slotEvent, txEvent] [txEvent, slotEvent] fun l => ?_).1
  cases l with
  | slot stage => cases stage <;> rfl
  | account owner => rfl
  | transactions => rfl
  | blocks => rfl

end GrpcBench
