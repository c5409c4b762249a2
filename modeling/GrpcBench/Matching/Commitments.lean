import GrpcBench.Matching.Soundness
import GrpcBench.Matching.Streaks
import GrpcBench.Subscribe.Plan
import Mathlib.Data.List.Perm.Basic

/-!
# Which events are paired

A matcher pairs an event with the entry that is pending under its key on the other endpoint.  The
key of a block has the commitment level of the subscription in it; the keys of an account update and
of a transaction do not.  So a plan with several commitments, which delivers an update once per
level, can pair a delivery at one level with a delivery at another.

* `Identity`, `Event.identity`: the matcher an event goes to, and its key there.
* `Partner`, `exists_partner`: every match is computed from the event that its identity was last
  delivered by on the other endpoint.
* `Identity.streak`, `StreamMatchers.isSome_resultOf_iff`: which deliveries are matched.
* `StreamMatchers.Pairs`: the pairs of a run.
* `sameLevel_iff`: a run pairs deliveries of one level, exactly when every delivery of an account
  update or transaction that makes a streak even has the level of its partner.
* `sameLevel_every_order_iff`: no order of some deliveries pairs two levels, exactly when no
  identity is delivered by the two endpoints at two levels.
-/

namespace GrpcBench

variable {B : Backend}

/-! ## Identities -/

/-- What events are paired by: a matcher, and a key there. -/
inductive Identity where
  | account (owner : Pubkey32) (key : AccountKey)
  | transaction (key : TxKey)
  | block (key : BlockKey)
  deriving DecidableEq

/-- The identity of an account, transaction or block event. -/
def Event.identity (strict : Bool) (event : Event) : Option Identity :=
  match event.payload with
  | .account slot pubkey owner writeVersion txnSignature _ =>
    some (.account owner (AccountMatcher.keyOf strict slot pubkey writeVersion txnSignature))
  | .transaction slot signature _ => some (.transaction (slot, signature))
  | .block slot blockhash _ _ _ =>
    event.subscription.commitment.map fun commitment => .block (commitment, slot, blockhash)
  | _ => none

/-- The entry that is pending for an identity on an endpoint. -/
def StreamMatchers.pendingOf (m : StreamMatchers B) (e : EndpointRole) :
    Identity → Option MatchPending
  | .account owner key => ((m.accounts.shardOf owner).main.pending e).lookup key
  | .transaction key => (m.transactions.inner.pending e).lookup key
  | .block key => (m.blocks.inner.pending e).lookup key

/-- What the matcher of an account, transaction or block event returns for it. -/
def StreamMatchers.resultOf (m : StreamMatchers B) (event : Event) : Option MatchResult :=
  match event.payload with
  | .account slot pubkey owner writeVersion txnSignature _ =>
    ((m.accounts.shardOf owner).main.observe event.endpoint
      (AccountMatcher.keyOf m.accounts.strictAccountKey slot pubkey writeVersion txnSignature)
      event.ts slot).1
  | .transaction slot signature _ =>
    (m.transactions.inner.observe event.endpoint (slot, signature) event.ts slot).1
  | .block slot blockhash _ _ _ =>
    event.subscription.commitment.bind fun commitment =>
      (m.blocks.inner.observe event.endpoint (commitment, slot, blockhash) event.ts slot).1
  | _ => none

/-! ## What one event does -/

theorem strictAccountKey_dispatch (m : StreamMatchers B) (event : Event) :
    (dispatch m event).accounts.strictAccountKey = m.accounts.strictAccountKey := by
  rw [accounts_dispatch]
  cases event.accountUpdate <;> rfl

theorem strictAccountKey_dispatchAll (m : StreamMatchers B) (events : List Event) :
    (dispatchAll m events).accounts.strictAccountKey = m.accounts.strictAccountKey := by
  induction events generalizing m with
  | nil => rfl
  | cons event events ih => rw [dispatchAll_cons, ih, strictAccountKey_dispatch]

/-- The events of an account identity are the updates of its owner and key. -/
theorem Event.identity_eq_account_iff {strict : Bool} {event : Event} {owner : Pubkey32}
    {key : AccountKey} : event.identity strict = some (.account owner key) ↔
      ∃ u, event.accountUpdate = some u ∧ u.owner = owner ∧ u.key strict = key := by
  obtain ⟨ts, sub, payload⟩ := event
  cases payload with
  | account => simp [identity, accountUpdate, AccountUpdate.key]
  | block => cases sub <;> simp [identity, accountUpdate, SubscriptionRole.commitment]
  | _ => simp [identity, accountUpdate]

/-- The events of a transaction identity are the calls of its key. -/
theorem Event.identity_eq_transaction_iff {strict : Bool} {event : Event} {key : TxKey} :
    event.identity strict = some (.transaction key) ↔ ∃ c, event.txCall = some c ∧ c.key = key := by
  obtain ⟨ts, sub, payload⟩ := event
  cases payload with
  | transaction => simp [identity, txCall]
  | block => cases sub <;> simp [identity, txCall, SubscriptionRole.commitment]
  | _ => simp [identity, txCall]

/-- The events of a block identity are the calls of its key. -/
theorem Event.identity_eq_block_iff {strict : Bool} {event : Event} {key : BlockKey} :
    event.identity strict = some (.block key) ↔ ∃ c, event.blockCall = some c ∧ c.key = key := by
  obtain ⟨ts, sub, payload⟩ := event
  cases payload with
  | block => cases sub <;> simp [identity, blockCall, SubscriptionRole.commitment]
  | _ => simp [identity, blockCall]

/-- An entry that is pending after an event, in a matcher that the event asks for `call`, if
anything. -/
theorem PairMatcher.Sound.lookup_elim {K : Type} [DecidableEq K] {m : PairMatcher B K} (h : m.Sound)
    {event : Event} {call : Option (Call K)}
    (hcall : ∀ c, call = some c → c.endpoint = event.endpoint ∧ c.ts = event.ts) {e : EndpointRole}
    {k : K} {p : MatchPending}
    (hp : ((call.elim m fun c => (m.observe c.endpoint c.key c.ts c.slot).2).pending e).lookup k =
      some p) :
    ((∃ c, call = some c ∧ c.key = k) ∧ event.endpoint = e ∧ p.ts = event.ts) ∨
      (m.pending e).lookup k = some p ∧
        ¬ ((∃ c, call = some c ∧ c.key = k) ∧ event.endpoint = e) := by
  rcases call with _ | c
  · refine Or.inr ⟨hp, ?_⟩
    rintro ⟨⟨c, hc, -⟩, -⟩
    cases hc
  · obtain ⟨hend, hts⟩ := hcall c rfl
    rcases h.lookup_stepWith c hp with ⟨hk, he, hpq⟩ | ⟨hold, hne⟩
    · exact Or.inl ⟨⟨c, rfl, hk⟩, hend.symm.trans he, by rw [hpq]; exact hts⟩
    · refine Or.inr ⟨hold, ?_⟩
      rintro ⟨⟨d, hd, hk⟩, he⟩
      cases hd
      exact hne ⟨hk, hend.trans he⟩

namespace StreamMatchers.Sound

variable {m : StreamMatchers B}

/-- An entry that is pending after an event was left by it, or was there before and the event has
another identity or endpoint. -/
theorem pendingOf_dispatch (hm : m.Sound) (event : Event) {e : EndpointRole} {i : Identity}
    {p : MatchPending} (hp : (GrpcBench.dispatch m event).pendingOf e i = some p) :
    (event.identity m.accounts.strictAccountKey = some i ∧ event.endpoint = e ∧ p.ts = event.ts) ∨
      m.pendingOf e i = some p ∧
        ¬ (event.identity m.accounts.strictAccountKey = some i ∧ event.endpoint = e) := by
  cases i with
  | account owner key =>
    rw [pendingOf, accounts_dispatch] at hp
    rw [Event.identity_eq_account_iff]
    rcases hu : event.accountUpdate with _ | u
    · rw [hu] at hp
      refine Or.inr ⟨hp, ?_⟩
      rintro ⟨⟨u, hu', -⟩, -⟩
      cases hu'
    · obtain ⟨hend, hts⟩ := Event.of_accountUpdate hu
      rw [hu, Option.elim_some, AccountMatcher.observeUpdate, AccountMatcher.shardOf_observe] at hp
      by_cases ho : u.owner = owner
      · rw [if_pos ho, PerProgramShard.main_observe] at hp
        rcases (hm.accounts owner).lookup_stepWith (u.call m.accounts.strictAccountKey) hp with
          ⟨hk, he, hpq⟩ | ⟨hold, hne⟩
        · refine Or.inl ⟨⟨u, rfl, ho, hk⟩, hend.symm.trans he, ?_⟩
          rw [hpq]
          exact hts
        · refine Or.inr ⟨hold, ?_⟩
          rintro ⟨⟨v, hv, -, hk⟩, he⟩
          cases hv
          exact hne ⟨hk, hend.trans he⟩
      · rw [if_neg ho] at hp
        refine Or.inr ⟨hp, ?_⟩
        rintro ⟨⟨v, hv, hvo, -⟩, -⟩
        cases hv
        exact ho hvo
  | transaction key =>
    rw [pendingOf, transactions_dispatch] at hp
    rw [Event.identity_eq_transaction_iff]
    exact hm.transactions.lookup_elim (fun c => Event.of_txCall) hp
  | block key =>
    rw [pendingOf, blocks_dispatch] at hp
    rw [Event.identity_eq_block_iff]
    exact hm.blocks.lookup_elim (fun c => Event.of_blockCall) hp

/-- A match is computed from the entry that is pending on the other endpoint. -/
theorem met_of_resultOf (hm : m.Sound) {event : Event} {r : MatchResult}
    (hr : m.resultOf event = some r) :
    ∃ i p, event.identity m.accounts.strictAccountKey = some i ∧
      m.pendingOf event.endpoint.other i = some p ∧
      r = matchResult B event.endpoint event.ts p.ts := by
  obtain ⟨ts, sub, payload⟩ := event
  cases payload with
  | account slot pubkey owner writeVersion txnSignature lamports =>
    obtain ⟨p, hp, hr⟩ := (hm.accounts owner).met_of_stepWith ⟨sub.endpoint, _, ts, slot⟩ hr
    exact ⟨_, p, rfl, hp, hr⟩
  | transaction slot signature index =>
    obtain ⟨p, hp, hr⟩ := hm.transactions.met_of_stepWith
      ⟨sub.endpoint, (slot, signature), ts, slot⟩ hr
    exact ⟨_, p, rfl, hp, hr⟩
  | block slot blockhash txs entries size =>
    cases sub with
    | main f commitment stream =>
      obtain ⟨p, hp, hr⟩ := hm.blocks.met_of_stepWith
        ⟨f, (commitment, slot, blockhash), ts, slot⟩ hr
      exact ⟨_, p, rfl, hp, hr⟩
    | entries f => cases hr
  | slot => cases hr
  | entry => cases hr

end StreamMatchers.Sound

theorem StreamMatchers.resultOf_accountUpdate (m : StreamMatchers B) {event : Event}
    {u : AccountUpdate} (h : event.accountUpdate = some u) : m.resultOf event =
      ((m.accounts.shardOf u.owner).main.stepWith batched
        (u.call m.accounts.strictAccountKey)).1 := by
  obtain ⟨ts, sub, payload⟩ := event
  cases payload <;> cases h
  rfl

theorem StreamMatchers.resultOf_txCall (m : StreamMatchers B) {event : Event} {c : Call TxKey}
    (h : event.txCall = some c) :
    m.resultOf event = (m.transactions.inner.stepWith batched c).1 := by
  obtain ⟨ts, sub, payload⟩ := event
  cases payload <;> cases h
  rfl

theorem StreamMatchers.resultOf_blockCall (m : StreamMatchers B) {event : Event} {c : Call BlockKey}
    (h : event.blockCall = some c) :
    m.resultOf event = (m.blocks.inner.stepWith batched c).1 := by
  obtain ⟨ts, sub, payload⟩ := event
  cases payload with
  | block => cases sub <;> cases h; rfl
  | _ => cases h

/-! ## Which deliveries are matched -/

/-- The streak of an identity in a run: that of its key, among the calls of its matcher. -/
def Identity.streak (strict : Bool) (events : List Event) : Identity → ℕ
  | .account owner key =>
    Call.streak 64 key (((events.filterMap Event.accountUpdate).filter fun u =>
      u.owner = owner).map (AccountUpdate.call strict)).reverse
  | .transaction key => Call.streak 64 key (events.filterMap Event.txCall).reverse
  | .block key => Call.streak 64 key (events.filterMap Event.blockCall).reverse

/-- **Which deliveries are matched**: those that make the streak of their identity even. -/
theorem StreamMatchers.isSome_resultOf_iff (names : Finmap fun _ : Pubkey32 => String)
    (strict : Bool) (past : List Event) {b : Event} {i : Identity}
    (hb : b.identity strict = some i) :
    ((dispatchAll (start B names strict) past).resultOf b).isSome = true ↔
      Even (i.streak strict (past ++ [b])) := by
  cases i with
  | account owner key =>
    obtain ⟨u, hu, rfl, rfl⟩ := Event.identity_eq_account_iff.mp hb
    have hmain : ((dispatchAll (start B names strict) past).accounts.shardOf u.owner).main =
        ((PairMatcher.new B AccountKey matchWindow).run
          (((past.filterMap Event.accountUpdate).filter fun v => v.owner = u.owner).map
            (AccountUpdate.call strict))).2 := by
      rw [accounts_dispatchAll, AccountMatcher.shardOf_observeAll, PerProgramShard.main_run,
        shardOf_start]
      rfl
    have hstrict : (dispatchAll (start B names strict) past).accounts.strictAccountKey = strict :=
      strictAccountKey_dispatchAll _ past
    rw [resultOf_accountUpdate _ hu, hmain, hstrict, matchWindow, PairMatcher.isSome_run_iff,
      Identity.streak, List.filterMap_append, List.filter_append, List.map_append,
      List.reverse_append]
    simp [hu]
  | transaction key =>
    obtain ⟨c, hc, rfl⟩ := Event.identity_eq_transaction_iff.mp hb
    have hinner : (dispatchAll (start B names strict) past).transactions.inner =
        ((PairMatcher.new B TxKey matchWindow).run (past.filterMap Event.txCall)).2 :=
      transactions_dispatchAll _ past
    rw [resultOf_txCall _ hc, hinner, matchWindow, PairMatcher.isSome_run_iff, Identity.streak,
      List.filterMap_append, List.reverse_append]
    simp [hc]
  | block key =>
    obtain ⟨c, hc, rfl⟩ := Event.identity_eq_block_iff.mp hb
    have hinner : (dispatchAll (start B names strict) past).blocks.inner =
        ((PairMatcher.new B BlockKey matchWindow).run (past.filterMap Event.blockCall)).2 :=
      blocks_dispatchAll _ past
    rw [resultOf_blockCall _ hc, hinner, matchWindow, PairMatcher.isSome_run_iff, Identity.streak,
      List.filterMap_append, List.reverse_append]
    simp [hc]

/-- Two deliveries of an identity, by the two endpoints. -/
theorem Identity.streak_pair {strict : Bool} {i : Identity} {a b : Event}
    (he : b.endpoint = a.endpoint.other) (ha : a.identity strict = some i)
    (hb : b.identity strict = some i) : i.streak strict [a, b] = 2 := by
  cases i with
  | account owner key =>
    obtain ⟨u, hu, rfl, rfl⟩ := Event.identity_eq_account_iff.mp ha
    obtain ⟨v, hv, hvo, hvk⟩ := Event.identity_eq_account_iff.mp hb
    have hend : v.endpoint = u.endpoint.other := by
      rw [(Event.of_accountUpdate hv).1, (Event.of_accountUpdate hu).1, he]
    rw [streak, ← hvk]
    simpa [hu, hv, hvo] using
      Call.streak_pair (c := u.call strict) (d := v.call strict) hvk hend
  | transaction key =>
    obtain ⟨c, hc, rfl⟩ := Event.identity_eq_transaction_iff.mp ha
    obtain ⟨d, hd, hdk⟩ := Event.identity_eq_transaction_iff.mp hb
    have hend : d.endpoint = c.endpoint.other := by
      rw [(Event.of_txCall hd).1, (Event.of_txCall hc).1, he]
    rw [streak, ← hdk]
    simpa [hc, hd] using Call.streak_pair hdk hend
  | block key =>
    obtain ⟨c, hc, rfl⟩ := Event.identity_eq_block_iff.mp ha
    obtain ⟨d, hd, hdk⟩ := Event.identity_eq_block_iff.mp hb
    have hend : d.endpoint = c.endpoint.other := by
      rw [(Event.of_blockCall hd).1, (Event.of_blockCall hc).1, he]
    rw [streak, ← hdk]
    simpa [hc, hd] using Call.streak_pair hdk hend

/-! ## Pairs of a run -/

/-- The event `a` is the last of the past that delivered the identity of `b` on the other
endpoint. -/
def Partner (strict : Bool) (past : List Event) (b a : Event) : Prop :=
  a.endpoint = b.endpoint.other ∧ a.identity strict = b.identity strict ∧
    (b.identity strict).isSome = true ∧
    ∃ pre mid, past = pre ++ a :: mid ∧
      ∀ c ∈ mid, ¬ (c.identity strict = b.identity strict ∧ c.endpoint = a.endpoint)

/-- The key of a block has its level. -/
theorem level_of_block {strict : Bool} {event : Event} {key : BlockKey}
    (h : event.identity strict = some (.block key)) :
    event.subscription.commitment = some key.1 := by
  obtain ⟨ts, sub, payload⟩ := event
  cases payload with
  | block slot blockhash txs entries size =>
    obtain ⟨commitment, hc, hkey⟩ := Option.map_eq_some_iff.mp h
    rw [← Identity.block.inj hkey]
    exact hc
  | _ => simp [Event.identity] at h

/-- Every pending entry was left by the last event of its identity and endpoint. -/
theorem exists_origin {m : StreamMatchers B} (hm : m.Sound)
    (hempty : ∀ e i, m.pendingOf e i = none) (past : List Event) {e : EndpointRole} {i : Identity}
    {p : MatchPending} (hp : (dispatchAll m past).pendingOf e i = some p) :
    ∃ a pre mid, past = pre ++ a :: mid ∧ a.identity m.accounts.strictAccountKey = some i ∧
      a.endpoint = e ∧ p.ts = a.ts ∧
      ∀ c ∈ mid, ¬ (c.identity m.accounts.strictAccountKey = some i ∧ c.endpoint = e) := by
  induction past using List.reverseRecOn with
  | nil =>
    rw [dispatchAll_nil, hempty] at hp
    cases hp
  | append_singleton past event ih =>
    have hstep : dispatchAll m (past ++ [event]) = dispatch (dispatchAll m past) event :=
      List.foldl_append
    rw [hstep] at hp
    have hcases := (StreamMatchers.sound_dispatchAll hm past).pendingOf_dispatch event hp
    rw [strictAccountKey_dispatchAll] at hcases
    rcases hcases with ⟨hi, he, hts⟩ | ⟨hold, hne⟩
    · exact ⟨event, past, [], rfl, hi, he, hts, fun c hc => by cases hc⟩
    · obtain ⟨a, pre, mid, rfl, hi, he, hts, hmid⟩ := ih hold
      refine ⟨a, pre, mid ++ [event], by simp, hi, he, hts, fun c hc => ?_⟩
      rcases List.mem_append.mp hc with hc | hc
      · exact hmid c hc
      · rw [List.mem_singleton.mp hc]
        exact hne

theorem StreamMatchers.pendingOf_start (names : Finmap fun _ : Pubkey32 => String) (strict : Bool)
    (e : EndpointRole) (i : Identity) : (start B names strict).pendingOf e i = none := by
  cases i with
  | account owner key =>
    rw [pendingOf, shardOf_start, PerProgramShard.new, PairMatcher.pending_new, Finmap.lookup_empty]
  | transaction key => cases e <;> rfl
  | block key => cases e <;> rfl

/-- **Every match has a partner**, and is computed from the timestamps of the two. -/
theorem exists_partner (names : Finmap fun _ : Pubkey32 => String) (strict : Bool)
    {past : List Event} {b : Event} {r : MatchResult}
    (hr : (dispatchAll (StreamMatchers.start B names strict) past).resultOf b = some r) :
    ∃ a, Partner strict past b a ∧ r = matchResult B b.endpoint b.ts a.ts := by
  have hsound := StreamMatchers.sound_start (B := B) names strict
  obtain ⟨i, p, hid, hp, hres⟩ :=
    (StreamMatchers.sound_dispatchAll hsound past).met_of_resultOf hr
  rw [strictAccountKey_dispatchAll] at hid
  have hid' : b.identity strict = some i := hid
  obtain ⟨a, pre, mid, hpast, hi, he, hts, hmid⟩ :=
    exists_origin hsound (StreamMatchers.pendingOf_start names strict) past hp
  refine ⟨a, ⟨he, hi.trans hid'.symm, by rw [hid']; rfl, pre, mid, hpast, fun c hc hcc => ?_⟩,
    by rw [hres, hts]⟩
  exact hmid c hc ⟨hcc.1.trans hid', hcc.2.trans he⟩

/-- The run pairs `b` with `a`: `b` is matched when it arrives, and `a` is its partner. -/
def StreamMatchers.Pairs (B : Backend) (names : Finmap fun _ : Pubkey32 => String) (strict : Bool)
    (events : List Event) (a b : Event) : Prop :=
  ∃ past rest, events = past ++ b :: rest ∧
    ((dispatchAll (start B names strict) past).resultOf b).isSome = true ∧ Partner strict past b a

/-- A run can pair any two deliveries of one identity by the two endpoints: they come first. -/
theorem StreamMatchers.pairs_first (names : Finmap fun _ : Pubkey32 => String) (strict : Bool)
    {a b : Event} {i : Identity} (he : b.endpoint = a.endpoint.other)
    (ha : a.identity strict = some i) (hb : b.identity strict = some i) (rest : List Event) :
    Pairs B names strict (a :: b :: rest) a b := by
  refine ⟨[a], rest, rfl, ?_, by rw [he, EndpointRole.other_other], ha.trans hb.symm,
    by rw [hb]; rfl, [], [], rfl, fun c hc => by cases hc⟩
  rw [isSome_resultOf_iff names strict [a] hb]
  exact (Identity.streak_pair he ha hb).symm ▸ even_two

/-- A pair is of one level if it is one of blocks, or if nothing else is asked of the others. -/
theorem Partner.sameLevel {strict : Bool} {past : List Event} {a b : Event}
    (hab : Partner strict past b a)
    (h : ∀ i, (∀ key, i ≠ .block key) → b.identity strict = some i →
      a.subscription.commitment = b.subscription.commitment) :
    a.subscription.commitment = b.subscription.commitment := by
  obtain ⟨-, hid, hsome, -⟩ := hab
  obtain ⟨i, hb⟩ := Option.isSome_iff_exists.mp hsome
  cases i with
  | block key => rw [level_of_block (hid.trans hb), level_of_block hb]
  | account owner key => exact h _ (fun key' hkey => by cases hkey) hb
  | transaction key => exact h _ (fun key' hkey => by cases hkey) hb

/-- **Pairs of one level.**  Every match of a run is computed from an event and its partner.  The
two always have the same commitment level exactly when, wherever a delivery of an account update or
of a transaction makes the streak of its identity even, it comes at the level of its partner, which
is the delivery of the identity before it.  Of blocks nothing is asked. -/
theorem sameLevel_iff (names : Finmap fun _ : Pubkey32 => String) (strict : Bool)
    (events : List Event) :
    (∀ past b r, (dispatchAll (StreamMatchers.start B names strict) past).resultOf b = some r →
      ∃ a, Partner strict past b a ∧ r = matchResult B b.endpoint b.ts a.ts) ∧
    ((∀ a b, StreamMatchers.Pairs B names strict events a b →
        a.subscription.commitment = b.subscription.commitment) ↔
      ∀ past b rest, events = past ++ b :: rest → ∀ i, (∀ key, i ≠ .block key) →
        b.identity strict = some i → Even (i.streak strict (past ++ [b])) →
        ∀ a, Partner strict past b a → a.subscription.commitment = b.subscription.commitment) := by
  refine ⟨fun past b r hr => exists_partner names strict hr, fun h => ?_, fun h => ?_⟩
  · intro past b rest hevents i _ hb heven a hab
    exact h a b ⟨past, rest, hevents,
      (StreamMatchers.isSome_resultOf_iff names strict past hb).mpr heven, hab⟩
  · rintro a b ⟨past, rest, hevents, hsome, hab⟩
    refine hab.sameLevel fun i hi hb => ?_
    exact h past b rest hevents i hi hb
      ((StreamMatchers.isSome_resultOf_iff names strict past hb).mp hsome) a hab

/-- **Pairs of one level, in every order.**  No order of some deliveries pairs two levels exactly
when no account update and no transaction is delivered by one endpoint at one level and by the other
at another. -/
theorem sameLevel_every_order_iff (names : Finmap fun _ : Pubkey32 => String) (strict : Bool)
    (events : List Event) :
    (∀ events', events'.Perm events → ∀ a b, StreamMatchers.Pairs B names strict events' a b →
        a.subscription.commitment = b.subscription.commitment) ↔
      ∀ a ∈ events, ∀ b ∈ events, a.endpoint ≠ b.endpoint →
        ∀ i, (∀ key, i ≠ .block key) → a.identity strict = some i → b.identity strict = some i →
        a.subscription.commitment = b.subscription.commitment := by
  refine ⟨fun h => ?_, fun h => ?_⟩
  · intro a ha b hb hne i _ hai hbi
    have hab : b ≠ a := fun hba => hne (congrArg Event.endpoint hba.symm)
    -- deliver the two first, and the others in any order
    have hperm : (a :: b :: (events.erase a).erase b).Perm events := by
      have hb' : b ∈ events.erase a := (List.mem_erase_of_ne hab).mpr hb
      exact ((List.perm_cons_erase hb').symm.cons a).trans (List.perm_cons_erase ha).symm
    exact h _ hperm a b (StreamMatchers.pairs_first names strict
      (EndpointRole.eq_other_of_ne (Ne.symm hne)) hai hbi _)
  · rintro events' hperm a b ⟨past, rest, rfl, -, hpartner⟩
    refine hpartner.sameLevel fun i hi hbi => ?_
    obtain ⟨he, hid, -, pre, mid, rfl, -⟩ := hpartner
    have ha : a ∈ events := hperm.mem_iff.mp (by simp)
    have hb : b ∈ events := hperm.mem_iff.mp (by simp)
    have hne : a.endpoint ≠ b.endpoint := by
      rw [he]
      exact b.endpoint.other_ne
    exact h a ha b hb hne i hi (hid.trans hbi) hbi

/-- Two levels, and one account update that each endpoint delivers once per level: the late delivery
of the second endpoint at one level is paired with the delivery of the first at the other. -/
theorem not_sameLevel_two_levels :
    let update : EndpointRole → Commitment → UInt64 → Event := fun e c ms =>
      ⟨⟨1000000 * ms, ms⟩, .main e c .accounts,
        .account 9 (Vector.replicate 32 1) (Vector.replicate 32 0) 1 none 5⟩
    let events := [update .one .processed 0, update .one .confirmed 400, update .two .processed 410,
      update .two .confirmed 800]
    ∃ config, Config.fromCli .base = .ok config ∧
      (∀ event ∈ events, ∃ spec ∈ (SubscriptionPlan.fromRunConfig config .system).specs,
        spec.role = event.subscription) ∧
      ¬ ∀ a b, StreamMatchers.Pairs Backend.exact ∅ false events a b →
        a.subscription.commitment = b.subscription.commitment := by
  intro update events
  refine ⟨_, rfl, ?_, fun h => ?_⟩
  · decide
  · have hpair : StreamMatchers.Pairs Backend.exact ∅ false events (update .one .confirmed 400)
        (update .two .processed 410) := by
      refine ⟨[update .one .processed 0, update .one .confirmed 400], [update .two .confirmed 800],
        rfl, rfl, rfl, rfl, rfl, [update .one .processed 0], [], rfl, fun c hc => by cases hc⟩
    exact absurd (h _ _ hpair) (by decide)

end GrpcBench
