import GrpcBench.CrossStream
import GrpcBench.Library.Folds
import GrpcBench.Library.Meetings
import GrpcBench.Matching.Window

/-!
# Transactions and their account updates

The pairer of an endpoint is a rendezvous of two streams: a side is a stream, and the party that
arrives at a key is a timestamp.  While a key stays within 64 slots of the highest slot seen, what
the pairer records for it is what the board of the rendezvous has, whatever else the endpoint
delivers.

A transaction that writes several accounts arrives once on one stream and several times on the
other.  An update that finds no transaction takes the place of the update before it.

* `TxAccountPairer.recorded`: the differences a run records, each with its key;
  `CrossStreamTracker.samples_run` says that these are the samples of the digest.
* `TxAccountPairer.HoldsAt.recorded_filter`: the differences of one key.
* `CrossStreamTracker.measuresFirst_iff`: a transaction among its account updates gives one sample,
  and when this is the difference to the first of them.
-/

namespace GrpcBench

open Rendezvous (Arrival arrive meetings)

/-- The two streams that meet. -/
inductive PairedStream where
  | transactions | accounts
  deriving DecidableEq

/-- The stream to be met. -/
def PairedStream.other : PairedStream → PairedStream
  | .transactions => .accounts
  | .accounts => .transactions

theorem PairedStream.other_ne (s : PairedStream) : s.other ≠ s := by
  cases s <;> decide

theorem PairedStream.eq_other_of_ne {s s' : PairedStream} (h : s ≠ s') : s = s'.other := by
  cases s <;> cases s' <;> first | rfl | exact absurd rfl h

/-- What an event brings to the pairer of an endpoint, if anything. -/
def Event.paired (endpoint : EndpointRole) (event : Event) :
    Option (Arrival TxKey PairedStream EventTimestamp) :=
  if event.endpoint ≠ endpoint then none
  else match event.payload with
    | .transaction slot signature _ => some ⟨.transactions, (slot, signature), event.ts⟩
    | .account slot _ _ _ (some sig) _ => some ⟨.accounts, (slot, sig), event.ts⟩
    | _ => none

variable {B : Backend}

namespace TxAccountPairer

/-- The pending map of a stream. -/
def pending (p : TxAccountPairer B) : PairedStream → Finmap fun _ : TxKey => EventTimestamp
  | .transactions => p.pendingTx
  | .accounts => p.pendingAccount

/-- Replace the pending map of a stream. -/
def setPending (p : TxAccountPairer B) (stream : PairedStream)
    (pending : Finmap fun _ : TxKey => EventTimestamp) : TxAccountPairer B :=
  match stream with
  | .transactions => { p with pendingTx := pending }
  | .accounts => { p with pendingAccount := pending }

/-- `observe_tx` or `observe_account`. -/
def step (p : TxAccountPairer B) (a : Arrival TxKey PairedStream EventTimestamp) :
    TxAccountPairer B :=
  match a.side with
  | .transactions => p.observeTx a.key.1 a.key.2 a.val
  | .accounts => p.observeAccount a.key.1 a.key.2 a.val

/-- The party an arrival meets. -/
def found (p : TxAccountPairer B) (a : Arrival TxKey PairedStream EventTimestamp) :
    Option EventTimestamp :=
  (p.pending a.side.other).lookup a.key

/-- The difference `account - tx` of an arrival and the party it meets, in nanoseconds. -/
def differenceNs (stream : PairedStream) (ts other : EventTimestamp) : ℤ :=
  match stream with
  | .transactions => (deltaNs other ts).toInt
  | .accounts => (deltaNs ts other).toInt

/-- A run of the pairer. -/
def run (p : TxAccountPairer B) (as : List (Arrival TxKey PairedStream EventTimestamp)) :
    TxAccountPairer B :=
  as.foldl step p

/-- The differences a run records, each with its key. -/
def recorded (p : TxAccountPairer B) :
    List (Arrival TxKey PairedStream EventTimestamp) → List (TxKey × ℤ)
  | [] => []
  | a :: as => ((p.found a).map fun other => (a.key, differenceNs a.side a.val other)).toList ++
      recorded (p.step a) as

/-! ## One arrival -/

variable (p : TxAccountPairer B) (a : Arrival TxKey PairedStream EventTimestamp)

theorem bumpWater_eq (slot : UInt64) :
    p.bumpWater slot = { p with highWaterSlot := raise p.highWaterSlot slot } := by
  unfold bumpWater raise
  split_ifs <;> rfl

/-- The two ways an arrival can go. -/
theorem step_cases : let q := { p with highWaterSlot := raise p.highWaterSlot a.key.1 }
    (∃ other, p.found a = some other ∧ p.step a =
      { q.setPending a.side.other ((p.pending a.side.other).erase a.key) with
        digest := p.digest.push (B.toMs (differenceNs a.side a.val other)) }.evict) ∨
    (p.found a = none ∧ p.step a =
      (q.setPending a.side ((p.pending a.side).insert a.key a.val)).evict) := by
  obtain ⟨side, key, ts⟩ := a
  intro q
  rcases hfound : p.found ⟨side, key, ts⟩ with _ | other
  · refine Or.inr ⟨rfl, ?_⟩
    cases side with
    | transactions =>
      have hlook : p.pendingAccount.lookup key = none := hfound
      simp only [step, observeTx, bumpWater_eq, Prod.mk.eta, hlook]
      rfl
    | accounts =>
      have hlook : p.pendingTx.lookup key = none := hfound
      simp only [step, observeAccount, bumpWater_eq, Prod.mk.eta, hlook]
      rfl
  · refine Or.inl ⟨other, rfl, ?_⟩
    cases side with
    | transactions =>
      have hlook : p.pendingAccount.lookup key = some other := hfound
      simp only [step, observeTx, bumpWater_eq, Prod.mk.eta, hlook]
      rfl
    | accounts =>
      have hlook : p.pendingTx.lookup key = some other := hfound
      simp only [step, observeAccount, bumpWater_eq, Prod.mk.eta, hlook]
      rfl

@[simp] theorem highWaterSlot_step :
    (p.step a).highWaterSlot = raise p.highWaterSlot a.key.1 := by
  obtain ⟨side, key, ts⟩ := a
  rcases p.step_cases ⟨side, key, ts⟩ with ⟨other, -, h⟩ | ⟨-, h⟩ <;> rw [h] <;> cases side <;> rfl

/-- An arrival that meets somebody records one sample; any other records none. -/
theorem digest_step : (p.step a).digest =
    ((p.found a).map fun other => B.toMs (differenceNs a.side a.val other)).toList.foldl
      BufferedDigest.push p.digest := by
  rcases p.step_cases a with ⟨other, hfound, h⟩ | ⟨hfound, h⟩
  · rw [h, hfound]
    rfl
  · rw [h, hfound]
    cases a.side <;> rfl

theorem pending_evict (stream : PairedStream) : p.evict.pending stream = (p.pending stream).retain
    fun key _ => decide (saturatingSub p.highWaterSlot 64 ≤ key.1) := by
  cases stream <;> rfl

theorem pending_setPending (stream s : PairedStream) (m : Finmap fun _ : TxKey => EventTimestamp)
    (k : TxKey) : ((p.setPending stream m).pending s).lookup k =
      if s = stream then m.lookup k else (p.pending s).lookup k := by
  cases stream <;> cases s <;> rfl

/-- The lookups of a live key in the pending maps after an arrival. -/
theorem lookup_step (stream : PairedStream) (k : TxKey)
    (hlive : Live 64 (raise p.highWaterSlot a.key.1) k.1) :
    ((p.step a).pending stream).lookup k =
      if k ≠ a.key then (p.pending stream).lookup k
      else if (p.found a).isSome then
        if stream = a.side.other then none else (p.pending stream).lookup k
      else if stream = a.side then some a.val else (p.pending stream).lookup k := by
  have hkeep : ∀ q : TxAccountPairer B, q.highWaterSlot = raise p.highWaterSlot a.key.1 →
      (q.evict.pending stream).lookup k = (q.pending stream).lookup k := by
    intro q hq
    rw [pending_evict, Finmap.lookup_retain, hq, decide_eq_true (cutoff_le_iff.mpr hlive)]
    cases (q.pending stream).lookup k <;> rfl
  have hraise : ∀ s, ({ p with highWaterSlot := raise p.highWaterSlot a.key.1 } :
      TxAccountPairer B).pending s = p.pending s := fun s => by cases s <;> rfl
  rcases p.step_cases a with ⟨other, hfound, h⟩ | ⟨hfound, h⟩
  · have hset := pending_setPending { p with highWaterSlot := raise p.highWaterSlot a.key.1 }
      a.side.other stream ((p.pending a.side.other).erase a.key) k
    rw [h, hkeep _ (by cases a.side <;> rfl), hfound]
    refine Eq.trans (by cases stream <;> rfl) (hset.trans ?_)
    rw [Finmap.lookup_erase_ite, hraise]
    by_cases hk : k = a.key
    · simp [hk]
    · by_cases hs : stream = a.side.other <;> simp [hk, hs]
  · have hset := pending_setPending { p with highWaterSlot := raise p.highWaterSlot a.key.1 }
      a.side stream ((p.pending a.side).insert a.key a.val) k
    rw [h, hkeep _ (by cases a.side <;> rfl), hfound]
    refine hset.trans ?_
    rw [Finmap.lookup_insert_ite, hraise]
    by_cases hk : k = a.key
    · simp [hk]
    · by_cases hs : stream = a.side <;> simp [hk, hs]

/-! ## One key -/

/-- The pending maps hold one party at a key, or none. -/
def HoldsAt (k : TxKey) (waiting : Option (PairedStream × EventTimestamp)) : Prop :=
  ∀ stream ts, (p.pending stream).lookup k = some ts ↔ waiting = some (stream, ts)

theorem holdsAt_new (B : Backend) (k : TxKey) : (new B).HoldsAt k none := by
  intro stream ts
  cases stream <;> simp [new, pending]

variable {p a} {k : TxKey} {waiting : Option (PairedStream × EventTimestamp)}

theorem HoldsAt.lookup_eq_none (h : p.HoldsAt k waiting) (stream : PairedStream)
    (hne : ∀ ts, waiting ≠ some (stream, ts)) : (p.pending stream).lookup k = none :=
  Option.eq_none_iff_forall_ne_some.mpr fun ts hts => hne ts ((h stream ts).mp hts)

/-- An arrival meets the party that waits on the other stream. -/
theorem HoldsAt.found (h : p.HoldsAt a.key waiting) :
    p.found a = (arrive waiting a.side a.val).2.met := by
  rcases waiting with _ | ⟨stream, ts⟩
  · exact h.lookup_eq_none _ fun ts => by simp
  · by_cases hs : stream = a.side
    · subst hs
      rw [Rendezvous.arrive_same]
      exact h.lookup_eq_none _ fun ts' => by simp [a.side.other_ne.symm]
    · rw [Rendezvous.arrive_other hs]
      exact (h _ ts).mpr (by rw [PairedStream.eq_other_of_ne hs])

/-- An arrival at a live key is one step of its rendezvous. -/
theorem HoldsAt.step_self (h : p.HoldsAt a.key waiting)
    (hlive : Live 64 (raise p.highWaterSlot a.key.1) a.key.1) :
    (p.step a).HoldsAt a.key (arrive waiting a.side a.val).1 := by
  intro stream ts
  rw [lookup_step _ _ _ _ hlive, if_neg (not_not.mpr rfl), h.found]
  rcases waiting with _ | ⟨s, v⟩
  · -- nobody waited, and now the arrival does
    have hnone := h.lookup_eq_none stream fun ts' => by simp
    by_cases hs : stream = a.side <;> simp [hs, hnone, eq_comm]
  · by_cases hs : s = a.side
    · -- the arrival takes the place of an earlier one of its stream
      subst hs
      rw [Rendezvous.arrive_same]
      by_cases hstream : stream = a.side
      · simp [hstream]
      · have hnone := h.lookup_eq_none stream fun ts' => by simp [Ne.symm hstream]
        simp [hstream, Ne.symm hstream, hnone]
    · -- the two meet, and the key is free
      rw [Rendezvous.arrive_other hs]
      by_cases hstream : stream = a.side.other
      · simp [hstream]
      · have hnone := h.lookup_eq_none stream fun ts' => by
          rw [PairedStream.eq_other_of_ne hs]
          simp [Ne.symm hstream]
        simp [hstream, hnone]

/-- An arrival at another key leaves a live key alone. -/
theorem HoldsAt.step_of_ne (h : p.HoldsAt k waiting) (hne : k ≠ a.key)
    (hlive : Live 64 (raise p.highWaterSlot a.key.1) k.1) : (p.step a).HoldsAt k waiting := by
  intro stream ts
  rw [lookup_step _ _ _ _ hlive, if_pos hne]
  exact h stream ts

/-! ## Runs -/

/-- The samples go into the digest in the order in which they are recorded. -/
theorem digest_run (p : TxAccountPairer B)
    (as : List (Arrival TxKey PairedStream EventTimestamp)) : (p.run as).digest =
      ((p.recorded as).map fun x => B.toMs x.2).foldl BufferedDigest.push p.digest := by
  induction as generalizing p with
  | nil => rfl
  | cons a as ih =>
    have hhead : (((p.found a).map fun other => (a.key, differenceNs a.side a.val other)).toList.map
        fun x => B.toMs x.2) =
          ((p.found a).map fun other => B.toMs (differenceNs a.side a.val other)).toList := by
      cases p.found a <;> rfl
    rw [run, List.foldl_cons, ← run, ih, digest_step, recorded, List.map_append, hhead,
      List.foldl_append]

/-- **The samples of a run** are the differences it records, in milliseconds. -/
theorem samples_run (p : TxAccountPairer B)
    (as : List (Arrival TxKey PairedStream EventTimestamp)) : (p.run as).digest.samples =
      ((p.recorded as).map fun x => B.toMs x.2 : List ℚ) + p.digest.samples := by
  rw [digest_run, BufferedDigest.samples_foldl_push]

/-- **The differences of a key** are those of its meetings, as long as no arrival's slot is more
than 64 above the key's. -/
theorem HoldsAt.recorded_filter (h : p.HoldsAt k waiting)
    (hwater : p.highWaterSlot.toNat ≤ k.1.toNat + 64)
    {as : List (Arrival TxKey PairedStream EventTimestamp)}
    (hnear : ∀ a ∈ as, a.key.1.toNat ≤ k.1.toNat + 64) :
    ((p.recorded as).filter fun x => x.1 = k).map Prod.snd =
      (meetings waiting ((as.filter fun a => a.key = k).map fun a => (a.side, a.val))).map
        fun m => differenceNs m.1.1 m.1.2 m.2 := by
  induction as generalizing p waiting with
  | nil => rfl
  | cons a as ih =>
    obtain ⟨ha, has⟩ := List.forall_mem_cons.mp hnear
    have hraise : (raise p.highWaterSlot a.key.1).toNat ≤ k.1.toNat + 64 := by
      rw [toNat_raise]
      omega
    have hwater' : (p.step a).highWaterSlot.toNat ≤ k.1.toNat + 64 := by
      rw [highWaterSlot_step]
      exact hraise
    rw [recorded, List.filter_append, List.map_append]
    by_cases hk : a.key = k
    · subst hk
      rw [ih (h.step_self hraise) hwater' has, List.filter_cons_of_pos (by simp), List.map_cons,
        meetings, List.map_append, h.found]
      cases (arrive waiting a.side a.val).2.met <;> simp
    · rw [ih (h.step_of_ne (Ne.symm hk) hraise) hwater' has,
        List.filter_cons_of_neg (by simpa using hk)]
      cases p.found a <;> simp [hk]

end TxAccountPairer

namespace CrossStreamTracker

open TxAccountPairer (differenceNs)

/-- A run of the tracker. -/
def run (t : CrossStreamTracker B) (events : List Event) : CrossStreamTracker B :=
  events.foldl observe t

theorem endpoint_observe (t : CrossStreamTracker B) (event : Event) :
    (t.observe event).endpoint = t.endpoint := by
  unfold observe
  split
  · rfl
  · split <;> rfl

/-- An event reaches the pairer as an arrival, or not at all. -/
theorem txVsAccount_observe (t : CrossStreamTracker B) (event : Event) :
    (t.observe event).txVsAccount =
      (event.paired t.endpoint).elim t.txVsAccount t.txVsAccount.step := by
  by_cases h : event.endpoint = t.endpoint
  · simp only [observe, Event.paired, h, ne_eq, not_true, if_false]
    rcases event.payload with _ | ⟨_, _, _, _, _ | _, _⟩ | _ | _ | _ <;> rfl
  · simp only [observe, Event.paired, h, ne_eq, not_false_iff, if_true, Option.elim]

theorem txVsAccount_run (t : CrossStreamTracker B) (events : List Event) :
    (t.run events).txVsAccount =
      t.txVsAccount.run (events.filterMap (Event.paired t.endpoint)) := by
  induction events generalizing t with
  | nil => rfl
  | cons event events ih =>
    rw [run, List.foldl_cons, ← run, ih, endpoint_observe, txVsAccount_observe]
    rcases h : event.paired t.endpoint with _ | a
    · rw [List.filterMap_cons_none h]
      rfl
    · rw [List.filterMap_cons_some h]
      rfl

/-- The differences a tracker records for a key over a run, in nanoseconds. -/
def recorded (B : Backend) (endpoint : EndpointRole) (key : TxKey) (events : List Event) : List ℤ :=
  (((TxAccountPairer.new B).recorded (events.filterMap (Event.paired endpoint))).filter
    fun x => x.1 = key).map Prod.snd

/-- The samples of a tracker's digest are the differences recorded for the keys, in milliseconds. -/
theorem samples_run (B : Backend) (endpoint : EndpointRole) (events : List Event) :
    ((new B endpoint).run events).txVsAccount.digest.samples =
      (((TxAccountPairer.new B).recorded (events.filterMap (Event.paired endpoint))).map
        fun x => B.toMs x.2 : List ℚ) := by
  rw [txVsAccount_run, TxAccountPairer.samples_run]
  exact (congrArg _ BufferedDigest.samples_new).trans (add_zero _)

variable {endpoint : EndpointRole} {key : TxKey} {events : List Event}
  {before after : List EventTimestamp} {tx : EventTimestamp}

/-- A transaction meets the last account update before it, or else the first one after it. -/
theorem recorded_eq
    (hown : ((events.filterMap (Event.paired endpoint)).filter fun a => a.key = key).map
      (fun a => (a.side, a.val)) = before.map (fun ts => (.accounts, ts)) ++
        (.transactions, tx) :: after.map fun ts => (.accounts, ts))
    (hnear : ∀ a ∈ events.filterMap (Event.paired endpoint), a.key.1.toNat ≤ key.1.toNat + 64) :
    recorded B endpoint key events =
      ((before.getLast?.or after.head?).map fun account => (deltaNs account tx).toInt).toList := by
  rw [recorded, (TxAccountPairer.holdsAt_new B key).recorded_filter (Nat.zero_le _) hnear, hown,
    Rendezvous.meetings_lone (by decide)]
  rcases before.getLast? with _ | account
  · rcases after.head? with _ | account <;> rfl
  · rfl

/-- **What is measured.**  A transaction and its account updates, in any order and among any events
whose slots keep the transaction's within 64 of the highest, give exactly one sample.  It is the
difference from the transaction to the first update when, of the updates before the transaction, the
last arrived at the same time as the first. -/
theorem measuresFirst_iff (B : Backend) (endpoint : EndpointRole) (key : TxKey)
    (events : List Event) (before after : List EventTimestamp) (tx first : EventTimestamp)
    (hown : ((events.filterMap (Event.paired endpoint)).filter fun a => a.key = key).map
      (fun a => (a.side, a.val)) = before.map (fun ts => (.accounts, ts)) ++
        (.transactions, tx) :: after.map fun ts => (.accounts, ts))
    (hnear : ∀ a ∈ events.filterMap (Event.paired endpoint), a.key.1.toNat ≤ key.1.toNat + 64)
    (hfirst : (before ++ after).head? = some first) :
    (recorded B endpoint key events).length = 1 ∧
      (recorded B endpoint key events = [(deltaNs first tx).toInt] ↔
        ∀ last ∈ before.getLast?, clampNs last.monoNs = clampNs first.monoNs) := by
  rw [recorded_eq hown hnear]
  rcases hlast : before.getLast? with _ | last
  · have hnil : before = [] := List.getLast?_eq_none_iff.mp hlast
    have hafter : after.head? = some first := by simpa [hnil] using hfirst
    rw [hafter]
    simp
  · rw [Option.some_or, Option.map_some, Option.toList_some]
    refine ⟨rfl, ?_⟩
    simp only [List.cons.injEq, and_true, toInt_deltaNs, Option.mem_def, Option.some_inj,
      forall_eq']
    omega

/-- The transaction of slot 10 on the transactions stream, `ms` milliseconds into the run. -/
def txAt (ms : UInt64) : Event :=
  ⟨⟨ms * 1000000, ms⟩, .main .one .processed .transactions,
    .transaction 10 (Vector.replicate 64 1) 0⟩

/-- One of its writes on the accounts stream. -/
def writeAt (account : UInt8) (ms : UInt64) : Event :=
  ⟨⟨ms * 1000000, ms⟩, .main .one .processed .accounts,
    .account 10 (Vector.replicate 32 account) (Vector.replicate 32 0) 0
      (some (Vector.replicate 64 1)) 0⟩

/-- One write before the transaction and one after it. -/
theorem measuresFirst_iff_around :
    let events := [writeAt 1 3, txAt 5, writeAt 2 9]
    recorded Backend.exact .one (10, Vector.replicate 64 1) events = [-2000000] := by
  intro events
  have hiff := measuresFirst_iff Backend.exact .one (10, Vector.replicate 64 1) events
    [⟨3000000, 3⟩] [⟨9000000, 9⟩] ⟨5000000, 5⟩ ⟨3000000, 3⟩ (by decide) (by decide) rfl
  exact (hiff.2.mpr (by decide)).trans (by decide)

/-- Two writes before the transaction: the difference to the second is recorded. -/
theorem not_measuresFirst_two_before :
    let events := [writeAt 1 0, writeAt 2 3, txAt 5]
    events.Pairwise (fun e e' => e.ts.monoNs ≤ e'.ts.monoNs) ∧
      recorded Backend.exact .one (10, Vector.replicate 64 1) events = [-2000000] ∧
      recorded Backend.exact .one (10, Vector.replicate 64 1) events ≠
        [(deltaNs (writeAt 1 0).ts (txAt 5).ts).toInt] := by
  intro events
  have hown : ((events.filterMap (Event.paired .one)).filter fun a =>
      a.key = (10, Vector.replicate 64 1)).map (fun a => (a.side, a.val)) =
        [⟨0, 0⟩, ⟨3000000, 3⟩].map (fun ts => (.accounts, ts)) ++
          (.transactions, ⟨5000000, 5⟩) :: [].map fun ts => (.accounts, ts) := by decide
  have hrecorded : recorded Backend.exact .one (10, Vector.replicate 64 1) events = [-2000000] :=
    (recorded_eq hown (by decide)).trans (by decide)
  refine ⟨by decide, hrecorded, ?_⟩
  rw [hrecorded]
  decide

end CrossStreamTracker

end GrpcBench
