import GrpcBench.CrossStream.Pairing

/-!
# The pairer agrees with a pair matcher

The pairer of an endpoint and a pair matcher on `(slot, signature)` are two implementations of one
rendezvous.  The pairer runs its eviction after every observation and reads the slot off the key;
the matcher runs it before the lookup of every 256th observation and compares the slot stored with
the entry.  Inside the window both answer as the board that never forgets.

* `asCall`: an observation of the pairer as a call of the matcher.
* `Tracks`, `Tracks.run`: the pairer holds the live part of the ideal board.
* `agrees_with_matcher`: the two record the same samples, in the same order.
-/

namespace GrpcBench

open Rendezvous (Board Outcome Arrival)

/-- Transactions are fed as endpoint One and account updates as endpoint Two. -/
def PairedStream.endpoint : PairedStream → EndpointRole
  | .transactions => .one
  | .accounts => .two

theorem PairedStream.endpoint_injective : Function.Injective PairedStream.endpoint := by
  intro s s' h
  cases s <;> cases s' <;> first | rfl | cases h

/-- An observation of the pairer as a call of a pair matcher on `(slot, signature)`. -/
def asCall (a : Arrival TxKey PairedStream EventTimestamp) : Call TxKey :=
  ⟨a.side.endpoint, a.key, a.val, a.key.1⟩

variable {B : Backend}

namespace TxAccountPairer

/-! ## The pairer and the ideal board -/

/-- The pairer holds the live part of the ideal board, and nothing else. -/
def Tracks (p : TxAccountPairer B) (I : Board TxKey PairedStream EventTimestamp) : Prop :=
  ∀ k, p.HoldsAt k (if Live 64 p.highWaterSlot k.1 then I k else none)

variable {p : TxAccountPairer B} {I : Board TxKey PairedStream EventTimestamp}

theorem tracks_new (B : Backend) : (new B).Tracks Rendezvous.empty := by
  intro k
  have hnone : (if Live 64 (new B).highWaterSlot k.1 then
      (Rendezvous.empty : Board TxKey PairedStream EventTimestamp) k else none) = none := by
    split_ifs <;> rfl
  rw [hnone]
  exact holdsAt_new B k

/-- The pass at the end of an arrival leaves nothing at a key that is not live. -/
theorem holdsAt_step_of_not_live (p : TxAccountPairer B)
    (a : Arrival TxKey PairedStream EventTimestamp) {k : TxKey}
    (hdead : ¬ Live 64 (raise p.highWaterSlot a.key.1) k.1) : (p.step a).HoldsAt k none := by
  have hevict : ∀ q : TxAccountPairer B, q.highWaterSlot = raise p.highWaterSlot a.key.1 →
      q.evict.HoldsAt k none := by
    intro q hq stream ts
    rw [pending_evict, Finmap.lookup_retain, hq,
      decide_eq_false fun h => hdead (cutoff_le_iff.mp h)]
    cases (q.pending stream).lookup k <;> simp
  rcases p.step_cases a with ⟨other, -, h⟩ | ⟨-, h⟩
  · rw [h]
    exact hevict _ (by cases a.side <;> rfl)
  · rw [h]
    exact hevict _ (by cases a.side <;> rfl)

/-- **One arrival inside the window** finds what it would find on the ideal board. -/
theorem Tracks.step (h : p.Tracks I) {a : Arrival TxKey PairedStream EventTimestamp}
    (hlive : Live 64 (raise p.highWaterSlot a.key.1) a.key.1) :
    p.found a = (Rendezvous.step I a).2.met ∧ (p.step a).Tracks (Rendezvous.step I a).1 := by
  have hself : p.HoldsAt a.key (I a.key) := by
    have hkey := h a.key
    rwa [if_pos hlive.of_raise] at hkey
  refine ⟨hself.found, fun k => ?_⟩
  rw [highWaterSlot_step]
  split_ifs with hk
  · by_cases hka : k = a.key
    · rw [hka, Rendezvous.step_fst_self]
      exact hself.step_self hlive
    · have hother := h k
      rw [if_pos hk.of_raise] at hother
      rw [Rendezvous.step_fst_of_ne I hka]
      exact hother.step_of_ne hka hk
  · exact holdsAt_step_of_not_live p a hk

/-- The difference that an arrival records, with its key. -/
def traced (x : Arrival TxKey PairedStream EventTimestamp × Outcome EventTimestamp) :
    Option (TxKey × ℤ) :=
  x.2.met.map fun other => (x.1.key, differenceNs x.1.side x.1.val other)

/-- **A run inside the window** records what meets on the ideal board. -/
theorem Tracks.run (h : p.Tracks I) {as : List (Arrival TxKey PairedStream EventTimestamp)}
    (hwin : InWindow 64 p.highWaterSlot (as.map asCall)) :
    p.recorded as = (Rendezvous.trace I as).filterMap traced ∧
      (p.run as).Tracks (Rendezvous.final I as) := by
  induction as generalizing p I with
  | nil => exact ⟨rfl, h⟩
  | cons a as ih =>
    obtain ⟨hlive, hrest⟩ := hwin
    obtain ⟨hfound, hnext⟩ := h.step hlive
    have hrest' : InWindow 64 (p.step a).highWaterSlot (as.map asCall) := by
      rw [highWaterSlot_step]
      exact hrest
    obtain ⟨hrecorded, hfinal⟩ := ih hnext hrest'
    refine ⟨?_, hfinal⟩
    rw [recorded, hrecorded, hfound, Rendezvous.trace_cons, List.filterMap_cons]
    cases hmet : (Rendezvous.step I a).2.met <;> simp only [traced, hmet] <;> rfl

/-- What the pairer holds is live, has arrived, and waits on one stream only. -/
theorem Tracks.of_mem (h : p.Tracks I) {k : TxKey} {stream : PairedStream}
    (hk : k ∈ p.pending stream) :
    Live 64 p.highWaterSlot k.1 ∧ (∃ ts, I k = some (stream, ts)) ∧ k ∉ p.pending stream.other := by
  obtain ⟨ts, hts⟩ := Finmap.mem_iff.mp hk
  have hwaits := (h k stream ts).mp hts
  split_ifs at hwaits with hlive
  refine ⟨hlive, ⟨ts, hwaits⟩, fun hother => ?_⟩
  obtain ⟨ts', hts'⟩ := Finmap.mem_iff.mp hother
  have hwaits' := (h k stream.other ts').mp hts'
  rw [if_pos hlive, hwaits, Option.some_inj, Prod.mk.injEq] at hwaits'
  exact stream.other_ne hwaits'.1.symm

/-- The high-water slot is at least the slot of every arrival. -/
theorem le_highWaterSlot_run (p : TxAccountPairer B)
    (as : List (Arrival TxKey PairedStream EventTimestamp)) :
    p.highWaterSlot.toNat ≤ (p.run as).highWaterSlot.toNat ∧
      ∀ a ∈ as, a.key.1.toNat ≤ (p.run as).highWaterSlot.toNat := by
  induction as generalizing p with
  | nil => exact ⟨le_rfl, by simp⟩
  | cons a as ih =>
    obtain ⟨hle, hall⟩ := ih (p.step a)
    have hrun : p.run (a :: as) = (p.step a).run as := rfl
    rw [highWaterSlot_step, toNat_raise] at hle
    rw [hrun]
    exact ⟨by omega, List.forall_mem_cons.mpr ⟨by omega, hall⟩⟩

/-! ## The matcher -/

/-- The result of a match of the matcher, in the pairer's terms. -/
theorem deltaMs_matchResult_endpoint (B : Backend) (stream : PairedStream)
    (ts other : EventTimestamp) : (matchResult B stream.endpoint ts other).deltaMs =
      B.toMs (differenceNs stream ts other) := by
  cases stream <;> rfl

/-- The matcher's arrivals are the pairer's, under other names. -/
theorem arrival_asCall (as : List (Arrival TxKey PairedStream EventTimestamp)) :
    (as.map asCall).map Call.arrival =
      as.map (Arrival.rename PairedStream.endpoint fun k ts => (⟨ts, k.1⟩ : MatchPending)) := by
  rw [List.map_map]
  rfl

/-- **A run of the matcher inside the window** has the samples that meet on the ideal board. -/
theorem deltas_matcher (B : Backend) {as : List (Arrival TxKey PairedStream EventTimestamp)}
    (hwin : InWindow 64 0 (as.map asCall)) :
    ((PairMatcher.new B TxKey (.slotWindow 64)).run (as.map asCall)).1.reduceOption.map
      MatchResult.deltaMs =
    ((Rendezvous.trace Rendezvous.empty as).filterMap traced).map fun x => B.toMs x.2 := by
  have hslot : ∀ c ∈ as.map asCall, c.slot = c.key.1 := by
    intro c hc
    obtain ⟨a, -, rfl⟩ := List.mem_map.mp hc
    rfl
  have htrace := ((PairMatcher.tracks_new Prod.fst 64).run (B := B) batched hslot hwin).1
  have hrename := Rendezvous.trace_rename (fun (k : TxKey) ts => (⟨ts, k.1⟩ : MatchPending))
    PairedStream.endpoint_injective Rendezvous.empty as
  rw [Rendezvous.rename_empty] at hrename
  rw [PairMatcher.run, PairMatcher.fst_runWith, htrace, arrival_asCall, hrename, List.map_map,
    List.reduceOption, List.filterMap_map, List.map_filterMap, List.map_filterMap]
  refine List.filterMap_congr fun x _ => ?_
  simp only [Function.comp_apply, arrivalResult, traced, Rendezvous.Outcome.met_map, id]
  cases x.2.met with
  | none => rfl
  | some other => exact congrArg some (deltaMs_matchResult_endpoint B x.1.side x.1.val other)

/-- **The two rendezvous agree.**  For every sequence of transactions and account updates inside the
window of 64 slots, the pairer records the samples of the matcher in the same order, and both
digests end in the same state.  After every step the two maps of the pairer have no common key, and
hold only keys that have arrived and whose slot is within 64 of every slot seen. -/
theorem agrees_with_matcher (B : Backend)
    (as : List (Arrival TxKey PairedStream EventTimestamp))
    (hwin : InWindow 64 0 (as.map asCall)) :
    let matcher := (PairMatcher.new B TxKey (.slotWindow 64)).run (as.map asCall)
    ((new B).recorded as).map (fun x => B.toMs x.2) =
        matcher.1.reduceOption.map MatchResult.deltaMs ∧
      ((new B).run as).digest = matcher.2.deltas ∧
      ∀ past, past <+: as → let p := (new B).run past
        (∀ k, ¬ (k ∈ p.pendingTx ∧ k ∈ p.pendingAccount)) ∧
          ∀ k, k ∈ p.pendingTx ∨ k ∈ p.pendingAccount →
            k ∈ past.map Arrival.key ∧ ∀ a ∈ past, a.key.1.toNat ≤ k.1.toNat + 64 := by
  intro matcher
  have hrecorded := ((tracks_new B).run hwin).1
  have hsamples : ((new B).recorded as).map (fun x => B.toMs x.2) =
      matcher.1.reduceOption.map MatchResult.deltaMs := by
    rw [hrecorded]
    exact (deltas_matcher B hwin).symm
  refine ⟨hsamples, ?_, ?_⟩
  · rw [digest_run, hsamples]
    have hdeltas := PairMatcher.deltas_runWith batched (PairMatcher.new B TxKey (.slotWindow 64))
      (as.map asCall)
    exact hdeltas.symm
  · rintro past ⟨rest, rfl⟩ p
    rw [List.map_append] at hwin
    have htracks := ((tracks_new B).run hwin.of_append).2
    have hmem : ∀ stream k, k ∈ p.pending stream → k ∉ p.pending stream.other ∧
        k ∈ past.map Arrival.key ∧ ∀ a ∈ past, a.key.1.toNat ≤ k.1.toNat + 64 := by
      intro stream k hk
      obtain ⟨hlive, ⟨ts, hI⟩, hother⟩ := htracks.of_mem hk
      refine ⟨hother, ?_, fun a ha => ?_⟩
      · have harrived := (Rendezvous.exists_of_final hI).resolve_left (by simp)
        exact List.mem_map.mpr ⟨_, harrived, rfl⟩
      · exact le_trans ((le_highWaterSlot_run (new B) past).2 a ha) hlive
    exact ⟨fun k hk => (hmem .transactions k hk.1).1 hk.2, fun k hk =>
      hk.elim (fun h => (hmem .transactions k h).2) fun h => (hmem .accounts k h).2⟩

/-- A replaced account update, and a key that comes again 64 slots behind. -/
theorem agrees_with_matcher_repeated :
    let key : TxKey := (10, Vector.replicate 64 1)
    let as : List (Arrival TxKey PairedStream EventTimestamp) :=
      [⟨.accounts, key, ⟨3000000, 3⟩⟩, ⟨.accounts, key, ⟨4000000, 4⟩⟩,
        ⟨.transactions, key, ⟨5000000, 5⟩⟩,
        ⟨.transactions, (74, Vector.replicate 64 2), ⟨6000000, 6⟩⟩,
        ⟨.accounts, key, ⟨9000000, 9⟩⟩]
    ((PairMatcher.new Backend.exact TxKey (.slotWindow 64)).run
      (as.map asCall)).1.reduceOption.map MatchResult.deltaMs = [-1] := by
  intro key as
  have hagree := (agrees_with_matcher Backend.exact as (by decide)).1
  rw [← hagree]
  decide +kernel

end TxAccountPairer

end GrpcBench
