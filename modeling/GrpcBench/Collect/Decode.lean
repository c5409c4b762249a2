import GrpcBench.Collect.Event
import GrpcBench.Library.Base58

/-!
# Decoding

`collect/mod.rs`: `decode`, which turns a frame of the stream into an event, skips it, or finds it
malformed.  A frame has the fields that are read; the status of a slot, the base58 text of a
blockhash and the size of a block on the wire are read by other crates (`FrameLibrary`).

* `Carries`: a well-formed frame and the payload it carries; `Defect`: the first thing wrong with a
  frame.  Neither speaks of the decoder.
* `decode_exact`: which frames become which events, and what is wrong with the others.
-/

namespace GrpcBench

/-! ## Frames -/

/-- `SlotStatus`. -/
inductive SlotStatus where
  | slotProcessed | slotConfirmed | slotFinalized | slotFirstShredReceived | slotCompleted
  | slotCreatedBank | slotDead
  deriving DecidableEq, Repr

/-- `SlotStage::from_proto`. -/
def SlotStage.fromProto : SlotStatus → SlotStage
  | .slotFirstShredReceived => .firstShredReceived
  | .slotCompleted => .completed
  | .slotCreatedBank => .createdBank
  | .slotProcessed => .processed
  | .slotConfirmed => .confirmed
  | .slotFinalized => .finalized
  | .slotDead => .dead

/-- `SubscribeUpdateSlot`. -/
structure SubscribeUpdateSlot where
  slot : UInt64
  status : Int32

/-- `SubscribeUpdateAccountInfo`. -/
structure SubscribeUpdateAccountInfo where
  pubkey : List UInt8
  lamports : UInt64
  owner : List UInt8
  writeVersion : UInt64
  txnSignature : Option (List UInt8)

/-- `SubscribeUpdateAccount`. -/
structure SubscribeUpdateAccount where
  account : Option SubscribeUpdateAccountInfo
  slot : UInt64

/-- `SubscribeUpdateTransactionInfo`. -/
structure SubscribeUpdateTransactionInfo where
  signature : List UInt8
  index : UInt64

/-- `SubscribeUpdateTransaction`. -/
structure SubscribeUpdateTransaction where
  transaction : Option SubscribeUpdateTransactionInfo
  slot : UInt64

/-- `SubscribeUpdateBlock`, with the length of its encoding. -/
structure SubscribeUpdateBlock where
  slot : UInt64
  blockhash : String
  executedTransactionCount : UInt64
  entriesCount : UInt64
  encodedLen : ℕ

/-- `SubscribeUpdateEntry`. -/
structure SubscribeUpdateEntry where
  slot : UInt64
  index : UInt64
  executedTransactionCount : UInt64
  startingTransactionIndex : UInt64

/-- `UpdateOneof`. -/
inductive UpdateOneof where
  | account (a : SubscribeUpdateAccount)
  | slot (s : SubscribeUpdateSlot)
  | transaction (t : SubscribeUpdateTransaction)
  | transactionStatus
  | block (b : SubscribeUpdateBlock)
  | ping
  | pong
  | blockMeta
  | entry (e : SubscribeUpdateEntry)

/-- `TimedUpdate`: a frame and its arrival. -/
structure TimedUpdate where
  ts : EventTimestamp
  updateOneof : Option UpdateOneof

/-- What other crates read out of a frame. -/
structure FrameLibrary where
  /-- `SlotStatus::try_from`. -/
  slotStatus : Int32 → Option SlotStatus
  /-- `bs58::decode`. -/
  bs58Decode : String → Except String (List UInt8)

/-- Base58 as the library of that name has it. -/
def FrameLibrary.base58 (slotStatus : Int32 → Option SlotStatus) : FrameLibrary where
  slotStatus := slotStatus
  bs58Decode text :=
    match Base58.decode text with
    | some bytes => .ok bytes
    | none => .error "provided string contained invalid character"

theorem FrameLibrary.bs58Decode_base58 (slotStatus : Int32 → Option SlotStatus) (text : String)
    (bytes : List UInt8) :
    (base58 slotStatus).bs58Decode text = .ok bytes ↔ Base58.encode bytes = text := by
  rw [← Base58.decode_eq_some_iff, base58]
  dsimp only
  rcases Base58.decode text with _ | b
  · exact iff_of_false (fun h => by cases h) (fun h => by cases h)
  · rw [Except.ok.injEq, Option.some.injEq]

/-! ## The decoder -/

/-- `DecodeError`. -/
inductive DecodeError where
  | accountMissingInfo
  | txMissingInfo
  | badPubkeyLen (got : ℕ)
  | badSignatureLen (got : ℕ)
  | badBlockhashLen (got : ℕ)
  | badBlockhashEncoding (hash reason : String)
  | unknownSlotStatus (status : Int32)
  deriving DecidableEq

/-- The `#[error]` text; `debug` is the text of a string with quotes and escapes. -/
def DecodeError.message (debug : String → String) : DecodeError → String
  | .accountMissingInfo => "account update missing AccountInfo"
  | .txMissingInfo => "transaction update missing TransactionInfo"
  | .badPubkeyLen got => "expected 32-byte pubkey/owner, got " ++ toString got ++ " bytes"
  | .badSignatureLen got => "expected 64-byte signature, got " ++ toString got ++ " bytes"
  | .badBlockhashLen got => "expected 32-byte blockhash, got " ++ toString got ++ " bytes"
  | .badBlockhashEncoding hash reason =>
    "blockhash " ++ debug hash ++ " is not valid base58: " ++ reason
  | .unknownSlotStatus status => "unknown SlotStatus discriminant " ++ toString status

/-- A byte string of a given length, or the error that it has another. -/
def toBytes (n : ℕ) (error : ℕ → DecodeError) (b : List UInt8) :
    Except DecodeError (Vector UInt8 n) :=
  if h : b.length = n then .ok ⟨b.toArray, h⟩ else .error (error b.length)

/-- `to_pubkey`. -/
def toPubkey (b : List UInt8) : Except DecodeError Pubkey32 :=
  toBytes 32 .badPubkeyLen b

/-- `to_signature`. -/
def toSignature (b : List UInt8) : Except DecodeError Signature64 :=
  toBytes 64 .badSignatureLen b

section Decode

variable (lib : FrameLibrary)

/-- `decode`, for an update; `none` for a frame that is skipped. -/
def decodeUpdate : UpdateOneof → Except DecodeError (Option EventPayload)
  | .slot s =>
    match lib.slotStatus s.status with
    | none => .error (.unknownSlotStatus s.status)
    | some status => .ok (some (.slot s.slot (SlotStage.fromProto status)))
  | .account a => do
    let some info := a.account | .error .accountMissingInfo
    let pubkey ← toPubkey info.pubkey
    let owner ← toPubkey info.owner
    let txnSignature ← info.txnSignature.mapM toSignature
    return some (.account a.slot pubkey owner info.writeVersion txnSignature info.lamports)
  | .transaction t => do
    let some info := t.transaction | .error .txMissingInfo
    let signature ← toSignature info.signature
    return some (.transaction t.slot signature info.index)
  | .block b => do
    let bytes ← (lib.bs58Decode b.blockhash).mapError (.badBlockhashEncoding b.blockhash)
    let blockhash ← toBytes 32 .badBlockhashLen bytes
    return some (.block b.slot blockhash b.executedTransactionCount b.entriesCount
      (UInt64.ofNat (min b.encodedLen (2 ^ 64 - 1))))
  | .entry e =>
    .ok (some (.entry e.slot e.index e.executedTransactionCount e.startingTransactionIndex))
  | .ping | .pong | .blockMeta | .transactionStatus => .ok none

/-- `decode`. -/
def decode (timed : TimedUpdate) (subscription : SubscriptionRole) :
    Except DecodeError (Option Event) := do
  let some update := timed.updateOneof | .ok none
  let some payload ← decodeUpdate lib update | .ok none
  return some ⟨timed.ts, subscription, payload⟩

end Decode

/-! ## Well-formed and malformed frames -/

/-- A frame of no interest. -/
def UpdateOneof.isControl : UpdateOneof → Bool
  | .ping | .pong | .blockMeta | .transactionStatus => true
  | _ => false

section Spec

variable (lib : FrameLibrary) (encode : List UInt8 → String)

/-- The payload a well-formed frame carries; `encode` is the base58 text of bytes. -/
inductive Carries : UpdateOneof → EventPayload → Prop
  | slot (s : SubscribeUpdateSlot) (status : SlotStatus)
      (h : lib.slotStatus s.status = some status) :
    Carries (.slot s) (.slot s.slot (SlotStage.fromProto status))
  | account (a : SubscribeUpdateAccount) (info : SubscribeUpdateAccountInfo)
      (pubkey owner : Pubkey32) (txnSignature : Option Signature64) (h : a.account = some info)
      (hpubkey : info.pubkey = pubkey.toList) (howner : info.owner = owner.toList)
      (hsignature : info.txnSignature = txnSignature.map Vector.toList) :
    Carries (.account a)
      (.account a.slot pubkey owner info.writeVersion txnSignature info.lamports)
  | transaction (t : SubscribeUpdateTransaction) (info : SubscribeUpdateTransactionInfo)
      (signature : Signature64) (h : t.transaction = some info)
      (hsignature : info.signature = signature.toList) :
    Carries (.transaction t) (.transaction t.slot signature info.index)
  | block (b : SubscribeUpdateBlock) (blockhash : Pubkey32)
      (h : b.blockhash = encode blockhash.toList) :
    Carries (.block b) (.block b.slot blockhash b.executedTransactionCount b.entriesCount
      (UInt64.ofNat (min b.encodedLen (2 ^ 64 - 1))))
  | entry (e : SubscribeUpdateEntry) :
    Carries (.entry e)
      (.entry e.slot e.index e.executedTransactionCount e.startingTransactionIndex)

/-- The first thing wrong with a frame. -/
inductive Defect : UpdateOneof → DecodeError → Prop
  | slot (s : SubscribeUpdateSlot) (h : lib.slotStatus s.status = none) :
    Defect (.slot s) (.unknownSlotStatus s.status)
  | accountInfo (a : SubscribeUpdateAccount) (h : a.account = none) :
    Defect (.account a) .accountMissingInfo
  | pubkey (a : SubscribeUpdateAccount) (info : SubscribeUpdateAccountInfo)
      (h : a.account = some info) (hpubkey : info.pubkey.length ≠ 32) :
    Defect (.account a) (.badPubkeyLen info.pubkey.length)
  | owner (a : SubscribeUpdateAccount) (info : SubscribeUpdateAccountInfo)
      (h : a.account = some info) (hpubkey : info.pubkey.length = 32)
      (howner : info.owner.length ≠ 32) :
    Defect (.account a) (.badPubkeyLen info.owner.length)
  | txnSignature (a : SubscribeUpdateAccount) (info : SubscribeUpdateAccountInfo)
      (signature : List UInt8) (h : a.account = some info) (hpubkey : info.pubkey.length = 32)
      (howner : info.owner.length = 32) (hsome : info.txnSignature = some signature)
      (hsignature : signature.length ≠ 64) :
    Defect (.account a) (.badSignatureLen signature.length)
  | transactionInfo (t : SubscribeUpdateTransaction) (h : t.transaction = none) :
    Defect (.transaction t) .txMissingInfo
  | signature (t : SubscribeUpdateTransaction) (info : SubscribeUpdateTransactionInfo)
      (h : t.transaction = some info) (hsignature : info.signature.length ≠ 64) :
    Defect (.transaction t) (.badSignatureLen info.signature.length)
  | blockhashEncoding (b : SubscribeUpdateBlock) (reason : String)
      (h : lib.bs58Decode b.blockhash = .error reason) :
    Defect (.block b) (.badBlockhashEncoding b.blockhash reason)
  | blockhashLen (b : SubscribeUpdateBlock) (bytes : List UInt8) (h : b.blockhash = encode bytes)
      (hbytes : bytes.length ≠ 32) : Defect (.block b) (.badBlockhashLen bytes.length)

end Spec

/-! ## What the decoder does -/

theorem toBytes_toList {n : ℕ} (error : ℕ → DecodeError) (v : Vector UInt8 n) :
    toBytes n error v.toList = .ok v :=
  dif_pos v.length_toList

theorem toBytes_of_ne {n : ℕ} (error : ℕ → DecodeError) {b : List UInt8} (h : b.length ≠ n) :
    toBytes n error b = .error (error b.length) :=
  dif_neg h

/-- A byte string of the right length is a vector. -/
theorem exists_toList {n : ℕ} {b : List UInt8} (h : b.length = n) :
    ∃ v : Vector UInt8 n, b = v.toList :=
  ⟨⟨b.toArray, h⟩, rfl⟩

variable {lib : FrameLibrary} {encode : List UInt8 → String}

/-- Every update carries a payload, is of no interest, or is malformed. -/
theorem carries_or_defect
    (hdecode : ∀ text bytes, lib.bs58Decode text = .ok bytes ↔ encode bytes = text)
    (u : UpdateOneof) :
    (∃ p, Carries lib encode u p) ∨ u.isControl = true ∨ ∃ e, Defect lib encode u e := by
  cases u with
  | slot s =>
    rcases h : lib.slotStatus s.status with _ | status
    · exact Or.inr (Or.inr ⟨_, .slot s h⟩)
    · exact Or.inl ⟨_, .slot s status h⟩
  | account a =>
    rcases h : a.account with _ | info
    · exact Or.inr (Or.inr ⟨_, .accountInfo a h⟩)
    by_cases hpubkey : info.pubkey.length = 32
    · by_cases howner : info.owner.length = 32
      · obtain ⟨pubkey, hp⟩ := exists_toList hpubkey
        obtain ⟨owner, ho⟩ := exists_toList howner
        rcases hsome : info.txnSignature with _ | signature
        · exact Or.inl ⟨_, .account a info pubkey owner none h hp ho hsome⟩
        by_cases hsig : signature.length = 64
        · obtain ⟨sig, rfl⟩ := exists_toList hsig
          exact Or.inl ⟨_, .account a info pubkey owner (some sig) h hp ho hsome⟩
        · exact Or.inr (Or.inr ⟨_, .txnSignature a info signature h hpubkey howner hsome hsig⟩)
      · exact Or.inr (Or.inr ⟨_, .owner a info h hpubkey howner⟩)
    · exact Or.inr (Or.inr ⟨_, .pubkey a info h hpubkey⟩)
  | transaction t =>
    rcases h : t.transaction with _ | info
    · exact Or.inr (Or.inr ⟨_, .transactionInfo t h⟩)
    by_cases hsig : info.signature.length = 64
    · obtain ⟨signature, hs⟩ := exists_toList hsig
      exact Or.inl ⟨_, .transaction t info signature h hs⟩
    · exact Or.inr (Or.inr ⟨_, .signature t info h hsig⟩)
  | block b =>
    rcases h : lib.bs58Decode b.blockhash with reason | bytes
    · exact Or.inr (Or.inr ⟨_, .blockhashEncoding b reason h⟩)
    have htext : b.blockhash = encode bytes := ((hdecode _ _).mp h).symm
    by_cases hlen : bytes.length = 32
    · obtain ⟨blockhash, rfl⟩ := exists_toList hlen
      exact Or.inl ⟨_, .block b blockhash htext⟩
    · exact Or.inr (Or.inr ⟨_, .blockhashLen b bytes htext hlen⟩)
  | entry e => exact Or.inl ⟨_, .entry e⟩
  | _ => exact Or.inr (Or.inl rfl)

/-- A well-formed update is decoded to its payload. -/
theorem decodeUpdate_of_carries
    (hdecode : ∀ text bytes, lib.bs58Decode text = .ok bytes ↔ encode bytes = text)
    {u : UpdateOneof} {p : EventPayload} (h : Carries lib encode u p) :
    decodeUpdate lib u = .ok (some p) := by
  cases h with
  | slot s status h => rw [decodeUpdate, h]
  | account a info pubkey owner txnSignature h hpubkey howner hsignature =>
    rcases txnSignature with _ | sig <;> rw [decodeUpdate, h] <;>
      simp only [toPubkey, toSignature, hpubkey, howner, hsignature, toBytes_toList,
        Option.map_none, Option.map_some, Option.mapM_none, Option.mapM_some] <;> rfl
  | transaction t info signature h hsignature =>
    rw [decodeUpdate, h]
    simp only [toSignature, hsignature, toBytes_toList]
    rfl
  | block b blockhash h =>
    have hok := (hdecode _ _).mpr h.symm
    rw [decodeUpdate, hok]
    simp only [Except.mapError, bind, Except.bind, toBytes_toList]
    rfl
  | entry e => rfl

/-- A malformed update is refused, with the first thing wrong with it. -/
theorem decodeUpdate_of_defect
    (hdecode : ∀ text bytes, lib.bs58Decode text = .ok bytes ↔ encode bytes = text)
    {u : UpdateOneof} {e : DecodeError} (h : Defect lib encode u e) :
    decodeUpdate lib u = .error e := by
  cases h with
  | slot s h => rw [decodeUpdate, h]
  | accountInfo a h => rw [decodeUpdate, h]
  | pubkey a info h hpubkey =>
    rw [decodeUpdate, h]
    simp only [toPubkey, toBytes_of_ne _ hpubkey]
    rfl
  | owner a info h hpubkey howner =>
    obtain ⟨pubkey, hp⟩ := exists_toList hpubkey
    rw [decodeUpdate, h]
    simp only [toPubkey, hp, toBytes_toList, toBytes_of_ne _ howner]
    rfl
  | txnSignature a info signature h hpubkey howner hsome hsignature =>
    obtain ⟨pubkey, hp⟩ := exists_toList hpubkey
    obtain ⟨owner, ho⟩ := exists_toList howner
    rw [decodeUpdate, h]
    simp only [toPubkey, toSignature, hp, ho, toBytes_toList, hsome, Option.mapM_some,
      toBytes_of_ne _ hsignature]
    rfl
  | transactionInfo t h => rw [decodeUpdate, h]
  | signature t info h hsignature =>
    rw [decodeUpdate, h]
    simp only [toSignature, toBytes_of_ne _ hsignature]
    rfl
  | blockhashEncoding b reason h =>
    rw [decodeUpdate, h]
    rfl
  | blockhashLen b bytes h hbytes =>
    have hok := (hdecode _ _).mpr h.symm
    rw [decodeUpdate, hok]
    simp only [Except.mapError, bind, Except.bind, toBytes_of_ne _ hbytes]

theorem decodeUpdate_of_isControl {u : UpdateOneof} (h : u.isControl = true) :
    decodeUpdate lib u = .ok none := by
  cases u <;> first | rfl | cases h

theorem decodeUpdate_eq_some_iff
    (hdecode : ∀ text bytes, lib.bs58Decode text = .ok bytes ↔ encode bytes = text)
    {u : UpdateOneof} {p : EventPayload} :
    decodeUpdate lib u = .ok (some p) ↔ Carries lib encode u p := by
  refine ⟨fun h => ?_, decodeUpdate_of_carries hdecode⟩
  rcases carries_or_defect hdecode u with ⟨p', hp⟩ | hcontrol | ⟨e, he⟩
  · rw [decodeUpdate_of_carries hdecode hp] at h
    cases h
    exact hp
  · rw [decodeUpdate_of_isControl hcontrol] at h
    cases h
  · rw [decodeUpdate_of_defect hdecode he] at h
    cases h

theorem decodeUpdate_eq_none_iff
    (hdecode : ∀ text bytes, lib.bs58Decode text = .ok bytes ↔ encode bytes = text)
    {u : UpdateOneof} : decodeUpdate lib u = .ok none ↔ u.isControl = true := by
  refine ⟨fun h => ?_, decodeUpdate_of_isControl⟩
  rcases carries_or_defect hdecode u with ⟨p, hp⟩ | hcontrol | ⟨e, he⟩
  · rw [decodeUpdate_of_carries hdecode hp] at h
    cases h
  · exact hcontrol
  · rw [decodeUpdate_of_defect hdecode he] at h
    cases h

theorem decodeUpdate_eq_error_iff
    (hdecode : ∀ text bytes, lib.bs58Decode text = .ok bytes ↔ encode bytes = text)
    {u : UpdateOneof} {e : DecodeError} :
    decodeUpdate lib u = .error e ↔ Defect lib encode u e := by
  refine ⟨fun h => ?_, decodeUpdate_of_defect hdecode⟩
  rcases carries_or_defect hdecode u with ⟨p, hp⟩ | hcontrol | ⟨e', he⟩
  · rw [decodeUpdate_of_carries hdecode hp] at h
    cases h
  · rw [decodeUpdate_of_isControl hcontrol] at h
    cases h
  · rw [decodeUpdate_of_defect hdecode he] at h
    cases h
    exact he

section Frames

variable (lib) (ts : EventTimestamp) (subscription : SubscriptionRole)

theorem decode_none : decode lib ⟨ts, none⟩ subscription = .ok none := rfl

/-- A frame is decoded as its update is. -/
theorem decode_some (u : UpdateOneof) : decode lib ⟨ts, some u⟩ subscription =
    (decodeUpdate lib u).map fun r => r.map fun p => ⟨ts, subscription, p⟩ := by
  rcases h : decodeUpdate lib u with e | _ | p <;> simp only [decode, h] <;> rfl

end Frames

/-- **Decoding.**  A frame becomes an event exactly when it carries the event's payload, with the
arrival of the frame and the role of its subscription; it is skipped exactly when it is empty or of
no interest; and otherwise the error is the first thing wrong with it. -/
theorem decode_exact
    (hdecode : ∀ text bytes, lib.bs58Decode text = .ok bytes ↔ encode bytes = text)
    (timed : TimedUpdate) (subscription : SubscriptionRole) :
    (∀ event, decode lib timed subscription = .ok (some event) ↔
      ∃ u p, timed.updateOneof = some u ∧ Carries lib encode u p ∧
        event = ⟨timed.ts, subscription, p⟩) ∧
    (decode lib timed subscription = .ok none ↔
      timed.updateOneof.all UpdateOneof.isControl = true) ∧
    ∀ e, decode lib timed subscription = .error e ↔
      ∃ u, timed.updateOneof = some u ∧ Defect lib encode u e := by
  obtain ⟨ts, _ | u⟩ := timed
  · rw [decode_none]
    exact ⟨by simp, by simp, by simp⟩
  · rw [decode_some]
    refine ⟨fun event => ?_, ?_, fun e => ?_⟩
    · constructor
      · intro h
        rcases hu : decodeUpdate lib u with e | _ | p <;> rw [hu] at h <;> cases h
        exact ⟨u, p, rfl, (decodeUpdate_eq_some_iff hdecode).mp hu, rfl⟩
      · rintro ⟨u', p, hu, hp, rfl⟩
        cases hu
        rw [decodeUpdate_of_carries hdecode hp]
        rfl
    · rw [Option.all_some, ← decodeUpdate_eq_none_iff hdecode]
      rcases decodeUpdate lib u with e | _ | p <;> simp [Except.map]
    · simp only [Option.some.injEq, exists_eq_left']
      rw [← decodeUpdate_eq_error_iff hdecode]
      rcases decodeUpdate lib u with e | _ | p <;> simp [Except.map]

end GrpcBench
