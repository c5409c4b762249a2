import GrpcBench.Collect.Event
import GrpcBench.Library.Base58
import GrpcBench.Library.Finmap
import GrpcBench.Library.Repeats

/-!
# Raw records

`raw.rs`: the JSON object of an event, one line of the `--raw-records` file.  An object is built of
four fields that every event has and of the fields of its payload, and `merge` puts the two
together, a later field taking the place of an earlier one under the same key.  Encoding base58 is
a library's; here it is a function of the bytes.

* `eventToJson`: the object of an event.
* `nodup_keys_eventFields`: no key occurs twice, so that nothing is overwritten.
* `eventToJson_eq_iff`: the object determines the event up to the filter type of its subscription.
-/

namespace GrpcBench

/-- A JSON value that is no array and no object. -/
inductive JsonScalar where
  | null
  | number (n : UInt64)
  | string (s : String)
  deriving DecidableEq, Repr

/-- A `serde_json::Value`; the values inside an object are scalars. -/
inductive JsonValue where
  | scalar (value : JsonScalar)
  | object (map : Finmap fun _ : String => JsonScalar)

/-- `json!` of an optional string. -/
def jsonOption : Option String → JsonScalar
  | none => .null
  | some s => .string s

/-- `json!` of an object literal. -/
def json (fields : List (String × JsonScalar)) : JsonValue :=
  .object (Finmap.collect fields)

/-- `merge`: the entries of `b` are inserted into `a`. -/
def merge : JsonValue → JsonValue → JsonValue
  | .object a, .object b => .object (b ∪ a)
  | _, _ => .scalar .null

/-- `commitment_label`. -/
def commitmentLabel : Commitment → String
  | .processed => "processed"
  | .confirmed => "confirmed"
  | .finalized => "finalized"

/-- `subscription_label`. -/
def subscriptionLabel : SubscriptionRole → String
  | .main _ commitment _ => "main:" ++ commitmentLabel commitment
  | .entries _ => "entries"

section Base58

variable (encode : List UInt8 → String)

/-- `base58_pk`. -/
def base58Pk (b : Pubkey32) : String :=
  encode b.toList

/-- `base58_sig`. -/
def base58Sig (b : Signature64) : String :=
  encode b.toList

/-- The fields of every event. -/
def commonFields (event : Event) : List (String × JsonScalar) :=
  [("mono_ns", .number event.ts.monoNs),
    ("wall_ms", .number event.ts.wallMs),
    ("endpoint", .string event.subscription.endpoint.label),
    ("subscription", .string (subscriptionLabel event.subscription))]

/-- The fields of a payload. -/
def payloadFields : EventPayload → List (String × JsonScalar)
  | .slot slot stage =>
    [("kind", .string "slot"),
      ("slot", .number slot),
      ("stage", .string stage.label)]
  | .account slot pubkey owner writeVersion txnSignature lamports =>
    [("kind", .string "account"),
      ("slot", .number slot),
      ("pubkey", .string (base58Pk encode pubkey)),
      ("owner", .string (base58Pk encode owner)),
      ("write_version", .number writeVersion),
      ("txn_signature", jsonOption (txnSignature.map (base58Sig encode))),
      ("lamports", .number lamports)]
  | .transaction slot signature index =>
    [("kind", .string "transaction"),
      ("slot", .number slot),
      ("signature", .string (base58Sig encode signature)),
      ("index", .number index)]
  | .block slot blockhash txCount entriesCount blockSizeBytes =>
    [("kind", .string "block"),
      ("slot", .number slot),
      ("blockhash", .string (base58Pk encode blockhash)),
      ("tx_count", .number txCount),
      ("entries_count", .number entriesCount),
      ("block_size_bytes", .number blockSizeBytes)]
  | .entry slot index executedTransactionCount startingTransactionIndex =>
    [("kind", .string "entry"),
      ("slot", .number slot),
      ("index", .number index),
      ("executed_transaction_count", .number executedTransactionCount),
      ("starting_transaction_index", .number startingTransactionIndex)]

/-- `event_to_json`. -/
def eventToJson (event : Event) : JsonValue :=
  let common := json (commonFields event)
  let payload := json (payloadFields encode event.payload)
  merge common payload

/-! ## Labels -/

theorem EndpointRole.label_injective : Function.Injective EndpointRole.label := by
  intro e e' h
  cases e <;> cases e' <;> first | rfl | exact absurd h (by decide)

theorem SlotStage.label_injective : Function.Injective SlotStage.label := by
  intro stage stage' h
  cases stage <;> cases stage' <;> first | rfl | exact absurd h (by decide)

/-- The label of a subscription shows its commitment level, or that it has none. -/
theorem subscriptionLabel_eq_iff (role role' : SubscriptionRole) :
    subscriptionLabel role = subscriptionLabel role' ↔ role.commitment = role'.commitment := by
  let label : Option Commitment → String := fun commitment =>
    commitment.elim "entries" fun c => "main:" ++ commitmentLabel c
  have hlabel : ∀ r : SubscriptionRole, subscriptionLabel r = label r.commitment := fun r => by
    cases r <;> rfl
  have hinj : Function.Injective label := by
    rintro (_ | c) (_ | c') h
    · rfl
    · cases c' <;> exact absurd h (by decide)
    · cases c <;> exact absurd h (by decide)
    · cases c <;> cases c' <;> first | rfl | exact absurd h (by decide)
  rw [hlabel, hlabel, hinj.eq_iff]

theorem isEntries_eq_isNone (role : SubscriptionRole) :
    role.isEntries = role.commitment.isNone := by
  cases role <;> rfl

/-! ## Keys -/

/-- The kind of a payload, as its object shows it. -/
def EventPayload.kind : EventPayload → String
  | .slot .. => "slot"
  | .account .. => "account"
  | .transaction .. => "transaction"
  | .block .. => "block"
  | .entry .. => "entry"

/-- All fields of an event. -/
def eventFields (event : Event) : List (String × JsonScalar) :=
  commonFields event ++ payloadFields encode event.payload

/-- **No key occurs twice.**  Every payload has its own list of keys. -/
theorem nodup_keys_eventFields (event : Event) :
    ((eventFields encode event).map Prod.fst).Nodup := by
  obtain ⟨ts, subscription, payload⟩ := event
  cases payload <;> simp [eventFields, commonFields, payloadFields]

theorem lookup_kind_eventFields (event : Event) :
    (eventFields encode event).lookup "kind" = some (.string event.payload.kind) := by
  obtain ⟨ts, subscription, payload⟩ := event
  cases payload <;> rfl

theorem kind_eq_of_lookup_eq {event event' : Event}
    (h : (eventFields encode event).lookup "kind" = (eventFields encode event').lookup "kind") :
    event.payload.kind = event'.payload.kind := by
  rw [lookup_kind_eventFields, lookup_kind_eventFields, Option.some_inj,
    JsonScalar.string.injEq] at h
  exact h

theorem keys_eventFields_of_kind_eq {event event' : Event}
    (h : event.payload.kind = event'.payload.kind) :
    (eventFields encode event).map Prod.fst = (eventFields encode event').map Prod.fst := by
  obtain ⟨ts, subscription, payload⟩ := event
  obtain ⟨ts', subscription', payload'⟩ := event'
  cases payload <;> cases payload' <;> first | rfl | simp [EventPayload.kind] at h

/-- The object of an event has the fields of the event, all of them. -/
theorem eventToJson_eq (event : Event) :
    eventToJson encode event = json (eventFields encode event) := by
  rw [json, eventFields, Finmap.collect_append]
  rfl

theorem eventFields_eq_of_eventToJson_eq {event event' : Event}
    (h : eventToJson encode event = eventToJson encode event') :
    eventFields encode event = eventFields encode event' := by
  rw [eventToJson_eq, eventToJson_eq, json, json, JsonValue.object.injEq] at h
  have hlookup : ∀ k,
      (eventFields encode event).lookup k = (eventFields encode event').lookup k := fun k => by
    rw [← Finmap.lookup_collect_of_nodup (nodup_keys_eventFields encode event), h,
      Finmap.lookup_collect_of_nodup (nodup_keys_eventFields encode event')]
  have hkind := kind_eq_of_lookup_eq encode (hlookup "kind")
  exact Repeats.eq_of_lookup_eq (nodup_keys_eventFields encode event)
    (keys_eventFields_of_kind_eq encode hkind) hlookup

/-! ## Values -/

theorem commonFields_eq_iff (event event' : Event) :
    commonFields event = commonFields event' ↔
      event.ts.monoNs = event'.ts.monoNs ∧ event.ts.wallMs = event'.ts.wallMs ∧
        event.endpoint = event'.endpoint ∧
        event.subscription.commitment = event'.subscription.commitment := by
  simp [commonFields, Event.endpoint, EndpointRole.label_injective.eq_iff,
    subscriptionLabel_eq_iff]

variable (hencode : ∀ a b : List UInt8, a.length = b.length → encode a = encode b → a = b)

include hencode

theorem base58Pk_inj {a b : Pubkey32} : base58Pk encode a = base58Pk encode b ↔ a = b :=
  ⟨fun h => Vector.toList_inj.mp (hencode a.toList b.toList (by simp) h), fun h => by rw [h]⟩

theorem base58Sig_inj {a b : Signature64} : base58Sig encode a = base58Sig encode b ↔ a = b :=
  ⟨fun h => Vector.toList_inj.mp (hencode a.toList b.toList (by simp) h), fun h => by rw [h]⟩

/-- A missing signature is told apart from every signature. -/
theorem jsonOption_map_inj {a b : Option Signature64} :
    jsonOption (a.map (base58Sig encode)) = jsonOption (b.map (base58Sig encode)) ↔ a = b := by
  rcases a with _ | a <;> rcases b with _ | b <;> simp [jsonOption, base58Sig_inj encode hencode]

theorem payloadFields_inj {p p' : EventPayload} (hkind : p.kind = p'.kind) :
    payloadFields encode p = payloadFields encode p' ↔ p = p' := by
  have hpk : ∀ {a b : Pubkey32}, base58Pk encode a = base58Pk encode b ↔ a = b :=
    base58Pk_inj encode hencode
  have hsig : ∀ {a b : Signature64}, base58Sig encode a = base58Sig encode b ↔ a = b :=
    base58Sig_inj encode hencode
  cases p <;> cases p' <;> try simp [EventPayload.kind] at hkind
  case slot.slot => simp [payloadFields, SlotStage.label_injective.eq_iff]
  case account.account => simp [payloadFields, hpk, jsonOption_map_inj encode hencode]
  case transaction.transaction => simp [payloadFields, hsig]
  case block.block => simp [payloadFields, hpk]
  case entry.entry => simp [payloadFields]

/-- **Raw records lose nothing.**  The object of an event determines its time stamp, its endpoint,
whether it came from an entry filter, its commitment level and its payload, and no field of the
payload takes the place of a common one. -/
theorem eventToJson_eq_iff (event event' : Event) :
    (eventToJson encode event = eventToJson encode event' ↔
      event.ts.monoNs = event'.ts.monoNs ∧ event.ts.wallMs = event'.ts.wallMs ∧
        event.endpoint = event'.endpoint ∧
        event.subscription.isEntries = event'.subscription.isEntries ∧
        event.subscription.commitment = event'.subscription.commitment ∧
        event.payload = event'.payload) ∧
    ∀ key ∈ (commonFields event).map Prod.fst,
      key ∉ (payloadFields encode event.payload).map Prod.fst := by
  constructor
  · constructor
    · intro h
      have hfields := eventFields_eq_of_eventToJson_eq encode h
      have hkind : event.payload.kind = event'.payload.kind :=
        kind_eq_of_lookup_eq encode (by rw [hfields])
      obtain ⟨hcommon, hpayload⟩ := List.append_inj hfields rfl
      obtain ⟨hmono, hwall, hendpoint, hcommitment⟩ :=
        (commonFields_eq_iff event event').mp hcommon
      refine ⟨hmono, hwall, hendpoint, ?_, hcommitment,
        (payloadFields_inj encode hencode hkind).mp hpayload⟩
      rw [isEntries_eq_isNone, isEntries_eq_isNone, hcommitment]
    · rintro ⟨hmono, hwall, hendpoint, -, hcommitment, hpayload⟩
      rw [eventToJson_eq, eventToJson_eq, eventFields, eventFields, hpayload,
        (commonFields_eq_iff event event').mpr ⟨hmono, hwall, hendpoint, hcommitment⟩]
  · have hnd := nodup_keys_eventFields encode event
    rw [eventFields, List.map_append, List.nodup_append] at hnd
    exact fun key hkey hin => hnd.2.2 key hkey key hin rfl

end Base58

theorem eventToJson_eq_iff_without_signature :
    let account : Option Signature64 → Event := fun txnSignature =>
      { ts := ⟨1000, 2⟩
        subscription := .main .two .confirmed .accounts
        payload := .account 101 (Vector.replicate 32 1) (Vector.replicate 32 2) 5 txnSignature
          1000 }
    eventToJson Base58.encode (account none) ≠
      eventToJson Base58.encode (account (some (Vector.replicate 64 3))) :=
  fun h =>
    have hpayload := ((eventToJson_eq_iff Base58.encode (fun _ _ => Base58.encode_injective)
      _ _).1.mp h).2.2.2.2.2
    by simp at hpayload

end GrpcBench
