import GrpcBench.Subscribe.Roles
import GrpcBench.Timing

/-!
# Events

`collect/mod.rs`: what a receiver decodes from its stream and hands to a dispatcher.
-/

namespace GrpcBench

/-- The stages of a slot's lifecycle. -/
inductive SlotStage where
  | firstShredReceived | completed | createdBank | processed | confirmed | finalized | dead
  deriving DecidableEq, Repr

/-- `SlotStage::label`. -/
def SlotStage.label : SlotStage → String
  | .firstShredReceived => "first_shred_received"
  | .completed => "completed"
  | .createdBank => "created_bank"
  | .processed => "processed"
  | .confirmed => "confirmed"
  | .finalized => "finalized"
  | .dead => "dead"

/-- A pubkey, an owner or a blockhash: `[u8; 32]`. -/
abbrev Pubkey32 := Vector UInt8 32

/-- A signature: `[u8; 64]`. -/
abbrev Signature64 := Vector UInt8 64

/-- Identity and side-channel fields, per stream kind. -/
inductive EventPayload where
  | slot (slot : UInt64) (stage : SlotStage)
  | account (slot : UInt64) (pubkey owner : Pubkey32) (writeVersion : UInt64)
      (txnSignature : Option Signature64) (lamports : UInt64)
  | transaction (slot : UInt64) (signature : Signature64) (index : UInt64)
  | block (slot : UInt64) (blockhash : Pubkey32) (txCount entriesCount blockSizeBytes : UInt64)
  | entry (slot index executedTransactionCount startingTransactionIndex : UInt64)
  deriving DecidableEq

/-- One event flowing into the trackers. -/
structure Event where
  ts : EventTimestamp
  subscription : SubscriptionRole
  payload : EventPayload
  deriving DecidableEq

/-- The endpoint an event belongs to. -/
def Event.endpoint (e : Event) : EndpointRole :=
  e.subscription.endpoint

/-- The same event, delivered by the other endpoint. -/
def Event.swap (e : Event) : Event :=
  { e with subscription := e.subscription.swap }

@[simp] theorem Event.endpoint_swap (e : Event) : e.swap.endpoint = e.endpoint.other :=
  e.subscription.endpoint_swap

end GrpcBench
