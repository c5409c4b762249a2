import GrpcBench.Matching.Accounts
import GrpcBench.Matching.Streams

/-!
# Dispatch

`matching/mod.rs`: `StreamMatchers`, the matchers of all stream kinds, and `dispatch`, which hands
an event to the one it belongs to.  Each sub-matcher is behind a lock of its own, and `dispatch`
takes at most one of them for one observation, so a call is one atomic step on one sub-matcher.
-/

namespace GrpcBench

/-- Aggregate of every matcher used by the ingest loop. -/
structure StreamMatchers (B : Backend) where
  slots : SlotMatcher B
  accounts : AccountMatcher B
  transactions : TransactionMatcher B
  blocks : BlockMatcher B

variable {B : Backend}

/-- The eviction policy of every matcher. -/
def matchWindow : EvictionPolicy :=
  .slotWindow 64

/-- `StreamMatchers::new`. -/
def StreamMatchers.new (B : Backend) (programShortNames : Finmap fun _ : Pubkey32 => String) :
    StreamMatchers B where
  slots := SlotMatcher.new B matchWindow
  accounts := AccountMatcher.new B matchWindow programShortNames
  transactions := TransactionMatcher.new B matchWindow
  blocks := BlockMatcher.new B matchWindow

/-- `StreamMatchers::with_strict_account_key`. -/
def StreamMatchers.withStrictAccountKey (m : StreamMatchers B) (strict : Bool) :
    StreamMatchers B :=
  { m with accounts := m.accounts.withStrictAccountKey strict }

/-- The matchers a run starts with. -/
def StreamMatchers.start (B : Backend) (names : Finmap fun _ : Pubkey32 => String)
    (strict : Bool) : StreamMatchers B :=
  (StreamMatchers.new B names).withStrictAccountKey strict

/-- `dispatch`. -/
def dispatch (m : StreamMatchers B) (event : Event) : StreamMatchers B :=
  match event.payload with
  | .slot slot stage =>
    { m with slots := m.slots.observeStage event.endpoint slot stage event.ts }
  | .account slot pubkey owner writeVersion txnSignature _ =>
    { m with accounts :=
        m.accounts.observe event.endpoint slot pubkey writeVersion txnSignature owner event.ts }
  | .transaction slot signature _ =>
    { m with transactions := m.transactions.observe event.endpoint slot signature event.ts }
  | .block slot blockhash _ _ _ =>
    match event.subscription with
    | .main _ commitment _ =>
      { m with blocks := m.blocks.observe event.endpoint commitment slot blockhash event.ts }
    | .entries _ => m
  | .entry .. => m

/-- A sequence of events, in the order in which the dispatchers take the locks. -/
def dispatchAll (m : StreamMatchers B) (events : List Event) : StreamMatchers B :=
  events.foldl dispatch m

@[simp] theorem dispatchAll_nil (m : StreamMatchers B) : dispatchAll m [] = m := rfl

@[simp] theorem dispatchAll_cons (m : StreamMatchers B) (event : Event) (events : List Event) :
    dispatchAll m (event :: events) = dispatchAll (dispatch m event) events := rfl

end GrpcBench
