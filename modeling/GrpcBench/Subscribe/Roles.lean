import Mathlib.Order.Basic

/-!
# Endpoints, commitments and subscription roles

`subscribe/mod.rs` and `config.rs`.  Every event carries the role of the subscription that delivered
it, and the role says which endpoint the event belongs to.  `EndpointRole.other` and
`SubscriptionRole.swap` exchange the two endpoints; the source has no such operation, it is what the
comparison of the two endpoints is symmetric under.
-/

namespace GrpcBench

/-- Commitment levels that can appear in `--commitment`. -/
inductive Commitment where
  | processed | confirmed | finalized
  deriving DecidableEq, Repr

/-- Which endpoint a subscription belongs to. -/
inductive EndpointRole where
  | one | two
  deriving DecidableEq, Repr

/-- Which filter type a main subscription is carrying. -/
inductive MainStream where
  | slots | accounts | transactions | blocks
  deriving DecidableEq, Repr

/-- A main per-commitment subscription, or an entries-only one. -/
inductive SubscriptionRole where
  | main (endpoint : EndpointRole) (commitment : Commitment) (stream : MainStream)
  | entries (endpoint : EndpointRole)
  deriving DecidableEq, Repr

/-- `EndpointRole::label`. -/
def EndpointRole.label : EndpointRole → String
  | .one => "endpoint1"
  | .two => "endpoint2"

/-- The endpoint compared against. -/
def EndpointRole.other : EndpointRole → EndpointRole
  | .one => .two
  | .two => .one

@[simp] theorem EndpointRole.other_one : EndpointRole.one.other = .two := rfl

@[simp] theorem EndpointRole.other_two : EndpointRole.two.other = .one := rfl

@[simp] theorem EndpointRole.other_other (e : EndpointRole) : e.other.other = e := by
  cases e <;> rfl

theorem EndpointRole.other_ne (e : EndpointRole) : e.other ≠ e := by
  cases e <;> decide

theorem EndpointRole.eq_other_of_ne {e f : EndpointRole} (h : e ≠ f) : e = f.other := by
  cases e <;> cases f <;> first | rfl | exact absurd rfl h

/-- `SubscriptionRole::is_entries`. -/
def SubscriptionRole.isEntries : SubscriptionRole → Bool
  | .main .. => false
  | .entries _ => true

/-- `SubscriptionRole::endpoint`. -/
def SubscriptionRole.endpoint : SubscriptionRole → EndpointRole
  | .main endpoint _ _ => endpoint
  | .entries endpoint => endpoint

/-- The commitment level of a main subscription; the entry filter has none. -/
def SubscriptionRole.commitment : SubscriptionRole → Option Commitment
  | .main _ commitment _ => some commitment
  | .entries _ => none

/-- The same role at the other endpoint. -/
def SubscriptionRole.swap : SubscriptionRole → SubscriptionRole
  | .main endpoint commitment stream => .main endpoint.other commitment stream
  | .entries endpoint => .entries endpoint.other

@[simp] theorem SubscriptionRole.endpoint_swap (r : SubscriptionRole) :
    r.swap.endpoint = r.endpoint.other := by
  cases r <;> rfl

end GrpcBench
