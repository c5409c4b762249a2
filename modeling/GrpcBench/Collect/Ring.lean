import GrpcBench.Collect.Event
import Mathlib.Data.Nat.Basic

/-!
# Rings

`collect/ring.rs` and the ring sizes of `run.rs`: the bounded channel between the receiver of a
subscription and the dispatcher of its endpoint.  The channel is `crossbeam_channel::bounded`, a
FIFO queue that never holds more events than its capacity; a `Ring` carries that bound, and a send
is refused when the queue is full or the receiving half is gone.
-/

namespace GrpcBench

/-- `ReceiverStats`: the counters the two halves of a ring share.  They are `u64` in the source and
natural numbers here: each step of a run adds at most one, and no run has `2^64` steps. -/
structure ReceiverStats where
  received : ℕ := 0
  dropped : ℕ := 0
  decodeErrors : ℕ := 0
  disconnects : ℕ := 0
  deriving DecidableEq, Repr

/-- `ring_capacity_for`: the baseline, scaled by the kind of stream, and at least `1`. -/
def ringCapacityFor (role : SubscriptionRole) (baseline : ℕ) : ℕ :=
  let scaled : ℕ × ℕ → ℕ := fun mul => min (baseline * mul.1) (2 ^ 64 - 1) / max mul.2 1
  max (scaled (match role with
    | .main _ _ .accounts => (4, 1)
    | .main _ _ .transactions => (1, 1)
    | .main _ _ .blocks => (1, 2)
    | .main _ _ .slots => (1, 8)
    | .entries _ => (1, 1))) 1

theorem ringCapacityFor_pos (role : SubscriptionRole) (baseline : ℕ) :
    0 < ringCapacityFor role baseline :=
  Nat.lt_of_lt_of_le Nat.zero_lt_one (Nat.le_max_right _ 1)

/-- A ring: the events in flight, and the shared counters. -/
structure Ring where
  capacity : ℕ
  queue : List Event
  receiverAlive : Bool
  stats : ReceiverStats
  length_le : queue.length ≤ capacity

namespace Ring

/-- `Ring::with_capacity`, which panics on capacity `0`. -/
def withCapacity (capacity : ℕ) (_ : 0 < capacity) : Ring where
  capacity := capacity
  queue := []
  receiverAlive := true
  stats := {}
  length_le := Nat.zero_le capacity

/-- `EventSender::try_send`. -/
def trySend (r : Ring) (event : Event) : Bool × Ring :=
  if r.receiverAlive then
    if h : r.queue.length < r.capacity then
      (true, { r with
        queue := r.queue ++ [event]
        length_le := by rw [List.length_append]; exact h })
    else (false, { r with stats := { r.stats with dropped := r.stats.dropped + 1 } })
  else (false, r)

/-- `EventReceiver::try_recv`. -/
def tryRecv (r : Ring) : Option (Event × Ring) :=
  match h : r.queue with
  | [] => none
  | event :: rest => some (event, { r with
      queue := rest
      length_le := by
        have hle := r.length_le
        rw [h] at hle
        exact Nat.le_of_succ_le hle })

/-- A ring with other counters. -/
def withStats (r : Ring) (stats : ReceiverStats) : Ring :=
  { r with stats := stats }

/-- The receiving half is dropped. -/
def dropReceiver (r : Ring) : Ring :=
  { r with receiverAlive := false }

@[simp] theorem stats_withStats (r : Ring) (stats : ReceiverStats) :
    (r.withStats stats).stats = stats := rfl

@[simp] theorem queue_withStats (r : Ring) (stats : ReceiverStats) :
    (r.withStats stats).queue = r.queue := rfl

@[simp] theorem capacity_trySend (r : Ring) (event : Event) :
    (r.trySend event).2.capacity = r.capacity := by
  unfold trySend
  split_ifs <;> rfl

@[simp] theorem receiverAlive_trySend (r : Ring) (event : Event) :
    (r.trySend event).2.receiverAlive = r.receiverAlive := by
  unfold trySend
  split_ifs <;> rfl

/-- What a receive that finds an event takes, and what it leaves. -/
theorem of_tryRecv_some {r ring : Ring} {event : Event} (h : r.tryRecv = some (event, ring)) :
    r.queue = event :: ring.queue ∧ ring.capacity = r.capacity ∧ ring.stats = r.stats ∧
      ring.receiverAlive = r.receiverAlive := by
  unfold tryRecv at h
  split at h
  · cases h
  · rename_i hq
    cases h
    exact ⟨hq, rfl, rfl, rfl⟩

theorem queue_of_tryRecv_none {r : Ring} (h : r.tryRecv = none) : r.queue = [] := by
  unfold tryRecv at h
  split at h
  · assumption
  · cases h

/-- The three ways a send can go. -/
theorem trySend_cases (r : Ring) (event : Event) :
    (r.receiverAlive = true ∧ r.queue.length < r.capacity ∧ (r.trySend event).1 = true ∧
      (r.trySend event).2.queue = r.queue ++ [event] ∧ (r.trySend event).2.stats = r.stats) ∨
    (r.receiverAlive = true ∧ r.queue.length = r.capacity ∧ (r.trySend event).1 = false ∧
      (r.trySend event).2.queue = r.queue ∧
      (r.trySend event).2.stats = { r.stats with dropped := r.stats.dropped + 1 }) ∨
    r.receiverAlive = false ∧ r.trySend event = (false, r) := by
  unfold trySend
  rcases ha : r.receiverAlive with _ | _
  · exact Or.inr (Or.inr ⟨rfl, rfl⟩)
  · by_cases h : r.queue.length < r.capacity
    · exact Or.inl ⟨rfl, h, by simp [h], by simp [h], by simp [h]⟩
    · have heq : r.queue.length = r.capacity := Nat.le_antisymm r.length_le (Nat.not_lt.mp h)
      exact Or.inr (Or.inl ⟨rfl, heq, by simp [h], by simp [h], by simp [h]⟩)

/-- A send does not touch the counter of received events, nor what is queued. -/
theorem trySend_grows (r : Ring) (event : Event) :
    (r.trySend event).2.stats.received = r.stats.received ∧
      r.queue <+: (r.trySend event).2.queue := by
  rcases r.trySend_cases event with ⟨-, -, -, hqueue, hstats⟩ | ⟨-, -, -, hqueue, hstats⟩ | ⟨-, h⟩
  · rw [hqueue, hstats]
    exact ⟨rfl, List.prefix_append _ _⟩
  · rw [hqueue, hstats]
    exact ⟨rfl, List.prefix_refl _⟩
  · rw [h]
    exact ⟨rfl, List.prefix_refl _⟩

end Ring

end GrpcBench
