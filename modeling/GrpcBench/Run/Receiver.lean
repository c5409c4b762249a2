import GrpcBench.Collect.Ring

/-!
# Receivers

`run.rs`: the loop of one receiver thread, as a machine that takes one step per outcome it meets.
It connects, opens its subscription and drains the stream; after a failed connect or open it sleeps,
after the end of a stream it starts over at once.  A failure with the text of the last one counts
towards giving up; a decoded event ends the streak.

* `Subscription.step`: one step, for every point of the loop and every outcome possible there;
  `Subscription.step_cases` says what it does.
* `StreamItem.endsStream`: the outcomes that end an open stream.
* `Subscription.settled_step`: until one of them comes, nothing is opened again.
-/

namespace GrpcBench

/-- `MAX_CONSECUTIVE_SAME_ERROR`. -/
def maxConsecutiveSameError : ℕ := 5

/-- Where a receiver is in its loop. -/
inductive ReceiverPoint where
  /-- Head of the outer loop, before the shutdown check. -/
  | head
  | connecting
  | opening
  /-- Head of the stream loop, before the shutdown check. -/
  | streamHead
  | polling
  /-- The sleep after a failed connect or open. -/
  | backoff
  | exited
  deriving DecidableEq, Repr

/-- What one poll of the stream yields. -/
inductive StreamItem where
  /-- An update that decodes to an event. -/
  | event (ts : EventTimestamp) (payload : EventPayload)
  /-- A control frame, or an update that is skipped. -/
  | control
  | decodeError
  /-- The stream ends with an error status. -/
  | status (text : String)
  /-- The stream ends cleanly. -/
  | ended
  /-- `STREAM_POLL_TIMEOUT` passes. -/
  | timeout
  deriving DecidableEq

/-- The items that end the stream. -/
def StreamItem.endsStream : StreamItem → Bool
  | .status _ => true
  | .ended => true
  | _ => false

/-- What a receiver meets. -/
inductive ReceiverInput where
  /-- A load of the shutdown flag. -/
  | loadShutdown
  | connect (result : Except String Unit)
  | openSubscription (result : Except String Unit)
  | next (item : StreamItem)
  /-- The end of a sleep. -/
  | wake

/-- The local state of a receiver loop. -/
structure ReceiverState where
  point : ReceiverPoint := .head
  lastErrorText : Option String := none
  sameErrorCount : ℕ := 0
  deriving DecidableEq, Repr

namespace ReceiverState

/-- A failure, counted if it has the text of the last one. -/
def noteError (r : ReceiverState) (text : String) : ReceiverState :=
  if r.lastErrorText = some text then { r with sameErrorCount := r.sameErrorCount + 1 }
  else { r with lastErrorText := some text, sameErrorCount := 1 }

/-- A decoded event ends the streak. -/
def noteEvent (r : ReceiverState) : ReceiverState :=
  { r with lastErrorText := none, sameErrorCount := 0 }

/-- Whether the receiver gives up. -/
def givesUp (r : ReceiverState) : Bool :=
  maxConsecutiveSameError ≤ r.sameErrorCount

/-- Go on at another point. -/
def goto (r : ReceiverState) (point : ReceiverPoint) : ReceiverState :=
  { r with point := point }

/-- A failed connect or open: give up, or sleep. -/
def retry (r : ReceiverState) (text : String) : ReceiverState :=
  let r := r.noteError text
  r.goto (if r.givesUp then .exited else .backoff)

@[simp] theorem point_goto (r : ReceiverState) (p : ReceiverPoint) : (r.goto p).point = p := rfl

end ReceiverState

/-- A receiver and its ring. -/
structure Subscription where
  receiver : ReceiverState
  ring : Ring

namespace Subscription

/-- A step of the receiver alone. -/
def goto (s : Subscription) (point : ReceiverPoint) : Subscription :=
  { s with receiver := s.receiver.goto point }

/-- One item of the stream. -/
def onItem (role : SubscriptionRole) (s : Subscription) : StreamItem → Subscription
  | .event ts payload =>
    { receiver := s.receiver.noteEvent.goto .streamHead
      ring := (s.ring.trySend ⟨ts, role, payload⟩).2 }
  | .control => s.goto .streamHead
  | .decodeError =>
    { receiver := s.receiver.goto .streamHead
      ring := s.ring.withStats
        { s.ring.stats with decodeErrors := s.ring.stats.decodeErrors + 1 } }
  | .status text =>
    let r := s.receiver.noteError text
    { receiver := r.goto (if r.givesUp then .exited else .head)
      ring := s.ring.withStats { s.ring.stats with disconnects := s.ring.stats.disconnects + 1 } }
  | .ended => s.goto .head
  | .timeout => s.goto .streamHead

/-- One step of `receiver_thread_main`, given the shutdown flag; `none` if the input does not belong
to the point the receiver is at. -/
def step (role : SubscriptionRole) (shutdown : Bool) (s : Subscription) :
    ReceiverInput → Option Subscription
  | .loadShutdown =>
    match s.receiver.point with
    | .head => some (s.goto (if shutdown then .exited else .connecting))
    | .streamHead => some (s.goto (if shutdown then .exited else .polling))
    | _ => none
  | .connect result =>
    match s.receiver.point, result with
    | .connecting, .ok () => some (s.goto .opening)
    | .connecting, .error text => some { s with receiver := s.receiver.retry text }
    | _, _ => none
  | .openSubscription result =>
    match s.receiver.point, result with
    | .opening, .ok () => some (s.goto .streamHead)
    | .opening, .error text => some { s with receiver := s.receiver.retry text }
    | _, _ => none
  | .next item =>
    match s.receiver.point with
    | .polling => some (s.onItem role item)
    | _ => none
  | .wake =>
    match s.receiver.point with
    | .backoff => some (s.goto .head)
    | _ => none

/-- Whether the receiver has an open stream, or is through. -/
def Settled (s : Subscription) : Prop :=
  s.receiver.point = .streamHead ∨ s.receiver.point = .polling ∨ s.receiver.point = .exited

variable {role : SubscriptionRole} {shutdown : Bool} {s s' : Subscription} {input : ReceiverInput}

/-- **What a step does.**  Each input is met at its own point of the loop. -/
theorem step_cases (h : s.step role shutdown input = some s') :
    match input with
    | .loadShutdown =>
      (s.receiver.point = .head ∧ s' = s.goto (if shutdown then .exited else .connecting)) ∨
        (s.receiver.point = .streamHead ∧ s' = s.goto (if shutdown then .exited else .polling))
    | .connect (.ok ()) => s.receiver.point = .connecting ∧ s' = s.goto .opening
    | .connect (.error text) =>
      s.receiver.point = .connecting ∧ s' = { s with receiver := s.receiver.retry text }
    | .openSubscription (.ok ()) => s.receiver.point = .opening ∧ s' = s.goto .streamHead
    | .openSubscription (.error text) =>
      s.receiver.point = .opening ∧ s' = { s with receiver := s.receiver.retry text }
    | .next item => s.receiver.point = .polling ∧ s' = s.onItem role item
    | .wake => s.receiver.point = .backoff ∧ s' = s.goto .head := by
  cases input with
  | loadShutdown =>
    cases hp : s.receiver.point with
    | head => exact Or.inl ⟨rfl, by simpa [step, hp] using h.symm⟩
    | streamHead => exact Or.inr ⟨rfl, by simpa [step, hp] using h.symm⟩
    | _ => simp [step, hp] at h
  | connect result =>
    cases hp : s.receiver.point with
    | connecting =>
      rcases result with text | ⟨⟨⟩⟩
      · exact ⟨rfl, by simpa [step, hp] using h.symm⟩
      · exact ⟨rfl, by simpa [step, hp] using h.symm⟩
    | _ => simp [step, hp] at h
  | openSubscription result =>
    cases hp : s.receiver.point with
    | opening =>
      rcases result with text | ⟨⟨⟩⟩
      · exact ⟨rfl, by simpa [step, hp] using h.symm⟩
      · exact ⟨rfl, by simpa [step, hp] using h.symm⟩
    | _ => simp [step, hp] at h
  | next item =>
    cases hp : s.receiver.point with
    | polling => exact ⟨rfl, by simpa [step, hp] using h.symm⟩
    | _ => simp [step, hp] at h
  | wake =>
    cases hp : s.receiver.point with
    | backoff => exact ⟨rfl, by simpa [step, hp] using h.symm⟩
    | _ => simp [step, hp] at h

/-- An open stream stays open, and a receiver that is through stays through, until an item ends the
stream; meanwhile nothing is opened. -/
theorem settled_step (h : s.step role shutdown input = some s') (hs : s.Settled)
    (hend : ∀ item, input = .next item → item.endsStream = false) :
    s'.Settled ∧ ∀ result, input ≠ .openSubscription result := by
  have hcases := step_cases h
  rcases input with _ | (text | ⟨⟨⟩⟩) | (text | ⟨⟨⟩⟩) | item | _
  · refine ⟨?_, fun result => by simp⟩
    rcases hcases with ⟨hp, -⟩ | ⟨-, rfl⟩
    · simp [Settled, hp] at hs
    · cases shutdown
      · exact Or.inr (Or.inl rfl)
      · exact Or.inr (Or.inr rfl)
  · simp [Settled, hcases.1] at hs
  · simp [Settled, hcases.1] at hs
  · simp [Settled, hcases.1] at hs
  · simp [Settled, hcases.1] at hs
  · obtain ⟨-, rfl⟩ := hcases
    refine ⟨?_, fun result => by simp⟩
    cases item with
    | status text => exact absurd (hend _ rfl) (by simp [StreamItem.endsStream])
    | ended => exact absurd (hend _ rfl) (by simp [StreamItem.endsStream])
    | _ => exact Or.inl rfl
  · simp [Settled, hcases.1] at hs

/-- An opened subscription has an open stream. -/
theorem settled_of_open (h : s.step role shutdown (.openSubscription (.ok ())) = some s') :
    s'.Settled := by
  obtain ⟨-, rfl⟩ := step_cases h
  exact Or.inl rfl

end Subscription

end GrpcBench
