import GrpcBench.Library.Folds
import GrpcBench.Run.Receiver
import Mathlib.Data.List.Infix

/-!
# Giving up

A receiver counts the failures with one and the same text, whatever they are failures of: a connect,
an open or a stream.  Only a decoded event starts the count anew.

* `streak`: the length of the leading run of equal elements, and `succ_le_streak_iff`.
* `failures`: the failures since the last decoded event, the latest first.
* `Streaks`, `streaks_run`: the two fields of the streak, in every run.
* `receiver_gives_up`: when the loop ends.
-/

namespace GrpcBench

/-! ## Streaks -/

section Streak

variable {α : Type} [DecidableEq α] {a : α} {l : List α}

/-- The length of the leading run of equal elements. -/
def streak : List α → ℕ
  | [] => 0
  | a :: l => (l.takeWhile fun b => b = a).length + 1

theorem streak_cons_of_head (h : l.head? = some a) : streak (a :: l) = streak l + 1 := by
  rcases l with _ | ⟨b, l⟩
  · cases h
  · rw [List.head?_cons, Option.some_inj] at h
    subst h
    rw [streak, streak, List.takeWhile_cons_of_pos (by simp), List.length_cons]

theorem streak_cons_of_ne (h : l.head? ≠ some a) : streak (a :: l) = 1 := by
  rcases l with _ | ⟨b, l⟩
  · rfl
  · have hb : b ≠ a := fun hb => h (congrArg some hb)
    rw [streak, List.takeWhile_cons_of_neg (by simpa using hb), List.length_nil]

theorem replicate_prefix_iff {n : ℕ} :
    List.replicate n a <+: l ↔ n ≤ (l.takeWhile fun b => b = a).length := by
  induction l generalizing n with
  | nil => cases n <;> simp [List.replicate_succ]
  | cons b l ih =>
    cases n with
    | zero => simp
    | succ n =>
      rw [List.replicate_succ, List.cons_prefix_cons, ih]
      by_cases hb : b = a
      · rw [List.takeWhile_cons_of_pos (by simpa using hb), List.length_cons, Nat.succ_le_succ_iff]
        exact and_iff_right hb.symm
      · rw [List.takeWhile_cons_of_neg (by simpa using hb)]
        exact iff_of_false (fun h => hb h.1.symm) (Nat.not_succ_le_zero n)

theorem succ_le_streak_iff {n : ℕ} :
    n + 1 ≤ streak l ↔ ∃ a, List.replicate (n + 1) a <+: l := by
  rcases l with _ | ⟨b, l⟩
  · refine iff_of_false (Nat.not_succ_le_zero n) ?_
    rintro ⟨a, h⟩
    simp [List.replicate_succ] at h
  · simp only [streak, Nat.succ_le_succ_iff, List.replicate_succ, List.cons_prefix_cons,
      replicate_prefix_iff, exists_eq_left]

end Streak

/-! ## Failures -/

/-- The text of a failure. -/
def ReceiverInput.failure : ReceiverInput → Option String
  | .connect (.error text) => some text
  | .openSubscription (.error text) => some text
  | .next (.status text) => some text
  | _ => none

/-- The input is a decoded event. -/
def ReceiverInput.decodes : ReceiverInput → Bool
  | .next (.event ..) => true
  | _ => false

/-- The failures since the last decoded event, the latest first. -/
def failures (inputs : List ReceiverInput) : List String :=
  (inputs.reverse.takeWhile fun input => !input.decodes).filterMap ReceiverInput.failure

theorem failures_concat (inputs : List ReceiverInput) (input : ReceiverInput) :
    failures (inputs ++ [input]) =
      if input.decodes then [] else input.failure.toList ++ failures inputs := by
  rw [failures, List.reverse_concat]
  split_ifs with h
  · rw [List.takeWhile_cons_of_neg (by simp [h]), List.filterMap_nil]
  · rw [List.takeWhile_cons_of_pos (by simp [h]), failures]
    rcases hf : input.failure with _ | text
    · rw [List.filterMap_cons_none hf, Option.toList_none, List.nil_append]
    · rw [List.filterMap_cons_some hf, Option.toList_some, List.singleton_append]

/-! ## The streak of a receiver -/

/-- The fields of the streak are about the failures `texts`, and the loop has ended if the streak is
too long. -/
structure Streaks (texts : List String) (r : ReceiverState) : Prop where
  last : r.lastErrorText = texts.head?
  count : r.sameErrorCount = streak texts
  exited : r.point = .exited ↔ r.givesUp = true

variable {role : SubscriptionRole} {texts : List String} {r : ReceiverState} {point : ReceiverPoint}

/-- Going on without a failure. -/
theorem Streaks.goto (h : Streaks texts r) (hfrom : r.point ≠ .exited) (hto : point ≠ .exited) :
    Streaks texts (r.goto point) :=
  ⟨h.last, h.count, iff_of_false hto fun hgive => hfrom (h.exited.mpr hgive)⟩

theorem Streaks.noteEvent (hto : point ≠ .exited) : Streaks [] (r.noteEvent.goto point) :=
  ⟨rfl, rfl, iff_of_false hto (by simp [ReceiverState.givesUp, ReceiverState.goto,
    ReceiverState.noteEvent, maxConsecutiveSameError])⟩

/-- A failure, after which the loop ends or goes on at `point`. -/
theorem Streaks.noteError (h : Streaks texts r) (text : String) (hto : point ≠ .exited) :
    Streaks (text :: texts)
      ((r.noteError text).goto (if (r.noteError text).givesUp then .exited else point)) := by
  have hnote : (r.noteError text).lastErrorText = some text ∧
      (r.noteError text).sameErrorCount = streak (text :: texts) := by
    rw [ReceiverState.noteError]
    split_ifs with hlast
    · rw [h.last] at hlast
      exact ⟨h.last.trans hlast, by rw [streak_cons_of_head hlast, ← h.count]⟩
    · rw [h.last] at hlast
      exact ⟨rfl, (streak_cons_of_ne hlast).symm⟩
  refine ⟨hnote.1, hnote.2, ?_⟩
  rw [ReceiverState.point_goto]
  split_ifs with hgive
  · exact iff_of_true rfl hgive
  · exact iff_of_false hto hgive

/-- What the receiver meets at each point of its loop. -/
def ReceiverPoint.meets : ReceiverPoint → ReceiverInput → Bool
  | .head, .loadShutdown => true
  | .connecting, .connect _ => true
  | .opening, .openSubscription _ => true
  | .streamHead, .loadShutdown => true
  | .polling, .next _ => true
  | .backoff, .wake => true
  | _, _ => false

/-- Whatever the receiver can meet at its point, it takes. -/
theorem isSome_step {s : Subscription} {shutdown : Bool} {input : ReceiverInput} :
    (s.step role shutdown input).isSome = s.receiver.point.meets input := by
  cases hp : s.receiver.point with
  | connecting =>
    rcases input with _ | (_ | ⟨⟨⟩⟩) | (_ | ⟨⟨⟩⟩) | _ | _ <;>
      simp [Subscription.step, hp, ReceiverPoint.meets]
  | opening =>
    rcases input with _ | (_ | ⟨⟨⟩⟩) | (_ | ⟨⟨⟩⟩) | _ | _ <;>
      simp [Subscription.step, hp, ReceiverPoint.meets]
  | _ => cases input <;> simp [Subscription.step, hp, ReceiverPoint.meets]

theorem ReceiverPoint.exists_meets (h : point ≠ .exited) : ∃ input, point.meets input = true := by
  cases point with
  | head => exact ⟨.loadShutdown, rfl⟩
  | connecting => exact ⟨.connect (.ok ()), rfl⟩
  | opening => exact ⟨.openSubscription (.ok ()), rfl⟩
  | streamHead => exact ⟨.loadShutdown, rfl⟩
  | polling => exact ⟨.next .timeout, rfl⟩
  | backoff => exact ⟨.wake, rfl⟩
  | exited => exact absurd rfl h

theorem point_ne_exited_of_step {s s' : Subscription} {shutdown : Bool} {input : ReceiverInput}
    (h : s.step role shutdown input = some s') : s.receiver.point ≠ .exited := by
  intro hp
  have hsome : (s.step role shutdown input).isSome = true := by rw [h]; rfl
  rw [isSome_step, hp] at hsome
  cases input <;> cases hsome

/-- **One step.** -/
theorem streaks_step {s s' : Subscription} {input : ReceiverInput}
    (h : s.step role false input = some s') (hs : Streaks texts s.receiver) :
    Streaks (if input.decodes then [] else input.failure.toList ++ texts) s'.receiver := by
  have hfrom := point_ne_exited_of_step h
  have hcases := Subscription.step_cases h
  rcases input with _ | (text | ⟨⟨⟩⟩) | (text | ⟨⟨⟩⟩) | item | _
  · rcases hcases with ⟨-, rfl⟩ | ⟨-, rfl⟩
    · exact hs.goto hfrom (by decide)
    · exact hs.goto hfrom (by decide)
  · obtain ⟨-, rfl⟩ := hcases
    exact hs.noteError text (by decide)
  · obtain ⟨-, rfl⟩ := hcases
    exact hs.goto hfrom (by decide)
  · obtain ⟨-, rfl⟩ := hcases
    exact hs.noteError text (by decide)
  · obtain ⟨-, rfl⟩ := hcases
    exact hs.goto hfrom (by decide)
  · obtain ⟨-, rfl⟩ := hcases
    cases item with
    | event ts payload => exact Streaks.noteEvent (by decide)
    | status text => exact hs.noteError text (by decide)
    | _ => exact hs.goto hfrom (by decide)
  · obtain ⟨-, rfl⟩ := hcases
    exact hs.goto hfrom (by decide)

/-- **A run.** -/
theorem streaks_run {ring : Ring} {inputs : List ReceiverInput} {s : Subscription}
    (h : inputs.foldlM (Subscription.step role false) ⟨{}, ring⟩ = some s) :
    Streaks (failures inputs) s.receiver := by
  refine Folds.foldlM_history (P := fun past s => Streaks (failures past) s.receiver) ?_
    (fun past s input s' hs hstep => ?_) h
  · exact ⟨rfl, rfl, iff_of_false (fun hp => by cases hp) (fun hgive => by cases hgive)⟩
  · rw [failures_concat]
    exact streaks_step hstep hs

theorem Streaks.exited_iff (h : Streaks texts r) :
    r.point = .exited ↔ ∃ text, List.replicate 5 text <+: texts := by
  rw [h.exited, ← succ_le_streak_iff, ← h.count]
  exact decide_eq_true_iff

/-- **When a receiver gives up.**  Without a shutdown its loop ends exactly if the latest five
failures since the last decoded event have one text.  Until then it takes whatever it meets, and has
counted four failures at most. -/
theorem receiver_gives_up {ring : Ring} {inputs : List ReceiverInput} {s : Subscription}
    (h : inputs.foldlM (Subscription.step role false) ⟨{}, ring⟩ = some s) :
    (s.receiver.point = .exited ↔ ∃ text, List.replicate 5 text <+: failures inputs) ∧
    (∀ past rest, inputs = past ++ rest → rest ≠ [] →
      ¬ ∃ text, List.replicate 5 text <+: failures past) ∧
    (s.receiver.point = .exited ↔ ∀ input, s.step role false input = none) ∧
    (s.receiver.point ≠ .exited → s.receiver.sameErrorCount ≤ 4 ∧
      ∀ input, s.receiver.point.meets input = true → (s.step role false input).isSome = true) := by
  have hstreaks := streaks_run h
  refine ⟨hstreaks.exited_iff, fun past rest heq hrest => ?_, ⟨fun hp input => ?_, fun hnone => ?_⟩,
    fun hrun => ⟨?_, fun input => ?_⟩⟩
  · obtain ⟨input, rest, rfl⟩ := List.exists_cons_of_ne_nil hrest
    rw [heq] at h
    obtain ⟨s₁, s₂, hpast, hstep⟩ := Folds.exists_of_foldlM_append h
    exact fun hsame => point_ne_exited_of_step hstep ((streaks_run hpast).exited_iff.mpr hsame)
  · exact Option.eq_none_iff_forall_ne_some.mpr fun s' hstep => point_ne_exited_of_step hstep hp
  · by_contra hp
    obtain ⟨input, hmeets⟩ := ReceiverPoint.exists_meets hp
    have hsome : (s.step role false input).isSome = true := isSome_step.trans hmeets
    rw [hnone input] at hsome
    cases hsome
  · by_contra hcount
    exact hrun (hstreaks.exited.mpr (decide_eq_true (Nat.lt_of_not_le hcount)))
  · rw [isSome_step]
    exact id

/-- A connect, an open and three streams fail alike, with a clean end, a control frame, a decode
error and a timeout in between. -/
theorem receiver_gives_up_five_alike :
    let connected : List ReceiverInput :=
      [.loadShutdown, .connect (.ok ()), .openSubscription (.ok ()), .loadShutdown]
    let inputs : List ReceiverInput :=
      [.loadShutdown, .connect (.error "e"), .wake,
        .loadShutdown, .connect (.ok ()), .openSubscription (.error "e"), .wake] ++
      connected ++ [.next .control, .loadShutdown, .next (.status "e")] ++
      connected ++ [.next .ended] ++
      connected ++ [.next .decodeError, .loadShutdown, .next .timeout, .loadShutdown,
        .next (.status "e")] ++
      connected ++ [.next (.status "e")]
    ∃ s, inputs.foldlM (Subscription.step (.main .one .processed .slots) false)
        ⟨{}, Ring.withCapacity 8 (by decide)⟩ = some s ∧ s.receiver.point = .exited := by
  intro connected inputs
  have hsome : (inputs.foldlM (Subscription.step (.main .one .processed .slots) false)
      ⟨{}, Ring.withCapacity 8 (by decide)⟩).isSome = true := by decide
  obtain ⟨s, hs⟩ := Option.isSome_iff_exists.mp hsome
  exact ⟨s, hs, (receiver_gives_up hs).1.mpr ⟨"e", by decide⟩⟩

end GrpcBench
