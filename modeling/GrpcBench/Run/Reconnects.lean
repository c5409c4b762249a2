import GrpcBench.Library.Folds
import GrpcBench.Run.Receiver

/-!
# Reconnects

A stream ends with an error status or cleanly.  Either way the receiver goes back to the head of its
loop, and so straight to the next connect attempt: it sleeps after a failed connect or open only.  A
clean end is not counted as a disconnect either.

* `StreamEndsRecorded`: every end is counted once, and slept off before the next attempt.
* `Unconnected`, `unconnected_run`: from the head of the loop to the next attempt there is no sleep.
* `streamEndsRecorded_iff`: the runs with that property.
-/

namespace GrpcBench

/-- A connect attempt. -/
def ReceiverInput.connects : ReceiverInput → Bool
  | .connect _ => true
  | _ => false

/-- The end of an open stream. -/
def ReceiverInput.endsStream : ReceiverInput → Bool
  | .next item => item.endsStream
  | _ => false

namespace Subscription

variable {role : SubscriptionRole} {s s' : Subscription} {inputs : List (Bool × ReceiverInput)}

/-- A run, in which each input comes with the shutdown flag at that moment. -/
def run (role : SubscriptionRole) (s : Subscription) (inputs : List (Bool × ReceiverInput)) :
    Option Subscription :=
  inputs.foldlM (fun s input => s.step role input.1 input.2) s

/-- The receiver sleeps before its next connect attempt. -/
def BackedOff (rest : List (Bool × ReceiverInput)) : Prop :=
  ∀ mid input rest', rest = mid ++ input :: rest' → input.2.connects = true →
    (∀ other ∈ mid, other.2.connects = false) → ∃ other ∈ mid, other.2 = .wake

/-- Each end of an open stream, unless the receiver gives up, is counted as one disconnect and
backed off. -/
def StreamEndsRecorded (role : SubscriptionRole) (s₀ : Subscription)
    (inputs : List (Bool × ReceiverInput)) : Prop :=
  ∀ past input rest, inputs = past ++ input :: rest → input.2.endsStream = true →
    ∀ s s', run role s₀ past = some s → s.step role input.1 input.2 = some s' →
      s'.receiver.point ≠ .exited →
        s'.ring.stats.disconnects = s.ring.stats.disconnects + 1 ∧ BackedOff rest

/-! ## From the head of the loop to the next attempt -/

/-- The receiver has no connection and is not asleep. -/
def Unconnected (s : Subscription) : Prop :=
  s.receiver.point = .head ∨ s.receiver.point = .connecting ∨ s.receiver.point = .exited

/-- Without a connect attempt there is no sleep. -/
theorem unconnected_step {shutdown : Bool} {input : ReceiverInput}
    (h : s.step role shutdown input = some s') (hs : s.Unconnected)
    (hinput : input.connects = false) : s'.Unconnected ∧ input ≠ .wake := by
  have hcases := step_cases h
  rcases input with _ | result | (text | ⟨⟨⟩⟩) | item | _
  · refine ⟨?_, by simp⟩
    rcases hcases with ⟨-, rfl⟩ | ⟨hp, -⟩
    · cases shutdown
      · exact Or.inr (Or.inl rfl)
      · exact Or.inr (Or.inr rfl)
    · simp [Unconnected, hp] at hs
  · cases hinput
  · simp [Unconnected, hcases.1] at hs
  · simp [Unconnected, hcases.1] at hs
  · simp [Unconnected, hcases.1] at hs
  · simp [Unconnected, hcases.1] at hs

theorem unconnected_run (h : run role s inputs = some s') (hs : s.Unconnected)
    (hinputs : ∀ input ∈ inputs, input.2.connects = false) :
    ∀ input ∈ inputs, input.2 ≠ .wake := by
  induction inputs generalizing s with
  | nil => simp
  | cons input inputs ih =>
    rw [run, List.foldlM_cons] at h
    obtain ⟨t, hstep, hrest⟩ := Option.bind_eq_some_iff.mp h
    obtain ⟨ht, hwake⟩ := unconnected_step hstep hs (hinputs input List.mem_cons_self)
    intro other hother
    rcases List.mem_cons.mp hother with rfl | hother
    · exact hwake
    · exact ih hrest ht (fun i hi => hinputs i (List.mem_cons_of_mem _ hi)) other hother

/-! ## The ends of streams -/

theorem step_ended {shutdown : Bool} (h : s.step role shutdown (.next .ended) = some s') :
    s'.receiver.point = .head ∧ s'.ring = s.ring := by
  obtain ⟨-, rfl⟩ := step_cases h
  exact ⟨rfl, rfl⟩

theorem step_status {shutdown : Bool} {text : String}
    (h : s.step role shutdown (.next (.status text)) = some s') :
    s'.Unconnected ∧ s'.ring.stats.disconnects = s.ring.stats.disconnects + 1 := by
  obtain ⟨-, rfl⟩ := step_cases h
  refine ⟨?_, rfl⟩
  simp only [Unconnected, onItem, ReceiverState.point_goto]
  split_ifs <;> simp

theorem run_append_cons {past rest : List (Bool × ReceiverInput)} {input : Bool × ReceiverInput}
    (h : run role s (past ++ input :: rest) = some s') :
    ∃ s₁ s₂, run role s past = some s₁ ∧ s₁.step role input.1 input.2 = some s₂ ∧
      run role s₂ rest = some s' := by
  rw [run, List.foldlM_append] at h
  obtain ⟨s₁, hpast, h⟩ := Option.bind_eq_some_iff.mp h
  rw [List.foldlM_cons] at h
  obtain ⟨s₂, hstep, hrest⟩ := Option.bind_eq_some_iff.mp h
  exact ⟨s₁, s₂, hpast, hstep, hrest⟩

/-- No stream ends cleanly, and after an end with an error status nothing is connected again. -/
def NeverReconnects (inputs : List (Bool × ReceiverInput)) : Prop :=
  (∀ input ∈ inputs, input.2 ≠ .next .ended) ∧
    ∀ past flag text rest, inputs = past ++ (flag, .next (.status text)) :: rest →
      ∀ input ∈ rest, input.2.connects = false

/-- After the end of a stream the next attempt comes without a sleep. -/
theorem not_backedOff {rest : List (Bool × ReceiverInput)} (h : run role s rest = some s')
    (hs : s.Unconnected) {input : Bool × ReceiverInput} (hmem : input ∈ rest)
    (hinput : input.2.connects = true) : ¬ BackedOff rest := by
  intro hback
  -- the first attempt
  obtain ⟨attempt, hfind⟩ := Option.isSome_iff_exists.mp
    (List.find?_isSome (p := fun i => i.2.connects).mpr ⟨input, hmem, hinput⟩)
  obtain ⟨hattempt, mid, rest', rfl, hmid⟩ := List.find?_eq_some_iff_append.mp hfind
  have hnone : ∀ other ∈ mid, other.2.connects = false := fun other ho => by
    simpa using hmid other ho
  obtain ⟨other, ho, hwake⟩ := hback mid attempt rest' rfl hattempt hnone
  obtain ⟨s₁, s₂, hrun, -, -⟩ := run_append_cons h
  exact unconnected_run hrun hs hnone other ho hwake

/-- **The recorded runs.**  In a run every end of a stream is counted and backed off exactly if the
receiver never reconnects after one. -/
theorem streamEndsRecorded_iff {s₀ : Subscription} (h : run role s₀ inputs = some s) :
    StreamEndsRecorded role s₀ inputs ↔ NeverReconnects inputs := by
  constructor
  · intro hrec
    refine ⟨fun input hmem hended => ?_, fun past flag text rest heq input hmem => ?_⟩
    · obtain ⟨past, rest, rfl⟩ := List.append_of_mem hmem
      obtain ⟨s₁, s₂, hpast, hstep, -⟩ := run_append_cons h
      obtain ⟨shutdown, input⟩ := input
      cases hended
      obtain ⟨hpoint, hring⟩ := step_ended hstep
      have hcount := (hrec past _ rest rfl rfl s₁ s₂ hpast hstep (by rw [hpoint]; decide)).1
      rw [hring] at hcount
      omega
    · by_contra hconnects
      rw [Bool.not_eq_false] at hconnects
      subst heq
      obtain ⟨s₁, s₂, hpast, hstep, hrest⟩ := run_append_cons h
      have hunconnected := (step_status hstep).1
      have hpoint : s₂.receiver.point ≠ .exited := by
        intro hp
        obtain ⟨next, rest, rfl⟩ := List.exists_cons_of_ne_nil (List.ne_nil_of_mem hmem)
        rw [← List.nil_append (next :: rest)] at hrest
        obtain ⟨t, t', ht, hnext, -⟩ := run_append_cons hrest
        cases ht
        obtain ⟨flag', next⟩ := next
        cases next <;> simp [step, hp] at hnext
      exact not_backedOff hrest hunconnected hmem hconnects
        (hrec past _ rest rfl rfl s₁ s₂ hpast hstep hpoint).2
  · rintro ⟨hended, hstatus⟩ past ⟨flag, input⟩ rest rfl hends s₁ s₂ hpast hstep -
    cases input with
    | next item =>
      cases item with
      | status text =>
        refine ⟨(step_status hstep).2, fun mid input rest' heq hconnects _ => ?_⟩
        have hmem : input ∈ rest := heq ▸ by simp
        rw [hstatus past flag text rest rfl input hmem] at hconnects
        cases hconnects
      | ended => exact absurd rfl (hended (flag, .next .ended) (by simp))
      | _ => cases hends
    | _ => cases hends

/-- A connect attempt fails, and the stream opened by the second ends with an error status when the
run stops. -/
theorem streamEndsRecorded_status :
    StreamEndsRecorded (.main .one .processed .slots) ⟨{}, Ring.withCapacity 8 (by decide)⟩
      [(false, .loadShutdown), (false, .connect (.error "refused")), (false, .wake),
        (false, .loadShutdown), (false, .connect (.ok ())), (false, .openSubscription (.ok ())),
        (false, .loadShutdown), (false, .next (.status "unavailable"))] := by
  have hsome : (run (.main .one .processed .slots) ⟨{}, Ring.withCapacity 8 (by decide)⟩
      [(false, .loadShutdown), (false, .connect (.error "refused")), (false, .wake),
        (false, .loadShutdown), (false, .connect (.ok ())), (false, .openSubscription (.ok ())),
        (false, .loadShutdown), (false, .next (.status "unavailable"))]).isSome = true := by
    decide
  obtain ⟨s, hs⟩ := Option.isSome_iff_exists.mp hsome
  refine (streamEndsRecorded_iff hs).mpr ⟨by simp, fun past flag text rest heq => ?_⟩
  have hrest : rest = [] := by
    simp only [List.cons_eq_append_iff, List.nil_eq_append_iff, List.cons.injEq, Prod.mk.injEq,
      reduceCtorEq, and_false, false_and, false_or, exists_false, or_false] at heq
    simp_all
  simp [hrest]

/-- A stream is opened and ends cleanly, twice, and a third time the receiver connects: no
disconnect is counted, and it never sleeps. -/
theorem not_streamEndsRecorded_clean_ends :
    let cycle : List (Bool × ReceiverInput) :=
      [(false, .loadShutdown), (false, .connect (.ok ())), (false, .openSubscription (.ok ())),
        (false, .loadShutdown), (false, .next .ended)]
    let start : Subscription := ⟨{}, Ring.withCapacity 8 (by decide)⟩
    let inputs := cycle ++ cycle ++ [(false, .loadShutdown), (false, .connect (.ok ()))]
    (∃ s, run (.main .one .processed .slots) start inputs = some s ∧
      s.ring.stats.disconnects = 0) ∧
    ¬ StreamEndsRecorded (.main .one .processed .slots) start inputs := by
  intro cycle start inputs
  refine ⟨⟨_, rfl, rfl⟩, fun hrec => ?_⟩
  have hcount := (hrec
    [(false, .loadShutdown), (false, .connect (.ok ())), (false, .openSubscription (.ok ())),
      (false, .loadShutdown)] (false, .next .ended) _ rfl rfl _ _ rfl rfl (by decide)).1
  exact absurd hcount (by decide)

end Subscription

end GrpcBench
