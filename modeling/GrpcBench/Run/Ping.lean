import GrpcBench.Library.Folds
import GrpcBench.Library.Rounding
import Mathlib.Data.UInt

/-!
# Pings

`run.rs`: `ping_task`, which measures the round trip of a version call on a connection of its own,
at once and every 30 seconds.  It connects again after a call that fails or times out.  A sleep is
taken in ticks of 250 milliseconds, with a look at the shutdown flag before each of them.  The task
is a machine that takes one step per outcome it meets; the counters are `u64` and wrap around.

* `PingTask.step`, `PingTask.run`: the runs; `PingTask.step_cases` says what a step does.
* `PingTask.run_accounting`: the tracker has the calls that were answered, and there are 30 seconds
  of sleep for each of them and for each connect that failed.
* `PingTask.shutdown_run`: what the task still does after a shutdown.
-/

namespace GrpcBench

/-- `PingTracker`. -/
structure PingTracker where
  sumUs : UInt64 := 0
  count : UInt64 := 0
  deriving DecidableEq, Repr

namespace PingTracker

/-- `PingTracker::record`. -/
def record (t : PingTracker) (durationUs : UInt64) : PingTracker where
  sumUs := t.sumUs + durationUs
  count := t.count + 1

/-- `PingTracker::average_ms`, in the arithmetic of binary64; `none` is NaN. -/
def averageMs (t : PingTracker) : Option ℚ :=
  if t.count = 0 then none
  else
    let f64 := Rounding.roundSig 53
    some (f64 (f64 (f64 t.sumUs.toNat / f64 t.count.toNat) / 1000))

end PingTracker

/-- `PING_INTERVAL`, in milliseconds. -/
def pingIntervalMs : ℕ := 30000

/-- A tick of `sleep_unless_shutdown`, in milliseconds. -/
def sleepTickMs : ℕ := 250

/-- Where the task goes on after a sleep. -/
inductive AfterSleep where
  /-- The outer loop, which connects. -/
  | reconnect
  /-- The inner loop, on the same connection. -/
  | pingAgain
  deriving DecidableEq, Repr

/-- Where the task is in its loops. -/
inductive PingPoint where
  /-- Head of the outer loop, before the shutdown check. -/
  | head
  | connecting
  /-- Head of the inner loop, before the shutdown check. -/
  | pingHead
  | pinging
  /-- Head of the loop of a sleep, before the shutdown check. -/
  | sleepHead (remainingMs : ℕ) (back : AfterSleep)
  | asleep (remainingMs : ℕ) (back : AfterSleep)
  | exited
  deriving DecidableEq, Repr

/-- What the task meets. -/
inductive PingInput where
  /-- A load of the shutdown flag. -/
  | loadShutdown (shutdown : Bool)
  | connect (succeeded : Bool)
  /-- The version call is answered in time. -/
  | answered (elapsedUs : UInt64)
  /-- The version call fails, or `PING_TIMEOUT` passes. -/
  | failed
  /-- The end of a tick. -/
  | wake
  deriving DecidableEq, Repr

/-- The task and its tracker. -/
structure PingTask where
  point : PingPoint := .head
  tracker : PingTracker := {}
  deriving DecidableEq, Repr

namespace PingTask

/-- The loop of `sleep_unless_shutdown`, with so much of the sleep remaining. -/
def sleepFrom (remainingMs : ℕ) (back : AfterSleep) : PingPoint :=
  if 0 < remainingMs then .sleepHead remainingMs back
  else
    match back with
    | .reconnect => .head
    | .pingAgain => .pingHead

/-- One step of `ping_task`; `none` if the input does not belong to the point the task is at. -/
def step (t : PingTask) : PingInput → Option PingTask
  | .loadShutdown shutdown =>
    match t.point with
    | .head => some { t with point := if shutdown then .exited else .connecting }
    | .pingHead => some { t with point := if shutdown then .exited else .pinging }
    | .sleepHead remaining back =>
      some { t with point := if shutdown then .exited else .asleep remaining back }
    | _ => none
  | .connect succeeded =>
    match t.point with
    | .connecting =>
      some { t with
        point := if succeeded then .pingHead else sleepFrom pingIntervalMs .reconnect }
    | _ => none
  | .answered elapsedUs =>
    match t.point with
    | .pinging => some ⟨sleepFrom pingIntervalMs .pingAgain, t.tracker.record elapsedUs⟩
    | _ => none
  | .failed =>
    match t.point with
    | .pinging => some { t with point := .head }
    | _ => none
  | .wake =>
    match t.point with
    | .asleep remaining back =>
      some { t with point := sleepFrom (remaining - min remaining sleepTickMs) back }
    | _ => none

/-- A run of the task. -/
def run (t : PingTask) (inputs : List PingInput) : Option PingTask :=
  inputs.foldlM step t

variable {t t' : PingTask} {input : PingInput} {inputs : List PingInput}

/-- **What a step does.**  Each input is met at its own point of the loops. -/
theorem step_cases (h : t.step input = some t') :
    match input with
    | .loadShutdown shutdown =>
      t'.tracker = t.tracker ∧
        ((t.point = .head ∧ t'.point = if shutdown then .exited else .connecting) ∨
          (t.point = .pingHead ∧ t'.point = if shutdown then .exited else .pinging) ∨
          ∃ remaining back, t.point = .sleepHead remaining back ∧
            t'.point = if shutdown then .exited else .asleep remaining back)
    | .connect succeeded => t'.tracker = t.tracker ∧ t.point = .connecting ∧
        t'.point = if succeeded then .pingHead else .sleepHead pingIntervalMs .reconnect
    | .answered elapsedUs => t.point = .pinging ∧
        t' = ⟨.sleepHead pingIntervalMs .pingAgain, t.tracker.record elapsedUs⟩
    | .failed => t'.tracker = t.tracker ∧ t.point = .pinging ∧ t'.point = .head
    | .wake => t'.tracker = t.tracker ∧ ∃ remaining back, t.point = .asleep remaining back ∧
        t'.point = sleepFrom (remaining - min remaining sleepTickMs) back := by
  obtain ⟨point, tracker⟩ := t
  cases input with
  | loadShutdown shutdown =>
    cases point with
    | head =>
      cases h
      exact ⟨rfl, Or.inl ⟨rfl, rfl⟩⟩
    | pingHead =>
      cases h
      exact ⟨rfl, Or.inr (Or.inl ⟨rfl, rfl⟩)⟩
    | sleepHead remaining back =>
      cases h
      exact ⟨rfl, Or.inr (Or.inr ⟨remaining, back, rfl, rfl⟩)⟩
    | _ => cases h
  | connect succeeded =>
    cases point with
    | connecting =>
      cases h
      exact ⟨rfl, rfl, rfl⟩
    | _ => cases h
  | answered elapsedUs =>
    cases point with
    | pinging =>
      cases h
      exact ⟨rfl, rfl⟩
    | _ => cases h
  | failed =>
    cases point with
    | pinging =>
      cases h
      exact ⟨rfl, rfl, rfl⟩
    | _ => cases h
  | wake =>
    cases point with
    | asleep remaining back =>
      cases h
      exact ⟨rfl, remaining, back, rfl, rfl⟩
    | _ => cases h

/-! ## Accounting -/

/-- The round trips that were answered. -/
def roundTrips (inputs : List PingInput) : List UInt64 :=
  inputs.filterMap fun
    | .answered elapsedUs => some elapsedUs
    | _ => none

/-- The ticks slept. -/
def ticks (inputs : List PingInput) : ℕ :=
  inputs.count .wake

/-- The sleeps begun. -/
def sleeps (inputs : List PingInput) : ℕ :=
  (roundTrips inputs).length + inputs.count (.connect false)

/-- What is left of the sleep that the task is in. -/
def left (t : PingTask) : Option ℕ :=
  match t.point with
  | .sleepHead remaining _ => some remaining
  | .asleep remaining _ => some remaining
  | _ => none

/-- The inputs so far, and the task: the tracker has the calls that were answered, and of the sleeps
so far all is slept but what is left of the current one. -/
structure Accounted (past : List PingInput) (t : PingTask) : Prop where
  sumUs : t.tracker.sumUs = (roundTrips past).sum
  count : t.tracker.count = UInt64.ofNat (roundTrips past).length
  whole : ∀ r ∈ t.left, 0 < r ∧ sleepTickMs ∣ r
  slept : ∃ rest ≤ pingIntervalMs, sleepTickMs * ticks past + rest = pingIntervalMs * sleeps past ∧
    (t.point ≠ .exited → rest = t.left.getD 0)

theorem roundTrips_append (past inputs : List PingInput) :
    roundTrips (past ++ inputs) = roundTrips past ++ roundTrips inputs :=
  List.filterMap_append

theorem ticks_append (past inputs : List PingInput) :
    ticks (past ++ inputs) = ticks past + ticks inputs :=
  List.count_append ..

theorem sleeps_append (past inputs : List PingInput) :
    sleeps (past ++ inputs) = sleeps past + sleeps inputs := by
  rw [sleeps, roundTrips_append, List.length_append, List.count_append, sleeps, sleeps]
  omega

theorem left_of_exited (h : t.point = .exited) : t.left = none := by
  rw [left, h]

variable {past : List PingInput}

/-- A step that counts nothing. -/
theorem Accounted.idle (h : Accounted past t) (htracker : t'.tracker = t.tracker)
    (htrips : roundTrips [input] = []) (hticks : ticks [input] = 0) (hsleeps : sleeps [input] = 0)
    (hleft : t'.point = .exited ∨ t.point ≠ .exited ∧ t'.left = t.left) :
    Accounted (past ++ [input]) t' := by
  obtain ⟨rest, hle, hslept, hrest⟩ := h.slept
  refine ⟨?_, ?_, ?_, rest, hle, ?_, ?_⟩
  · rw [htracker, roundTrips_append, htrips, List.append_nil, h.sumUs]
  · rw [htracker, roundTrips_append, htrips, List.append_nil, h.count]
  · rcases hleft with hexit | ⟨-, hleft⟩
    · rw [left_of_exited hexit]
      exact fun r hr => by cases hr
    · rw [hleft]
      exact h.whole
  · rw [ticks_append, sleeps_append, hticks, hsleeps]
    exact hslept
  · intro hlive
    rcases hleft with hexit | ⟨hlive', hleft⟩
    · exact absurd hexit hlive
    · rw [hleft]
      exact hrest hlive'

/-- A step that begins a sleep. -/
theorem Accounted.sleep (h : Accounted past t) (hlive : t.point ≠ .exited) (hawake : t.left = none)
    (hsum : t'.tracker.sumUs = t.tracker.sumUs + (roundTrips [input]).sum)
    (hcount : t'.tracker.count = t.tracker.count + UInt64.ofNat (roundTrips [input]).length)
    (hticks : ticks [input] = 0) (hsleeps : sleeps [input] = 1)
    (hleft : t'.left = some pingIntervalMs) : Accounted (past ++ [input]) t' := by
  obtain ⟨rest, -, hslept, hrest⟩ := h.slept
  refine ⟨?_, ?_, ?_, pingIntervalMs, le_rfl, ?_, fun _ => by rw [hleft]; rfl⟩
  · rw [hsum, h.sumUs, roundTrips_append, List.sum_append]
  · rw [hcount, h.count, roundTrips_append, List.length_append, UInt64.ofNat_add]
  · rw [hleft]
    rintro r ⟨⟩
    exact ⟨by decide, by decide⟩
  · rw [hrest hlive, hawake, Option.getD_none, add_zero] at hslept
    rw [ticks_append, sleeps_append, hticks, hsleeps, add_zero, hslept, Nat.mul_succ]

/-- The end of a tick. -/
theorem Accounted.wake (h : Accounted past t) {r : ℕ} {back : AfterSleep}
    (hpoint : t.point = .asleep r back) (htracker : t'.tracker = t.tracker)
    (hpoint' : t'.point = sleepFrom (r - min r sleepTickMs) back) :
    Accounted (past ++ [.wake]) t' := by
  have hr : t.left = some r := by rw [left, hpoint]
  obtain ⟨hpos, hwhole⟩ := h.whole r hr
  have hge : sleepTickMs ≤ r := Nat.le_of_dvd hpos hwhole
  rw [Nat.min_eq_right hge] at hpoint'
  have hleft : t'.left = if 0 < r - sleepTickMs then some (r - sleepTickMs) else none := by
    rw [left, hpoint']
    unfold sleepFrom
    split_ifs with hmore
    · rfl
    · cases back <;> rfl
  obtain ⟨rest, hle, hslept, hrest⟩ := h.slept
  have hlive : t.point ≠ .exited := by
    rw [hpoint]
    exact fun heq => by cases heq
  have hrest := hrest hlive
  rw [hr, Option.getD_some] at hrest
  have htrips : roundTrips (past ++ [.wake]) = roundTrips past := by
    rw [roundTrips_append]
    exact List.append_nil _
  refine ⟨by rw [htracker, htrips, h.sumUs], by rw [htracker, htrips, h.count], ?_,
    r - sleepTickMs, by omega, ?_, fun _ => ?_⟩
  · rw [hleft]
    intro r' hr'
    split_ifs at hr' with hmore
    · rw [← Option.some.inj hr']
      exact ⟨hmore, Nat.dvd_sub hwhole dvd_rfl⟩
    · cases hr'
  · have hone : ticks [.wake] = 1 := rfl
    have hzero : sleeps [.wake] = 0 := rfl
    rw [ticks_append, sleeps_append, hone, hzero, add_zero, ← hslept, Nat.mul_succ]
    omega
  · rw [hleft]
    split_ifs with hmore
    · rfl
    · exact Nat.eq_zero_of_not_pos hmore

/-- **One step.** -/
theorem Accounted.after_step (h : Accounted past t) (hstep : t.step input = some t') :
    Accounted (past ++ [input]) t' := by
  have hcases := step_cases hstep
  cases input with
  | loadShutdown shutdown =>
    obtain ⟨htracker, hpoints⟩ := hcases
    refine h.idle htracker rfl rfl rfl ?_
    cases shutdown with
    | true =>
      left
      rcases hpoints with ⟨-, hp⟩ | ⟨-, hp⟩ | ⟨r, back, -, hp⟩
      · exact hp
      · exact hp
      · exact hp
    | false =>
      right
      rcases hpoints with ⟨hp, hp'⟩ | ⟨hp, hp'⟩ | ⟨r, back, hp, hp'⟩
      · simp [left, hp, hp']
      · simp [left, hp, hp']
      · simp [left, hp, hp']
  | connect succeeded =>
    obtain ⟨htracker, hp, hp'⟩ := hcases
    cases succeeded with
    | true => exact h.idle htracker rfl rfl rfl (Or.inr (by simp [left, hp, hp']))
    | false =>
      refine h.sleep (by simp [hp]) (by simp [left, hp]) ?_ ?_ rfl rfl (by simp [left, hp'])
      · rw [htracker]
        exact (UInt64.add_zero _).symm
      · rw [htracker]
        exact (UInt64.add_zero _).symm
  | answered elapsedUs =>
    obtain ⟨hp, rfl⟩ := hcases
    refine h.sleep (by simp [hp]) (by simp [left, hp]) ?_ rfl rfl rfl rfl
    exact congrArg (t.tracker.sumUs + ·) (UInt64.add_zero elapsedUs).symm
  | failed =>
    obtain ⟨htracker, hp, hp'⟩ := hcases
    exact h.idle htracker rfl rfl rfl (Or.inr (by simp [left, hp, hp']))
  | wake =>
    obtain ⟨htracker, r, back, hp, hp'⟩ := hcases
    exact h.wake hp htracker hp'

theorem accounted_run (h : ({} : PingTask).run inputs = some t) : Accounted inputs t :=
  Folds.foldlM_history (P := Accounted)
    ⟨rfl, rfl, fun _ hr => (by cases hr), ⟨0, Nat.zero_le _, rfl, fun _ => rfl⟩⟩
    (fun _ _ _ _ hs hstep => hs.after_step hstep) h

/-! ## Shutdown -/

/-- The most steps that a task takes once every look at the flag finds it set. -/
def stepsLeft (t : PingTask) : ℕ :=
  match t.point with
  | .head => 1
  | .connecting => 2
  | .pingHead => 1
  | .pinging => 2
  | .sleepHead _ _ => 1
  | .asleep _ _ => 2
  | .exited => 0

/-- The answers that are still recorded then. -/
def answersLeft (t : PingTask) : ℕ :=
  if t.point = .pinging then 1 else 0

theorem shutdown_step (h : t.step input = some t') (hflag : input ≠ .loadShutdown false) :
    t'.stepsLeft < t.stepsLeft ∧
      t'.answersLeft + (roundTrips [input]).length ≤ t.answersLeft := by
  have hcases := step_cases h
  cases input with
  | loadShutdown shutdown =>
    cases shutdown with
    | false => exact absurd rfl hflag
    | true =>
      obtain ⟨-, ⟨hp, hp'⟩ | ⟨hp, hp'⟩ | ⟨r, back, hp, hp'⟩⟩ := hcases
      · simp [stepsLeft, answersLeft, roundTrips, hp, hp']
      · simp [stepsLeft, answersLeft, roundTrips, hp, hp']
      · simp [stepsLeft, answersLeft, roundTrips, hp, hp']
  | connect succeeded =>
    obtain ⟨-, hp, hp'⟩ := hcases
    cases succeeded <;> simp [stepsLeft, answersLeft, roundTrips, hp, hp']
  | answered elapsedUs =>
    obtain ⟨hp, rfl⟩ := hcases
    simp [stepsLeft, answersLeft, roundTrips, hp]
  | failed =>
    obtain ⟨-, hp, hp'⟩ := hcases
    simp [stepsLeft, answersLeft, roundTrips, hp, hp']
  | wake =>
    obtain ⟨-, r, back, hp, hp'⟩ := hcases
    unfold sleepFrom at hp'
    split_ifs at hp'
    · simp [stepsLeft, answersLeft, roundTrips, hp, hp']
    · cases back <;> simp [stepsLeft, answersLeft, roundTrips, hp, hp']

theorem shutdown_run (h : t.run inputs = some t')
    (hflags : ∀ input ∈ inputs, input ≠ .loadShutdown false) :
    inputs.length + t'.stepsLeft ≤ t.stepsLeft ∧
      t'.answersLeft + (roundTrips inputs).length ≤ t.answersLeft := by
  induction inputs generalizing t with
  | nil =>
    cases h
    exact ⟨(Nat.zero_add _).le, le_rfl⟩
  | cons input inputs ih =>
    rw [run, List.foldlM_cons] at h
    obtain ⟨t₁, hstep, hrest⟩ := Option.bind_eq_some_iff.mp h
    obtain ⟨hlt, hanswers⟩ := shutdown_step hstep (hflags input List.mem_cons_self)
    obtain ⟨hle, hanswers'⟩ := ih hrest fun i hi => hflags i (List.mem_cons_of_mem input hi)
    have happend := roundTrips_append [input] inputs
    rw [List.singleton_append] at happend
    rw [happend, List.length_append, List.length_cons]
    omega

/-! ## Runs -/

/-- **Pings.**  In every run of the task the tracker has the round trips that were answered and
their number, up to the width of the counters; every one of them and every connect that failed is
followed by a sleep of 30 seconds, which is over whenever the task is awake.  Once every look at the
shutdown flag finds it set the task takes at most two more steps and records at most one more round
trip. -/
theorem run_accounting (h : ({} : PingTask).run inputs = some t) :
    t.tracker.sumUs = (roundTrips inputs).sum ∧
    t.tracker.count = UInt64.ofNat (roundTrips inputs).length ∧
    (t.point ≠ .exited → sleepTickMs * ticks inputs + t.left.getD 0 =
      pingIntervalMs * ((roundTrips inputs).length + inputs.count (.connect false))) ∧
    ∀ more t', t.run more = some t' → (∀ input ∈ more, input ≠ .loadShutdown false) →
      more.length ≤ 2 ∧ (roundTrips more).length ≤ 1 := by
  have hacc := accounted_run h
  refine ⟨hacc.sumUs, hacc.count, fun hlive => ?_, fun more t' hmore hflags => ?_⟩
  · obtain ⟨rest, -, hslept, hrest⟩ := hacc.slept
    rw [← hrest hlive]
    exact hslept
  · obtain ⟨hlen, hanswers⟩ := shutdown_run hmore hflags
    have hsteps : t.stepsLeft ≤ 2 := by
      unfold stepsLeft
      split <;> decide
    have hone : t.answersLeft ≤ 1 := by
      unfold answersLeft
      split_ifs <;> decide
    omega

/-- One answered call, one tick of the sleep after it, and a shutdown during the next one. -/
theorem run_accounting_one_tick :
    let inputs : List PingInput := [.loadShutdown false, .connect true, .loadShutdown false,
      .answered 1500, .loadShutdown false, .wake, .loadShutdown false]
    let t : PingTask := ⟨.asleep 29750 .pingAgain, ⟨1500, 1⟩⟩
    ({} : PingTask).run inputs = some t ∧ t.tracker.count = 1 ∧
      sleepTickMs * ticks inputs + 29750 = pingIntervalMs * 1 ∧
      ∀ more t', t.run more = some t' → (∀ input ∈ more, input ≠ .loadShutdown false) →
        more.length ≤ 2 := by
  intro inputs t
  have hrun : ({} : PingTask).run inputs = some t := by decide
  obtain ⟨-, hcount, hslept, hexit⟩ := run_accounting hrun
  exact ⟨hrun, hcount, hslept (by decide),
    fun more t' hmore hflags => (hexit more t' hmore hflags).1⟩

end PingTask

end GrpcBench
