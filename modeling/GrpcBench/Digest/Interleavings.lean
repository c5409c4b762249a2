import GrpcBench.CrossStream
import GrpcBench.Library.Folds
import GrpcBench.Matching.Accounts
import GrpcBench.Matching.Staleness
import GrpcBench.Stability

/-!
# Buffering loses no sample

The four types that keep a digest behind a buffer differ in what surrounds the two fields: a pair
matcher pushes inside `observe`, a program digest counts its pushes, a distribution keeps a maximum,
and each of them has reads of its own, all of which flush.  To the two fields a call does one of
three things: it pushes, it flushes, or it leaves them alone.

* `BufferedDigest.Sound`: the samples are those pushed, and the buffer has room for one more.
* `DigestCall`, with `apply` on the three digests that are pushed into from outside.
* `PairMatcher.sound_applyAll`: the same for a matcher, which pushes what it matches.
* `no_sample_lost`: every interleaving of calls on each of the four.
-/

namespace GrpcBench

variable {B : Backend}

namespace BufferedDigest

/-- What holds between two calls, once `pushed` has been pushed. -/
structure Sound (d : BufferedDigest B) (pushed : List ℚ) : Prop where
  samples : B.samples d.digest + (d.buffer : Multiset ℚ) = (pushed : Multiset ℚ)
  room : d.buffer.length < tdigestBufferFlush

variable {d : BufferedDigest B} {pushed : List ℚ}

theorem sound_new : (new B).Sound [] :=
  ⟨samples_new, show 0 < tdigestBufferFlush by decide⟩

@[simp] theorem buffer_flush (d : BufferedDigest B) : d.flush.buffer = [] := by
  unfold flush
  split_ifs with h
  · exact List.isEmpty_iff.mp h
  · rfl

theorem Sound.flush (h : d.Sound pushed) : d.flush.Sound pushed := by
  refine ⟨d.samples_flush.trans h.samples, ?_⟩
  rw [buffer_flush]
  decide

/-- A push keeps the buffer short, since the sample that fills it is flushed with the others. -/
theorem Sound.push (h : d.Sound pushed) (v : ℚ) : (d.push v).Sound (pushed ++ [v]) := by
  refine ⟨?_, ?_⟩
  · show (d.push v).samples = _
    rw [samples_push, ← Multiset.coe_add, Multiset.coe_singleton, ← h.samples, Multiset.add_comm,
      Multiset.singleton_add]
    rfl
  · unfold BufferedDigest.push
    dsimp only
    split_ifs with hfull
    · rw [buffer_flush]
      decide
    · exact not_le.mp hfull

theorem Sound.foldl_push (h : d.Sound pushed) (vs : List ℚ) :
    (vs.foldl BufferedDigest.push d).Sound (pushed ++ vs) := by
  induction vs generalizing d pushed with
  | nil => rwa [List.append_nil]
  | cons v vs ih =>
    rw [← List.singleton_append, ← List.append_assoc]
    exact ih (h.push v)

end BufferedDigest

/-! ## The digests that are pushed into from outside -/

/-- A call on a digest. -/
inductive DigestCall where
  | push (v : ℚ)
  | flush
  | quantile (q : ℚ)
  | summary

namespace DigestCall

/-- The samples a call pushes. -/
def pushed : DigestCall → List ℚ
  | .push v => [v]
  | _ => []

/-- The calls that read the digest. -/
def reads : DigestCall → Bool
  | .quantile _ | .summary => true
  | _ => false

end DigestCall

/-- What a call does to the two fields. -/
def BufferedDigest.apply (d : BufferedDigest B) : DigestCall → BufferedDigest B
  | .push v => d.push v
  | _ => d.flush

/-- A program digest after a call. -/
def ProgramDigest.apply (d : ProgramDigest B) : DigestCall → ProgramDigest B
  | .push v => d.push v
  | .flush => d.flush
  | .quantile q => (d.quantile q).2
  | .summary => d.summary.2

/-- A distribution after a call.  Its summary is the reads of `StabilityTracker::summary`. -/
def DistributionDigest.apply (d : DistributionDigest B) : DigestCall → DistributionDigest B
  | .push v => d.push v
  | .flush => d.flush
  | .quantile q => (d.quantile q).2
  | .summary => (((d.quantile 0.50).2.quantile 0.90).2.quantile 0.99).2

/-- A streaming digest after a call. -/
def StreamingDigest.apply (d : StreamingDigest B) : DigestCall → StreamingDigest B
  | .push v => d.push v
  | .flush => d.flush
  | .quantile q => (d.quantile q).2
  | .summary => (StreamingDigest.summary d).2

section Apply

variable (call : DigestCall)

theorem ProgramDigest.deltas_apply (d : ProgramDigest B) :
    (d.apply call).deltas = d.deltas.apply call := by
  cases call with
  | quantile q => exact congrArg ProgramDigest.deltas (d.snd_quantile q)
  | summary => exact congrArg ProgramDigest.deltas d.snd_summary
  | _ => rfl

/-- A program digest counts its pushes. -/
theorem ProgramDigest.matched_apply (d : ProgramDigest B) :
    (d.apply call).counts.matched = d.counts.matched + call.pushed.length := by
  cases call with
  | push v =>
    show (record d.counts v).matched = _
    unfold record
    dsimp only
    split_ifs <;> rfl
  | quantile q => exact congrArg (fun d => d.counts.matched) (d.snd_quantile q)
  | summary => exact congrArg (fun d => d.counts.matched) d.snd_summary
  | flush => rfl

theorem DistributionDigest.deltas_apply (d : DistributionDigest B) :
    (d.apply call).deltas = d.deltas.apply call := by
  cases call with
  | quantile q => exact congrArg DistributionDigest.deltas (d.snd_quantile q)
  | summary => simp [apply, flush, BufferedDigest.apply]
  | _ => rfl

theorem StreamingDigest.apply_eq (d : StreamingDigest B) :
    StreamingDigest.apply d call = BufferedDigest.apply d call := by
  cases call with
  | quantile q => exact BufferedDigest.snd_quantile d q
  | summary =>
    show (StreamingDigest.summary d).2 = d.flush
    unfold StreamingDigest.summary
    dsimp only
    split <;> simp
  | _ => rfl

end Apply

namespace BufferedDigest

variable {d : BufferedDigest B} {pushed : List ℚ}

theorem Sound.apply (h : d.Sound pushed) (call : DigestCall) :
    (d.apply call).Sound (pushed ++ call.pushed) := by
  have hflush : d.flush.Sound (pushed ++ []) := by
    rw [List.append_nil]
    exact h.flush
  cases call with
  | push v => exact h.push v
  | _ => exact hflush

/-- A run of a type whose calls do to its two fields what they do to a buffered digest. -/
theorem sound_foldl {S : Type} {part : S → BufferedDigest B} {step : S → DigestCall → S}
    (hstep : ∀ s call, part (step s call) = (part s).apply call) {s : S} (hs : part s = new B)
    (calls : List DigestCall) :
    (part (calls.foldl step s)).Sound (calls.flatMap DigestCall.pushed) := by
  have hrun : ∀ (d : BufferedDigest B) (pushed : List ℚ), d.Sound pushed →
      (calls.foldl BufferedDigest.apply d).Sound (pushed ++ calls.flatMap DigestCall.pushed) := by
    induction calls with
    | nil =>
      intro d pushed h
      rwa [List.flatMap_nil, List.append_nil]
    | cons call calls ih =>
      intro d pushed h
      rw [List.flatMap_cons, ← List.append_assoc]
      exact ih _ _ (h.apply call)
  have hpart : part (calls.foldl step s) = calls.foldl BufferedDigest.apply (part s) :=
    (List.foldl_hom part fun s call => (hstep s call).symm).symm
  rw [hpart, hs]
  exact hrun _ [] sound_new

theorem buffer_apply (d : BufferedDigest B) {call : DigestCall} (h : call.reads = true) :
    (d.apply call).buffer = [] := by
  cases call with
  | push v => cases h
  | _ => exact d.buffer_flush

theorem Sound.card_samples (h : d.Sound pushed) : Multiset.card d.samples = pushed.length := by
  rw [BufferedDigest.samples, h.samples, Multiset.coe_card]

end BufferedDigest

/-- A program digest counts every sample. -/
theorem ProgramDigest.matched_foldl (d : ProgramDigest B) (calls : List DigestCall) :
    (calls.foldl apply d).counts.matched =
      d.counts.matched + (calls.flatMap DigestCall.pushed).length := by
  induction calls generalizing d with
  | nil => rfl
  | cons call calls ih =>
    rw [List.foldl_cons, ih, matched_apply, List.flatMap_cons, List.length_append, Nat.add_assoc]

/-! ## The matcher -/

namespace PairMatcher

variable {K : Type} [DecidableEq K]

/-- The samples a call pushes: that of the match, if the call is an observation that has one. -/
def pushed (m : PairMatcher B K) : MatcherCall K → List ℚ
  | .observe c => (m.observe c.endpoint c.key c.ts c.slot).1.toList.map MatchResult.deltaMs
  | _ => []

/-- The samples pushed in a run. -/
def pushedAll (m : PairMatcher B K) (calls : List (MatcherCall K)) : List ℚ :=
  Folds.outputs apply pushed m calls

/-- The calls that read the digest. -/
def reads : MatcherCall K → Bool
  | .quantile _ | .snapshotDigest | .summary => true
  | _ => false

variable {m : PairMatcher B K} {past : List ℚ}

theorem sound_apply (h : m.deltas.Sound past) (call : MatcherCall K) :
    (m.apply call).deltas.Sound (past ++ m.pushed call) := by
  have hflush : m.flush.deltas.Sound (past ++ []) := by
    rw [List.append_nil]
    exact h.flush
  cases call with
  | observe c =>
    rw [apply_observe, deltas_stepWith]
    exact h.foldl_push _
  | evict =>
    show m.deltas.Sound (past ++ [])
    rw [List.append_nil]
    exact h
  | quantile q =>
    rw [apply_quantile]
    exact hflush
  | summary =>
    rw [apply_summary]
    exact hflush
  | _ => exact hflush

theorem matched_apply (m : PairMatcher B K) (call : MatcherCall K) :
    (m.apply call).counts.matched = m.counts.matched + (m.pushed call).length := by
  cases call with
  | observe c =>
    rw [apply_observe, matched_stepWith, pushed, List.length_map, stepWith_batched]
  | quantile q =>
    rw [apply_quantile]
    rfl
  | summary =>
    rw [apply_summary]
    rfl
  | _ => rfl

/-- A run merges or buffers what it pushes, and counts it. -/
theorem sound_applyAll (eviction : EvictionPolicy) (calls : List (MatcherCall K)) :
    let m := new B K eviction
    (m.applyAll calls).deltas.Sound (m.pushedAll calls) ∧
      (m.applyAll calls).counts.matched = (m.pushedAll calls).length := by
  intro m
  have hnew : m.deltas.Sound [] ∧ m.counts.matched = ([] : List ℚ).length :=
    ⟨BufferedDigest.sound_new, rfl⟩
  refine Folds.foldl_outputs
    (P := fun (s : PairMatcher B K) written =>
      s.deltas.Sound written ∧ s.counts.matched = written.length)
    (fun s written call hs => ⟨sound_apply hs.1 call, ?_⟩) calls hnew
  rw [matched_apply, hs.2, List.length_append]

theorem buffer_apply (m : PairMatcher B K) {call : MatcherCall K} (h : reads call = true) :
    (m.apply call).deltas.buffer = [] := by
  cases call with
  | quantile q =>
    rw [apply_quantile]
    exact m.deltas.buffer_flush
  | snapshotDigest => exact m.deltas.buffer_flush
  | summary =>
    rw [apply_summary]
    exact m.evict.deltas.buffer_flush
  | _ => cases h

end PairMatcher

/-! ## All four -/

/-- **No sample is lost or duplicated by buffering.**  After any interleaving of calls on one of the
four digests, the merged and the buffered samples are those pushed, the buffer has room for one
more, and a read empties it.  A matcher and a program digest have counted every sample. -/
theorem no_sample_lost (B : Backend) :
    (∀ (K : Type) [DecidableEq K] (eviction : EvictionPolicy) (calls : List (MatcherCall K)),
      let m := PairMatcher.new B K eviction
      (m.applyAll calls).deltas.Sound (m.pushedAll calls) ∧
        (∀ call, PairMatcher.reads call = true →
          ((m.applyAll calls).apply call).deltas.buffer = []) ∧
        Multiset.card (m.applyAll calls).deltas.samples = (m.applyAll calls).counts.matched) ∧
    (∀ calls : List DigestCall, let d := calls.foldl ProgramDigest.apply (ProgramDigest.new B)
      d.deltas.Sound (calls.flatMap DigestCall.pushed) ∧
        (∀ call, call.reads = true → (d.apply call).deltas.buffer = []) ∧
        Multiset.card d.deltas.samples = d.counts.matched) ∧
    (∀ calls : List DigestCall,
      let d := calls.foldl DistributionDigest.apply (DistributionDigest.new B)
      d.deltas.Sound (calls.flatMap DigestCall.pushed) ∧
        ∀ call, call.reads = true → (d.apply call).deltas.buffer = []) ∧
    ∀ calls : List DigestCall,
      let d : StreamingDigest B := calls.foldl StreamingDigest.apply (BufferedDigest.new B)
      d.Sound (calls.flatMap DigestCall.pushed) ∧
        ∀ call, call.reads = true → (StreamingDigest.apply d call).buffer = [] := by
  refine ⟨fun K _ eviction calls => ?_, fun calls => ?_, fun calls => ?_, fun calls => ?_⟩
  · obtain ⟨hsound, hmatched⟩ := PairMatcher.sound_applyAll (B := B) eviction calls
    refine ⟨hsound, fun call h => PairMatcher.buffer_apply _ h, ?_⟩
    rw [hsound.card_samples, hmatched]
  · have hsound := BufferedDigest.sound_foldl (s := ProgramDigest.new B)
      (fun d call => ProgramDigest.deltas_apply call d) rfl calls
    refine ⟨hsound, fun call h => ?_, ?_⟩
    · rw [ProgramDigest.deltas_apply]
      exact BufferedDigest.buffer_apply _ h
    · rw [hsound.card_samples, ProgramDigest.matched_foldl]
      exact (Nat.zero_add _).symm
  · refine ⟨BufferedDigest.sound_foldl (s := DistributionDigest.new B)
      (fun d call => DistributionDigest.deltas_apply call d) rfl calls, fun call h => ?_⟩
    rw [DistributionDigest.deltas_apply]
    exact BufferedDigest.buffer_apply _ h
  · refine ⟨@BufferedDigest.sound_foldl B (StreamingDigest B) id StreamingDigest.apply
      (fun d call => StreamingDigest.apply_eq call d) (BufferedDigest.new B) rfl calls,
      fun call h => ?_⟩
    rw [StreamingDigest.apply_eq]
    exact BufferedDigest.buffer_apply _ h

end GrpcBench
