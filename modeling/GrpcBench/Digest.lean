import GrpcBench.Backend

/-!
# Buffered digests

Four types of the source keep a t-digest behind a buffer: `PairMatcher`, `ProgramDigest`,
`DistributionDigest` and `StreamingDigest`.  Their `flush`, `quantile` and the buffering half of
their `push` are the same code, written once here; each of them holds a `BufferedDigest` where the
source has the two fields `digest` and `buffer`.

`samples` is what a digest is about: the multiset of the samples pushed into it.  A push adds one
sample, whether or not it fills the buffer, and nothing else changes it.
-/

namespace GrpcBench

/-- `TDIGEST_BUFFER_FLUSH`. -/
def tdigestBufferFlush : ℕ := 1024

/-- `TDIGEST_COMPRESSION`. -/
def tdigestCompression : ℕ := 100

/-- A t-digest and the samples not merged into it yet. -/
structure BufferedDigest (B : Backend) where
  digest : B.TDigest
  buffer : List ℚ

namespace BufferedDigest

variable {B : Backend}

/-- An empty digest. -/
def new (B : Backend) : BufferedDigest B where
  digest := B.newWithSize tdigestCompression
  buffer := []

/-- `flush`: merge the buffer into the digest. -/
def flush (d : BufferedDigest B) : BufferedDigest B :=
  if d.buffer.isEmpty then d
  else { digest := B.mergeUnsorted d.digest d.buffer, buffer := [] }

/-- `push`: append to the buffer, and flush it when it is full. -/
def push (d : BufferedDigest B) (v : ℚ) : BufferedDigest B :=
  let d := { d with buffer := d.buffer ++ [v] }
  if tdigestBufferFlush ≤ d.buffer.length then d.flush else d

/-- `quantile`; `none` is NaN. -/
def quantile (d : BufferedDigest B) (q : ℚ) : Option ℚ × BufferedDigest B :=
  let d := d.flush
  if B.isEmpty d.digest then (none, d) else (some (B.estimateQuantile d.digest q), d)

/-- The samples pushed so far: those merged into the digest and those still in the buffer. -/
def samples (d : BufferedDigest B) : Multiset ℚ :=
  B.samples d.digest + (d.buffer : Multiset ℚ)

@[simp] theorem samples_new : (new B).samples = 0 := by
  simp [samples, new, B.samples_newWithSize]

/-- A flush moves the buffered samples into the digest. -/
@[simp] theorem samples_flush (d : BufferedDigest B) : d.flush.samples = d.samples := by
  unfold flush
  split
  · rfl
  · rw [samples, samples, B.samples_mergeUnsorted, Multiset.coe_nil, add_zero]

/-- A push records exactly one sample. -/
@[simp] theorem samples_push (d : BufferedDigest B) (v : ℚ) :
    (d.push v).samples = v ::ₘ d.samples := by
  have hbuf : ({ d with buffer := d.buffer ++ [v] } : BufferedDigest B).samples =
      v ::ₘ d.samples := by
    rw [samples, samples, ← Multiset.coe_add, Multiset.coe_singleton, ← add_assoc,
      Multiset.add_comm, Multiset.singleton_add]
  unfold push
  dsimp only
  split
  · rw [samples_flush, hbuf]
  · exact hbuf

/-- The samples of a list of pushes. -/
theorem samples_foldl_push (d : BufferedDigest B) (vs : List ℚ) :
    (vs.foldl push d).samples = (vs : Multiset ℚ) + d.samples := by
  induction vs generalizing d with
  | nil => exact (zero_add _).symm
  | cons v vs ih =>
    rw [List.foldl_cons, ih, samples_push, ← Multiset.cons_coe, Multiset.add_cons,
      Multiset.cons_add]

@[simp] theorem snd_quantile (d : BufferedDigest B) (q : ℚ) : (d.quantile q).2 = d.flush := by
  unfold quantile
  dsimp only
  split <;> rfl

@[simp] theorem flush_flush (d : BufferedDigest B) : d.flush.flush = d.flush := by
  by_cases h : d.buffer.isEmpty = true
  · simp only [flush, if_pos h]
  · simp only [flush, if_neg h]
    rfl

end BufferedDigest

end GrpcBench
