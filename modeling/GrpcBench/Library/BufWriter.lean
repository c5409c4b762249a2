import Mathlib.Data.List.Basic
import Mathlib.Data.Nat.Notation

/-!
# Buffered writing

A writer that keeps what it is given in a buffer and hands it to a file when the buffer is full, or
when it is asked to.  A file takes a limited number of elements in all; the write that does not fit
leaves what fits and is an error.  The errors of a file are numbered.

* `File.writeAll`, `Writer.flushBuf`, `Writer.writeAll`, `Writer.writePieces`.
* `fill`: how full the buffer is after a write, on a file that takes everything.
* `Outcome`: an operation succeeds if the file takes what the buffer does not keep; if not, the file
  is a prefix of what was written, as long as the file takes (`writeAll_outcome`,
  `writePieces_outcome`, `flushBuf_outcome`).
-/

namespace BufWriter

variable {α ε : Type*}

/-- A file that takes `limit` elements in all. -/
structure File (α ε : Type*) where
  content : List α
  limit : ℕ
  failures : ℕ
  reason : ℕ → ε

namespace File

/-- An empty file. -/
def new (limit : ℕ) (reason : ℕ → ε) : File α ε where
  content := []
  limit := limit
  failures := 0
  reason := reason

/-- What the file still takes. -/
def room (f : File α ε) : ℕ :=
  f.limit - f.content.length

/-- Write to the file itself. -/
def writeAll (f : File α ε) (s : List α) : File α ε × Except ε Unit :=
  if s.length ≤ f.room then ({ f with content := f.content ++ s }, .ok ())
  else
    ({ f with content := f.content ++ s.take f.room, failures := f.failures + 1 },
      .error (f.reason f.failures))

/-- A write fits, or the file ends up with what it takes in all. -/
theorem writeAll_cases (f : File α ε) (h : f.content.length ≤ f.limit) (s : List α) :
    (f.content.length + s.length ≤ f.limit ∧
      f.writeAll s = ({ f with content := f.content ++ s }, .ok ())) ∨
    (f.limit < f.content.length + s.length ∧ f.writeAll s =
      ({ f with content := (f.content ++ s).take f.limit, failures := f.failures + 1 },
        .error (f.reason f.failures))) := by
  rw [writeAll, room]
  split_ifs with hle
  · exact Or.inl ⟨by omega, rfl⟩
  · refine Or.inr ⟨by omega, ?_⟩
    rw [List.take_append, List.take_of_length_le h]

end File

/-- A file behind a buffer of some capacity. -/
structure Writer (α ε : Type*) where
  file : File α ε
  buffer : List α
  capacity : ℕ

namespace Writer

/-- A writer as it is opened. -/
def new (capacity : ℕ) (file : File α ε) : Writer α ε where
  file := file
  buffer := []
  capacity := capacity

/-- The free space of the buffer. -/
def spareCapacity (w : Writer α ε) : ℕ :=
  w.capacity - w.buffer.length

/-- Hand the buffer to the file; what the file does not take stays in the buffer. -/
def flushBuf (w : Writer α ε) : Writer α ε × Except ε Unit :=
  let r := w.file.writeAll w.buffer
  ({ w with
      file := r.1
      buffer := w.buffer.drop (r.1.content.length - w.file.content.length) }, r.2)

/-- Write through the buffer.  What is as long as the buffer goes to the file itself, after the
buffer. -/
def writeAll (w : Writer α ε) (s : List α) : Writer α ε × Except ε Unit :=
  if s.length < w.spareCapacity then ({ w with buffer := w.buffer ++ s }, .ok ())
  else
    let r := if w.spareCapacity < s.length then w.flushBuf else (w, .ok ())
    match r.2 with
    | .error e => (r.1, .error e)
    | .ok () =>
      if w.capacity ≤ s.length then
        let direct := r.1.file.writeAll s
        ({ r.1 with file := direct.1 }, direct.2)
      else ({ r.1 with buffer := r.1.buffer ++ s }, .ok ())

/-- Write several pieces, up to the first error. -/
def writePieces (w : Writer α ε) : List (List α) → Writer α ε × Except ε Unit
  | [] => (w, .ok ())
  | s :: rest =>
    let r := w.writeAll s
    match r.2 with
    | .error e => (r.1, .error e)
    | .ok () => r.1.writePieces rest

end Writer

/-! ## The level of the buffer -/

/-- The level of the buffer after a write of `n` elements. -/
def fill (capacity level n : ℕ) : ℕ :=
  if n < capacity - level then level + n
  else if capacity ≤ n then 0
  else if capacity - level < n then n
  else level + n

theorem fill_le_add (capacity level n : ℕ) : fill capacity level n ≤ level + n := by
  unfold fill
  split_ifs <;> omega

/-- The level of the buffer after several writes. -/
def fillAll (capacity level : ℕ) : List (List α) → ℕ
  | [] => level
  | s :: rest => fillAll capacity (fill capacity level s.length) rest

theorem fillAll_le_add (capacity level : ℕ) (pieces : List (List α)) :
    fillAll capacity level pieces ≤ level + pieces.flatten.length := by
  induction pieces generalizing level with
  | nil => exact Nat.le_add_right level 0
  | cons s rest ih =>
    have hfill := fill_le_add capacity level s.length
    have hrest := ih (fill capacity level s.length)
    rw [fillAll, List.flatten_cons, List.length_append]
    omega

/-- The second of two writes does not stay in the buffer, with all of the first, exactly when the
first was too long for the buffer or filled it to the end. -/
theorem fill_fill_one_lt_iff {capacity level n : ℕ} (hcap : 2 ≤ capacity)
    (hlevel : level ≤ capacity) : fill capacity (fill capacity level n) 1 < n + 1 ↔
      capacity ≤ n ∨ 0 < n ∧ level + n = capacity := by
  unfold fill
  split_ifs <;> omega

/-! ## What an operation comes to -/

section Outcome

variable {capacity limit level : ℕ} {reason : ℕ → ε} {s t : List α} {w : Writer α ε}

/-- Everything written so far is in the file or in the buffer, and nothing has failed. -/
structure Holds (capacity limit : ℕ) (reason : ℕ → ε) (s : List α) (level : ℕ)
    (w : Writer α ε) : Prop where
  content : w.file.content ++ w.buffer = s
  limit_eq : w.file.limit = limit
  fits : w.file.content.length ≤ limit
  failures : w.file.failures = 0
  reason_eq : w.file.reason = reason
  level_eq : w.buffer.length = level
  level_le : level ≤ capacity
  capacity_eq : w.capacity = capacity

/-- An operation after which `s` has been written, and the buffer should be filled up to `level`. -/
def Outcome (capacity limit : ℕ) (reason : ℕ → ε) (s : List α) (level : ℕ)
    (r : Writer α ε × Except ε Unit) : Prop :=
  (s.length ≤ limit + level ∧ r.2 = .ok () ∧ Holds capacity limit reason s level r.1) ∨
    (limit + level < s.length ∧ r.2 = .error (reason 0) ∧ r.1.file.content = s.take limit)

theorem holds_new (capacity limit : ℕ) (reason : ℕ → ε) :
    Holds capacity limit reason [] 0
      (Writer.new capacity (File.new limit reason) : Writer α ε) where
  content := rfl
  limit_eq := rfl
  fits := Nat.zero_le limit
  failures := rfl
  reason_eq := rfl
  level_eq := rfl
  level_le := Nat.zero_le capacity
  capacity_eq := rfl

namespace Holds

theorem length_eq (h : Holds capacity limit reason s level w) :
    w.file.content.length + level = s.length := by
  rw [← h.content, List.length_append, h.level_eq]

/-- The buffer takes what fits into it. -/
theorem push (h : Holds capacity limit reason s level w) (t : List α)
    (ht : level + t.length ≤ capacity) :
    Holds capacity limit reason (s ++ t) (level + t.length) { w with buffer := w.buffer ++ t } where
  content := by rw [← List.append_assoc, h.content]
  limit_eq := h.limit_eq
  fits := h.fits
  failures := h.failures
  reason_eq := h.reason_eq
  level_eq := by rw [List.length_append, h.level_eq]
  level_le := ht
  capacity_eq := h.capacity_eq

theorem push_outcome (h : Holds capacity limit reason s level w) (t : List α)
    (ht : level + t.length ≤ capacity) :
    Outcome capacity limit reason (s ++ t) (level + t.length)
      ({ w with buffer := w.buffer ++ t }, .ok ()) := by
  have hlen := h.length_eq
  have hfits := h.fits
  refine Or.inl ⟨?_, rfl, h.push t ht⟩
  rw [List.length_append]
  omega

theorem flushBuf_outcome (h : Holds capacity limit reason s level w) :
    Outcome capacity limit reason s 0 w.flushBuf := by
  have hlen : w.file.content.length + w.buffer.length = s.length := by
    rw [h.level_eq, h.length_eq]
  rcases w.file.writeAll_cases (h.limit_eq ▸ h.fits) w.buffer with ⟨hle, heq⟩ | ⟨hlt, heq⟩
  · rw [h.limit_eq, hlen] at hle
    have hdrop : w.buffer.drop ((w.file.content ++ w.buffer).length - w.file.content.length) =
        [] := by
      rw [List.length_append, Nat.add_sub_cancel_left, List.drop_length]
    rw [Writer.flushBuf, heq]
    refine Or.inl ⟨hle, rfl, ?_⟩
    exact {
      content := by rw [hdrop, List.append_nil, h.content]
      limit_eq := h.limit_eq
      fits := by rw [h.content]; exact hle
      failures := h.failures
      reason_eq := h.reason_eq
      level_eq := by rw [hdrop, List.length_nil]
      level_le := Nat.zero_le capacity
      capacity_eq := h.capacity_eq }
  · rw [h.limit_eq, hlen] at hlt
    rw [Writer.flushBuf, heq, h.content, h.limit_eq, h.failures, h.reason_eq]
    exact Or.inr ⟨hlt, rfl, rfl⟩

/-- Writing to the file itself, behind an empty buffer. -/
theorem direct_outcome (h : Holds capacity limit reason s 0 w) (t : List α) :
    Outcome capacity limit reason (s ++ t) 0
      ({ w with file := (w.file.writeAll t).1 }, (w.file.writeAll t).2) := by
  have hnil : w.buffer = [] := List.length_eq_zero_iff.mp h.level_eq
  have hs : w.file.content = s := by rw [← h.content, hnil, List.append_nil]
  rcases w.file.writeAll_cases (h.limit_eq ▸ h.fits) t with ⟨hle, heq⟩ | ⟨hlt, heq⟩
  · rw [h.limit_eq, hs, ← List.length_append] at hle
    rw [heq]
    refine Or.inl ⟨hle, rfl, ?_⟩
    exact {
      content := by rw [hnil, List.append_nil, hs]
      limit_eq := h.limit_eq
      fits := by rw [hs]; exact hle
      failures := h.failures
      reason_eq := h.reason_eq
      level_eq := h.level_eq
      level_le := h.level_le
      capacity_eq := h.capacity_eq }
  · rw [h.limit_eq, hs, ← List.length_append] at hlt
    rw [heq, hs, h.limit_eq, h.failures, h.reason_eq]
    exact Or.inr ⟨hlt, rfl, rfl⟩

end Holds

/-- What is written after an error does not count any more. -/
theorem outcome_of_error {level' : ℕ} (hlt : limit + level < s.length)
    (hfile : w.file.content = s.take limit) (hlevel : level' ≤ level + t.length) :
    Outcome capacity limit reason (s ++ t) level' (w, .error (reason 0)) := by
  refine Or.inr ⟨?_, rfl, ?_⟩
  · rw [List.length_append]
    omega
  · rw [hfile, List.take_append_of_le_length (by omega)]

namespace Holds

theorem writeAll_outcome (h : Holds capacity limit reason s level w) (t : List α) :
    Outcome capacity limit reason (s ++ t) (fill capacity level t.length) (w.writeAll t) := by
  have hlevel := h.level_le
  have hspare : w.spareCapacity = capacity - level := by
    rw [Writer.spareCapacity, h.capacity_eq, h.level_eq]
  rw [Writer.writeAll, hspare, fill]
  by_cases hroom : t.length < capacity - level
  · rw [if_pos hroom, if_pos hroom]
    exact h.push_outcome t (by omega)
  rw [if_neg hroom, if_neg hroom]
  by_cases hover : capacity - level < t.length
  · rw [if_pos hover, if_pos hover]
    rcases h.flushBuf_outcome with ⟨-, hok, hflushed⟩ | ⟨hlt, herr, hfile⟩
    · simp only [hok]
      by_cases hdirect : capacity ≤ t.length
      · rw [if_pos hdirect, if_pos (h.capacity_eq ▸ hdirect)]
        exact hflushed.direct_outcome t
      · rw [if_neg hdirect, if_neg (h.capacity_eq ▸ hdirect)]
        have hpush := hflushed.push_outcome t (by omega)
        rw [Nat.zero_add] at hpush
        exact hpush
    · simp only [herr]
      refine outcome_of_error hlt hfile ?_
      split_ifs <;> omega
  · -- what is written fills the buffer exactly
    rw [if_neg hover, if_neg hover]
    by_cases hdirect : capacity ≤ t.length
    · obtain rfl : level = 0 := by omega
      simp only [if_pos hdirect, if_pos (h.capacity_eq ▸ hdirect)]
      exact h.direct_outcome t
    · simp only [if_neg hdirect, if_neg (h.capacity_eq ▸ hdirect)]
      exact h.push_outcome t (by omega)

theorem writePieces_outcome (h : Holds capacity limit reason s level w) (pieces : List (List α)) :
    Outcome capacity limit reason (s ++ pieces.flatten) (fillAll capacity level pieces)
      (w.writePieces pieces) := by
  induction pieces generalizing s level w with
  | nil =>
    have hlen := h.length_eq
    have hfits := h.fits
    rw [List.flatten_nil, List.append_nil, fillAll]
    exact Or.inl ⟨by omega, rfl, h⟩
  | cons t rest ih =>
    rw [List.flatten_cons, ← List.append_assoc, fillAll, Writer.writePieces]
    rcases h.writeAll_outcome t with ⟨-, hok, hrest⟩ | ⟨hlt, herr, hfile⟩
    · simp only [hok]
      exact ih hrest
    · simp only [herr]
      exact outcome_of_error hlt hfile (fillAll_le_add ..)

end Holds

end Outcome

end BufWriter
