import GrpcBench.Library.BufWriter
import GrpcBench.Library.Folds
import GrpcBench.Raw

/-!
# The raw-record file

`raw.rs`: `RawWriter`.  Every event is one line; lines go through a buffer of 64 KiB, and after the
first error nothing is written any more.  `bytes_written` counts a line when it has entered the
buffer, which is why it can be more than the file has got when the buffer could not be handed over.

The file is one that takes a limited number of bytes in all, and then fails.  `serde_json`'s writer
is a function of the value; it has no text for a value that it cannot write.

* `RawWriter.write`, `RawWriter.flush`, `RawWriter.takeWarning`.
* `Clean`, `Failed`: a writer before and after its first error, with the calls made so far.
* `errorText_applyAll`: the latched warning is the first error.
* `reported_iff`: exactly when the reported size is that of the file.
-/

namespace GrpcBench

open BufWriter (fillAll Holds)

/-- `RawWriterError`. -/
inductive RawWriterError where
  | openFile (path source : String)
  deriving DecidableEq, Repr

/-- The `#[error]` text. -/
def RawWriterError.message : RawWriterError → String
  | .openFile path source => "failed to open --raw-records path " ++ path ++ ": " ++ source

/-- Buffered JSONL event log. -/
structure RawWriter where
  path : String
  inner : BufWriter.Writer UInt8 String
  bytesWritten : ℕ
  poisoned : Bool
  errorText : Option String

namespace RawWriter

/-- The capacity of the buffer. -/
def bufferSize : ℕ :=
  64 * 1024

/-- A writer to a file that has been opened. -/
def new (path : String) (file : BufWriter.File UInt8 String) : RawWriter where
  path := path
  inner := BufWriter.Writer.new bufferSize file
  bytesWritten := 0
  poisoned := false
  errorText := none

/-- `RawWriter::create`, on what opening the file gives. -/
def create (path : String) (opened : Except String (BufWriter.File UInt8 String)) :
    Except RawWriterError RawWriter :=
  match opened with
  | .error source => .error (.openFile path source)
  | .ok file => .ok (new path file)

/-- `RawWriter::flush`. -/
def flush (w : RawWriter) : RawWriter :=
  if w.poisoned = true then w
  else
    let r := w.inner.flushBuf
    match r.2 with
    | .error e =>
      { w with
        inner := r.1
        poisoned := true
        errorText := some ("flush of " ++ w.path ++ " failed: " ++ e) }
    | .ok () => { w with inner := r.1 }

/-- `RawWriter::take_warning`. -/
def takeWarning (w : RawWriter) : Option String × RawWriter :=
  (w.errorText, { w with errorText := none })

/-- A call of a dispatcher, or of the shutdown. -/
inductive Call where
  | write (event : Event)
  | flush

section Calls

variable (encode : List UInt8 → String) (serialize : JsonValue → Option (List UInt8))

/-- `RawWriter::write`; `writeln!` writes the text and then the line feed. -/
def write (w : RawWriter) (event : Event) : RawWriter :=
  if w.poisoned = true then w
  else
    match serialize (eventToJson encode event) with
    | none => w
    | some serialized =>
      let lenWithNewline := serialized.length + 1
      let r := w.inner.writePieces [serialized, [10]]
      match r.2 with
      | .error e =>
        { w with
          inner := r.1
          poisoned := true
          errorText := some ("write to " ++ w.path ++ " failed: " ++ e) }
      | .ok () => { w with inner := r.1, bytesWritten := w.bytesWritten + lenWithNewline }

def apply (w : RawWriter) : Call → RawWriter
  | .write event => w.write encode serialize event
  | .flush => w.flush

def applyAll (w : RawWriter) (calls : List Call) : RawWriter :=
  calls.foldl (apply encode serialize) w

/-- The errors of a call: what the write or the flush that it makes runs into. -/
def raised (w : RawWriter) (call : Call) : List String :=
  if w.poisoned = true then []
  else
    match call with
    | .write event =>
      match serialize (eventToJson encode event) with
      | none => []
      | some serialized =>
        match (w.inner.writePieces [serialized, [10]]).2 with
        | .error e => ["write to " ++ w.path ++ " failed: " ++ e]
        | .ok () => []
    | .flush =>
      match w.inner.flushBuf.2 with
      | .error e => ["flush of " ++ w.path ++ " failed: " ++ e]
      | .ok () => []

/-! ## What is to be written -/

/-- The line of an event. -/
def line : Call → Option (List UInt8)
  | .write event => (serialize (eventToJson encode event)).map fun serialized => serialized ++ [10]
  | .flush => none

/-- The lines of the events, in order. -/
def lines (calls : List Call) : List (List UInt8) :=
  calls.filterMap (line encode serialize)

/-- All that is to be written. -/
def written (calls : List Call) : List UInt8 :=
  (lines encode serialize calls).flatten

/-- The level of the buffer after a call, on a file that takes everything. -/
def levelAfter (level : ℕ) : Call → ℕ
  | .write event =>
    match serialize (eventToJson encode event) with
    | none => level
    | some serialized => fillAll bufferSize level [serialized, [10]]
  | .flush => 0

/-- The level of the buffer after some calls, on a file that takes everything. -/
def level (calls : List Call) : ℕ :=
  calls.foldl (levelAfter encode serialize) 0

theorem lines_append (calls calls' : List Call) : lines encode serialize (calls ++ calls') =
    lines encode serialize calls ++ lines encode serialize calls' :=
  List.filterMap_append

theorem written_append (calls calls' : List Call) : written encode serialize (calls ++ calls') =
    written encode serialize calls ++ written encode serialize calls' := by
  rw [written, lines_append, List.flatten_append, written, written]

theorem level_concat (calls : List Call) (call : Call) :
    level encode serialize (calls ++ [call]) =
      levelAfter encode serialize (level encode serialize calls) call := by
  rw [level, List.foldl_append, List.foldl_cons, List.foldl_nil, level]

/-! ## One call -/

section Call

variable {w : RawWriter} {event : Event} {serialized : List UInt8} {e : String}

theorem apply_of_poisoned (h : w.poisoned = true) (call : Call) :
    w.apply encode serialize call = w := by
  cases call with
  | write event => exact if_pos h
  | flush => exact if_pos h

theorem applyAll_of_poisoned (h : w.poisoned = true) (calls : List Call) :
    w.applyAll encode serialize calls = w := by
  induction calls with
  | nil => rfl
  | cons call calls ih =>
    rw [applyAll, List.foldl_cons, apply_of_poisoned encode serialize h, ← applyAll, ih]

theorem write_of_none (h : serialize (eventToJson encode event) = none) :
    w.write encode serialize event = w := by
  rw [write, h]
  exact ite_self w

theorem write_of_ok (hw : w.poisoned = false)
    (hs : serialize (eventToJson encode event) = some serialized)
    (h : (w.inner.writePieces [serialized, [10]]).2 = .ok ()) :
    w.write encode serialize event =
      { w with
        inner := (w.inner.writePieces [serialized, [10]]).1
        bytesWritten := w.bytesWritten + (serialized.length + 1) } := by
  rw [write, if_neg (ne_true_of_eq_false hw), hs]
  simp only [h]

theorem write_of_error (hw : w.poisoned = false)
    (hs : serialize (eventToJson encode event) = some serialized)
    (h : (w.inner.writePieces [serialized, [10]]).2 = .error e) :
    w.write encode serialize event =
      { w with
        inner := (w.inner.writePieces [serialized, [10]]).1
        poisoned := true
        errorText := some ("write to " ++ w.path ++ " failed: " ++ e) } := by
  rw [write, if_neg (ne_true_of_eq_false hw), hs]
  simp only [h]

theorem flush_of_ok (hw : w.poisoned = false) (h : w.inner.flushBuf.2 = .ok ()) :
    w.flush = { w with inner := w.inner.flushBuf.1 } := by
  rw [flush, if_neg (ne_true_of_eq_false hw)]
  simp only [h]

theorem flush_of_error (hw : w.poisoned = false) (h : w.inner.flushBuf.2 = .error e) :
    w.flush =
      { w with
        inner := w.inner.flushBuf.1
        poisoned := true
        errorText := some ("flush of " ++ w.path ++ " failed: " ++ e) } := by
  rw [flush, if_neg (ne_true_of_eq_false hw)]
  simp only [h]

end Call

/-! ## The latched warning -/

/-- A writer latches the first of the errors so far. -/
def Latched (w : RawWriter) (errors : List String) : Prop :=
  w.errorText = errors.head? ∧ (w.poisoned = false → errors = [])

theorem Latched.after_call {w : RawWriter} {errors : List String} (h : w.Latched errors)
    (call : Call) :
    (w.apply encode serialize call).Latched (errors ++ w.raised encode serialize call) := by
  rcases hp : w.poisoned with _ | _
  · have herr : errors = [] := h.2 hp
    have hnone : w.errorText = none := by rw [h.1, herr, List.head?_nil]
    rw [herr, List.nil_append, raised.eq_def, if_neg (ne_true_of_eq_false hp)]
    cases call with
    | write event =>
      rcases hs : serialize (eventToJson encode event) with _ | serialized
      · rw [apply, write_of_none encode serialize hs]
        exact ⟨by simp [hs, hnone], fun _ => by simp [hs]⟩
      · rcases hr : (w.inner.writePieces [serialized, [10]]).2 with e | ⟨⟩
        · rw [apply, write_of_error encode serialize hp hs hr]
          exact ⟨by simp [hs, hr], fun hfalse => by cases hfalse⟩
        · rw [apply, write_of_ok encode serialize hp hs hr]
          exact ⟨by simp [hs, hr, hnone], fun _ => by simp [hs, hr]⟩
    | flush =>
      rcases hr : w.inner.flushBuf.2 with e | ⟨⟩
      · rw [apply, flush_of_error hp hr]
        exact ⟨rfl, fun hfalse => by cases hfalse⟩
      · rw [apply, flush_of_ok hp hr]
        exact ⟨hnone, fun _ => rfl⟩
  · rw [apply_of_poisoned encode serialize hp, raised.eq_def, if_pos hp, List.append_nil]
    exact h

/-- **The latched warning is the first error.** -/
theorem errorText_applyAll (path : String) (file : BufWriter.File UInt8 String)
    (calls : List Call) :
    ((new path file).applyAll encode serialize calls).errorText =
      (Folds.outputs (apply encode serialize) (raised encode serialize) (new path file)
        calls).head? := by
  have hstart : (new path file).Latched [] := ⟨rfl, fun _ => rfl⟩
  exact (Folds.foldl_outputs (fun _ _ call hw => hw.after_call encode serialize call) calls
    hstart).1

/-! ## Up to the first error -/

section Runs

variable {past : List Call} {call : Call} {event : Event} {serialized : List UInt8}
  {w : RawWriter} {limit : ℕ} {reason : ℕ → String}

theorem written_write (hs : serialize (eventToJson encode event) = some serialized) :
    written encode serialize [.write event] = [serialized, [10]].flatten := by
  simp [written, lines, line, hs]

theorem written_write_of_none (hs : serialize (eventToJson encode event) = none) :
    written encode serialize [.write event] = [] := by
  simp [written, lines, line, hs]

/-- Nothing has failed so far: all that was written is in the file or in the buffer. -/
structure Clean (limit : ℕ) (reason : ℕ → String) (past : List Call) (w : RawWriter) : Prop where
  inner : Holds bufferSize limit reason (written encode serialize past)
    (level encode serialize past) w.inner
  size : w.bytesWritten = (written encode serialize past).length
  poisoned : w.poisoned = false

/-- After `past`, this call was the first to fail: the file did not take what the buffer would not
have kept, and holds as much as it takes. -/
structure Failed (limit : ℕ) (past : List Call) (call : Call) (w : RawWriter) : Prop where
  before : (written encode serialize past).length ≤ limit + bufferSize
  short : limit + level encode serialize (past ++ [call]) <
    (written encode serialize (past ++ [call])).length
  content : w.inner.file.content = (written encode serialize (past ++ [call])).take limit
  size : w.bytesWritten = (written encode serialize past).length
  poisoned : w.poisoned = true

theorem clean_new (path : String) (limit : ℕ) (reason : ℕ → String) :
    Clean encode serialize limit reason [] (new path (BufWriter.File.new limit reason)) where
  inner := BufWriter.holds_new bufferSize limit reason
  size := rfl
  poisoned := rfl

variable {encode serialize}

theorem Clean.length_le (h : Clean encode serialize limit reason past w) :
    (written encode serialize past).length ≤ limit + level encode serialize past := by
  have hlen := h.inner.length_eq
  have hfits := h.inner.fits
  omega

theorem Clean.before (h : Clean encode serialize limit reason past w) :
    (written encode serialize past).length ≤ limit + bufferSize := by
  have hle := h.length_le
  have hlevel := h.inner.level_le
  omega

/-- **One call.** -/
theorem Clean.after_call (h : Clean encode serialize limit reason past w) (call : Call) :
    Clean encode serialize limit reason (past ++ [call]) (w.apply encode serialize call) ∨
      Failed encode serialize limit past call (w.apply encode serialize call) := by
  have hlevel := level_concat encode serialize past call
  have hwritten := written_append encode serialize past [call]
  cases call with
  | write event =>
    rw [levelAfter] at hlevel
    rw [apply]
    rcases hs : serialize (eventToJson encode event) with _ | serialized
    · simp only [hs] at hlevel
      rw [written_write_of_none encode serialize hs, List.append_nil] at hwritten
      rw [write_of_none encode serialize hs]
      left
      exact ⟨by rw [hwritten, hlevel]; exact h.inner, by rw [hwritten]; exact h.size, h.poisoned⟩
    · simp only [hs] at hlevel
      rw [written_write encode serialize hs] at hwritten
      have hout := h.inner.writePieces_outcome [serialized, [10]]
      rw [← hwritten, ← hlevel] at hout
      rcases hout with ⟨-, hok, hinner⟩ | ⟨hlt, herr, hcontent⟩
      · rw [write_of_ok encode serialize h.poisoned hs hok]
        left
        refine ⟨hinner, ?_, h.poisoned⟩
        rw [hwritten, List.length_append, ← h.size]
        simp
      · rw [write_of_error encode serialize h.poisoned hs herr]
        right
        exact ⟨h.before, hlt, hcontent, h.size, rfl⟩
  | flush =>
    have hnil : written encode serialize [.flush] = [] := rfl
    rw [levelAfter] at hlevel
    rw [hnil, List.append_nil] at hwritten
    have hout := h.inner.flushBuf_outcome
    rw [← hwritten, ← hlevel] at hout
    rw [apply]
    rcases hout with ⟨-, hok, hinner⟩ | ⟨hlt, herr, hcontent⟩
    · rw [flush_of_ok h.poisoned hok]
      left
      exact ⟨hinner, by rw [hwritten]; exact h.size, h.poisoned⟩
    · rw [flush_of_error h.poisoned herr]
      right
      exact ⟨h.before, hlt, hcontent, h.size, rfl⟩

variable (encode serialize)

/-- **A run** has had no error yet, or one call was the first to fail, and nothing has changed
since. -/
theorem clean_or_failed (path : String) (limit : ℕ) (reason : ℕ → String) (calls : List Call) :
    let w := (new path (BufWriter.File.new limit reason)).applyAll encode serialize calls
    Clean encode serialize limit reason calls w ∨
      ∃ past call rest, calls = past ++ call :: rest ∧
        Failed encode serialize limit past call w := by
  induction calls using List.reverseRecOn with
  | nil => exact Or.inl (clean_new encode serialize path limit reason)
  | append_singleton calls last ih =>
    rw [applyAll, List.foldl_append, List.foldl_cons, List.foldl_nil, ← applyAll]
    rcases ih with hclean | ⟨past, call, rest, hcalls, hfailed⟩
    · rcases hclean.after_call last with hclean | hfailed
      · exact Or.inl hclean
      · exact Or.inr ⟨calls, last, [], rfl, hfailed⟩
    · rw [apply_of_poisoned encode serialize hfailed.poisoned]
      exact Or.inr ⟨past, call, rest ++ [last], by rw [hcalls, List.append_assoc]; rfl, hfailed⟩

variable {encode serialize}

theorem Clean.of_le {path : String} {calls : List Call}
    (h : (written encode serialize calls).length ≤ limit) :
    Clean encode serialize limit reason calls
      ((new path (BufWriter.File.new limit reason)).applyAll encode serialize calls) := by
  rcases clean_or_failed encode serialize path limit reason calls
    with hclean | ⟨past, call, rest, hcalls, hfailed⟩
  · exact hclean
  · have hshort := hfailed.short
    rw [hcalls, List.append_cons, written_append, List.length_append] at h
    omega

variable (encode serialize)

/-- The counter is of 64 bits and a file is shorter than `2 ^ 63` bytes: the counter is exact. -/
theorem bytesWritten_le (path : String) (limit : ℕ) (reason : ℕ → String) (calls : List Call) :
    ((new path (BufWriter.File.new limit reason)).applyAll encode serialize calls).bytesWritten ≤
      limit + bufferSize := by
  rcases clean_or_failed encode serialize path limit reason calls
    with hclean | ⟨past, call, rest, -, hfailed⟩
  · exact hclean.size.trans_le hclean.before
  · exact hfailed.size.trans_le hfailed.before

theorem level_le_bufferSize (calls : List Call) : level encode serialize calls ≤ bufferSize := by
  have hclean : Clean encode serialize (written encode serialize calls).length (fun _ => "") calls
      ((new "" (BufWriter.File.new _ fun _ => "")).applyAll encode serialize calls) :=
    Clean.of_le le_rfl
  exact hclean.inner.level_le

variable {encode serialize}

/-- A line for which there is no byte left fails at once where the buffer does not keep it. -/
theorem short_write_iff (hs : serialize (eventToJson encode event) = some serialized)
    (hlimit : limit = (written encode serialize past).length) :
    limit + level encode serialize (past ++ [.write event]) <
        (written encode serialize (past ++ [.write event])).length ↔
      bufferSize ≤ serialized.length ∨ 0 < serialized.length ∧
        level encode serialize past + serialized.length = bufferSize := by
  have hfill := BufWriter.fill_fill_one_lt_iff (n := serialized.length) (by decide)
    (level_le_bufferSize encode serialize past)
  rw [← hfill, level_concat, levelAfter, written_append, written_write encode serialize hs,
    List.length_append, hlimit, hs]
  simp [fillAll]

variable (encode serialize) in
theorem written_concat_flush (calls : List Call) :
    written encode serialize (calls ++ [.flush]) = written encode serialize calls := by
  rw [written_append]
  exact List.append_nil _

theorem Clean.content_eq {calls : List Call}
    (h : Clean encode serialize limit reason (calls ++ [.flush]) w) :
    w.inner.file.content = written encode serialize calls := by
  have hlevel := h.inner.level_eq
  have hcontent := h.inner.content
  rw [level_concat, levelAfter, List.length_eq_zero_iff] at hlevel
  rw [hlevel, List.append_nil, written_concat_flush] at hcontent
  exact hcontent

theorem Failed.length_eq (h : Failed encode serialize limit past call w) :
    w.inner.file.content.length = limit := by
  have hshort := h.short
  rw [h.content, List.length_take]
  omega

/-! ## What is reported -/

variable (encode serialize)

/-- The counter is the size of the file, the file has whole lines in write order, and the warning is
the first error. -/
structure Reported (calls : List Call) (errors : List String) (w : RawWriter) : Prop where
  size : w.bytesWritten = w.inner.file.content.length
  wholeLines : ∃ n, w.inner.file.content = ((lines encode serialize calls).take n).flatten
  warning : w.takeWarning.1 = errors.head?

variable {encode serialize} {errors : List String}

theorem Clean.reported {calls : List Call}
    (h : Clean encode serialize limit reason (calls ++ [.flush]) w)
    (herrors : w.errorText = errors.head?) : Reported encode serialize calls errors w where
  size := by rw [h.size, h.content_eq, written_concat_flush]
  wholeLines := ⟨(lines encode serialize calls).length, by
    rw [h.content_eq, List.take_length, written]⟩
  warning := herrors

/-- A file that is full at the end of a line, when the call after it fails. -/
theorem Failed.reported (h : Failed encode serialize limit past call w)
    (hlimit : limit = (written encode serialize past).length) (rest : List Call)
    (herrors : w.errorText = errors.head?) :
    Reported encode serialize (past ++ call :: rest) errors w := by
  have hcontent := h.content
  rw [written_append, List.take_left' hlimit.symm] at hcontent
  refine ⟨by rw [h.size, hcontent], ⟨(lines encode serialize past).length, ?_⟩, herrors⟩
  rw [hcontent, lines_append, List.take_left, written]

/-- After a failure the file is full, and the counter has stopped at the lines before. -/
theorem Failed.limit_eq (h : Failed encode serialize limit past call w) {calls : List Call}
    (hrep : Reported encode serialize calls errors w) :
    limit = (written encode serialize past).length := by
  rw [← h.size, hrep.size, h.length_eq]

/-- A call that fails is the last one to change anything. -/
theorem Failed.applyAll {path : String}
    (h : Failed encode serialize limit past call
      (((new path (BufWriter.File.new limit reason)).applyAll encode serialize past).apply encode
        serialize call)) (rest : List Call) :
    Failed encode serialize limit past call
      ((new path (BufWriter.File.new limit reason)).applyAll encode serialize
        (past ++ call :: rest)) := by
  rw [RawWriter.applyAll, List.foldl_append, List.foldl_cons, ← RawWriter.applyAll,
    ← RawWriter.applyAll, applyAll_of_poisoned encode serialize h.poisoned]
  exact h

variable (encode serialize)

/-- **Exactly when the reported size is that of the file,** after a last flush: the file takes every
line, or it is full at the end of a line and the next line did not stay in the buffer, because it
was too long for it or filled it to the end. -/
theorem reported_iff (path : String) (limit : ℕ) (reason : ℕ → String) (calls : List Call) :
    Reported encode serialize calls
      (Folds.outputs (apply encode serialize) (raised encode serialize)
        (new path (BufWriter.File.new limit reason)) (calls ++ [.flush]))
      ((new path (BufWriter.File.new limit reason)).applyAll encode serialize (calls ++ [.flush])) ↔
    (written encode serialize calls).length ≤ limit ∨
      ∃ past event rest serialized, calls = past ++ .write event :: rest ∧
        serialize (eventToJson encode event) = some serialized ∧
        limit = (written encode serialize past).length ∧
        (bufferSize ≤ serialized.length ∨ 0 < serialized.length ∧
          level encode serialize past + serialized.length = bufferSize) := by
  have herrors := errorText_applyAll encode serialize path (BufWriter.File.new limit reason)
  constructor
  · intro h
    rcases clean_or_failed encode serialize path limit reason (calls ++ [.flush])
      with hclean | ⟨past, call, rest, hcalls, hfailed⟩
    · left
      have hle := hclean.length_le
      rw [level_concat, levelAfter, written_concat_flush] at hle
      exact hle
    · right
      have hlimit := hfailed.limit_eq h
      have hshort := hfailed.short
      cases call with
      | write event =>
        rcases hs : serialize (eventToJson encode event) with _ | serialized
        · rw [written_append, written_write_of_none encode serialize hs, List.append_nil] at hshort
          omega
        · -- the last call is the flush, so that this one is among the calls before
          rcases List.eq_nil_or_concat rest with rfl | ⟨rest, last, rfl⟩
          · cases (List.append_inj' hcalls rfl).2
          · rw [List.concat_eq_append, ← List.cons_append, ← List.append_assoc] at hcalls
            exact ⟨past, event, rest, serialized, (List.append_inj' hcalls rfl).1, hs, hlimit,
              (short_write_iff hs hlimit).mp hshort⟩
      | flush =>
        rw [written_concat_flush] at hshort
        omega
  · rintro (hle | ⟨past, event, rest, serialized, rfl, hs, hlimit, hkept⟩)
    · rw [← written_concat_flush encode serialize calls] at hle
      have hclean : Clean encode serialize limit reason (calls ++ [.flush])
          ((new path (BufWriter.File.new limit reason)).applyAll encode serialize
            (calls ++ [.flush])) := Clean.of_le hle
      exact hclean.reported (herrors _)
    · have hclean : Clean encode serialize limit reason past
          ((new path (BufWriter.File.new limit reason)).applyAll encode serialize past) :=
        Clean.of_le hlimit.ge
      rcases hclean.after_call (.write event) with hclean' | hfailed
      · have hle := hclean'.length_le
        have hlt := (short_write_iff hs hlimit).mpr hkept
        omega
      · have hlast := hfailed.applyAll (rest ++ [.flush])
        rw [← List.cons_append, ← List.append_assoc] at hlast
        exact hlast.reported hlimit rest (herrors _)

end Runs

end Calls

/-- One slot event, and a device that is full: the event is counted and the file is empty. -/
theorem not_reported_full_device :
    let event : Event :=
      { ts := ⟨1000, 2⟩
        subscription := .main .one .processed .slots
        payload := .slot 100 .processed }
    let serialize : JsonValue → Option (List UInt8) := fun _ => some <|
      ("\x7b\"endpoint\":\"endpoint1\",\"kind\":\"slot\",\"mono_ns\":1000,\"slot\":100," ++
        "\"stage\":\"processed\",\"subscription\":\"main:processed\",\"wall_ms\":2\x7d"
          ).toList.map fun c => UInt8.ofNat c.toNat
    let w := new "/dev/full" (BufWriter.File.new 0 fun _ => "No space left on device (os error 28)")
    ¬Reported Base58.encode serialize [.write event]
      (Folds.outputs (apply Base58.encode serialize) (raised Base58.encode serialize) w
        [.write event, .flush])
      (w.applyAll Base58.encode serialize [.write event, .flush]) :=
  fun h => absurd h.size (by decide +kernel)

end RawWriter

end GrpcBench
