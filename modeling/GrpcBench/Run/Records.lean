import GrpcBench.Raw.Writer
import GrpcBench.Run.Ingest

/-!
# The raw records of a run

`run.rs`: the dispatchers hand every event to the raw-record writer, and `execute` flushes it at the
end.  `records_of_run` says what the file has then: the lines of all events, in the order in which
the writer got them, if the file takes them.  That is the order in which the dispatchers have had
the writer's lock; the matchers have locks of their own (`Dispatching`).
-/

namespace GrpcBench

/-- The writer is one of the sinks of the dispatchers. -/
def RawWriter.sink (encode : List UInt8 → String) (serialize : JsonValue → Option (List UInt8)) :
    RawSink where
  State := RawWriter
  write := RawWriter.write encode serialize

variable {B : Backend} {R : RawSink}

/-- The sink sees every event. -/
theorem IngestState.rawWriter_ingestAll (s : IngestState B R) (events : List Event) :
    (s.ingestAll events).shared.rawWriter =
      s.shared.rawWriter.map fun w => events.foldl R.write w := by
  induction events generalizing s with
  | nil => exact Option.map_id_fun'.symm ▸ rfl
  | cons event events ih =>
    rw [ingestAll, List.foldl_cons, ← ingestAll, ih]
    exact Option.map_map ..

/-- **The file of a run** whose lines fit has the line of every event, in the order of the raw
writes, and the reported size is its size. -/
theorem records_of_run (encode : List UInt8 → String)
    (serialize : JsonValue → Option (List UInt8))
    (s : IngestState B (RawWriter.sink encode serialize)) (path : String) (limit : ℕ)
    (reason : ℕ → String)
    (hs : s.shared.rawWriter = some (RawWriter.new path (BufWriter.File.new limit reason)))
    (events : List Event)
    (hfits : (RawWriter.written encode serialize (events.map .write)).length ≤ limit) :
    ∃ w : RawWriter, (s.ingestAll events).shared.rawWriter = some w ∧
      w.flush.inner.file.content = RawWriter.written encode serialize (events.map .write) ∧
      w.flush.bytesWritten = w.flush.inner.file.content.length := by
  let start := RawWriter.new path (BufWriter.File.new limit reason)
  have hrun : start.applyAll encode serialize (events.map .write ++ [.flush]) =
      (events.foldl (RawWriter.write encode serialize) start).flush := by
    rw [RawWriter.applyAll, List.foldl_append, List.foldl_map]
    rfl
  rw [← RawWriter.written_concat_flush] at hfits
  have hclean : RawWriter.Clean encode serialize limit reason (events.map .write ++ [.flush])
      (start.applyAll encode serialize (events.map .write ++ [.flush])) :=
    RawWriter.Clean.of_le hfits
  rw [hrun] at hclean
  refine ⟨_, by rw [s.rawWriter_ingestAll, hs]; rfl, hclean.content_eq, ?_⟩
  exact hclean.size.trans (by rw [hclean.content_eq, RawWriter.written_concat_flush])

end GrpcBench
