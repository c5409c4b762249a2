import GrpcBench.Raw.Text
import GrpcBench.Run.Dispatching

/-!
# Raw records against the run

What an endpoint's dispatcher keeps of a run is a function of the raw records.  Two runs that gave
no raw-record warning and whose files are equal, whatever their plans, rings and interleavings, have
equal stability and cross-stream trackers and counters, and equal matchers if their plans are of one
endpoint.  With two endpoints the file does not say in which order the matchers have observed the
events, since the writer has a lock of its own.

* `IngestState.ingest_congr`: a tracker does not see which filter an event came from.
* `Dispatching.trackers_eq_of_records_eq`: equal files, equal trackers.
* `Dispatching.matchers_ne_of_records_eq`: equal files, other matchers.
-/

namespace GrpcBench

namespace IngestState

variable {B : Backend} {R : RawSink}

/-- A tracker sees of an event its time, its endpoint, its commitment level and its payload. -/
theorem ingest_congr (s : IngestState B R) {event event' : Event} (hts : event.ts = event'.ts)
    (hendpoint : event.endpoint = event'.endpoint)
    (hcommitment : event.subscription.commitment = event'.subscription.commitment)
    (hpayload : event.payload = event'.payload) :
    s.withoutWriter.ingest event = s.withoutWriter.ingest event' := by
  obtain ⟨ts, role, payload⟩ := event
  obtain ⟨ts', role', payload'⟩ := event'
  dsimp only at hts hpayload hcommitment
  subst hts hpayload
  cases role with
  | main endpoint commitment stream =>
    cases role' with
    | main endpoint' commitment' stream' =>
      cases hendpoint
      cases hcommitment
      rfl
    | entries endpoint' => cases hcommitment
  | entries endpoint =>
    cases role' with
    | main endpoint' commitment' stream' => cases hcommitment
    | entries endpoint' =>
      cases hendpoint
      rfl

end IngestState

/-! ## The file -/

namespace RawWriter

section Calls

variable (encode : List UInt8 → String) (serialize : JsonValue → Option (List UInt8))

/-- There is a warning exactly after an error. -/
theorem isSome_errorText_apply {w : RawWriter} (h : w.errorText.isSome = w.poisoned) (call : Call) :
    (w.apply encode serialize call).errorText.isSome =
      (w.apply encode serialize call).poisoned := by
  rcases hp : w.poisoned with _ | _
  · cases call with
    | write event =>
      rcases hs : serialize (eventToJson encode event) with _ | serialized
      · rw [apply, write_of_none encode serialize hs]
        exact h
      · rcases hr : (w.inner.writePieces [serialized, [10]]).2 with e | ⟨⟩
        · rw [apply, write_of_error encode serialize hp hs hr]
          rfl
        · rw [apply, write_of_ok encode serialize hp hs hr]
          exact h
    | flush =>
      rcases hr : w.inner.flushBuf.2 with e | ⟨⟩
      · rw [apply, flush_of_error hp hr]
        rfl
      · rw [apply, flush_of_ok hp hr]
        exact h
  · rw [apply_of_poisoned encode serialize hp]
    exact h

theorem isSome_errorText_applyAll (path : String) (file : BufWriter.File UInt8 String)
    (calls : List Call) :
    ((new path file).applyAll encode serialize calls).errorText.isSome =
      ((new path file).applyAll encode serialize calls).poisoned :=
  Folds.foldl_invariant (P := fun w : RawWriter => w.errorText.isSome = w.poisoned)
    (fun _ call _ h => isSome_errorText_apply encode serialize h call) rfl

end Calls

variable {encode : List UInt8 → String} {serialize : JsonValue → Option (List UInt8)}

/-- A file that takes all lines gives no warning. -/
theorem no_warning_of_le {path : String} {limit : ℕ} {reason : ℕ → String} {events : List Event}
    (h : (written encode serialize (events.map .write)).length ≤ limit) :
    (events.foldl (write encode serialize)
      (new path (BufWriter.File.new limit reason))).flush.takeWarning.1 = none := by
  rw [← written_concat_flush] at h
  have hclean : Clean encode serialize limit reason (events.map .write ++ [.flush])
      ((new path (BufWriter.File.new limit reason)).applyAll encode serialize
        (events.map .write ++ [.flush])) := Clean.of_le h
  have hnone := isSome_errorText_applyAll encode serialize path
    (BufWriter.File.new limit reason) (events.map .write ++ [.flush])
  rw [hclean.poisoned, Option.isSome_eq_false_iff, Option.isNone_iff_eq_none, applyAll,
    List.foldl_append, List.foldl_map] at hnone
  exact hnone

/-- A run without a warning has all of its lines in the file. -/
theorem content_of_no_warning {path : String} {limit : ℕ} {reason : ℕ → String}
    {events : List Event}
    (h : (events.foldl (write encode serialize)
      (new path (BufWriter.File.new limit reason))).flush.takeWarning.1 = none) :
    (events.foldl (write encode serialize)
        (new path (BufWriter.File.new limit reason))).flush.inner.file.content =
      written encode serialize (events.map .write) := by
  have hrun : (new path (BufWriter.File.new limit reason)).applyAll encode serialize
      (events.map .write ++ [.flush]) = (events.foldl (write encode serialize)
        (new path (BufWriter.File.new limit reason))).flush := by
    rw [applyAll, List.foldl_append, List.foldl_map]
    rfl
  have hpoisoned := isSome_errorText_applyAll encode serialize path
    (BufWriter.File.new limit reason) (events.map .write ++ [.flush])
  have hnone : ((new path (BufWriter.File.new limit reason)).applyAll encode serialize
      (events.map .write ++ [.flush])).errorText = none := by
    rw [hrun]
    exact h
  rw [hnone] at hpoisoned
  rw [← hrun]
  rcases clean_or_failed encode serialize path limit reason
    (events.map .write ++ [.flush]) with hclean | ⟨past, call, rest, -, hfailed⟩
  · exact hclean.content_eq
  · rw [hfailed.poisoned] at hpoisoned
    cases hpoisoned

/-- Lines that are equal as bytes are those of equal objects. -/
theorem map_eventToJson_eq_of_written_eq
    (hserialize : ∀ v, ∃ bytes, serialize v = some bytes ∧ 10 ∉ bytes)
    (hinj : Function.Injective serialize) {events events' : List Event}
    (h : written encode serialize (events.map .write) =
      written encode serialize (events'.map .write)) :
    events.map (eventToJson encode) = events'.map (eventToJson encode) := by
  choose text htext hline using hserialize
  have hlines : ∀ events : List Event, written encode serialize (events.map .write) =
      (events.map (eventToJson encode)).flatMap fun v => text v ++ [10] := by
    intro events
    rw [written, lines, List.filterMap_map, List.flatMap_map, List.flatMap, ← List.filterMap_eq_map]
    refine congrArg List.flatten (List.filterMap_congr fun event _ => ?_)
    show (serialize (eventToJson encode event)).map _ = _
    rw [htext]
    rfl
  rw [hlines, hlines] at h
  refine Codes.lines_injective (fun v v' heq => hinj ?_) hline h
  rw [htext, htext, heq]

end RawWriter

/-! ## Two runs -/

section Runs

variable {B : Backend} {encode : List UInt8 → String} {serialize : JsonValue → Option (List UInt8)}

/-- Events with equal objects are the same for the trackers. -/
theorem IngestState.ingest_eq_of_eventToJson_eq
    (hencode : ∀ a b : List UInt8, a.length = b.length → encode a = encode b → a = b)
    {R : RawSink} (s : IngestState B R) {event event' : Event}
    (h : eventToJson encode event = eventToJson encode event') :
    s.withoutWriter.ingest event = s.withoutWriter.ingest event' := by
  have hfields := eventFields_eq_of_eventToJson_eq encode h
  have hkind : event.payload.kind = event'.payload.kind :=
    kind_eq_of_lookup_eq encode (by rw [hfields])
  obtain ⟨hcommon, hpayload⟩ := List.append_inj hfields rfl
  obtain ⟨hmono, hwall, hendpoint, hcommitment⟩ := (commonFields_eq_iff event event').mp hcommon
  refine s.ingest_congr ?_ hendpoint hcommitment
    ((payloadFields_inj encode hencode hkind).mp hpayload)
  obtain ⟨⟨mono, wall⟩, role, payload⟩ := event
  obtain ⟨⟨mono', wall'⟩, role', payload'⟩ := event'
  dsimp only at hmono hwall
  rw [hmono, hwall]

theorem IngestState.ingestAll_eq_of_map_eventToJson_eq
    (hencode : ∀ a b : List UInt8, a.length = b.length → encode a = encode b → a = b)
    {R : RawSink} (s : IngestState B R) {events events' : List Event}
    (h : events.map (eventToJson encode) = events'.map (eventToJson encode)) :
    s.withoutWriter.ingestAll events = s.withoutWriter.ingestAll events' := by
  induction events generalizing s events' with
  | nil => rw [List.map_eq_nil_iff.mp h.symm]
  | cons event events ih =>
    cases events' with
    | nil => cases h
    | cons event' events' =>
      obtain ⟨hhead, htail⟩ := List.cons.inj h
      have hnext := s.ingest_eq_of_eventToJson_eq hencode hhead
      have hrest := ih (s.ingest event) htail
      rw [withoutWriter_ingest] at hrest
      show (s.withoutWriter.ingest event).ingestAll events =
        (s.withoutWriter.ingest event').ingestAll events'
      rw [hrest, hnext]

/-- Events with equal objects have equal objects endpoint by endpoint. -/
theorem map_eventToJson_ownEvents {events events' : List Event}
    (h : events.map (eventToJson encode) = events'.map (eventToJson encode)) (e : EndpointRole) :
    (ownEvents e events).map (eventToJson encode) =
      (ownEvents e events').map (eventToJson encode) := by
  induction events generalizing events' with
  | nil => rw [List.map_eq_nil_iff.mp h.symm]
  | cons event events ih =>
    cases events' with
    | nil => cases h
    | cons event' events' =>
      obtain ⟨hhead, htail⟩ := List.cons.inj h
      have hfields := eventFields_eq_of_eventToJson_eq encode hhead
      have hendpoint : event.endpoint = event'.endpoint :=
        ((commonFields_eq_iff event event').mp (List.append_inj hfields rfl).1).2.2.1
      have hrest := ih htail
      rw [ownEvents, ownEvents] at hrest ⊢
      by_cases he : event.endpoint = e
      · rw [List.filter_cons_of_pos (by simpa using he),
          List.filter_cons_of_pos (by simpa [← hendpoint] using he), List.map_cons, List.map_cons,
          hhead, hrest]
      · rw [List.filter_cons_of_neg (by simpa using he),
          List.filter_cons_of_neg (by simpa [← hendpoint] using he), hrest]

/-- The events of a run whose raw records gave no warning: what the matchers and trackers have seen,
and what the file has. -/
theorem Dispatching.exists_events {names : Finmap fun _ : Pubkey32 => String} {strict : Bool}
    {path : String} {limit : ℕ} {reason : ℕ → String} {roles : List SubscriptionRole}
    {capacity : Fin roles.length → { c : ℕ // 0 < c }} {actions : List (Action roles.length)}
    {d : Dispatching B (RawWriter.sink encode serialize) roles}
    (h : (spawn (IngestState.start B names strict
      (some (RawWriter.new path (BufWriter.File.new limit reason)))) capacity).run actions = some d)
    (hidle : ∀ e, d.underWay e = none) {w : RawWriter}
    (hw : d.pipeline.ingest.shared.rawWriter = some w) (hwarning : w.flush.takeWarning.1 = none) :
    ∃ observed written, d.pipeline.ingest.withoutWriter =
        (IngestState.start B names strict none : IngestState B (RawWriter.sink encode serialize)
          ).withoutWriter.ingestAll observed ∧
      w.flush.inner.file.content = RawWriter.written encode serialize (written.map .write) ∧
      (∀ e, ownEvents e observed = ownEvents e written) ∧
      ∀ event ∈ written, ∃ i, event.subscription = roles.get i := by
  obtain ⟨observed, written, hingest, hwriter, hown, hroles⟩ := idle_run h hidle
  refine ⟨observed, written, hingest, ?_, hown, hroles⟩
  rw [hwriter] at hw
  cases hw
  exact RawWriter.content_of_no_warning hwarning

/-- A list with the events of one endpoint only. -/
theorem ownEvents_eq_self {e : EndpointRole} {events : List Event}
    (h : ∀ f, f ≠ e → ownEvents f events = []) : ownEvents e events = events := by
  refine List.filter_eq_self.mpr fun event hevent => decide_eq_true ?_
  by_contra hne
  have hmem : event ∈ ownEvents event.endpoint events :=
    List.mem_filter.mpr ⟨hevent, decide_eq_true rfl⟩
  rw [h _ hne] at hmem
  cases hmem

/-- **Equal files, equal trackers.**  The raw records of two runs gave no warning, no dispatch is
under way, and the files are equal.  Then the two runs have the same stability and cross-stream
trackers and counters of each endpoint and have counted as many slots, whatever their plans, their
rings and the order of their steps.  Their matchers have observed equal events of each endpoint in
the same order, and are equal if all subscriptions of one of the plans are of one endpoint. -/
theorem Dispatching.trackers_eq_of_records_eq
    (hencode : ∀ a b : List UInt8, a.length = b.length → encode a = encode b → a = b)
    (hserialize : ∀ v, ∃ bytes, serialize v = some bytes ∧ 10 ∉ bytes)
    (hinj : Function.Injective serialize)
    {names : Finmap fun _ : Pubkey32 => String} {strict : Bool}
    {path path' : String} {limit limit' : ℕ} {reason reason' : ℕ → String}
    {roles roles' : List SubscriptionRole}
    {capacity : Fin roles.length → { c : ℕ // 0 < c }}
    {capacity' : Fin roles'.length → { c : ℕ // 0 < c }}
    {actions : List (Action roles.length)} {actions' : List (Action roles'.length)}
    {d : Dispatching B (RawWriter.sink encode serialize) roles}
    {d' : Dispatching B (RawWriter.sink encode serialize) roles'}
    (h : (spawn (IngestState.start B names strict
      (some (RawWriter.new path (BufWriter.File.new limit reason)))) capacity).run actions = some d)
    (h' : (spawn (IngestState.start B names strict
      (some (RawWriter.new path' (BufWriter.File.new limit' reason')))) capacity').run actions' =
        some d')
    (hidle : ∀ e, d.underWay e = none) (hidle' : ∀ e, d'.underWay e = none)
    {w w' : RawWriter} (hw : d.pipeline.ingest.shared.rawWriter = some w)
    (hw' : d'.pipeline.ingest.shared.rawWriter = some w') (hwarning : w.flush.takeWarning.1 = none)
    (hwarning' : w'.flush.takeWarning.1 = none)
    (hcontent : w.flush.inner.file.content = w'.flush.inner.file.content) :
    d.pipeline.ingest.dispatchers = d'.pipeline.ingest.dispatchers ∧
      d.pipeline.ingest.shared.totalSlots = d'.pipeline.ingest.shared.totalSlots ∧
      (∃ observed observed' : List Event,
        d.pipeline.ingest.shared.matchers =
          dispatchAll (StreamMatchers.start B names strict) observed ∧
        d'.pipeline.ingest.shared.matchers =
          dispatchAll (StreamMatchers.start B names strict) observed' ∧
        ∀ e, (ownEvents e observed).map (eventToJson encode) =
          (ownEvents e observed').map (eventToJson encode)) ∧
      ∀ e, (∀ i, (roles.get i).endpoint = e) →
        d.pipeline.ingest.shared.matchers = d'.pipeline.ingest.shared.matchers := by
  obtain ⟨observed, written, hingest, hfile, hown, hroles⟩ := exists_events h hidle hw hwarning
  obtain ⟨observed', written', hingest', hfile', hown', -⟩ :=
    exists_events h' hidle' hw' hwarning'
  let start : IngestState B (RawWriter.sink encode serialize) :=
    (IngestState.start B names strict none).withoutWriter
  have hobjects : written.map (eventToJson encode) = written'.map (eventToJson encode) :=
    RawWriter.map_eventToJson_eq_of_written_eq hserialize hinj (by rw [← hfile, hcontent, hfile'])
  have hparts : ∀ e, (ownEvents e observed).map (eventToJson encode) =
      (ownEvents e observed').map (eventToJson encode) := by
    intro e
    rw [hown e, hown' e]
    exact map_eventToJson_ownEvents hobjects e
  have hreplay : ∀ e, start.ingestAll (ownEvents e observed) =
      start.ingestAll (ownEvents e observed') := fun e =>
    IngestState.ingestAll_eq_of_map_eventToJson_eq hencode _ (hparts e)
  have hmatchers : ∀ events, (start.ingestAll events).shared.matchers =
      dispatchAll (StreamMatchers.start B names strict) events := fun events =>
    (Ledger.ingestAll start events).matchers
  have hseen : d.pipeline.ingest.shared.matchers =
      dispatchAll (StreamMatchers.start B names strict) observed :=
    (congrArg (fun s => s.shared.matchers) hingest).trans (hmatchers observed)
  have hseen' : d'.pipeline.ingest.shared.matchers =
      dispatchAll (StreamMatchers.start B names strict) observed' :=
    (congrArg (fun s => s.shared.matchers) hingest').trans (hmatchers observed')
  refine ⟨?_, ?_, ⟨observed, observed', hseen, hseen', hparts⟩, fun e he => ?_⟩
  · funext e
    have hleft : d.pipeline.ingest.dispatchers e = (start.ingestAll observed).dispatchers e :=
      congrArg (fun s => s.dispatchers e) hingest
    have hright : d'.pipeline.ingest.dispatchers e = (start.ingestAll observed').dispatchers e :=
      congrArg (fun s => s.dispatchers e) hingest'
    rw [hleft, hright, ← (start.ingestAll_ownEvents e observed).1,
      ← (start.ingestAll_ownEvents e observed').1, hreplay e]
  · have hleft : d.pipeline.ingest.shared.totalSlots =
        (start.ingestAll observed).shared.totalSlots :=
      congrArg (fun s => s.shared.totalSlots) hingest
    have hright : d'.pipeline.ingest.shared.totalSlots =
        (start.ingestAll observed').shared.totalSlots :=
      congrArg (fun s => s.shared.totalSlots) hingest'
    rw [hleft, hright, ← (start.ingestAll_ownEvents .one observed).2,
      ← (start.ingestAll_ownEvents .one observed').2, hreplay .one]
  · -- there is one endpoint, and its events are all
    have hnone : ∀ f, f ≠ e → ownEvents f observed = [] := by
      intro f hf
      rw [hown f]
      refine List.filter_eq_nil_iff.mpr fun event hevent heq => hf ?_
      obtain ⟨i, hi⟩ := hroles event hevent
      rw [← of_decide_eq_true heq, Event.endpoint, hi, he i]
    have hnone' : ∀ f, f ≠ e → ownEvents f observed' = [] := by
      intro f hf
      have hmap := hparts f
      rw [hnone f hf, List.map_nil] at hmap
      exact List.map_eq_nil_iff.mp hmap.symm
    have hall := hreplay e
    rw [ownEvents_eq_self hnone, ownEvents_eq_self hnone'] at hall
    rw [hseen, hseen', ← hmatchers, ← hmatchers, hall]

end Runs

/-- The same slot event, delivered by a filter for slots alone and by one next to an entry filter:
the lines are equal, and so are the trackers and, the one plan being of one endpoint, the
matchers. -/
theorem Dispatching.trackers_eq_of_records_eq_two_plans :
    let R : RawSink := RawWriter.sink Base58.encode JsonValue.toBytes
    let event : MainStream → Event := fun stream =>
      ⟨⟨7, 1⟩, .main .one .processed stream, .slot 5 .processed⟩
    let limit := (RawWriter.written Base58.encode JsonValue.toBytes [.write (event .slots)]).length
    let ingest : IngestState Backend.exact R := IngestState.start Backend.exact ∅ false
      (some (RawWriter.new "records" (BufWriter.File.new limit fun _ => "full")))
    let roles : List SubscriptionRole := [.main .one .processed .slots]
    let roles' : List SubscriptionRole := [.entries .two, .main .one .processed .transactions]
    let deliver : ∀ {n}, Fin n → List (Action n) := fun i =>
      [.receiver i .loadShutdown, .receiver i (.connect (.ok ())),
        .receiver i (.openSubscription (.ok ())), .receiver i .loadShutdown,
        .receiver i (.next (.event ⟨7, 1⟩ (.slot 5 .processed)))] ++
        List.replicate 5 (.dispatcher .one false)
    ∃ (d : Dispatching Backend.exact R roles) (d' : Dispatching Backend.exact R roles'),
      (spawn ingest fun _ => ⟨1, Nat.zero_lt_one⟩).run (deliver ⟨0, by decide⟩) = some d ∧
      (spawn ingest fun _ => ⟨1, Nat.zero_lt_one⟩).run (deliver ⟨1, by decide⟩) = some d' ∧
      d.pipeline.ingest.shared.totalSlots = 1 ∧
      d.pipeline.ingest.dispatchers = d'.pipeline.ingest.dispatchers ∧
      d.pipeline.ingest.shared.matchers = d'.pipeline.ingest.shared.matchers := by
  intro R event limit ingest roles roles' deliver
  let writer : MainStream → RawWriter := fun stream => [event stream].foldl
    (RawWriter.write Base58.encode JsonValue.toBytes)
    (RawWriter.new "records" (BufWriter.File.new limit fun _ => "full"))
  have hrun : ((spawn ingest fun _ => ⟨1, Nat.zero_lt_one⟩ :
      Dispatching Backend.exact R roles).run (deliver ⟨0, by decide⟩)).map (fun d =>
        (d.pipeline.ingest.shared.totalSlots, d.pipeline.ingest.shared.rawWriter,
          d.underWay .one, d.underWay .two)) =
      some (1, some (writer .slots), none, none) := rfl
  have hrun' : ((spawn ingest fun _ => ⟨1, Nat.zero_lt_one⟩ :
      Dispatching Backend.exact R roles').run (deliver ⟨1, by decide⟩)).map (fun d =>
        (d.pipeline.ingest.shared.rawWriter, d.underWay .one, d.underWay .two)) =
      some (some (writer .transactions), none, none) := rfl
  obtain ⟨d, hd, hval⟩ := Option.map_eq_some_iff.mp hrun
  obtain ⟨d', hd', hval'⟩ := Option.map_eq_some_iff.mp hrun'
  obtain ⟨hslots, hrest⟩ := Prod.ext_iff.mp hval
  obtain ⟨hw, hways⟩ := Prod.ext_iff.mp hrest
  obtain ⟨hw', hways'⟩ := Prod.ext_iff.mp hval'
  have hidle : ∀ e, d.underWay e = none := by
    rintro (_ | _)
    · exact congrArg Prod.fst hways
    · exact congrArg Prod.snd hways
  have hidle' : ∀ e, d'.underWay e = none := by
    rintro (_ | _)
    · exact congrArg Prod.fst hways'
    · exact congrArg Prod.snd hways'
  have hwarning : ∀ stream, (writer stream).flush.takeWarning.1 = none := fun stream =>
    RawWriter.no_warning_of_le (le_refl limit)
  have hequal := trackers_eq_of_records_eq (fun _ _ => Base58.encode_injective)
    (fun v => ⟨_, rfl, JsonValue.lineFeed_notMem_toBytes rfl⟩)
    (fun _ _ => JsonValue.toBytes_injective) hd hd' hidle hidle' hw hw' (hwarning _) (hwarning _)
    ((RawWriter.content_of_no_warning (hwarning _)).trans
      (RawWriter.content_of_no_warning (hwarning _)).symm)
  refine ⟨d, d', hd, hd', hslots, hequal.1, hequal.2.2.2 .one fun i => ?_⟩
  obtain rfl : i = ⟨0, by decide⟩ := Fin.ext (Nat.lt_one_iff.mp i.2)
  rfl

/-- Endpoint 1 delivers a transaction twice and endpoint 2 once.  In one run the matchers observe
the delivery of endpoint 2 last, in the other before the second one of endpoint 1; the writer gets
it last in both.  A writer that keeps what it is given ends with the same records, and the matchers
are not equal. -/
theorem Dispatching.matchers_ne_of_records_eq :
    let R : RawSink := ⟨List Event, fun records event => records ++ [event]⟩
    let ingest : IngestState Backend.exact R := IngestState.start Backend.exact ∅ false (some [])
    let roles : List SubscriptionRole :=
      [.main .one .processed .transactions, .main .two .processed .transactions]
    let key : TxKey := (5, Vector.replicate 64 0)
    let connect : Fin roles.length → List (Action roles.length) := fun i =>
      [.receiver i .loadShutdown, .receiver i (.connect (.ok ())),
        .receiver i (.openSubscription (.ok ()))]
    let deliver : Fin roles.length → UInt64 → List (Action roles.length) := fun i ns =>
      [.receiver i .loadShutdown,
        .receiver i (.next (.event ⟨ns, 0⟩ (.transaction key.1 key.2 0)))]
    let first : List (Action roles.length) := connect ⟨0, by decide⟩ ++ connect ⟨1, by decide⟩ ++
      deliver ⟨0, by decide⟩ 1 ++ List.replicate 5 (.dispatcher .one false) ++
      deliver ⟨0, by decide⟩ 2 ++ deliver ⟨1, by decide⟩ 3
    let second := List.replicate 5 (.dispatcher .one false)
    let third : List (Action roles.length) := [.dispatcher .two false, .dispatcher .two false]
    let last := List.replicate 3 (.dispatcher .two false)
    ∃ d d' : Dispatching Backend.exact R roles,
      (spawn ingest fun _ => ⟨1, Nat.zero_lt_one⟩).run (first ++ second ++ third ++ last) = some d ∧
      (spawn ingest fun _ => ⟨1, Nat.zero_lt_one⟩).run (first ++ third ++ second ++ last) =
        some d' ∧
      (∀ e, d.underWay e = none ∧ d'.underWay e = none) ∧
      d.pipeline.ingest.shared.rawWriter = d'.pipeline.ingest.shared.rawWriter ∧
      d.pipeline.ingest.shared.matchers ≠ d'.pipeline.ingest.shared.matchers := by
  intro R ingest roles key connect deliver first second third last
  let event : EndpointRole → UInt64 → Event := fun e ns =>
    ⟨⟨ns, 0⟩, .main e .processed .transactions, .transaction key.1 key.2 0⟩
  let written : Option (List Event) := some [event .one 1, event .one 2, event .two 3]
  have hrun : ((spawn ingest fun _ => ⟨1, Nat.zero_lt_one⟩ :
      Dispatching Backend.exact R roles).run (first ++ second ++ third ++ last)).map (fun d =>
        (d.underWay .one, d.underWay .two, d.pipeline.ingest.shared.rawWriter,
          (d.pipeline.ingest.shared.matchers.transactions.inner.pending .one).size)) =
      some (none, none, written, 0) := by decide +kernel
  have hrun' : ((spawn ingest fun _ => ⟨1, Nat.zero_lt_one⟩ :
      Dispatching Backend.exact R roles).run (first ++ third ++ second ++ last)).map (fun d =>
        (d.underWay .one, d.underWay .two, d.pipeline.ingest.shared.rawWriter,
          (d.pipeline.ingest.shared.matchers.transactions.inner.pending .one).size)) =
      some (none, none, written, 1) := by decide +kernel
  obtain ⟨d, hd, hval⟩ := Option.map_eq_some_iff.mp hrun
  obtain ⟨d', hd', hval'⟩ := Option.map_eq_some_iff.mp hrun'
  simp only [Prod.mk.injEq] at hval hval'
  obtain ⟨hone, htwo, hw, hsize⟩ := hval
  obtain ⟨hone', htwo', hw', hsize'⟩ := hval'
  refine ⟨d, d', hd, hd', fun e => ?_, hw.trans hw'.symm, fun heq => ?_⟩
  · cases e
    · exact ⟨hone, hone'⟩
    · exact ⟨htwo, htwo'⟩
  · rw [heq, hsize'] at hsize
    cases hsize

end GrpcBench
