import GrpcBench.Collect.Decode
import GrpcBench.Run.Dispatched

/-!
# From the frames of a stream to the trackers

A receiver decodes the frames of its stream and sends what they carry; a malformed frame is counted,
and any other is skipped.  So every frame of a run is accounted for: it was taken by the dispatcher,
is in the ring, was dropped, was malformed, or was of no interest.  And what the trackers have seen
is what frames carried, ring by ring in the order of their arrival.

* `WireAction`: the steps of the threads, with the frames as they arrive.
* `Reads`: what a list of frames comes to.  It does not speak of the decoder.
* `Traffic.reads_run`: what a receiver sends and counts is what its frames come to.
* `Pipeline.frames_accounted`: the account of the frames of a run.
-/

namespace GrpcBench

/-! ## Frames and steps -/

/-- What a frame is for the receiver. -/
def StreamItem.ofFrame (lib : FrameLibrary) (role : SubscriptionRole) (timed : TimedUpdate) :
    StreamItem :=
  match decode lib timed role with
  | .ok (some ⟨ts, _, payload⟩) => .event ts payload
  | .ok none => .control
  | .error _ => .decodeError

/-- The items that stand for a frame. -/
def StreamItem.isFrame : StreamItem → Bool
  | .event .. => true
  | .control => true
  | .decodeError => true
  | _ => false

/-- The item of a subscription that a step meets. -/
def Action.itemOn {n : ℕ} (i : Fin n) : Action n → Option StreamItem
  | .receiver j (.next item) => if j = i then some item else none
  | _ => none

/-- A step of a thread: the arrival of a frame, or a step that meets none. -/
inductive WireAction (n : ℕ) where
  | frame (i : Fin n) (timed : TimedUpdate)
  | other (action : Action n)
      (h : ∀ i item, action.itemOn i = some item → item.isFrame = false)

namespace WireAction

/-- The step, once the frame is decoded. -/
def toAction (lib : FrameLibrary) (roles : List SubscriptionRole) :
    WireAction roles.length → Action roles.length
  | .frame i timed => .receiver i (.next (StreamItem.ofFrame lib (roles.get i) timed))
  | .other action _ => action

/-- The frame that arrives on a subscription. -/
def frameOn {n : ℕ} (i : Fin n) : WireAction n → Option TimedUpdate
  | .frame j timed => if j = i then some timed else none
  | .other .. => none

end WireAction

/-- The frames of a subscription, as they arrive. -/
def framesOn {n : ℕ} (i : Fin n) (wires : List (WireAction n)) : List TimedUpdate :=
  wires.filterMap (WireAction.frameOn i)

/-! ## What frames come to -/

section Reads

variable (lib : FrameLibrary) (encode : List UInt8 → String) (role : SubscriptionRole)

/-- What the frames of a subscription come to: the events they carry, in order, and the numbers of
malformed frames and of frames of no interest. -/
inductive Reads : List TimedUpdate → List Event → ℕ → ℕ → Prop
  | start : Reads [] [] 0 0
  | event {frames events malformed skipped} (ts u p)
      (h : Reads frames events malformed skipped) (hp : Carries lib encode u p) :
    Reads (frames ++ [⟨ts, some u⟩]) (events ++ [⟨ts, role, p⟩]) malformed skipped
  | malformed {frames events malformed skipped} (ts u e)
      (h : Reads frames events malformed skipped) (he : Defect lib encode u e) :
    Reads (frames ++ [⟨ts, some u⟩]) events (malformed + 1) skipped
  | skipped {frames events malformed skipped} (timed : TimedUpdate)
      (h : Reads frames events malformed skipped)
      (hcontrol : timed.updateOneof.all UpdateOneof.isControl = true) :
    Reads (frames ++ [timed]) events malformed (skipped + 1)

variable {lib encode role} {frames : List TimedUpdate} {events : List Event}
  {malformed skipped : ℕ}

/-- Each frame is read as one thing. -/
theorem Reads.length_eq (h : Reads lib encode role frames events malformed skipped) :
    frames.length = events.length + malformed + skipped := by
  induction h with
  | start => rfl
  | event ts u p h hp ih =>
    rw [List.length_append, List.length_append, ih, List.length_singleton, List.length_singleton]
    omega
  | malformed ts u e h he ih =>
    rw [List.length_append, ih, List.length_singleton]
    omega
  | skipped timed h hcontrol ih =>
    rw [List.length_append, ih, List.length_singleton]
    omega

/-- What one item makes of a reading: the event it sends, and whether it is counted. -/
theorem Reads.snoc (hdecode : ∀ text bytes, lib.bs58Decode text = .ok bytes ↔ encode bytes = text)
    (h : Reads lib encode role frames events malformed skipped) (timed : TimedUpdate) :
    (∃ ts p, StreamItem.ofFrame lib role timed = .event ts p ∧
      Reads lib encode role (frames ++ [timed]) (events ++ [⟨ts, role, p⟩]) malformed skipped) ∨
    (StreamItem.ofFrame lib role timed = .decodeError ∧
      Reads lib encode role (frames ++ [timed]) events (malformed + 1) skipped) ∨
    StreamItem.ofFrame lib role timed = .control ∧
      Reads lib encode role (frames ++ [timed]) events malformed (skipped + 1) := by
  obtain ⟨hsome, hnone, herror⟩ := decode_exact hdecode timed role
  obtain ⟨ts, update⟩ := timed
  rcases hd : decode lib ⟨ts, update⟩ role with e | _ | event
  · obtain ⟨u, hu, he⟩ := (herror e).mp hd
    dsimp only at hu
    subst hu
    refine Or.inr (Or.inl ⟨?_, .malformed ts u e h he⟩)
    rw [StreamItem.ofFrame, hd]
  · refine Or.inr (Or.inr ⟨?_, .skipped _ h (hnone.mp hd)⟩)
    rw [StreamItem.ofFrame, hd]
  · obtain ⟨u, p, hu, hp, rfl⟩ := (hsome event).mp hd
    dsimp only at hu
    subst hu
    refine Or.inl ⟨ts, p, ?_, .event ts u p h hp⟩
    rw [StreamItem.ofFrame, hd]

end Reads

/-! ## One step -/

namespace Pipeline

variable {B : Backend} {R : RawSink} {roles : List SubscriptionRole} {s s' : Pipeline B R roles}

/-- What a step sends into a ring is the event it meets on its stream. -/
theorem offeredOn_mark (s : Pipeline B R roles) (action : Action roles.length)
    (i : Fin roles.length) :
    offeredOn i (s.mark (.thread action)).toList =
      match action.itemOn i with
      | some (.event ts payload) => [⟨ts, roles.get i, payload⟩]
      | _ => [] := by
  cases action with
  | receiver j input =>
    by_cases hinput : ∃ ts payload, input = .next (.event ts payload)
    · obtain ⟨ts, payload, rfl⟩ := hinput
      by_cases hj : j = i
      · subst hj
        simp [offeredOn, mark, Action.itemOn]
      · simp [offeredOn, mark, Action.itemOn, hj]
    · rw [mark_receiver fun ts payload heq => hinput ⟨ts, payload, heq⟩]
      cases input with
      | next item =>
        by_cases hj : j = i
        · cases item with
          | event ts payload => exact absurd ⟨ts, payload, rfl⟩ hinput
          | _ => simp [offeredOn, Action.itemOn, hj]
        · simp [offeredOn, Action.itemOn, hj]
      | _ => rfl
  | dispatcher e budgetSpent =>
    rw [mark]
    cases s.polling e <;> rfl
  | requestShutdown => rfl

/-- A decode error is counted where it is met. -/
theorem decodeErrors_onItem (role : SubscriptionRole) (sub : Subscription) (item : StreamItem) :
    (sub.onItem role item).ring.stats.decodeErrors =
      sub.ring.stats.decodeErrors + if item = .decodeError then 1 else 0 := by
  cases item with
  | event ts payload =>
    rcases sub.ring.trySend_cases ⟨ts, role, payload⟩ with ⟨-, -, -, -, hstats⟩ |
      ⟨-, -, -, -, hstats⟩ | ⟨-, heq⟩
    · exact congrArg ReceiverStats.decodeErrors hstats
    · exact (congrArg ReceiverStats.decodeErrors hstats).trans rfl
    · exact congrArg (fun r => r.2.stats.decodeErrors) heq
  | _ => rfl

theorem decodeErrors_step {action : Action roles.length} (h : s.step action = some s')
    (i : Fin roles.length) :
    (s'.subs i).ring.stats.decodeErrors = (s.subs i).ring.stats.decodeErrors +
      if action.itemOn i = some .decodeError then 1 else 0 := by
  cases action with
  | receiver j input =>
    obtain ⟨sub, hsub, rfl⟩ := Option.map_eq_some_iff.mp h
    by_cases hj : j = i
    · subst hj
      show (Function.update s.subs j sub j).ring.stats.decodeErrors = _
      rw [Function.update_self]
      have hcases := Subscription.step_cases hsub
      rcases input with _ | (text | ⟨⟨⟩⟩) | (text | ⟨⟨⟩⟩) | item | _
      · rcases hcases with ⟨-, rfl⟩ | ⟨-, rfl⟩ <;> rfl
      · obtain ⟨-, rfl⟩ := hcases
        rfl
      · obtain ⟨-, rfl⟩ := hcases
        rfl
      · obtain ⟨-, rfl⟩ := hcases
        rfl
      · obtain ⟨-, rfl⟩ := hcases
        rfl
      · obtain ⟨-, rfl⟩ := hcases
        rw [decodeErrors_onItem, Action.itemOn, if_pos rfl]
        exact congrArg _ (if_congr (Option.some_inj).symm rfl rfl)
      · obtain ⟨-, rfl⟩ := hcases
        rfl
    · have hitem : (Action.receiver j input).itemOn i = none := by
        cases input with
        | next item => exact if_neg hj
        | _ => rfl
      show (Function.update s.subs j sub i).ring.stats.decodeErrors = _
      rw [Function.update_of_ne (Ne.symm hj), hitem]
      rfl
  | dispatcher e budgetSpent =>
    rcases dispatcherStep_cases h with ⟨loop, rfl⟩ | ⟨j, event, ring, -, hrecv, rfl⟩ | ⟨-, rfl⟩
    · rfl
    · by_cases hj : i = j
      · subst hj
        show (Function.update s.subs i _ i).ring.stats.decodeErrors = _
        rw [Function.update_self, ← (Ring.of_tryRecv_some hrecv).2.2.1]
        rfl
      · show (Function.update s.subs j _ i).ring.stats.decodeErrors = _
        rw [Function.update_of_ne hj]
        rfl
    · show (if (roles.get i).endpoint = e then _
          else s.subs i : Subscription).ring.stats.decodeErrors =
        (s.subs i).ring.stats.decodeErrors
      by_cases hi : (roles.get i).endpoint = e
      · rw [if_pos hi]
        rfl
      · rw [if_neg hi]
  | requestShutdown =>
    cases h
    rfl

end Pipeline

/-! ## Runs -/

section Runs

variable {B : Backend} {R : RawSink} {roles : List SubscriptionRole} {lib : FrameLibrary}
  {encode : List UInt8 → String} {ingest : IngestState B R}
  {capacity : Fin roles.length → { c : ℕ // 0 < c }} {wires : List (WireAction roles.length)}

theorem framesOn_snoc {n : ℕ} (i : Fin n) (past : List (WireAction n)) (w : WireAction n) :
    framesOn i (past ++ [w]) = framesOn i past ++ (w.frameOn i).toList := by
  rw [framesOn, List.filterMap_append]
  rcases h : w.frameOn i with _ | timed <;> simp [framesOn, h]

namespace Traffic

/-- What a step adds to a reading of the frames of a subscription. -/
theorem reads_step
    (hdecode : ∀ text bytes, lib.bs58Decode text = .ok bytes ↔ encode bytes = text)
    {t t' : Traffic B R roles} {w : WireAction roles.length}
    (hstep : t.step (.thread (w.toAction lib roles)) = some t') {i : Fin roles.length}
    {frames : List TimedUpdate} {skipped : ℕ}
    (h : Reads lib encode (roles.get i) frames (offeredOn i t.history)
      (t.ring i).stats.decodeErrors skipped) :
    ∃ skipped', Reads lib encode (roles.get i) (frames ++ (w.frameOn i).toList)
      (offeredOn i t'.history) (t'.ring i).stats.decodeErrors skipped' := by
  obtain ⟨hmove, hhistory⟩ := eq_of_step hstep
  have herrors : (t'.ring i).stats.decodeErrors = _ := Pipeline.decodeErrors_step hmove i
  have hoffered := t.pipeline.offeredOn_mark (w.toAction lib roles) i
  rw [hhistory, offeredOn_append, hoffered, herrors]
  cases w with
  | frame j timed =>
    by_cases hj : j = i
    · subst hj
      rw [WireAction.toAction, Action.itemOn, WireAction.frameOn, if_pos rfl, if_pos rfl]
      rcases h.snoc hdecode timed with ⟨ts, p, hitem, hreads⟩ | ⟨hitem, hreads⟩ | ⟨hitem, hreads⟩
      · rw [hitem]
        exact ⟨_, hreads⟩
      · rw [hitem, List.append_nil]
        exact ⟨_, hreads⟩
      · rw [hitem, List.append_nil]
        exact ⟨_, hreads⟩
    · rw [WireAction.toAction, Action.itemOn, WireAction.frameOn, if_neg hj, if_neg hj,
        List.append_nil, Option.toList_none, List.append_nil]
      exact ⟨_, h⟩
  | other action hother =>
    rw [WireAction.toAction, WireAction.frameOn, Option.toList_none, List.append_nil]
    rcases hitem : action.itemOn i with _ | item
    · rw [List.append_nil]
      exact ⟨_, h⟩
    · have hframe := hother i item hitem
      cases item with
      | status text =>
        rw [List.append_nil]
        exact ⟨_, h⟩
      | ended =>
        rw [List.append_nil]
        exact ⟨_, h⟩
      | timeout =>
        rw [List.append_nil]
        exact ⟨_, h⟩
      | _ => cases hframe

/-- **What a receiver sends and counts is what its frames come to.** -/
theorem reads_run
    (hdecode : ∀ text bytes, lib.bs58Decode text = .ok bytes ↔ encode bytes = text)
    {t : Traffic B R roles}
    (h : (start ingest capacity).run ((wires.map (WireAction.toAction lib roles)).map .thread) =
      some t) (i : Fin roles.length) :
    ∃ skipped, Reads lib encode (roles.get i) (framesOn i wires) (offeredOn i t.history)
      (t.ring i).stats.decodeErrors skipped := by
  rw [run, List.map_map, List.foldlM_map] at h
  refine Folds.foldlM_history (P := fun past (t : Traffic B R roles) =>
    ∃ skipped, Reads lib encode (roles.get i) (framesOn i past) (offeredOn i t.history)
      (t.ring i).stats.decodeErrors skipped) ⟨0, .start⟩ (fun past t w t' hs hstep => ?_) h
  obtain ⟨skipped, hreads⟩ := hs
  rw [framesOn_snoc]
  exact reads_step hdecode hstep hreads

end Traffic

namespace Pipeline

/-- **Every frame is accounted for.**  In every run of the threads the trackers have seen a sequence
of events, `taken`, each with the ring it came from.  For every ring, the frames that have arrived
come to events, malformed frames and frames of no interest; the malformed ones are its counter of
decode errors; the events taken from it, then those in its queue, are among the events its frames
carried, in the order of arrival; and as long as it has its receiving half, the other events are its
counter of dropped events. -/
theorem frames_accounted
    (hdecode : ∀ text bytes, lib.bs58Decode text = .ok bytes ↔ encode bytes = text)
    {s : Pipeline B R roles}
    (h : (spawn ingest capacity).run (wires.map (WireAction.toAction lib roles)) = some s) :
    ∃ taken : List (Fin roles.length × Event),
      s.ingest = ingest.ingestAll (taken.map Prod.snd) ∧
      ∀ i, ∃ events skipped,
        let ring := (s.subs i).ring
        let own := taken.filterMap fun p => if p.1 = i then some p.2 else none
        Reads lib encode (roles.get i) (framesOn i wires) events ring.stats.decodeErrors skipped ∧
        (own ++ ring.queue).Sublist events ∧ own.length = ring.stats.received ∧
        (ring.receiverAlive = true →
          (framesOn i wires).length = ring.stats.received + ring.queue.length +
            ring.stats.dropped + ring.stats.decodeErrors + skipped) := by
  obtain ⟨t, rfl, ht, hingest, -, hring⟩ := exists_dispatched h
  refine ⟨dispatched t.history, hingest, fun i => ?_⟩
  obtain ⟨skipped, hreads⟩ := Traffic.reads_run hdecode ht i
  obtain ⟨hreceived, hsplit⟩ := hring i
  refine ⟨offeredOn i t.history, skipped, hreads, ?_, ?_, fun halive => ?_⟩
  · rw [← dispatchedOn_eq, hsplit]
    exact acceptedOn_sublist i t.history
  · rw [← dispatchedOn_eq, hreceived]
  · rw [hreads.length_eq, (Traffic.conserved_run ht i).offered halive, ← hsplit, List.length_append,
      ← hreceived]
    rfl

/-- A slot update, a ping and an update with a status that does not exist; then a second slot update
finds the ring of capacity `1` full. -/
theorem frames_accounted_four_frames :
    let lib := FrameLibrary.base58 fun status => if status = 0 then some .slotProcessed else none
    let roles : List SubscriptionRole := [.main .one .processed .slots]
    let i : Fin roles.length := ⟨0, by decide⟩
    let frame : UInt64 → UpdateOneof → List (WireAction roles.length) := fun mono u =>
      [.other (.receiver i .loadShutdown) fun _ _ h => (by cases h), .frame i ⟨⟨mono, 0⟩, some u⟩]
    let wires := [WireAction.other (.receiver i .loadShutdown) fun _ _ h => (by cases h),
        .other (.receiver i (.connect (.ok ()))) fun _ _ h => (by cases h),
        .other (.receiver i (.openSubscription (.ok ()))) fun _ _ h => (by cases h)] ++
      frame 1 (.slot ⟨5, 0⟩) ++ frame 2 .ping ++ frame 3 (.slot ⟨6, 9⟩) ++ frame 4 (.slot ⟨6, 0⟩)
    ∃ s : Pipeline Backend.exact ⟨Unit, fun _ _ => ()⟩ roles,
      (spawn (IngestState.start Backend.exact ∅ false none) fun _ => ⟨1, Nat.zero_lt_one⟩).run
        (wires.map (WireAction.toAction lib roles)) = some s ∧
      (s.subs i).ring.stats = { dropped := 1, decodeErrors := 1 } ∧
      ∃ events skipped, Reads lib Base58.encode (roles.get i) (framesOn i wires) events 1 skipped ∧
        (s.subs i).ring.queue.Sublist events ∧ skipped = 1 := by
  intro lib roles i frame wires
  have hrun : ((spawn (IngestState.start Backend.exact ∅ false none)
      (fun _ => ⟨1, Nat.zero_lt_one⟩) : Pipeline Backend.exact ⟨Unit, fun _ _ => ()⟩ roles).run
        (wires.map (WireAction.toAction lib roles))).map (fun s =>
          ((s.subs i).ring.stats, (s.subs i).ring.receiverAlive, (s.subs i).ring.queue.length)) =
      some ({ dropped := 1, decodeErrors := 1 }, true, 1) := by decide
  obtain ⟨s, hs, hval⟩ := Option.map_eq_some_iff.mp hrun
  have hstats := congrArg Prod.fst hval
  obtain ⟨taken, -, htaken⟩ := frames_accounted (FrameLibrary.bs58Decode_base58 _) hs
  obtain ⟨events, skipped, hreads, hsub, -, hlength⟩ := htaken i
  dsimp only at hstats hreads hlength
  have hframes := hlength (congrArg (fun v => v.2.1) hval)
  have hqueue : (s.subs i).ring.queue.length = 1 := congrArg (fun v => v.2.2) hval
  rw [hstats] at hreads hframes
  rw [hqueue] at hframes
  have hfour : (framesOn i wires).length = 4 := rfl
  refine ⟨s, hs, hstats, events, skipped, hreads, (List.sublist_append_right _ _).trans hsub, ?_⟩
  dsimp only at hframes
  omega

end Pipeline

end Runs

end GrpcBench
