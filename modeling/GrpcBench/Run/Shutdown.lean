import GrpcBench.Run.Traffic

/-!
# Shutdown

A dispatcher returns after a pass that found nothing, if it then finds the shutdown flag set.  The
pass is over before the flag is loaded, so an event may be accepted, and the flag stored, in
between: the dispatcher returns and the event stays in its ring.  Nothing else is lost: what was
accepted before the last poll of its ring has been dispatched.

* `NothingLost`: the events accepted before the flag was stored have been dispatched.
* `PolledAfterSends`: every one of these sends is followed by a poll of its ring.
* `PassInv`, `passInv_run`: what a pass has found so far.
* `Traffic.nothingLost_iff`: the runs that lose nothing.
-/

namespace GrpcBench

variable {B : Backend} {R : RawSink} {roles : List SubscriptionRole}

/-! ## What may be lost -/

section Record

variable {n : ℕ} (i : Fin n)

/-- Every event the ring accepted before the flag was stored has been dispatched. -/
def NothingLost (history : List (Mark n)) : Prop :=
  ∀ past rest, history = past ++ rest → .shutdown ∉ past →
    acceptedOn i past <+: dispatchedOn i history

/-- Every send the ring accepted before the flag was stored is followed by a poll of the ring. -/
def PolledAfterSends (history : List (Mark n)) : Prop :=
  ∀ past event rest, history = past ++ .offered i event true :: rest → .shutdown ∉ past →
    ∃ found, .polled i found ∈ rest

/-- The last poll of the ring found nothing, and all it had accepted by then was dispatched. -/
def Caught (history : List (Mark n)) : Prop :=
  ∃ past rest, history = past ++ .polled i none :: rest ∧
    acceptedOn i past = dispatchedOn i past ∧ ∀ found, .polled i found ∉ rest

variable {i} {history : List (Mark n)}

/-- A ring that is not polled again stays caught. -/
theorem Caught.append (h : Caught i history) {marks : List (Mark n)}
    (hmarks : ∀ found, .polled i found ∉ marks) : Caught i (history ++ marks) := by
  obtain ⟨past, rest, rfl, heq, hrest⟩ := h
  refine ⟨past, rest ++ marks, by simp, heq, fun found hmem => ?_⟩
  rcases List.mem_append.mp hmem with hmem | hmem
  · exact hrest found hmem
  · exact hmarks found hmem

/-- An accepted event has its mark. -/
theorem exists_of_acceptedOn_ne_nil (h : acceptedOn i history ≠ []) :
    ∃ past event rest, history = past ++ .offered i event true :: rest := by
  obtain ⟨event, hmem⟩ := List.exists_mem_of_ne_nil _ h
  obtain ⟨mark, hmark, heq⟩ := List.mem_filterMap.mp hmem
  rcases mark with ⟨j, sent, _ | _⟩ | _ | _
  · cases heq
  · dsimp only at heq
    split_ifs at heq with hj
    subst hj
    obtain ⟨past, rest, hsplit⟩ := List.append_of_mem hmark
    exact ⟨past, sent, rest, hsplit⟩
  · cases heq
  · cases heq

/-- An event is dispatched by a poll. -/
theorem dispatchedOn_eq_nil (h : ∀ found, .polled i found ∉ history) :
    dispatchedOn i history = [] := by
  refine List.filterMap_eq_nil_iff.mpr fun mark hmark => ?_
  rcases mark with _ | ⟨j, _ | event⟩ | _
  · rfl
  · rfl
  · refine if_neg fun hj => ?_
    subst hj
    exact h _ hmark
  · rfl

/-- A ring that is polled last has been polled after every send. -/
theorem polledAfterSends_concat (history : List (Mark n)) (found : Option Event) :
    PolledAfterSends i (history ++ [.polled i found]) := by
  intro past event rest hsplit _
  rcases List.eq_nil_or_concat rest with rfl | ⟨rest, mark, rfl⟩
  · cases List.append_inj_right' hsplit rfl
  · rw [List.concat_eq_append, ← List.cons_append, ← List.append_assoc] at hsplit
    cases List.append_inj_right' hsplit rfl
    exact ⟨found, by simp⟩

/-- **A caught ring loses nothing** if every send is followed by a poll. -/
theorem Caught.nothingLost (h : Caught i history) (hpolled : PolledAfterSends i history) :
    NothingLost i history := by
  obtain ⟨before, after, rfl, heq, hafter⟩ := h
  intro past rest hsplit hstored
  have hdispatched : acceptedOn i before <+:
      dispatchedOn i (before ++ .polled i none :: after) := by
    rw [heq, dispatchedOn_append]
    exact List.prefix_append _ _
  rcases List.append_eq_append_iff.mp hsplit with ⟨mid, rfl, hmid⟩ | ⟨mid, rfl, -⟩
  · -- the flag was stored after the last poll: no send was accepted in between
    have hnone : acceptedOn i mid = [] := by
      by_contra hne
      obtain ⟨p, event, q, rfl⟩ := exists_of_acceptedOn_ne_nil hne
      obtain ⟨found, hmem⟩ := hpolled (before ++ p) event (q ++ rest) (by rw [hmid]; simp)
        fun hp => hstored (by rw [← List.append_assoc]; exact List.mem_append_left _ hp)
      rcases p with _ | ⟨mark, p⟩
      · cases hmid
      · rw [List.cons_append, List.cons_append] at hmid
        have hlater : after = p ++ .offered i event true :: q ++ rest := (List.cons.inj hmid).2
        refine hafter found ?_
        rw [hlater, List.append_assoc, List.cons_append]
        exact List.mem_append_right _ (List.mem_cons_of_mem _ hmem)
    rw [acceptedOn_append, hnone, List.append_nil]
    exact hdispatched
  · rw [acceptedOn_append] at hdispatched
    exact (List.prefix_append _ _).trans hdispatched

/-- A ring that loses nothing has polled after every send, if it never dispatches what it has not
accepted. -/
theorem NothingLost.polledAfterSends (h : NothingLost i history)
    (hle : ∀ past rest, history = past ++ rest → dispatchedOn i past <+: acceptedOn i past) :
    PolledAfterSends i history := by
  rintro past event rest rfl hstored
  by_contra hnone
  rw [not_exists] at hnone
  have hlost := h (past ++ [.offered i event true]) rest (by simp) (by simpa using hstored)
  have hdispatched : dispatchedOn i (past ++ .offered i event true :: rest) =
      dispatchedOn i past := by
    have hnil : dispatchedOn i (.offered i event true :: rest) = [] := by
      refine dispatchedOn_eq_nil fun found hmem => ?_
      rcases List.mem_cons.mp hmem with heq | hmem
      · cases heq
      · exact hnone found hmem
    rw [dispatchedOn_append, hnil, List.append_nil]
  have hlength := hlost.length_le
  rw [hdispatched, acceptedOn_append, List.length_append] at hlength
  have hpast := (hle past _ rfl).length_le
  have hone : (acceptedOn i [.offered i event true]).length = 1 := by simp [acceptedOn]
  omega

end Record

/-! ## What a pass has found -/

namespace Pipeline

variable {s s' : Pipeline B R roles}

/-- A poll in the record is a step of the dispatcher of the ring. -/
theorem of_mark_polled {m : Move roles.length} {i : Fin roles.length} {found : Option Event}
    (h : s.mark m = some (.polled i found)) :
    ∃ budgetSpent, m = .thread (.dispatcher (roles.get i).endpoint budgetSpent) := by
  cases m with
  | send j event => cases h
  | thread action =>
    cases action with
    | receiver j input =>
      by_cases hinput : ∃ ts payload, input = .next (.event ts payload)
      · obtain ⟨ts, payload, rfl⟩ := hinput
        cases h
      · rw [mark_receiver fun ts payload heq => hinput ⟨ts, payload, heq⟩] at h
        cases h
    | dispatcher e budgetSpent =>
      obtain ⟨j, hpoll, heq⟩ := Option.map_eq_some_iff.mp h
      cases heq
      exact ⟨budgetSpent, by rw [endpoint_of_polling hpoll]⟩
    | requestShutdown => cases h

/-- A dispatcher's loop takes the steps of its own thread, and no others. -/
theorem loops_move {m : Move roles.length} {e : EndpointRole} (h : s.move m = some s')
    (hm : ∀ budgetSpent, m ≠ .thread (.dispatcher e budgetSpent)) : s'.loops e = s.loops e := by
  cases m with
  | send j event =>
    cases h
    rfl
  | thread action =>
    cases action with
    | receiver j input =>
      obtain ⟨sub, -, rfl⟩ := Option.map_eq_some_iff.mp h
      rfl
    | dispatcher f budgetSpent =>
      have hne : e ≠ f := by
        rintro rfl
        exact hm budgetSpent rfl
      rcases dispatcherStep_cases h with ⟨loop, rfl⟩ | ⟨j, event, ring, -, -, rfl⟩ | ⟨-, rfl⟩
      all_goals exact Function.update_of_ne hne ..
    | requestShutdown =>
      cases h
      rfl

theorem getElem?_of_polling {e : EndpointRole} {i : Fin roles.length}
    (h : s.polling e = some i) :
    (s.loops e).point = .draining ∧ (ringsOf roles e)[(s.loops e).ring]? = some i := by
  unfold polling at h
  split_ifs at h with hp
  exact ⟨hp.1, h⟩

end Pipeline

namespace Traffic

variable {t t' : Traffic B R roles}

/-- What a pass of a dispatcher has found so far: as long as it has found nothing, the rings it is
through with are caught; and a dispatcher that has returned has caught them all. -/
structure PassInv (e : EndpointRole) (t : Traffic B R roles) : Prop where
  gotAny : 0 < (t.pipeline.loops e).drained → (t.pipeline.loops e).gotAny = true
  caught : (t.pipeline.loops e).gotAny = false →
    ∀ i ∈ (ringsOf roles e).take (t.pipeline.loops e).ring, Caught i t.history
  complete : (t.pipeline.loops e).point = .loadShutdown →
    (ringsOf roles e).length ≤ (t.pipeline.loops e).ring
  exited : (t.pipeline.loops e).point = .exited → ∀ i ∈ ringsOf roles e, Caught i t.history

theorem passInv_start (e : EndpointRole) (ingest : IngestState B R)
    (capacity : Fin roles.length → { c : ℕ // 0 < c }) : PassInv e (start ingest capacity) where
  gotAny h := absurd h (Nat.lt_irrefl 0)
  caught _ i hi := by cases hi
  complete h := by cases h
  exited h := by cases h

/-- A step of another thread. -/
theorem PassInv.other {e : EndpointRole} (h : PassInv e t) {m : Move roles.length}
    (hstep : t.step m = some t') (hm : ∀ budgetSpent, m ≠ .thread (.dispatcher e budgetSpent)) :
    PassInv e t' := by
  obtain ⟨hmove, hhistory⟩ := eq_of_step hstep
  have hcaught : ∀ i ∈ ringsOf roles e, Caught i t.history → Caught i t'.history := by
    intro i hi hcaught
    rw [hhistory]
    refine hcaught.append fun found hmem => ?_
    obtain ⟨budgetSpent, heq⟩ := Pipeline.of_mark_polled (Option.mem_toList.mp hmem)
    have he : (roles.get i).endpoint = e := by simpa [ringsOf] using hi
    exact hm budgetSpent (he ▸ heq)
  have hloop := Pipeline.loops_move hmove hm
  constructor
  · rw [hloop]
    exact h.gotAny
  · rw [hloop]
    intro hnone i hi
    exact hcaught i (List.mem_of_mem_take hi) (h.caught hnone i hi)
  · rw [hloop]
    exact h.complete
  · rw [hloop]
    intro hexit i hi
    exact hcaught i hi (h.exited hexit i hi)

/-- A dispatcher in the middle of a pass. -/
theorem PassInv.of_draining {e : EndpointRole}
    (hpoint : (t.pipeline.loops e).point = .draining)
    (hgot : 0 < (t.pipeline.loops e).drained → (t.pipeline.loops e).gotAny = true)
    (hcaught : (t.pipeline.loops e).gotAny = false →
      ∀ i ∈ (ringsOf roles e).take (t.pipeline.loops e).ring, Caught i t.history) :
    PassInv e t where
  gotAny := hgot
  caught := hcaught
  complete hload := absurd (hpoint.symm.trans hload) (by decide)
  exited hexit := absurd (hpoint.symm.trans hexit) (by decide)

/-- A poll that finds nothing, on a ring of which all that was accepted is dispatched, catches the
ring. -/
theorem PassInv.caught_polled {e : EndpointRole} (h : PassInv e t) {i : Fin roles.length}
    (hpoll : t.pipeline.polling e = some i)
    (hempty : acceptedOn i t.history = dispatchedOn i t.history)
    (hnone : (t.pipeline.loops e).gotAny = false) {j : Fin roles.length}
    (hj : j ∈ (ringsOf roles e).take ((t.pipeline.loops e).ring + 1)) :
    Caught j (t.history ++ [.polled i none]) := by
  rw [List.take_add_one, (Pipeline.getElem?_of_polling hpoll).2, Option.toList_some,
    List.mem_append, List.mem_singleton] at hj
  by_cases hji : j = i
  · subst hji
    exact ⟨t.history, [], rfl, hempty, fun found hmem => by cases hmem⟩
  · refine (h.caught hnone j (hj.resolve_right hji)).append fun found hmem => ?_
    injection List.mem_singleton.mp hmem with heq
    exact hji heq

/-- A step that polls no ring, its budget after the shutdown not spent. -/
theorem PassInv.quiet {e : EndpointRole} (h : PassInv e t) {s : Pipeline B R roles}
    (hrest : (drainBudgetPerRing ≤ (t.pipeline.loops e).drained ∧
        (t.pipeline.loops e).point = .draining ∧
        s = t.pipeline.setLoop e (t.pipeline.loops e).nextRing) ∨
      ((ringsOf roles e).length ≤ (t.pipeline.loops e).ring ∧
        (t.pipeline.loops e).point = .draining ∧
        s = t.pipeline.setLoop e { t.pipeline.loops e with point := .loadShutdown }) ∨
      ((t.pipeline.loops e).point = .loadShutdown ∧ t.pipeline.shutdown = true ∧
        ((t.pipeline.loops e).gotAny = false ∨ false = true) ∧
        s = t.pipeline.exitDispatcher e) ∨
      (t.pipeline.loops e).point = .loadShutdown ∧ s = t.pipeline.setLoop e {}) :
    PassInv e ⟨s, t.history⟩ := by
  rcases hrest with ⟨hbudget, hpoint, rfl⟩ | ⟨hlength, hpoint, rfl⟩ |
    ⟨hpoint, -, hdone, rfl⟩ | ⟨hpoint, rfl⟩
  · -- the budget of the ring is spent, on events
    have hgot := h.gotAny (Nat.lt_of_lt_of_le (by decide) hbudget)
    refine .of_draining ?_ ?_ ?_ <;> rw [Pipeline.loops_setLoop]
    · exact hpoint
    · intro _
      exact hgot
    · intro hnone
      exact absurd (hgot.symm.trans hnone) (by decide)
  · -- the pass is over
    constructor <;> rw [Pipeline.loops_setLoop]
    · exact h.gotAny
    · exact h.caught
    · intro _
      exact hlength
    · intro hexit
      cases hexit
  · -- the dispatcher returns, after a pass that found nothing
    have hcaught := h.caught (hdone.resolve_right Bool.false_ne_true)
    constructor <;> rw [Pipeline.loops_exitDispatcher]
    · exact h.gotAny
    · exact h.caught
    · intro hload
      cases hload
    · intro _
      rw [List.take_of_length_le (h.complete hpoint)] at hcaught
      exact hcaught
  · -- another pass begins
    refine .of_draining ?_ ?_ ?_ <;> rw [Pipeline.loops_setLoop]
    · intro hpos
      cases hpos
    · intro _ i hi
      cases hi

/-- A step of the dispatcher itself, its budget after the shutdown not spent. -/
theorem PassInv.own {e : EndpointRole} (h : PassInv e t)
    (hempty : ∀ i, (t.ring i).queue = [] → acceptedOn i t.history = dispatchedOn i t.history)
    (hstep : t.step (.thread (.dispatcher e false)) = some t') : PassInv e t' := by
  obtain ⟨hmove, hhistory⟩ := eq_of_step hstep
  obtain ⟨s', history⟩ := t'
  dsimp only at hmove hhistory
  rcases Pipeline.dispatcherStep_spec hmove with ⟨i, event, ring, hpoll, hrecv, rfl⟩ |
    ⟨i, hpoll, hrecv, rfl⟩ | ⟨hpoll, hrest⟩
  · -- the poll finds an event
    refine .of_draining ?_ ?_ ?_ <;> rw [Pipeline.loops_takeEvent]
    · exact (Pipeline.getElem?_of_polling hpoll).1
    · intro _
      rfl
    · intro hnone
      cases hnone
  · -- the poll finds nothing: the ring is caught
    rw [Pipeline.mark_of_polling hpoll, hrecv, Option.toList_some] at hhistory
    subst hhistory
    refine .of_draining ?_ ?_ ?_ <;> rw [Pipeline.loops_setLoop]
    · exact (Pipeline.getElem?_of_polling hpoll).1
    · intro hpos
      cases hpos
    · intro hnone j hj
      exact h.caught_polled hpoll (hempty i (Ring.queue_of_tryRecv_none hrecv)) hnone hj
  · rw [Pipeline.mark_of_polling_none hpoll, Option.toList_none, List.append_nil] at hhistory
    subst hhistory
    exact h.quiet hrest

/-! ## Runs -/

variable {ingest : IngestState B R} {capacity : Fin roles.length → { c : ℕ // 0 < c }}
  {moves : List (Move roles.length)}

theorem passInv_run {e : EndpointRole} (h : (start ingest capacity).run moves = some t)
    (hbudget : .thread (.dispatcher e true) ∉ moves) : PassInv e t := by
  have hinv : (∀ i, Conserved (capacity i).1 i (t.ring i) t.history) ∧
      (.thread (.dispatcher e true) ∉ moves → PassInv e t) := by
    refine Folds.foldlM_history (P := fun moves (t : Traffic B R roles) =>
      (∀ i, Conserved (capacity i).1 i (t.ring i) t.history) ∧
        (.thread (.dispatcher e true) ∉ moves → PassInv e t))
      ⟨fun i => conserved_start ingest capacity i, fun _ => passInv_start e ingest capacity⟩
      (fun past t m t' hs hstep => ⟨fun i => conserved_step (hs.1 i) hstep, fun hnot => ?_⟩) h
    rw [List.mem_append, List.mem_singleton, not_or] at hnot
    have hpass := hs.2 hnot.1
    by_cases hm : ∃ budgetSpent, m = .thread (.dispatcher e budgetSpent)
    · obtain ⟨_ | _, rfl⟩ := hm
      · refine hpass.own (fun i hqueue => ?_) hstep
        have hsplit := (hs.1 i).split
        rw [hqueue, List.append_nil] at hsplit
        exact hsplit.symm
      · exact absurd rfl hnot.2
    · exact hpass.other hstep fun budgetSpent heq => hm ⟨budgetSpent, heq⟩
  exact hinv.2 hbudget

/-- At every moment of a run, what a ring has dispatched by then is the beginning of what it has
accepted by then. -/
theorem dispatchedOn_prefix_run (h : (start ingest capacity).run moves = some t)
    (i : Fin roles.length) :
    ∀ past rest, t.history = past ++ rest → dispatchedOn i past <+: acceptedOn i past := by
  refine Folds.foldlM_history (P := fun moves (t : Traffic B R roles) =>
    Conserved (capacity i).1 i (t.ring i) t.history ∧
      ∀ past rest, t.history = past ++ rest → dispatchedOn i past <+: acceptedOn i past)
    ⟨conserved_start ingest capacity i, fun past rest hsplit => ?_⟩
    (fun past t m t' hs hstep => ?_) h |>.2
  · obtain ⟨rfl, -⟩ := List.append_eq_nil_iff.mp hsplit.symm
    exact List.prefix_refl _
  · have hc := conserved_step hs.1 hstep
    refine ⟨hc, fun p rest hsplit => ?_⟩
    rcases List.eq_nil_or_concat rest with rfl | ⟨rest, mark, rfl⟩
    · rw [List.append_nil] at hsplit
      rw [← hsplit, ← hc.split]
      exact List.prefix_append _ _
    · rw [(eq_of_step hstep).2, List.concat_eq_append, ← List.append_assoc] at hsplit
      cases hmark : t.pipeline.mark m with
      | none =>
        rw [hmark, Option.toList_none, List.append_nil, List.append_assoc] at hsplit
        exact hs.2 p _ hsplit
      | some last =>
        rw [hmark, Option.toList_some] at hsplit
        exact hs.2 p rest (List.append_inj_left' hsplit rfl)

/-- **What a shutdown loses.**  In a run in which a dispatcher returns without having spent its
budget after the shutdown, every event its rings accepted before the flag was stored has been
dispatched if and only if every one of these sends is followed by a poll of its ring.  Events sent
after the flag was stored make no difference. -/
theorem nothingLost_iff {e : EndpointRole} (h : (start ingest capacity).run moves = some t)
    (hbudget : .thread (.dispatcher e true) ∉ moves)
    (hexit : (t.pipeline.loops e).point = .exited) :
    (∀ i ∈ ringsOf roles e, NothingLost i t.history) ↔
      ∀ i ∈ ringsOf roles e, PolledAfterSends i t.history := by
  have hpass := passInv_run h hbudget
  refine forall₂_congr fun i hi => ⟨fun hlost => ?_, fun hpolled => ?_⟩
  · exact hlost.polledAfterSends (dispatchedOn_prefix_run h i)
  · exact (hpass.exited hexit i hi).nothingLost hpolled

/-- One ring: an event is sent after the poll of the first pass, and dispatched in the second; the
third finds nothing, and the flag set. -/
theorem nothingLost_iff_polled :
    let roles : List SubscriptionRole := [.main .one .processed .slots]
    let i : Fin roles.length := ⟨0, by decide⟩
    let event : Event := ⟨⟨4, 0⟩, roles.get i, .slot 4 .processed⟩
    let dispatcher : Move roles.length := .thread (.dispatcher .one false)
    ∃ t : Traffic Backend.exact ⟨Unit, fun _ _ => ()⟩ roles,
      (start (IngestState.start Backend.exact ∅ false none) fun _ => ⟨1, Nat.zero_lt_one⟩).run
        ([dispatcher, .send i event, dispatcher, dispatcher] ++
          [dispatcher, dispatcher, dispatcher, .thread .requestShutdown, dispatcher] ++
          [dispatcher, dispatcher, dispatcher]) = some t ∧
      ∀ i ∈ ringsOf roles .one, NothingLost i t.history := by
  intro roles i event dispatcher
  have hrun : (((start (B := Backend.exact) (R := ⟨Unit, fun _ _ => ()⟩)
      (IngestState.start Backend.exact ∅ false none) fun _ => ⟨1, Nat.zero_lt_one⟩).run
        ([dispatcher, .send i event, dispatcher, dispatcher] ++
          [dispatcher, dispatcher, dispatcher, .thread .requestShutdown, dispatcher] ++
          [dispatcher, dispatcher, dispatcher])).map fun t =>
            ((t.pipeline.loops .one).point, t.history)) =
      some (.exited, [.polled i none, .offered i event true, .polled i (some event),
        .polled i none, .shutdown] ++ [.polled i none]) := by decide
  obtain ⟨t, ht, hval⟩ := Option.map_eq_some_iff.mp hrun
  have hbudget : (.thread (.dispatcher .one true) : Move roles.length) ∉
      [dispatcher, .send i event, dispatcher, dispatcher] ++
        [dispatcher, dispatcher, dispatcher, .thread .requestShutdown, dispatcher] ++
        [dispatcher, dispatcher, dispatcher] := by simp [dispatcher]
  refine ⟨t, ht, (nothingLost_iff ht hbudget (congrArg Prod.fst hval)).mpr fun j _ => ?_⟩
  have hj : j = i := Fin.ext (Nat.lt_one_iff.mp j.2)
  have hhistory : t.history = _ := congrArg Prod.snd hval
  rw [hj, hhistory]
  exact polledAfterSends_concat _ _

/-- One ring: the receiver's event is accepted after the poll of a pass that finds nothing, and the
flag is stored before the dispatcher loads it.  The dispatcher returns, and the event is lost. -/
theorem not_nothingLost_after_poll :
    let roles : List SubscriptionRole := [.main .one .processed .slots]
    let i : Fin roles.length := ⟨0, by decide⟩
    let event : Event := ⟨⟨4, 0⟩, roles.get i, .slot 4 .processed⟩
    let rx : ReceiverInput → Move roles.length := fun input => .thread (.receiver i input)
    let dispatcher : Move roles.length := .thread (.dispatcher .one false)
    ∃ t : Traffic Backend.exact ⟨Unit, fun _ _ => ()⟩ roles,
      (start (IngestState.start Backend.exact ∅ false none) fun _ => ⟨1, Nat.zero_lt_one⟩).run
        [rx .loadShutdown, rx (.connect (.ok ())), rx (.openSubscription (.ok ())),
          rx .loadShutdown, dispatcher, rx (.next (.event ⟨4, 0⟩ (.slot 4 .processed))),
          dispatcher, .thread .requestShutdown, dispatcher] = some t ∧
      (t.pipeline.loops .one).point = .exited ∧
      t.history = [.polled i none, .offered i event true, .shutdown] ∧
      dispatchedOn i t.history = [] ∧ ¬ NothingLost i t.history := by
  intro roles i event rx dispatcher
  have hrun : (((start (B := Backend.exact) (R := ⟨Unit, fun _ _ => ()⟩)
      (IngestState.start Backend.exact ∅ false none) fun _ => ⟨1, Nat.zero_lt_one⟩).run
        [rx .loadShutdown, rx (.connect (.ok ())), rx (.openSubscription (.ok ())),
          rx .loadShutdown, dispatcher, rx (.next (.event ⟨4, 0⟩ (.slot 4 .processed))),
          dispatcher, .thread .requestShutdown, dispatcher]).map fun t =>
            ((t.pipeline.loops .one).point, t.history)) =
      some (.exited, [.polled i none, .offered i event true, .shutdown]) := by decide
  obtain ⟨t, ht, hval⟩ := Option.map_eq_some_iff.mp hrun
  have hhistory : t.history = [.polled i none, .offered i event true, .shutdown] :=
    congrArg Prod.snd hval
  refine ⟨t, ht, congrArg Prod.fst hval, hhistory, by rw [hhistory]; decide, fun hlost => ?_⟩
  have hprefix := hlost [.polled i none, .offered i event true] [.shutdown] hhistory (by decide)
  rw [hhistory] at hprefix
  exact absurd hprefix.length_le (by decide)

end Traffic

end GrpcBench
