import GrpcBench.Run.Traffic

/-!
# Received events

`received` is documented as the events of a stream before any is dropped, and is counted by the
dispatcher, one for each event it takes from the ring.  So an event that is refused is not in it.
Once a ring is drained the counter is the number of events sent exactly when every send came while
the ring had room; and so for the total of an endpoint.

* `computeCaptureTotals`: the totals of the report.
* `sendsFit`: the runs in which every send into a ring comes while it has room.
* `Traffic.received_eq_offered_iff`, `Traffic.captured_iff`: the counter of a ring, the total of an
  endpoint.
-/

namespace GrpcBench

variable {B : Backend} {R : RawSink} {roles : List SubscriptionRole}

/-! ## The totals of the report -/

/-- `CaptureTotals`. -/
structure CaptureTotals where
  ep1 : ℕ := 0
  ep2 : ℕ := 0
  deriving DecidableEq, Repr

/-- `u64::saturating_add`. -/
def saturatingAdd (a b : ℕ) : ℕ :=
  min (a + b) (2 ^ 64 - 1)

namespace CaptureTotals

/-- `CaptureTotals::add`. -/
def add (totals : CaptureTotals) (role : EndpointRole) (snap : ReceiverStats) : CaptureTotals :=
  match role with
  | .one => { totals with ep1 := saturatingAdd totals.ep1 snap.received }
  | .two => { totals with ep2 := saturatingAdd totals.ep2 snap.received }

/-- The total of an endpoint. -/
def of (totals : CaptureTotals) : EndpointRole → ℕ
  | .one => totals.ep1
  | .two => totals.ep2

theorem of_add (totals : CaptureTotals) (role e : EndpointRole) (snap : ReceiverStats) :
    (totals.add role snap).of e =
      if role = e then saturatingAdd (totals.of e) snap.received else totals.of e := by
  cases role <;> cases e <;> rfl

end CaptureTotals

/-- `compute_capture_totals`. -/
def computeCaptureTotals (roles : List SubscriptionRole) (stats : List ReceiverStats) :
    CaptureTotals :=
  (stats.zip roles).foldl (fun totals p => totals.add p.2.endpoint p.1) {}

/-- The statistics of the rings, in plan order. -/
def Pipeline.statsPerSpec (s : Pipeline B R roles) : List ReceiverStats :=
  (List.finRange roles.length).map fun i => (s.subs i).ring.stats

/-- `total_updates` of an endpoint in the report. -/
def Pipeline.totalUpdates (s : Pipeline B R roles) (e : EndpointRole) : ℕ :=
  (computeCaptureTotals roles s.statsPerSpec).of e

/-- What is added up for an endpoint, unless it is too large for the counter. -/
theorem CaptureTotals.of_foldl_add (e : EndpointRole)
    (l : List (ReceiverStats × SubscriptionRole)) (totals : CaptureTotals)
    (hle : totals.of e ≤ 2 ^ 64 - 1) :
    (l.foldl (fun totals p => totals.add p.2.endpoint p.1) totals).of e =
      min (totals.of e + ((l.filter fun p => p.2.endpoint = e).map fun p => p.1.received).sum)
        (2 ^ 64 - 1) := by
  induction l generalizing totals with
  | nil => exact (Nat.min_eq_left hle).symm
  | cons p l ih =>
    have hadd := totals.of_add p.2.endpoint e p.1
    rw [List.foldl_cons]
    by_cases hp : p.2.endpoint = e
    · rw [if_pos hp, saturatingAdd] at hadd
      rw [ih _ (by rw [hadd]; exact Nat.min_le_right _ _), hadd,
        List.filter_cons_of_pos (by simpa using hp), List.map_cons, List.sum_cons]
      omega
    · rw [if_neg hp] at hadd
      rw [ih _ (by rw [hadd]; exact hle), hadd, List.filter_cons_of_neg (by simpa using hp)]

theorem Pipeline.zip_statsPerSpec (s : Pipeline B R roles) :
    s.statsPerSpec.zip roles =
      (List.finRange roles.length).map fun i => ((s.subs i).ring.stats, roles.get i) := by
  have hroles : roles = (List.finRange roles.length).map roles.get :=
    (List.map_get_finRange roles).symm
  calc s.statsPerSpec.zip roles
      = s.statsPerSpec.zip ((List.finRange roles.length).map roles.get) := congrArg _ hroles
    _ = _ := List.zip_map'

/-- A total is the sum over the rings of its endpoint. -/
theorem Pipeline.totalUpdates_eq (s : Pipeline B R roles) (e : EndpointRole) :
    s.totalUpdates e =
      min ((ringsOf roles e).map fun i => (s.subs i).ring.stats.received).sum (2 ^ 64 - 1) := by
  have hzero : ({} : CaptureTotals).of e = 0 := by cases e <;> rfl
  rw [totalUpdates, computeCaptureTotals, zip_statsPerSpec,
    CaptureTotals.of_foldl_add e _ _ (by rw [hzero]; exact Nat.zero_le _), hzero, Nat.zero_add,
    List.filter_map, List.map_map]
  rfl

/-! ## Sends into a ring with room -/

/-- The ring takes the next event. -/
def Ring.hasRoom (r : Ring) : Bool :=
  r.receiverAlive && decide (r.queue.length < r.capacity)

theorem Ring.trySend_fst (r : Ring) (event : Event) : (r.trySend event).1 = r.hasRoom := by
  unfold Ring.trySend Ring.hasRoom
  cases r.receiverAlive
  · rfl
  · by_cases h : r.queue.length < r.capacity <;> simp [h]

/-- The mark is of a send into the ring. -/
def Mark.sentOn {n : ℕ} (i : Fin n) : Mark n → Bool
  | .offered j _ _ => decide (j = i)
  | _ => false

/-- The mark is of a send that the ring refused. -/
def Mark.refusedOn {n : ℕ} (i : Fin n) : Mark n → Bool
  | .offered j _ accepted => decide (j = i) && !accepted
  | _ => false

/-- A ring's sends are those it accepted and those it refused. -/
theorem length_offeredOn {n : ℕ} (i : Fin n) (history : List (Mark n)) :
    (offeredOn i history).length =
      (acceptedOn i history).length + history.countP (Mark.refusedOn i) := by
  induction history with
  | nil => rfl
  | cons mark history ih =>
    rw [← List.singleton_append, offeredOn_append, acceptedOn_append, List.countP_append,
      List.length_append, List.length_append, ih]
    rcases mark with ⟨j, event, _ | _⟩ | ⟨j, _ | event⟩ | _
    · by_cases hj : j = i
      · simp [offeredOn, acceptedOn, Mark.refusedOn, hj]
        omega
      · simp [offeredOn, acceptedOn, Mark.refusedOn, hj]
    · by_cases hj : j = i
      · simp [offeredOn, acceptedOn, Mark.refusedOn, hj]
        omega
      · simp [offeredOn, acceptedOn, Mark.refusedOn, hj]
    all_goals simp [offeredOn, acceptedOn, Mark.refusedOn]

namespace Traffic

variable {t t' : Traffic B R roles}

/-- Every send into the ring comes while the ring has room. -/
def sendsFit (i : Fin roles.length) (t : Traffic B R roles) : List (Move roles.length) → Bool
  | [] => true
  | m :: moves =>
    ((t.pipeline.mark m).all fun mark => !mark.sentOn i || (t.ring i).hasRoom) &&
      match t.step m with
      | none => true
      | some t' => t'.sendsFit i moves

/-- A send into a ring is refused when the ring has no room. -/
theorem refusedOn_mark (t : Traffic B R roles) (m : Move roles.length) (i : Fin roles.length) :
    ((t.pipeline.mark m).all fun mark => !mark.sentOn i || (t.ring i).hasRoom) =
      !((t.pipeline.mark m).any (Mark.refusedOn i)) := by
  have hsend : ∀ j event, (!Mark.sentOn i (.offered j event ((t.ring j).trySend event).1) ||
      (t.ring i).hasRoom) = !Mark.refusedOn i (.offered j event ((t.ring j).trySend event).1) := by
    intro j event
    by_cases hj : j = i
    · subst hj
      simp [Mark.sentOn, Mark.refusedOn, Ring.trySend_fst]
    · simp [Mark.sentOn, Mark.refusedOn, hj]
  cases m with
  | send j event => exact hsend j event
  | thread action =>
    cases action with
    | receiver j input =>
      by_cases hinput : ∃ ts payload, input = .next (.event ts payload)
      · obtain ⟨ts, payload, rfl⟩ := hinput
        exact hsend j ⟨ts, roles.get j, payload⟩
      · rw [Pipeline.mark_receiver fun ts payload heq => hinput ⟨ts, payload, heq⟩]
        rfl
    | dispatcher e budgetSpent =>
      rw [Pipeline.mark]
      cases t.pipeline.polling e <;> rfl
    | requestShutdown => rfl

/-- **Every send fits exactly when none is refused.** -/
theorem sendsFit_iff {i : Fin roles.length} {moves : List (Move roles.length)}
    (h : t.run moves = some t') :
    t.sendsFit i moves = true ↔
      t'.history.countP (Mark.refusedOn i) = t.history.countP (Mark.refusedOn i) := by
  induction moves generalizing t with
  | nil =>
    cases h
    exact iff_of_true rfl rfl
  | cons m moves ih =>
    rw [run, List.foldlM_cons] at h
    obtain ⟨t₁, hstep, hrest⟩ := Option.bind_eq_some_iff.mp h
    have hle : t₁.history.countP (Mark.refusedOn i) ≤ t'.history.countP (Mark.refusedOn i) :=
      (history_prefix_run hrest).sublist.countP_le
    have hmark : t₁.history.countP (Mark.refusedOn i) = t.history.countP (Mark.refusedOn i) +
        if (t.pipeline.mark m).any (Mark.refusedOn i) then 1 else 0 := by
      rw [(eq_of_step hstep).2, List.countP_append]
      cases t.pipeline.mark m with
      | none => rfl
      | some mark => simp [List.countP_cons]
    rw [sendsFit, hstep, refusedOn_mark, Bool.and_eq_true, ih hrest]
    cases hany : (t.pipeline.mark m).any (Mark.refusedOn i)
    · rw [hany] at hmark
      simp [hmark]
    · rw [hany, if_pos rfl] at hmark
      refine iff_of_false (fun hfit => ?_) (by omega)
      cases hfit.1

/-! ## The counters of a drained ring -/

variable {ingest : IngestState B R} {capacity : Fin roles.length → { c : ℕ // 0 < c }}
  {moves : List (Move roles.length)}

/-- What a drained ring has counted as received, and what it has refused. -/
theorem received_add_refused (h : (start ingest capacity).run moves = some t)
    {i : Fin roles.length} (hdrained : (t.ring i).queue = []) :
    (t.ring i).stats.received + t.history.countP (Mark.refusedOn i) =
      (offeredOn i t.history).length := by
  have hc := conserved_run h i
  have hsplit := hc.split
  rw [hdrained, List.append_nil] at hsplit
  rw [length_offeredOn, hc.received, hsplit]

/-- **Received events.**  Once a ring is drained, its counter of received events is the number of
events sent into it if and only if every send came while the ring had room.  Once the rings of an
endpoint are, its total in the report is the number of events sent into them if and only if that
holds of each of them and the number fits the counter. -/
theorem received_iff (h : (start ingest capacity).run moves = some t) :
    (∀ i, (t.ring i).queue = [] →
      ((t.ring i).stats.received = (offeredOn i t.history).length ↔
        (start ingest capacity).sendsFit i moves = true)) ∧
    ∀ e, (∀ i ∈ ringsOf roles e, (t.ring i).queue = []) →
      (t.pipeline.totalUpdates e =
          ((ringsOf roles e).map fun i => (offeredOn i t.history).length).sum ↔
        (∀ i ∈ ringsOf roles e, (start ingest capacity).sendsFit i moves = true) ∧
          ((ringsOf roles e).map fun i => (offeredOn i t.history).length).sum < 2 ^ 64) := by
  have hfit (i : Fin roles.length) : (start ingest capacity).sendsFit i moves = true ↔
      t.history.countP (Mark.refusedOn i) = 0 := sendsFit_iff h
  refine ⟨fun i hdrained => ?_, fun e hdrained => ?_⟩
  · have hsum := received_add_refused h hdrained
    rw [hfit]
    omega
  · have hsum : ((ringsOf roles e).map fun i => (t.ring i).stats.received).sum +
        ((ringsOf roles e).map fun i => t.history.countP (Mark.refusedOn i)).sum =
        ((ringsOf roles e).map fun i => (offeredOn i t.history).length).sum := by
      rw [← List.sum_map_add]
      exact congrArg List.sum
        (List.map_congr_left fun i hi => received_add_refused h (hdrained i hi))
    have hnone : (∀ i ∈ ringsOf roles e, (start ingest capacity).sendsFit i moves = true) ↔
        ((ringsOf roles e).map fun i => t.history.countP (Mark.refusedOn i)).sum = 0 := by
      rw [List.sum_eq_zero_iff, List.forall_mem_map]
      exact forall₂_congr fun i _ => hfit i
    have htotal : t.pipeline.totalUpdates e =
        min ((ringsOf roles e).map fun i => (t.ring i).stats.received).sum (2 ^ 64 - 1) :=
      t.pipeline.totalUpdates_eq e
    rw [htotal, hnone]
    omega

/-- Two events, each dispatched before the next is sent, into a ring of capacity `1`: both are
received. -/
theorem received_iff_drained_in_time :
    let roles : List SubscriptionRole := [.main .one .processed .slots]
    let i : Fin roles.length := ⟨0, by decide⟩
    let event : UInt64 → Event := fun slot => ⟨⟨slot, 0⟩, roles.get i, .slot slot .processed⟩
    ∃ t : Traffic Backend.exact ⟨Unit, fun _ _ => ()⟩ roles,
      (start (IngestState.start Backend.exact ∅ false none) fun _ => ⟨1, Nat.zero_lt_one⟩).run
        [.send i (event 4), .thread (.dispatcher .one false), .send i (event 5),
          .thread (.dispatcher .one false)] = some t ∧
      (t.ring i).stats.received = (offeredOn i t.history).length := by
  intro roles i event
  have hrun : (((start (B := Backend.exact) (R := ⟨Unit, fun _ _ => ()⟩)
      (IngestState.start Backend.exact ∅ false none) fun _ => ⟨1, Nat.zero_lt_one⟩).run
        [.send i (event 4), .thread (.dispatcher .one false), .send i (event 5),
          .thread (.dispatcher .one false)]).map fun t => (t.ring i).queue) = some [] := by decide
  obtain ⟨t, ht, hqueue⟩ := Option.map_eq_some_iff.mp hrun
  exact ⟨t, ht, ((received_iff ht).1 i hqueue).mpr (by decide)⟩

/-- A receiver decodes two events before the dispatcher looks at its ring of capacity `1`, and the
ring is then drained: one event is in the total of the report, the other only counted as dropped. -/
theorem received_lt_offered_burst :
    let roles : List SubscriptionRole := [.main .one .processed .slots]
    let i : Fin roles.length := ⟨0, by decide⟩
    let rx : ReceiverInput → Move roles.length := fun input => .thread (.receiver i input)
    ∃ t : Traffic Backend.exact ⟨Unit, fun _ _ => ()⟩ roles,
      (start (IngestState.start Backend.exact ∅ false none) fun _ => ⟨1, Nat.zero_lt_one⟩).run
        [rx .loadShutdown, rx (.connect (.ok ())), rx (.openSubscription (.ok ())),
          rx .loadShutdown, rx (.next (.event ⟨4, 0⟩ (.slot 4 .processed))),
          rx .loadShutdown, rx (.next (.event ⟨5, 0⟩ (.slot 5 .processed))),
          .thread (.dispatcher .one false)] = some t ∧
      (t.ring i).queue = [] ∧ (offeredOn i t.history).length = 2 ∧
      (t.ring i).stats.dropped = 1 ∧ (t.ring i).stats.received = 1 ∧
      t.pipeline.totalUpdates .one = 1 := by
  intro roles i rx
  have hrun : (((start (B := Backend.exact) (R := ⟨Unit, fun _ _ => ()⟩)
      (IngestState.start Backend.exact ∅ false none) fun _ => ⟨1, Nat.zero_lt_one⟩).run
        [rx .loadShutdown, rx (.connect (.ok ())), rx (.openSubscription (.ok ())),
          rx .loadShutdown, rx (.next (.event ⟨4, 0⟩ (.slot 4 .processed))),
          rx .loadShutdown, rx (.next (.event ⟨5, 0⟩ (.slot 5 .processed))),
          .thread (.dispatcher .one false)]).map fun t => ((t.ring i).queue,
          (offeredOn i t.history).length, (t.ring i).stats, t.pipeline.totalUpdates .one)) =
      some ([], 2, { received := 1, dropped := 1 }, 1) := by decide
  obtain ⟨t, ht, hval⟩ := Option.map_eq_some_iff.mp hrun
  have hval := Prod.mk.inj hval
  have hrest := Prod.mk.inj hval.2
  have hlast := Prod.mk.inj hrest.2
  exact ⟨t, ht, hval.1, hrest.1, congrArg ReceiverStats.dropped hlast.1,
    congrArg ReceiverStats.received hlast.1, hlast.2⟩

end Traffic

end GrpcBench
