import GrpcBench.Run.Pipeline

/-!
# Disconnects and reconnects in the report

A tracker adds to its disconnects and to its reconnect samples when it is told to, by
`recordDisconnect` and `recordReconnect`; no thread of a run ever does.  A receiver counts the end
of a stream in its own statistics and starts over.  So the report of an endpoint lists no disconnect
and has no reconnect sample, in any run, and is what it should be in the runs in which no stream
ends.

* `Action.endsStream`, `streamEnds`, `Pipeline.reopens`: what the report is due.
* `Quiet`, `quiet_run`: a tracker that was never told of anything, in every run.
* `reopens_eq_zero`: where no stream ends, nothing is opened a second time.
* `stabilityReported_iff`: the runs whose report has what is due.
-/

namespace GrpcBench

variable {B : Backend} {R : RawSink} {roles : List SubscriptionRole}

/-! ## What the report is due -/

/-- A stream of the endpoint ends. -/
def Action.endsStream (roles : List SubscriptionRole) (e : EndpointRole) :
    Action roles.length → Bool
  | .receiver i (.next item) => decide ((roles.get i).endpoint = e) && item.endsStream
  | _ => false

/-- The subscription is opened. -/
def Action.opens {n : ℕ} (i : Fin n) : Action n → Bool
  | .receiver j (.openSubscription (.ok ())) => decide (j = i)
  | _ => false

theorem Action.eq_of_opens {n : ℕ} {i : Fin n} {action : Action n} (h : action.opens i = true) :
    action = .receiver i (.openSubscription (.ok ())) := by
  obtain ⟨j, input⟩ | _ | _ := action
  · rcases input with _ | _ | (_ | ⟨⟨⟩⟩) | _ | _ <;> simp [Action.opens] at h
    rw [h]
  · cases h
  · cases h

/-- The number of stream ends on an endpoint. -/
def streamEnds (roles : List SubscriptionRole) (e : EndpointRole)
    (actions : List (Action roles.length)) : ℕ :=
  actions.countP (Action.endsStream roles e)

/-- The next item of interest on a subscription is an event: not the end of its stream. -/
def deliversNext {n : ℕ} (i : Fin n) : List (Action n) → Bool
  | [] => false
  | .receiver j (.next (.event ..)) :: rest => if j = i then true else deliversNext i rest
  | .receiver j (.next (.status _)) :: rest => if j = i then false else deliversNext i rest
  | .receiver j (.next .ended) :: rest => if j = i then false else deliversNext i rest
  | _ :: rest => deliversNext i rest

/-- The number of times a subscription of an endpoint is opened that had been open before, and then
delivers an event. -/
def reopens (roles : List SubscriptionRole) (e : EndpointRole) (past : List (Action roles.length)) :
    List (Action roles.length) → ℕ
  | [] => 0
  | action :: rest =>
    (List.finRange roles.length).countP (fun i => decide ((roles.get i).endpoint = e) &&
      action.opens i && past.any (Action.opens i) && deliversNext i rest) +
    reopens roles e (past ++ [action]) rest

/-- The report of an endpoint has one disconnect per stream end, and one reconnect sample per
re-opened stream that delivers an event. -/
def StabilityReported (e : EndpointRole) (actions : List (Action roles.length))
    (s : Pipeline B R roles) : Prop :=
  (s.stabilitySummary e).disconnects.length = streamEnds roles e actions ∧
    (s.reclaim e).stability.reconnectTtfm.samples.card = reopens roles e [] actions

/-! ## What the report has -/

/-- The tracker has not been told of any disconnect or reconnect. -/
structure Quiet (t : StabilityTracker B) : Prop where
  disconnects : t.disconnects = []
  pending : t.pendingReconnectMonoNs = none
  samples : t.reconnectTtfm.samples = 0

theorem quiet_new (e : EndpointRole) : Quiet (StabilityTracker.new B e) :=
  ⟨rfl, rfl, DistributionDigest.samples_new⟩

theorem Quiet.observe {t : StabilityTracker B} (h : Quiet t) (event : Event) :
    Quiet (t.observe event) := by
  obtain ⟨hpending, hsamples⟩ := t.reconnect_observe event h.pending
  exact ⟨by rw [t.disconnects_observe, h.disconnects], hpending, by rw [hsamples, h.samples]⟩

/-- **No run tells a tracker of a disconnect or a reconnect.** -/
theorem quiet_run {names : Finmap fun _ : Pubkey32 => String} {strict : Bool}
    {rawWriter : Option R.State} {ringCapacity : ℕ} {actions : List (Action roles.length)}
    {s : Pipeline B R roles}
    (h : (Pipeline.start B names strict rawWriter roles ringCapacity).run actions = some s)
    (e : EndpointRole) : Quiet (s.reclaim e).stability := by
  have hinv : Quiet (s.ingest.dispatchers e).stability := by
    refine Folds.foldlM_history (P := fun _ s => Quiet (s.ingest.dispatchers e).stability)
      (quiet_new e) (fun past s action s' hs hstep => ?_) h
    rcases Pipeline.stability_step hstep e with heq | ⟨event, heq⟩
    · rw [heq]
      exact hs
    · rw [heq]
      exact hs.observe event
  unfold Pipeline.reclaim
  split_ifs
  · exact hinv
  · exact quiet_new e

/-! ## Runs in which no stream ends -/

/-- A subscription that has been opened, and whose endpoint has seen no stream end, still has its
open stream, or its receiver is through. -/
theorem settled_run {names : Finmap fun _ : Pubkey32 => String} {strict : Bool}
    {rawWriter : Option R.State} {ringCapacity : ℕ} {actions : List (Action roles.length)}
    {s : Pipeline B R roles}
    (h : (Pipeline.start B names strict rawWriter roles ringCapacity).run actions = some s)
    (i : Fin roles.length) (hopen : actions.any (Action.opens i) = true)
    (hend : actions.any (Action.endsStream roles (roles.get i).endpoint) = false) :
    (s.subs i).Settled := by
  refine Folds.foldlM_history (P := fun past (s : Pipeline B R roles) =>
    past.any (Action.opens i) = true →
    past.any (Action.endsStream roles (roles.get i).endpoint) = false → (s.subs i).Settled)
    (fun hopen => by cases hopen) (fun past s action s' hs hstep hopen hend => ?_) h hopen hend
  rw [List.any_append, Bool.or_eq_true] at hopen
  rw [List.any_append, Bool.or_eq_false_iff] at hend
  have hlast : action.endsStream roles (roles.get i).endpoint = false := by simpa using hend.2
  by_cases hact : action.opens i = true
  · -- this very action opens the subscription
    rw [Action.eq_of_opens hact] at hstep
    obtain ⟨sub, hsub, rfl⟩ := Option.map_eq_some_iff.mp hstep
    show (Function.update s.subs i sub i).Settled
    rw [Function.update_self]
    exact Subscription.settled_of_open hsub
  · have hpast : past.any (Action.opens i) = true := by
      rcases hopen with hopen | hopen
      · exact hopen
      · exact absurd (by simpa using hopen) hact
    have hsettled := hs hpast hend.1
    rcases Pipeline.receiver_step hstep i with heq | ⟨input, rfl, hsub⟩
    · rwa [Subscription.Settled, heq]
    · refine (Subscription.settled_step hsub hsettled fun item hitem => ?_).1
      subst hitem
      simpa [Action.endsStream] using hlast

/-- **Where no stream ends, nothing is opened a second time.** -/
theorem reopens_eq_zero {names : Finmap fun _ : Pubkey32 => String} {strict : Bool}
    {rawWriter : Option R.State} {ringCapacity : ℕ} {actions : List (Action roles.length)}
    {s : Pipeline B R roles}
    (h : (Pipeline.start B names strict rawWriter roles ringCapacity).run actions = some s)
    {e : EndpointRole} (hend : actions.any (Action.endsStream roles e) = false) :
    reopens roles e [] actions = 0 := by
  have hnone : ∀ past action rest, actions = past ++ action :: rest → ∀ i,
      (roles.get i).endpoint = e → action.opens i = true → past.any (Action.opens i) = false := by
    rintro past action rest rfl i he hopen
    by_contra hpast
    rw [Bool.not_eq_false] at hpast
    obtain ⟨s₁, s₂, hrun, hstep⟩ := Folds.exists_of_foldlM_append h
    rw [List.any_append, Bool.or_eq_false_iff] at hend
    have hsettled := settled_run hrun i hpast (he ▸ hend.1)
    rw [Action.eq_of_opens hopen] at hstep
    obtain ⟨sub, hsub, -⟩ := Option.map_eq_some_iff.mp hstep
    exact (Subscription.settled_step hsub hsettled fun item hitem => by cases hitem).2 _ rfl
  suffices hall : ∀ rest past, actions = past ++ rest → reopens roles e past rest = 0 from
    hall actions [] rfl
  intro rest
  induction rest with
  | nil => exact fun past _ => rfl
  | cons action rest ih =>
    intro past heq
    have hrest := ih (past ++ [action]) (by simpa using heq)
    rw [reopens, hrest, add_zero, List.countP_eq_zero]
    intro i _ hi
    simp only [Bool.and_eq_true, decide_eq_true_eq] at hi
    rw [hnone past action rest heq i hi.1.1.1 hi.1.1.2] at hi
    exact absurd hi.1.2 (by simp)

/-! ## The report -/

/-- **Disconnects in the report.**  In every run, the report of an endpoint lists no disconnect and
has no reconnect sample.  It has what is due exactly when no stream of the endpoint ends in the
run. -/
theorem stabilityReported_iff {names : Finmap fun _ : Pubkey32 => String} {strict : Bool}
    {rawWriter : Option R.State} {ringCapacity : ℕ} {actions : List (Action roles.length)}
    {s : Pipeline B R roles}
    (h : (Pipeline.start B names strict rawWriter roles ringCapacity).run actions = some s)
    (e : EndpointRole) :
    ((s.stabilitySummary e).disconnects = [] ∧
      (s.reclaim e).stability.reconnectTtfm.samples = 0) ∧
    (StabilityReported e actions s ↔
      ∀ action ∈ actions, action.endsStream roles e = false) := by
  have hquiet := quiet_run h e
  have hdis : (s.stabilitySummary e).disconnects = [] := hquiet.disconnects
  refine ⟨⟨hdis, hquiet.samples⟩, fun hrep action haction => ?_, fun hnone => ?_⟩
  · have hzero : streamEnds roles e actions = 0 := by
      rw [← hrep.1, hdis, List.length_nil]
    exact Bool.eq_false_iff.mpr (List.countP_eq_zero.mp hzero action haction)
  · have hany : actions.any (Action.endsStream roles e) = false := by
      rw [List.any_eq_false]
      exact fun action haction => by simp [hnone action haction]
    refine ⟨?_, ?_⟩
    · rw [hdis, List.length_nil, streamEnds, eq_comm, List.countP_eq_zero]
      exact fun action haction => by simp [hnone action haction]
    · rw [hquiet.samples, Multiset.card_zero, reopens_eq_zero h hany]

/-- A receiver and a dispatcher through to the shutdown, the stream of the one subscription
delivering an event and not ending: the report has what is due. -/
theorem stabilityReported_open_stream :
    let roles : List SubscriptionRole := [.main .one .processed .slots]
    let rx : ReceiverInput → Action roles.length := .receiver ⟨0, by decide⟩
    let actions : List (Action roles.length) := [rx .loadShutdown, rx (.connect (.ok ())),
      rx (.openSubscription (.ok ())), rx .loadShutdown,
      rx (.next (.event ⟨5, 0⟩ (.slot 9 .processed))), .dispatcher .one false, .requestShutdown,
      rx .loadShutdown]
    ∃ s, (Pipeline.start Backend.exact (R := ⟨Unit, fun _ _ => ()⟩) ∅ false none roles 8).run
        actions = some s ∧ StabilityReported .one actions s := by
  intro roles rx actions
  have hsome : ((Pipeline.start Backend.exact (R := ⟨Unit, fun _ _ => ()⟩) ∅ false none roles 8).run
      actions).isSome = true := by decide
  obtain ⟨s, hs⟩ := Option.isSome_iff_exists.mp hsome
  exact ⟨s, hs, (stabilityReported_iff hs .one).2.mpr (by decide)⟩

/-- One subscription: its stream ends cleanly, is opened again, and delivers an event, which the
dispatcher takes before it exits.  The report lists no disconnect. -/
theorem not_stabilityReported_stream_end :
    let roles : List SubscriptionRole := [.main .one .processed .slots]
    let rx : ReceiverInput → Action roles.length := .receiver ⟨0, by decide⟩
    let connected := [rx .loadShutdown, rx (.connect (.ok ())), rx (.openSubscription (.ok ())),
      rx .loadShutdown]
    let pass : List (Action roles.length) := [.dispatcher .one false, .dispatcher .one false,
      .dispatcher .one false]
    let actions := connected ++ [rx (.next .ended)] ++ connected ++
      [rx (.next (.event ⟨5, 0⟩ (.slot 9 .processed))), .dispatcher .one false, .requestShutdown,
        rx .loadShutdown] ++ pass ++ pass
    ∃ s, (Pipeline.start Backend.exact (R := ⟨Unit, fun _ _ => ()⟩) ∅ false none roles 8).run
        actions = some s ∧ (s.loops .one).point = .exited ∧ streamEnds roles .one actions = 1 ∧
      reopens roles .one [] actions = 1 ∧ (s.stabilitySummary .one).disconnects = [] ∧
      ¬ StabilityReported .one actions s := by
  intro roles rx connected pass actions
  have hpoint : ((Pipeline.start Backend.exact (R := ⟨Unit, fun _ _ => ()⟩) ∅ false none roles
      8).run actions).map (fun s => (s.loops .one).point) = some .exited := by decide
  obtain ⟨s, hs, hexit⟩ := Option.map_eq_some_iff.mp hpoint
  have hdis : (s.stabilitySummary .one).disconnects = [] := (quiet_run hs .one).disconnects
  refine ⟨s, hs, hexit, by decide, by decide, hdis, fun hrep => ?_⟩
  have hlen := hrep.1
  rw [hdis] at hlen
  exact absurd hlen (by decide)

end GrpcBench
