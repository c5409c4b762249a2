import GrpcBench.Run.Traffic

/-!
# What the trackers see of a run

For the trackers a run of the threads is one sequence of events, whatever the interleaving: the
events dispatched, in the order in which the two dispatchers take them.  The receivers send events
that carry the role of their own subscription, and a ring is drained by the dispatcher of its
endpoint, so every event is observed by the trackers of its own endpoint.

* `Traffic.subscription_of_mem_dispatched`: a dispatched event carries the role of its ring.
* `Pipeline.exists_dispatched`: the trackers of a run, and what the record of each ring has.
-/

namespace GrpcBench

variable {B : Backend} {R : RawSink} {roles : List SubscriptionRole}

/-! ## Roles -/

namespace Pipeline

/-- What a receiver sends carries the role of its subscription. -/
theorem subscription_of_mark {s : Pipeline B R roles} {action : Action roles.length}
    {i : Fin roles.length} {event : Event} {accepted : Bool}
    (h : s.mark (.thread action) = some (.offered i event accepted)) :
    event.subscription = roles.get i := by
  cases action with
  | receiver j input =>
    by_cases hinput : ∃ ts payload, input = .next (.event ts payload)
    · obtain ⟨ts, payload, rfl⟩ := hinput
      cases h
      rfl
    · rw [mark_receiver fun ts payload heq => hinput ⟨ts, payload, heq⟩] at h
      cases h
  | dispatcher e budgetSpent =>
    obtain ⟨j, -, heq⟩ := Option.map_eq_some_iff.mp h
    cases heq
  | requestShutdown => cases h

end Pipeline

/-- A dispatched event has been polled from its ring. -/
theorem mem_dispatchedOn_of_mem_dispatched {n : ℕ} {history : List (Mark n)} {p : Fin n × Event}
    (h : p ∈ dispatched history) : p.2 ∈ dispatchedOn p.1 history := by
  rw [dispatchedOn_eq]
  exact List.mem_filterMap.mpr ⟨p, h, if_pos rfl⟩

/-- A sent event has its mark. -/
theorem exists_offered_of_mem_offeredOn {n : ℕ} {history : List (Mark n)} {i : Fin n}
    {event : Event} (h : event ∈ offeredOn i history) :
    ∃ accepted, .offered i event accepted ∈ history := by
  obtain ⟨mark, hmark, heq⟩ := List.mem_filterMap.mp h
  rcases mark with ⟨j, sent, accepted⟩ | _ | _
  · dsimp only at heq
    split_ifs at heq with hj
    cases heq
    exact ⟨accepted, hj ▸ hmark⟩
  · cases heq
  · cases heq

namespace Traffic

variable {t : Traffic B R roles} {ingest : IngestState B R}
  {capacity : Fin roles.length → { c : ℕ // 0 < c }} {actions : List (Action roles.length)}

theorem subscription_of_offered (h : (start ingest capacity).run (actions.map .thread) = some t)
    {i : Fin roles.length} {event : Event} {accepted : Bool}
    (hmem : .offered i event accepted ∈ t.history) : event.subscription = roles.get i := by
  refine Folds.foldlM_history (P := fun moves (t : Traffic B R roles) =>
    (∀ m ∈ moves, ∃ action, m = .thread action) → ∀ i event accepted,
      .offered i event accepted ∈ t.history → event.subscription = roles.get i)
    (fun _ _ _ _ hin => by cases hin) (fun past t m t' hs hstep hthreads => ?_) h
    (fun m hm => by
      obtain ⟨action, -, heq⟩ := List.mem_map.mp hm
      exact ⟨action, heq.symm⟩) i event accepted hmem
  intro i event accepted hin
  rw [(eq_of_step hstep).2, List.mem_append, Option.mem_toList] at hin
  rcases hin with hin | hin
  · exact hs (fun m hm => hthreads m (List.mem_append_left _ hm)) i event accepted hin
  · obtain ⟨action, rfl⟩ := hthreads m (List.mem_append_right _ (List.mem_singleton_self m))
    exact Pipeline.subscription_of_mark hin

/-- **A dispatched event carries the role of its ring.** -/
theorem subscription_of_mem_dispatched
    (h : (start ingest capacity).run (actions.map .thread) = some t)
    {p : Fin roles.length × Event} (hmem : p ∈ dispatched t.history) :
    p.2.subscription = roles.get p.1 := by
  have hon := mem_dispatchedOn_of_mem_dispatched hmem
  have haccepted : p.2 ∈ acceptedOn p.1 t.history := by
    rw [← (conserved_run h p.1).split]
    exact List.mem_append_left _ hon
  obtain ⟨accepted, hoffered⟩ :=
    exists_offered_of_mem_offeredOn ((acceptedOn_sublist p.1 t.history).subset haccepted)
  exact subscription_of_offered h hoffered

/-- Every event is observed by the trackers of its own endpoint. -/
theorem ingest_eq_ingestAll (h : (start ingest capacity).run (actions.map .thread) = some t) :
    t.pipeline.ingest = ingest.ingestAll ((dispatched t.history).map Prod.snd) := by
  rw [ingest_run h, IngestState.ingestAll, List.foldl_map]
  refine List.foldl_ext _ _ _ fun s p hp => ?_
  rw [← subscription_of_mem_dispatched h hp]
  rfl

end Traffic

/-! ## Runs of the threads -/

namespace Pipeline

/-- **What the trackers see of a run**: a sequence of events with the rings they came from.  Each
event carries the role of its ring, the counter of a ring is the number of its events, and the
events of a ring are those sent into it and accepted, up to those still queued, in order. -/
theorem exists_dispatched {ingest : IngestState B R}
    {capacity : Fin roles.length → { c : ℕ // 0 < c }} {s : Pipeline B R roles}
    {actions : List (Action roles.length)} (h : (spawn ingest capacity).run actions = some s) :
    ∃ (t : Traffic B R roles), t.pipeline = s ∧
      (Traffic.start ingest capacity).run (actions.map .thread) = some t ∧
      s.ingest = ingest.ingestAll ((dispatched t.history).map Prod.snd) ∧
      (∀ p ∈ dispatched t.history, p.2.subscription = roles.get p.1) ∧
      ∀ i, (s.subs i).ring.stats.received = (dispatchedOn i t.history).length ∧
        dispatchedOn i t.history ++ (s.subs i).ring.queue = acceptedOn i t.history := by
  obtain ⟨t, ht, rfl⟩ := Traffic.exists_run_of_pipeline [] h
  exact ⟨t, rfl, ht, Traffic.ingest_eq_ingestAll ht,
    fun p hp => Traffic.subscription_of_mem_dispatched ht hp,
    fun i => ⟨(Traffic.conserved_run ht i).received, (Traffic.conserved_run ht i).split⟩⟩

end Pipeline

end GrpcBench
