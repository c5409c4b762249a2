import GrpcBench.Matching.Soundness
import GrpcBench.Run.Ingest
import GrpcBench.Subscribe.Plan

/-!
# Slot deliveries

The planner opens one slot subscription per endpoint, so that no slot stage is delivered twice: a
second delivery would overwrite the first one's pending entry with a later timestamp.  But the
request of an entries stream has a slots filter too, and slot updates are matched by their payload,
whatever stream they come from.  So a configuration with an entries endpoint has two subscriptions
with a slots filter, and both deliver the `processed` stage of every slot.

* `SubscriptionPlan.slotSubscriptions_eq`: the subscriptions of an endpoint with a slots filter.
* `Delivered`: the runs in which every subscription delivers every update it selects once.
* `slotDelivery_iff`: the configurations in which no slot stage is delivered twice.
-/

namespace GrpcBench

/-! ## Subscriptions with a slots filter -/

/-- The subscription is on the endpoint, and its request has a slots filter. -/
def SubscriptionSpec.hasSlots (e : EndpointRole) (spec : SubscriptionSpec) : Bool :=
  decide (spec.role.endpoint = e) && decide (spec.request.slots ≠ ∅)

/-- The number of subscriptions of an endpoint with a slots filter. -/
def SubscriptionPlan.slotSubscriptions (plan : SubscriptionPlan) (e : EndpointRole) : ℕ :=
  plan.specs.countP (SubscriptionSpec.hasSlots e)

/-- No entries stream is opened: the run is a solo run, or none is configured. -/
def Config.NoEntriesStream (config : Config) : Prop :=
  config.solo = true ∨ config.entriesEndpoint1 = none ∧ config.entriesEndpoint2 = none

theorem slots_buildMainRequestFor (commitment : Commitment) (programIds : List String)
    (stream : MainStream) :
    (buildMainRequestFor commitment programIds stream).slots ≠ ∅ ↔ stream = .slots := by
  cases stream with
  | slots => exact iff_of_true (by decide : buildSlotRequest.slots ≠ ∅) rfl
  | _ => exact iff_of_false (fun h => h rfl) (by decide)

namespace SubscriptionPlan

variable {config : Config} {programIds : List String} (e : EndpointRole)

/-- A solo plan opens its slot stream once, however often it is listed. -/
theorem countP_soloSpecs (seen streams : List MainStream) :
    (soloSpecs config programIds seen streams).countP (SubscriptionSpec.hasSlots e) ≤
      if .slots ∈ seen then 0 else 1 := by
  induction streams generalizing seen with
  | nil => exact Nat.zero_le _
  | cons stream rest ih =>
    rw [soloSpecs]
    by_cases hseen : stream ∈ seen
    · rw [if_pos hseen]
      exact ih seen
    · have hrest := ih (stream :: seen)
      rw [if_neg hseen, List.countP_cons]
      by_cases hstream : stream = .slots
      · subst hstream
        rw [if_pos List.mem_cons_self] at hrest
        rw [if_neg hseen]
        split_ifs <;> omega
      · have hno : SubscriptionSpec.hasSlots e ⟨.main .one config.firstCommitment stream,
            config.endpoint1, buildMainRequestFor config.firstCommitment programIds stream⟩ =
            false := by
          rw [SubscriptionSpec.hasSlots, Bool.and_eq_false_iff]
          exact Or.inr (decide_eq_false fun h =>
            hstream ((slots_buildMainRequestFor _ _ _).mp h))
        rw [hno, if_neg Bool.false_ne_true]
        simpa [List.mem_cons, Ne.symm hstream] using hrest

theorem countP_commitmentSpecs (endpoint : EndpointRole) (endpointSpec : EndpointSpec)
    (commitment : Commitment) :
    (commitmentSpecs config programIds endpoint endpointSpec commitment).countP
      (SubscriptionSpec.hasSlots e) = 0 := by
  refine List.countP_eq_zero.mpr fun spec hspec h => ?_
  obtain ⟨stream, owners, hstream, rfl⟩ := mem_commitmentSpecs hspec
  rw [SubscriptionSpec.hasSlots, Bool.and_eq_true, decide_eq_true_eq, decide_eq_true_eq] at h
  exact hstream ((slots_buildMainRequestFor _ _ _).mp h.2)

/-- The main subscriptions of an endpoint have one slots filter. -/
theorem countP_mainSpecs (endpoint : EndpointRole) :
    (mainSpecs config programIds endpoint).countP (SubscriptionSpec.hasSlots e) =
      if endpoint = e ∧ (config.endpointSpec endpoint).isSome then 1 else 0 := by
  unfold mainSpecs
  split
  · rename_i hnone
    rw [if_neg fun h => by rw [hnone] at h; cases h.2]
    rfl
  · rename_i endpointSpec hsome
    have hrest : (config.commitments.flatMap
        (commitmentSpecs config programIds endpoint endpointSpec)).countP
        (SubscriptionSpec.hasSlots e) = 0 := by
      refine List.countP_eq_zero.mpr fun spec hspec => ?_
      obtain ⟨commitment, -, hspec⟩ := List.mem_flatMap.mp hspec
      exact List.countP_eq_zero.mp (countP_commitmentSpecs e endpoint endpointSpec commitment)
        spec hspec
    have hfilter : decide (buildSlotRequest.slots ≠ ∅) = true := by decide
    rw [List.countP_cons, hrest, hsome, Nat.zero_add, SubscriptionSpec.hasSlots, hfilter]
    by_cases he : endpoint = e
    · simp [SubscriptionRole.endpoint, he]
    · simp [SubscriptionRole.endpoint, he]

/-- And so has an entries subscription. -/
theorem countP_entriesSpecs (endpoint : EndpointRole) :
    (entriesSpecs config endpoint).countP (SubscriptionSpec.hasSlots e) =
      if endpoint = e ∧ (config.entriesSpec endpoint).isSome then 1 else 0 := by
  unfold entriesSpecs
  split
  · rename_i hnone
    rw [if_neg fun h => by rw [hnone] at h; cases h.2]
    rfl
  · rename_i ep hsome
    have hfilter : decide ((buildEntriesRequest config.firstCommitment).slots ≠ ∅) = true := by
      cases config.firstCommitment <;> decide
    rw [List.countP_cons, List.countP_nil, hsome, Nat.zero_add, SubscriptionSpec.hasSlots, hfilter]
    by_cases he : endpoint = e
    · simp [SubscriptionRole.endpoint, he]
    · simp [SubscriptionRole.endpoint, he]

/-- Outside of `--solo`, the subscriptions of an endpoint with a slots filter are its slot
subscription and its entries subscription. -/
theorem slotSubscriptions_eq (programs : ProgramSet) (hsolo : config.solo = false) :
    (fromRunConfig config programs).slotSubscriptions e =
      (if (config.endpointSpec e).isSome then 1 else 0) +
        if (config.entriesSpec e).isSome then 1 else 0 := by
  rw [slotSubscriptions, fromRunConfig, hsolo]
  simp only [Bool.false_eq_true, if_false, List.countP_append, countP_mainSpecs,
    countP_entriesSpecs]
  cases e <;> simp

/-- **At most one subscription of an endpoint has a slots filter** exactly when no entries stream is
opened. -/
theorem slotSubscriptions_le_one_iff (h : config.Validated) (programs : ProgramSet) :
    (∀ e, (fromRunConfig config programs).slotSubscriptions e ≤ 1) ↔ config.NoEntriesStream := by
  have hsecond := h.endpoint2_isSome
  cases hsolo : config.solo with
  | true =>
    refine iff_of_true (fun e => ?_) (Or.inl hsolo)
    rw [slotSubscriptions, fromRunConfig, hsolo]
    exact countP_soloSpecs e [] config.soloStreams
  | false =>
    rw [hsolo] at hsecond
    have hboth : ∀ e, (config.endpointSpec e).isSome = true := by
      rintro (_ | _)
      · rfl
      · exact hsecond
    have hcount (e : EndpointRole) : (fromRunConfig config programs).slotSubscriptions e ≤ 1 ↔
        config.entriesSpec e = none := by
      rw [slotSubscriptions_eq e programs hsolo, hboth e, if_pos rfl]
      cases config.entriesSpec e <;> simp
    rw [Config.NoEntriesStream, hsolo, eq_false Bool.false_ne_true, false_or]
    refine ⟨fun hall => ⟨(hcount .one).mp (hall .one), (hcount .two).mp (hall .two)⟩,
      fun hall e => (hcount e).mpr ?_⟩
    cases e with
    | one => exact hall.1
    | two => exact hall.2

end SubscriptionPlan

/-! ## Runs -/

/-- The slot and the stage of a slot update. -/
def Event.slotUpdate (event : Event) : Option (UInt64 × SlotStage) :=
  match event.payload with
  | .slot slot stage => some (slot, stage)
  | _ => none

/-- The slot updates that come in on an endpoint: what the slot matcher observes of it, and its
tracker. -/
def slotUpdatesOn (e : EndpointRole) (events : List Event) : List (UInt64 × SlotStage) :=
  events.filterMap fun event => if event.endpoint = e then event.slotUpdate else none

/-- The slot updates that a subscription delivers. -/
def deliveredBy {n : ℕ} (i : Fin n) (run : List (Fin n × Event)) : List (UInt64 × SlotStage) :=
  run.filterMap fun p => if p.1 = i then p.2.slotUpdate else none

/-- A slots filter of the request selects the stage; `carries` is what the server makes of it. -/
def SubscribeRequest.selects (carries : SubscribeRequestFilterSlots → SlotStage → Bool)
    (request : SubscribeRequest) (stage : SlotStage) : Bool :=
  request.slots.any fun _ filter => carries filter stage

/-- A run, of which `updates` are the slot updates: every subscription of the plan delivers each
update that its filter selects, once, under its own role. -/
structure Delivered (carries : SubscribeRequestFilterSlots → SlotStage → Bool)
    (plan : SubscriptionPlan) (updates : Set (UInt64 × SlotStage))
    (run : List (Fin plan.specs.length × Event)) : Prop where
  role : ∀ p ∈ run, p.2.subscription = (plan.specs.get p.1).role
  once : ∀ i, (deliveredBy i run).Nodup
  selected : ∀ i u, u ∈ deliveredBy i run ↔
    u ∈ updates ∧ (plan.specs.get i).request.selects carries u.2 = true

/-- Every slot stage is observed at most once per endpoint, and no pending entry of the slot matcher
is replaced. -/
structure ObservedOnce (B : Backend) (names : Finmap fun _ : Pubkey32 => String) (strict : Bool)
    (events : List Event) : Prop where
  once : ∀ e, (slotUpdatesOn e events).Nodup
  kept : ∀ past event rest stage c m, events = past ++ event :: rest →
    event.slotCall stage = some c →
    (dispatchAll (StreamMatchers.start B names strict) past).slots.matcherFor stage = some m →
    isReplaced (m.foundWith batched c) = false

variable {B : Backend}

/-! ## What is observed once is never replaced -/

section Kept

variable {K : Type} [DecidableEq K]

/-- The matcher that a run ends in is sound, and what is pending in it is there by a call of the
run, of its key and endpoint. -/
theorem PairMatcher.pending_run (cs : List (Call K)) :
    ((PairMatcher.new B K matchWindow).run cs).2.Sound ∧
      ∀ e k p, (((PairMatcher.new B K matchWindow).run cs).2.pending e).lookup k = some p →
        ∃ c ∈ cs, c.endpoint = e ∧ c.key = k := by
  rw [PairMatcher.run, PairMatcher.runWith_eq_foldl]
  refine Folds.foldl_invariant (P := fun m : PairMatcher B K => m.Sound ∧
    ∀ e k p, (m.pending e).lookup k = some p → ∃ c ∈ cs, c.endpoint = e ∧ c.key = k)
    (fun m c hc hm => ⟨hm.1.step c, fun e k p hp => ?_⟩)
    ⟨PairMatcher.Sound.new, fun e k p hp => ?_⟩
  · rcases hm.1.lookup_stepWith c hp with ⟨hk, he, -⟩ | ⟨hp, -⟩
    · exact ⟨c, hc, he, hk⟩
    · exact hm.2 e k p hp
  · rw [PairMatcher.pending_new, Finmap.lookup_empty] at hp
    cases hp

/-- An entry that is replaced was pending, under the same key and endpoint. -/
theorem PairMatcher.Sound.exists_of_isReplaced {m : PairMatcher B K} (h : m.Sound) {c : Call K}
    (hrep : isReplaced (m.foundWith batched c) = true) :
    ∃ p, (m.pending c.endpoint).lookup c.key = some p := by
  obtain ⟨old, hold⟩ := (PairMatcher.replaces_iff batched m c).mpr hrep
  unfold PairMatcher.outcome at hold
  split at hold
  · cases hold
  · split at hold
    · rename_i old' hlook
      exact ⟨old', h.lookup_of_admit hlook⟩
    · cases hold

end Kept

theorem Event.of_slotCall {stage : SlotStage} {event : Event} {c : Call UInt64}
    (h : event.slotCall stage = some c) :
    event.slotUpdate = some (c.key, stage) ∧ event.endpoint = c.endpoint := by
  unfold Event.slotCall at h
  unfold Event.slotUpdate
  cases hp : event.payload with
  | slot slot s =>
    rw [hp] at h
    dsimp only at h ⊢
    split_ifs at h with hs
    cases h
    exact ⟨by rw [hs], rfl⟩
  | _ =>
    rw [hp] at h
    cases h

theorem slotUpdatesOn_append (e : EndpointRole) (events events' : List Event) :
    slotUpdatesOn e (events ++ events') = slotUpdatesOn e events ++ slotUpdatesOn e events' :=
  List.filterMap_append

/-- **What is observed once is never replaced.** -/
theorem observedOnce_iff (names : Finmap fun _ : Pubkey32 => String) (strict : Bool)
    (events : List Event) :
    ObservedOnce B names strict events ↔ ∀ e, (slotUpdatesOn e events).Nodup := by
  refine ⟨ObservedOnce.once, fun honce => ⟨honce, ?_⟩⟩
  rintro past event rest stage c m rfl hcall hm
  obtain ⟨hupdate, hendpoint⟩ := Event.of_slotCall hcall
  by_contra hrep
  rw [Bool.not_eq_false] at hrep
  -- the matcher of the stage, after a run over the calls of `past`
  obtain ⟨m₀, hm₀, rfl⟩ : ∃ m₀, m₀ = PairMatcher.new B UInt64 matchWindow ∧
      m = (m₀.run (past.filterMap (Event.slotCall stage))).2 := by
    rw [matcherFor_dispatchAll] at hm
    cases stage with
    | dead => cases hm
    | _ => exact ⟨_, rfl, (Option.some.inj hm).symm⟩
  subst hm₀
  obtain ⟨hsound, hpending⟩ :=
    PairMatcher.pending_run (B := B) (past.filterMap (Event.slotCall stage))
  obtain ⟨p, hp⟩ := hsound.exists_of_isReplaced hrep
  obtain ⟨c', hc', he, hk⟩ := hpending _ _ _ hp
  obtain ⟨event', hevent', hcall'⟩ := List.mem_filterMap.mp hc'
  obtain ⟨hupdate', hendpoint'⟩ := Event.of_slotCall hcall'
  have hpast : (c.key, stage) ∈ slotUpdatesOn c.endpoint past := by
    refine List.mem_filterMap.mpr ⟨event', hevent', ?_⟩
    rw [if_pos (hendpoint'.trans he), hupdate', hk]
  have hnow : slotUpdatesOn c.endpoint (event :: rest) =
      (c.key, stage) :: slotUpdatesOn c.endpoint rest := by
    rw [slotUpdatesOn, List.filterMap_cons, if_pos hendpoint, hupdate]
    rfl
  have hnodup := honce c.endpoint
  rw [slotUpdatesOn_append, hnow] at hnodup
  exact (List.disjoint_of_nodup_append hnodup) hpast List.mem_cons_self

/-! ## What is delivered once is observed once -/

/-- Two members of a list with a property that at most one of them has are the same one. -/
theorem get_unique_of_countP_le_one {α : Type*} {p : α → Bool} {l : List α} (h : l.countP p ≤ 1)
    {i j : Fin l.length} (hi : p (l.get i) = true) (hj : p (l.get j) = true) : i = j := by
  induction l with
  | nil => exact i.elim0
  | cons a l ih =>
    rw [List.countP_cons] at h
    have hzero : p a = true → ∀ k : Fin l.length, p (l.get k) = false := by
      intro ha k
      rw [if_pos ha] at h
      have hnone := List.countP_eq_zero.mp (Nat.le_zero.mp (Nat.le_of_succ_le_succ h)) _
        (l.get_mem k)
      simpa using hnone
    rcases i with ⟨_ | i, hlt⟩ <;> rcases j with ⟨_ | j, hlt'⟩
    · rfl
    · have hk := hzero hi ⟨j, Nat.lt_of_succ_lt_succ hlt'⟩
      exact absurd (hj.symm.trans hk) (by decide)
    · have hk := hzero hj ⟨i, Nat.lt_of_succ_lt_succ hlt⟩
      exact absurd (hi.symm.trans hk) (by decide)
    · have heq := ih (i := ⟨i, Nat.lt_of_succ_lt_succ hlt⟩) (j := ⟨j, Nat.lt_of_succ_lt_succ hlt'⟩)
        (le_trans (Nat.le_add_right _ _) h) hi hj
      simpa using heq

variable {carries : SubscribeRequestFilterSlots → SlotStage → Bool} {plan : SubscriptionPlan}
  {updates : Set (UInt64 × SlotStage)} {run : List (Fin plan.specs.length × Event)}
  {e : EndpointRole}

/-- A slot update comes from a subscription of its endpoint with a slots filter. -/
theorem Delivered.hasSlots (h : Delivered carries plan updates run) {p} (hp : p ∈ run)
    (he : p.2.endpoint = e) {u : UInt64 × SlotStage} (hu : p.2.slotUpdate = some u) :
    (plan.specs.get p.1).hasSlots e = true := by
  have hmem : u ∈ deliveredBy p.1 run := List.mem_filterMap.mpr ⟨p, hp, by rw [if_pos rfl, hu]⟩
  have hsel := ((h.selected p.1 u).mp hmem).2
  rw [SubscriptionSpec.hasSlots, Bool.and_eq_true, decide_eq_true_eq, decide_eq_true_eq]
  refine ⟨?_, fun hnone => ?_⟩
  · rw [← h.role p hp]
    exact he
  · rw [SubscribeRequest.selects, hnone] at hsel
    cases hsel

/-- **With at most one slots filter on an endpoint**, what is delivered once is observed once. -/
theorem Delivered.nodup (h : Delivered carries plan updates run)
    (hone : plan.slotSubscriptions e ≤ 1) : (slotUpdatesOn e (run.map Prod.snd)).Nodup := by
  rw [slotUpdatesOn, List.filterMap_map]
  rcases hl : run.filterMap ((fun event => if event.endpoint = e then event.slotUpdate else none) ∘
      Prod.snd) with _ | ⟨u, l⟩
  · rw [hl]
    exact List.nodup_nil
  · -- every update of the endpoint comes from the subscription of this one
    obtain ⟨p₀, hp₀, hu⟩ := List.mem_filterMap.mp
      (show u ∈ run.filterMap _ from hl ▸ List.mem_cons_self)
    dsimp only [Function.comp] at hu
    split_ifs at hu with he₀
    have hsame : run.filterMap ((fun event =>
        if event.endpoint = e then event.slotUpdate else none) ∘ Prod.snd) =
        deliveredBy p₀.1 run := by
      refine List.filterMap_congr fun p hp => ?_
      dsimp only [Function.comp]
      by_cases hi : p.1 = p₀.1
      · have he : p.2.endpoint = e := by
          rw [← he₀, Event.endpoint, Event.endpoint, h.role p hp, h.role p₀ hp₀, hi]
        rw [if_pos he, if_pos hi]
      · rw [if_neg hi]
        split_ifs with he
        · by_contra hne
          obtain ⟨v, hv⟩ := Option.ne_none_iff_exists'.mp hne
          exact hi (get_unique_of_countP_le_one hone (h.hasSlots hp he hv) (h.hasSlots hp₀ he₀ hu))
        · rfl
    rw [hsame]
    exact h.once p₀.1

/-! ## A run that delivers twice -/

/-- One slot update: the `processed` stage of slot `0`, under the role of a subscription. -/
def processedZero (role : SubscriptionRole) : Event :=
  ⟨⟨0, 0⟩, role, .slot 0 .processed⟩

section Twice

/-- The subscriptions of a plan that select the `processed` stage. -/
def processedSubscriptions (carries : SubscribeRequestFilterSlots → SlotStage → Bool)
    (plan : SubscriptionPlan) : List (Fin plan.specs.length) :=
  (List.finRange plan.specs.length).filter fun i =>
    (plan.specs.get i).request.selects carries .processed

/-- Every one of them delivers it. -/
def processedRun (carries : SubscribeRequestFilterSlots → SlotStage → Bool)
    (plan : SubscriptionPlan) : List (Fin plan.specs.length × Event) :=
  (processedSubscriptions carries plan).map fun i =>
    (i, processedZero (plan.specs.get i).role)

theorem mem_processedSubscriptions {i : Fin plan.specs.length} :
    i ∈ processedSubscriptions carries plan ↔
      (plan.specs.get i).request.selects carries .processed = true := by
  simp [processedSubscriptions]

theorem nodup_processedSubscriptions : (processedSubscriptions carries plan).Nodup :=
  (List.nodup_finRange _).filter _

theorem deliveredBy_processedRun (i : Fin plan.specs.length) :
    deliveredBy i (processedRun carries plan) =
      List.replicate ((processedSubscriptions carries plan).count i) (0, .processed) := by
  rw [deliveredBy, processedRun, List.filterMap_map]
  induction processedSubscriptions carries plan with
  | nil => rfl
  | cons j l ih =>
    by_cases hj : j = i
    · subst hj
      rw [List.filterMap_cons_some (b := (0, .processed))
        (by simp [processedZero, Event.slotUpdate]), ih, List.count_cons_self]
      rfl
    · rw [List.filterMap_cons_none (by simp [hj]), ih, List.count_cons_of_ne hj]

theorem delivered_processedRun :
    Delivered carries plan {(0, .processed)} (processedRun carries plan) := by
  refine ⟨fun p hp => ?_, fun i => ?_, fun i u => ?_⟩
  · obtain ⟨i, -, rfl⟩ := List.mem_map.mp hp
    rfl
  · rw [deliveredBy_processedRun, List.nodup_replicate]
    exact List.nodup_iff_count_le_one.mp nodup_processedSubscriptions i
  · rw [deliveredBy_processedRun, List.mem_replicate, ne_eq, List.count_eq_zero, not_not,
      mem_processedSubscriptions, Set.mem_singleton_iff]
    refine ⟨fun h => ⟨h.2, h.2 ▸ h.1⟩, fun h => ⟨?_, h.1⟩⟩
    have hsel := h.2
    rwa [h.1] at hsel

/-- Two subscriptions of an endpoint that select the stage deliver it twice. -/
theorem not_nodup_processedRun {i j : Fin plan.specs.length} (hij : i ≠ j)
    (hi : (plan.specs.get i).request.selects carries .processed = true)
    (hj : (plan.specs.get j).request.selects carries .processed = true)
    (hei : (plan.specs.get i).role.endpoint = e) (hej : (plan.specs.get j).role.endpoint = e) :
    ¬ (slotUpdatesOn e ((processedRun carries plan).map Prod.snd)).Nodup := by
  have hupdates : slotUpdatesOn e ((processedRun carries plan).map Prod.snd) =
      ((processedSubscriptions carries plan).filter fun i =>
        (plan.specs.get i).role.endpoint = e).map fun _ => (0, .processed) := by
    rw [slotUpdatesOn, processedRun, List.map_map, List.filterMap_map]
    induction processedSubscriptions carries plan with
    | nil => rfl
    | cons k l ih =>
      by_cases hk : (plan.specs.get k).role.endpoint = e
      · rw [List.filterMap_cons_some (b := (0, .processed)) (by exact if_pos hk), ih,
          List.filter_cons_of_pos (by simpa using hk)]
        rfl
      · rw [List.filterMap_cons_none (by exact if_neg hk), ih,
          List.filter_cons_of_neg (by simpa using hk)]
  have hmem : ∀ {k : Fin plan.specs.length}, (plan.specs.get k).role.endpoint = e →
      (plan.specs.get k).request.selects carries .processed = true →
      k ∈ (processedSubscriptions carries plan).filter fun i =>
        (plan.specs.get i).role.endpoint = e := by
    intro k hk hsel
    rw [List.mem_filter]
    exact ⟨mem_processedSubscriptions.mpr hsel, by simpa using hk⟩
  intro hnodup
  rw [hupdates] at hnodup
  exact hij (List.inj_on_of_nodup_map hnodup (hmem hei hi) (hmem hej hj) rfl)

end Twice

/-! ## Configurations -/

/-- The slot subscription of an endpoint selects the stage. -/
theorem selects_buildSlotRequest
    (h : ∀ interslot, carries ⟨some false, interslot⟩ .processed = true) :
    buildSlotRequest.selects carries .processed = true := h (some true)

/-- And so does its entries subscription. -/
theorem selects_buildEntriesRequest
    (h : ∀ interslot, carries ⟨some false, interslot⟩ .processed = true) (commitment : Commitment) :
    (buildEntriesRequest commitment).selects carries .processed = true := h (some false)

/-- With an entries stream, an endpoint has its slot subscription and its entries subscription. -/
theorem SubscriptionPlan.exists_two {config : Config} (programs : ProgramSet)
    (hsolo : config.solo = false) {e : EndpointRole} (hmain : (config.endpointSpec e).isSome = true)
    (hentries : (config.entriesSpec e).isSome = true) :
    ∃ i j : Fin (fromRunConfig config programs).specs.length, i ≠ j ∧
      ((fromRunConfig config programs).specs.get i).role.endpoint = e ∧
      ((fromRunConfig config programs).specs.get j).role.endpoint = e ∧
      ((fromRunConfig config programs).specs.get i).request = buildSlotRequest ∧
      ((fromRunConfig config programs).specs.get j).request =
        buildEntriesRequest config.firstCommitment := by
  obtain ⟨mainSpec, hmain⟩ := Option.isSome_iff_exists.mp hmain
  obtain ⟨entriesSpec, hentries⟩ := Option.isSome_iff_exists.mp hentries
  have hslot : (⟨.main e config.firstCommitment .slots, mainSpec, buildSlotRequest⟩ :
      SubscriptionSpec) ∈ (fromRunConfig config programs).specs := by
    have hmem : (⟨.main e config.firstCommitment .slots, mainSpec, buildSlotRequest⟩ :
        SubscriptionSpec) ∈ mainSpecs config programs.programIds e := by
      rw [mainSpecs, hmain]
      exact List.mem_cons_self
    rw [fromRunConfig, hsolo]
    cases e <;> simp [hmem]
  have hentry : (⟨.entries e, entriesSpec, buildEntriesRequest config.firstCommitment⟩ :
      SubscriptionSpec) ∈ (fromRunConfig config programs).specs := by
    have hmem : (⟨.entries e, entriesSpec, buildEntriesRequest config.firstCommitment⟩ :
        SubscriptionSpec) ∈ SubscriptionPlan.entriesSpecs config e := by
      rw [SubscriptionPlan.entriesSpecs, hentries]
      exact List.mem_cons_self
    rw [fromRunConfig, hsolo]
    cases e <;> simp [hmem]
  obtain ⟨i, hi⟩ := List.mem_iff_get.mp hslot
  obtain ⟨j, hj⟩ := List.mem_iff_get.mp hentry
  refine ⟨i, j, ?_, by rw [hi]; rfl, by rw [hj]; rfl, by rw [hi], by rw [hj]⟩
  rintro rfl
  rw [hi] at hj
  cases congrArg SubscriptionSpec.role hj

/-- **Slot deliveries.**  For a validated configuration and every program set, an endpoint has at
most one subscription with a slots filter if and only if no entries stream is opened.  And if and
only if that is so, in every run in which the subscriptions deliver every update they select once,
no slot stage is observed twice on an endpoint and no pending slot entry is replaced.  The server
sends the `processed` stage whatever the `interslot_updates` of a filter without
`filter_by_commitment`. -/
theorem slotDelivery_iff {config : Config} (h : config.Validated) (programs : ProgramSet)
    (names : Finmap fun _ : Pubkey32 => String) (strict : Bool)
    (hcarries : ∀ interslot, carries ⟨some false, interslot⟩ .processed = true) :
    ((∀ e, (SubscriptionPlan.fromRunConfig config programs).slotSubscriptions e ≤ 1) ↔
      config.NoEntriesStream) ∧
    ((∀ updates run,
        Delivered carries (SubscriptionPlan.fromRunConfig config programs) updates run →
          ObservedOnce B names strict (run.map Prod.snd)) ↔ config.NoEntriesStream) := by
  have hcount := SubscriptionPlan.slotSubscriptions_le_one_iff h programs
  refine ⟨hcount, fun hall => ?_, fun hnone updates run hrun => ?_⟩
  · by_contra hstream
    have hsecond := h.endpoint2_isSome
    rw [Config.NoEntriesStream, not_or, Bool.not_eq_true] at hstream
    rw [hstream.1] at hsecond
    obtain ⟨e, he⟩ : ∃ e, (config.entriesSpec e).isSome = true := by
      by_contra hno
      rw [not_exists] at hno
      exact hstream.2 ⟨by simpa [Config.entriesSpec] using hno .one,
        by simpa [Config.entriesSpec] using hno .two⟩
    have hmain : (config.endpointSpec e).isSome = true := by
      cases e with
      | one => rfl
      | two => exact hsecond
    obtain ⟨i, j, hij, hei, hej, hi, hj⟩ :=
      SubscriptionPlan.exists_two programs hstream.1 hmain he
    refine not_nodup_processedRun hij ?_ ?_ hei hej
      ((hall _ (processedRun carries _) delivered_processedRun).once e)
    · rw [hi]
      exact selects_buildSlotRequest hcarries
    · rw [hj]
      exact selects_buildEntriesRequest hcarries _
  · rw [observedOnce_iff]
    exact fun e => hrun.nodup (hcount.mpr hnone e)

/-- What the filters of the harness select: the commitment stages, and with `interslot_updates` the
others too. -/
def serverCarries (filter : SubscribeRequestFilterSlots) (stage : SlotStage) : Bool :=
  filter.interslotUpdates = some true || stage ∈ [.processed, .confirmed, .finalized]

/-- The default options and no entries stream: what is delivered once is observed once. -/
theorem slotDelivery_iff_default : ∃ config, Config.fromCli .base = .ok config ∧
    ∀ updates run,
      Delivered serverCarries (SubscriptionPlan.fromRunConfig config .system) updates run →
      ObservedOnce Backend.exact ∅ false (run.map Prod.snd) :=
  ⟨_, rfl, (slotDelivery_iff ⟨.base, rfl⟩ .system ∅ false fun interslot => by
    simp [serverCarries]).2.mpr (Or.inr ⟨rfl, rfl⟩)⟩

/-- The default options with an entries stream on endpoint 1.  Two of its subscriptions have a slots
filter; both deliver the `processed` stage of slot `0`, and the second delivery replaces the pending
entry of the first. -/
theorem not_observedOnce_entries_stream :
    let cli : Cli := { Cli.base with
      entriesEndpoint1 := some "host1:10001", entriesXToken1 := some "t1" }
    ∃ config, Config.fromCli cli = .ok config ∧
      let plan := SubscriptionPlan.fromRunConfig config .system
      plan.slotSubscriptions .one = 2 ∧
      Delivered serverCarries plan {(0, .processed)} (processedRun serverCarries plan) ∧
      slotUpdatesOn .one ((processedRun serverCarries plan).map Prod.snd) =
        [(0, .processed), (0, .processed)] ∧
      ¬ ObservedOnce Backend.exact ∅ false ((processedRun serverCarries plan).map Prod.snd) := by
  intro cli
  refine ⟨_, rfl, ?_⟩
  intro plan
  have htwice : slotUpdatesOn .one ((processedRun serverCarries plan).map Prod.snd) =
      [(0, .processed), (0, .processed)] := by decide
  refine ⟨by decide, delivered_processedRun, htwice, fun h => ?_⟩
  have hnodup := h.once .one
  rw [htwice] at hnodup
  exact absurd hnodup (by decide)

end GrpcBench
