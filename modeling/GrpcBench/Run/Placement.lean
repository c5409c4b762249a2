import GrpcBench.Collect.Affinity
import GrpcBench.Library.Finmap
import GrpcBench.Library.RoundRobin
import GrpcBench.Subscribe.Plan

/-!
# Where the receivers run

`run.rs`: `execute` goes through the subscriptions of the plan and spawns a receiver thread for
each.  It numbers the subscriptions of either endpoint as it meets them, in a map from endpoints to
the last number given, and the number decides the core.

* `spawnReceivers`: the loop.
* `idx_spawnReceivers`: the subscriptions of an endpoint are numbered from 0 on, in plan order.
* `receivers_spread`: the cores of an endpoint share its subscriptions evenly.
-/

namespace GrpcBench

/-- A receiver thread as it is spawned. -/
structure ReceiverThread where
  name : String
  role : SubscriptionRole
  idx : ℕ
  core : Option UInt32
  deriving DecidableEq

/-- The spawn loop of `execute`, with the map `idx_in_endpoint`. -/
def spawnReceivers (affinity : AffinityPlan) (idxInEndpoint : Finmap fun _ : EndpointRole => ℕ) :
    List SubscriptionSpec → List ReceiverThread
  | [] => []
  | spec :: specs =>
    let endpointRole := spec.role.endpoint
    let idx := (idxInEndpoint.lookup endpointRole).elim 0 fun c => c + 1
    { name := "grpc-rx-" ++ endpointRole.label ++ "-" ++ toString idx
      role := spec.role
      idx := idx
      core := affinity.coreForSubscription spec.role idx } ::
        spawnReceivers affinity (idxInEndpoint.insert endpointRole idx) specs

variable (affinity : AffinityPlan) (idxInEndpoint : Finmap fun _ : EndpointRole => ℕ)
  (specs : List SubscriptionSpec)

theorem map_role_spawnReceivers :
    (spawnReceivers affinity idxInEndpoint specs).map ReceiverThread.role =
      specs.map SubscriptionSpec.role := by
  induction specs generalizing idxInEndpoint with
  | nil => rfl
  | cons spec specs ih => rw [spawnReceivers, List.map_cons, List.map_cons, ih]

/-- Every thread is pinned by its number. -/
theorem core_of_mem_spawnReceivers {t : ReceiverThread}
    (h : t ∈ spawnReceivers affinity idxInEndpoint specs) :
    t.core = affinity.coreForSubscription t.role t.idx := by
  induction specs generalizing idxInEndpoint with
  | nil => cases h
  | cons spec specs ih =>
    rcases List.mem_cons.mp h with rfl | h
    · rfl
    · exact ih _ h

/-- The threads of an endpoint. -/
def threadsOf (e : EndpointRole) (threads : List ReceiverThread) : List ReceiverThread :=
  threads.filter fun t => t.role.endpoint = e

/-- The next number of an endpoint. -/
def nextIdx (e : EndpointRole) : ℕ :=
  (idxInEndpoint.lookup e).elim 0 fun c => c + 1

/-- **The subscriptions of an endpoint are numbered in plan order,** whatever stands between. -/
theorem idx_spawnReceivers (e : EndpointRole) :
    (threadsOf e (spawnReceivers affinity idxInEndpoint specs)).map ReceiverThread.idx =
      List.range' (nextIdx idxInEndpoint e)
        (specs.countP fun spec => spec.role.endpoint = e) := by
  induction specs generalizing idxInEndpoint with
  | nil => rfl
  | cons spec specs ih =>
    have hnext : nextIdx (idxInEndpoint.insert spec.role.endpoint
        (nextIdx idxInEndpoint spec.role.endpoint)) e =
          nextIdx idxInEndpoint e + if spec.role.endpoint = e then 1 else 0 := by
      rw [nextIdx, Finmap.lookup_insert_ite]
      by_cases he : spec.role.endpoint = e
      · rw [if_pos he.symm, if_pos he, he]
        rfl
      · rw [if_neg (Ne.symm he), if_neg he]
        rfl
    have hrest := ih (idxInEndpoint.insert spec.role.endpoint
      (nextIdx idxInEndpoint spec.role.endpoint))
    rw [hnext] at hrest
    rw [spawnReceivers, threadsOf]
    by_cases he : spec.role.endpoint = e
    · rw [List.filter_cons_of_pos (by simpa using he), List.countP_cons_of_pos (by simpa using he),
        List.map_cons, List.range'_succ, ← he]
      rw [if_pos he, ← he] at hrest
      exact congrArg _ hrest
    · rw [List.filter_cons_of_neg (by simpa using he), List.countP_cons_of_neg (by simpa using he)]
      rw [if_neg he] at hrest
      exact hrest

theorem length_threadsOf (e : EndpointRole) :
    (threadsOf e (spawnReceivers affinity idxInEndpoint specs)).length =
      specs.countP fun spec => spec.role.endpoint = e := by
  rw [← List.length_map ReceiverThread.idx, idx_spawnReceivers, List.length_range']

/-- The pins of an endpoint's threads are those of its numbers. -/
theorem core_spawnReceivers (e : EndpointRole) {t : ReceiverThread}
    (h : t ∈ threadsOf e (spawnReceivers affinity idxInEndpoint specs)) :
    t.core = if (affinity.coresOf e).isEmpty then none
      else (affinity.coresOf e)[t.idx % (affinity.coresOf e).length]? := by
  obtain ⟨hmem, hrole⟩ := List.mem_filter.mp h
  rw [core_of_mem_spawnReceivers affinity idxInEndpoint specs hmem,
    AffinityPlan.coreForSubscription, of_decide_eq_true hrole]

/-- What the spawned threads of an endpoint look like, `cores` being its configured cores. -/
structure Spread (cores : List UInt32) (threads : List ReceiverThread) : Prop where
  numbered : threads.map ReceiverThread.idx = List.range threads.length
  unpinned : cores = [] → ∀ t ∈ threads, t.core = none
  even : ∀ c ∈ cores, (threads.countP fun t => t.core = some c) = threads.length / cores.length ∨
    (threads.countP fun t => t.core = some c) =
      (threads.length + cores.length - 1) / cores.length
  own : ∀ t ∈ threads, ∀ c, t.core = some c → c ∈ cores

/-- **Receivers are spread evenly over the configured cores.**  The threads of the subscriptions of
a plan are those of its endpoints; either endpoint's are numbered from 0 on in plan order, each of
its cores gets its share of them rounded up or down, and none of them is pinned anywhere else. -/
theorem receivers_spread (plan : SubscriptionPlan) (affinity : AffinityPlan)
    (h : ∀ e, (affinity.coresOf e).Nodup) :
    (spawnReceivers affinity ∅ plan.specs).map ReceiverThread.role =
        plan.specs.map SubscriptionSpec.role ∧
      ∀ e, Spread (affinity.coresOf e) (threadsOf e (spawnReceivers affinity ∅ plan.specs)) := by
  refine ⟨map_role_spawnReceivers affinity ∅ plan.specs, fun e => ?_⟩
  have hidx := idx_spawnReceivers affinity ∅ plan.specs e
  have hcore := fun t => core_spawnReceivers affinity ∅ plan.specs e (t := t)
  rw [← length_threadsOf affinity ∅, nextIdx, Finmap.lookup_empty, Option.elim_none,
    ← List.range_eq_range'] at hidx
  generalize threadsOf e (spawnReceivers affinity ∅ plan.specs) = threads at hidx hcore ⊢
  refine ⟨hidx, fun hnil t ht => ?_, fun c hc => ?_, fun t ht c htc => ?_⟩
  · rw [hcore t ht, hnil]
    rfl
  · have hne : (affinity.coresOf e).isEmpty = false := by
      rw [List.isEmpty_eq_false_iff]
      exact List.ne_nil_of_mem hc
    have hturns : (threads.countP fun t => t.core = some c) =
        RoundRobin.turns (affinity.coresOf e) threads.length c := by
      rw [RoundRobin.turns, ← hidx, List.countP_map]
      exact List.countP_congr fun t ht => by
        rw [hcore t ht, hne]
        rfl
    rw [hturns]
    exact RoundRobin.turns_eq_or (h e) hc threads.length
  · rw [hcore t ht] at htc
    split_ifs at htc
    exact List.mem_of_getElem? htc

/-- Three subscriptions of the first endpoint on two cores, and one of the second on one. -/
theorem receivers_spread_cycling :
    let ep : EndpointSpec := ⟨"host1:10000", "t1", false⟩
    let plan : SubscriptionPlan := ⟨[⟨.main .one .processed .slots, ep, buildSlotRequest⟩,
      ⟨.main .one .processed .accounts, ep, buildSlotRequest⟩,
      ⟨.main .two .processed .slots, ep, buildSlotRequest⟩,
      ⟨.entries .one, ep, buildEntriesRequest .processed⟩]⟩
    let affinity : AffinityPlan := ⟨[2, 6], [3], none, none⟩
    (spawnReceivers affinity ∅ plan.specs).map ReceiverThread.role =
        plan.specs.map SubscriptionSpec.role ∧
      ∀ e, Spread (affinity.coresOf e) (threadsOf e (spawnReceivers affinity ∅ plan.specs)) := by
  intro ep plan affinity
  refine receivers_spread plan affinity fun e => ?_
  cases e with
  | one => exact show ([2, 6] : List UInt32).Nodup by decide
  | two => exact show ([3] : List UInt32).Nodup by decide

end GrpcBench
