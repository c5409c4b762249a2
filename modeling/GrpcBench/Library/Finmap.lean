import Mathlib.Data.Finmap
import Mathlib.Algebra.BigOperators.Group.Finset.Basic
import Mathlib.Algebra.BigOperators.Group.Finset.Piecewise
import Mathlib.Algebra.Order.BigOperators.Group.Finset
import Mathlib.Tactic.Abel

/-!
# Finite maps as hash maps

Mathlib's `Finmap` is a finite map without an order on its entries, which is what a hash map is to
a program that never relies on its iteration order.  This file adds the operations of a hash map
that Mathlib does not have, for maps whose values all have one type:

* `size`: the number of entries;
* `retain`: drop the entries that fail a test, with `lookup_retain`;
* `mapVals`: update every value in place, with `lookup_mapVals`; it commutes with the other updates
  (`mapVals_insert`, `mapVals_erase`, `mapVals_retain`);
* `total`: the sum of a quantity over the entries, with `total_insert_add` and `total_erase_add`,
  which say how one update changes the sum;
* `Enumeration`: an order in which an iterator may visit the entries;
* `sum_fibers`: a sum over a list, grouped by a key;
* `collect`: the map a loop builds when it inserts one entry after the other, a later entry taking
  the place of an earlier one.  `total_collect_eq_iff` says when nothing is lost on the way.
-/

namespace Finmap

universe u v w

variable {α : Type u} {β : Type v} {γ : Type w}

/-! ## Size -/

/-- The number of entries of a map. -/
def size (m : Finmap fun _ : α => β) : ℕ :=
  m.keys.card

@[simp] theorem size_empty : (∅ : Finmap fun _ : α => β).size = 0 := by
  simp [size]

section DecEq

variable [DecidableEq α]

theorem keys_insert_eq (m : Finmap fun _ : α => β) (k : α) (v : β) :
    (m.insert k v).keys = Insert.insert k m.keys := by
  ext x
  rw [mem_keys, mem_insert, Finset.mem_insert, mem_keys]

theorem size_insert_of_mem {m : Finmap fun _ : α => β} {k : α} (h : k ∈ m) (v : β) :
    (m.insert k v).size = m.size := by
  rw [size, keys_insert_eq, Finset.insert_eq_of_mem (mem_keys.mpr h), size]

theorem size_insert_of_notMem {m : Finmap fun _ : α => β} {k : α} (h : k ∉ m) (v : β) :
    (m.insert k v).size = m.size + 1 := by
  rw [size, keys_insert_eq, Finset.card_insert_of_notMem (fun hk => h (mem_keys.mp hk)), size]

theorem size_erase_of_mem {m : Finmap fun _ : α => β} {k : α} (h : k ∈ m) :
    (m.erase k).size + 1 = m.size := by
  rw [size, keys_erase, Finset.card_erase_add_one (mem_keys.mpr h), size]

/-- Two lookups at a time: what an insertion leaves at every key. -/
theorem lookup_insert_ite (m : Finmap fun _ : α => β) (k x : α) (v : β) :
    (m.insert k v).lookup x = if x = k then some v else m.lookup x := by
  by_cases h : x = k
  · rw [if_pos h, h, lookup_insert]
  · rw [if_neg h, lookup_insert_of_ne m h]

/-- Two lookups at a time: what a removal leaves at every key. -/
theorem lookup_erase_ite (m : Finmap fun _ : α => β) (k x : α) :
    (m.erase k).lookup x = if x = k then none else m.lookup x := by
  by_cases h : x = k
  · rw [if_pos h, h, lookup_erase]
  · rw [if_neg h, lookup_erase_ne h]

end DecEq

/-! ## Retaining entries -/

theorem nodupKeys_filter {s : Multiset (Sigma fun _ : α => β)} (h : s.NodupKeys)
    (p : (Sigma fun _ : α => β) → Bool) : (s.filter fun e => p e = true).NodupKeys := by
  rw [← Multiset.nodup_keys] at h ⊢
  exact Multiset.nodup_of_le (Multiset.map_le_map (Multiset.filter_le _ s)) h

/-- Keep the entries that pass the test `p` and drop the others. -/
def retain (p : α → β → Bool) (m : Finmap fun _ : α => β) : Finmap fun _ : α => β :=
  ⟨m.entries.filter fun e => p e.1 e.2 = true, nodupKeys_filter m.nodupKeys fun e => p e.1 e.2⟩

variable [DecidableEq α]

theorem lookup_retain (p : α → β → Bool) (m : Finmap fun _ : α => β) (k : α) :
    (m.retain p).lookup k = (m.lookup k).filter (p k) := by
  ext v
  rw [← Option.mem_def, mem_lookup_iff, retain, Multiset.mem_filter, Option.filter_eq_some_iff,
    ← Option.mem_def, mem_lookup_iff]

theorem keys_retain_subset (p : α → β → Bool) (m : Finmap fun _ : α => β) :
    (m.retain p).keys ⊆ m.keys := by
  intro k hk
  rw [mem_keys, mem_iff] at hk ⊢
  obtain ⟨v, hv⟩ := hk
  rw [lookup_retain, Option.filter_eq_some_iff] at hv
  exact ⟨v, hv.1⟩

theorem size_retain_le (p : α → β → Bool) (m : Finmap fun _ : α => β) :
    (m.retain p).size ≤ m.size :=
  Finset.card_le_card (keys_retain_subset p m)

/-! ## Updating every value -/

omit [DecidableEq α] in
theorem keys_map_sigma (f : α → β → γ) (s : Multiset (Sigma fun _ : α => β)) :
    Multiset.keys (s.map fun e => (⟨e.1, f e.1 e.2⟩ : Sigma fun _ : α => γ)) = s.keys := by
  rw [Multiset.keys, Multiset.keys, Multiset.map_map]
  rfl

/-- Replace every value `v` at a key `k` by `f k v`. -/
def mapVals (f : α → β → γ) (m : Finmap fun _ : α => β) : Finmap fun _ : α => γ :=
  ⟨m.entries.map fun e => ⟨e.1, f e.1 e.2⟩, by
    rw [← Multiset.nodup_keys, keys_map_sigma]
    exact Multiset.nodup_keys.mpr m.nodupKeys⟩

@[simp] theorem lookup_mapVals (f : α → β → γ) (m : Finmap fun _ : α => β) (k : α) :
    (m.mapVals f).lookup k = (m.lookup k).map (f k) := by
  ext v
  rw [← Option.mem_def, mem_lookup_iff, mapVals, Multiset.mem_map, Option.map_eq_some_iff]
  constructor
  · rintro ⟨⟨k', b⟩, hmem, heq⟩
    obtain ⟨rfl, hv⟩ := Sigma.mk.inj heq
    exact ⟨b, mem_lookup_iff.mpr hmem, eq_of_heq hv⟩
  · rintro ⟨b, hb, rfl⟩
    exact ⟨⟨k, b⟩, mem_lookup_iff.mp hb, rfl⟩

@[simp] theorem keys_mapVals (f : α → β → γ) (m : Finmap fun _ : α => β) :
    (m.mapVals f).keys = m.keys := by
  ext k
  simp [mem_keys, mem_iff]

@[simp] theorem size_mapVals (f : α → β → γ) (m : Finmap fun _ : α => β) :
    (m.mapVals f).size = m.size := by
  rw [size, keys_mapVals, size]

@[simp] theorem mem_mapVals (f : α → β → γ) (m : Finmap fun _ : α => β) (k : α) :
    k ∈ m.mapVals f ↔ k ∈ m := by
  rw [← mem_keys, keys_mapVals, mem_keys]

theorem mapVals_insert (f : α → β → γ) (m : Finmap fun _ : α => β) (k : α) (v : β) :
    (m.insert k v).mapVals f = (m.mapVals f).insert k (f k v) := by
  refine ext_lookup fun x => ?_
  rw [lookup_mapVals, lookup_insert_ite, lookup_insert_ite, lookup_mapVals]
  split_ifs with h
  · rw [h, Option.map_some]
  · rfl

theorem mapVals_erase (f : α → β → γ) (m : Finmap fun _ : α => β) (k : α) :
    (m.erase k).mapVals f = (m.mapVals f).erase k := by
  refine ext_lookup fun x => ?_
  rw [lookup_mapVals, lookup_erase_ite, lookup_erase_ite, lookup_mapVals]
  split_ifs <;> rfl

/-- A test that an update does not change keeps the same entries. -/
theorem mapVals_retain {f : α → β → γ} {p : α → β → Bool} {q : α → γ → Bool}
    (h : ∀ k v, q k (f k v) = p k v) (m : Finmap fun _ : α => β) :
    (m.retain p).mapVals f = (m.mapVals f).retain q := by
  refine ext_lookup fun x => ?_
  rw [lookup_mapVals, lookup_retain, lookup_retain, lookup_mapVals]
  rcases m.lookup x with _ | v
  · rfl
  · rw [Option.map_some, Option.filter_some, Option.filter_some, h]
    split_ifs <;> rfl

/-! ## Sums over the entries -/

section Total

variable {M : Type*} [AddCommMonoid M]

/-- The sum of a quantity over the entries of a map. -/
def total (f : β → M) (m : Finmap fun _ : α => β) : M :=
  (m.entries.map fun e => f e.2).sum

omit [DecidableEq α] in
@[simp] theorem total_empty (f : β → M) : total f (∅ : Finmap fun _ : α => β) = 0 := rfl

theorem total_insert_of_notMem (f : β → M) {m : Finmap fun _ : α => β} {k : α} (h : k ∉ m)
    (v : β) : total f (m.insert k v) = f v + total f m := by
  rw [total, entries_insert_of_notMem h, Multiset.map_cons, Multiset.sum_cons, total]

theorem total_erase_add (f : β → M) {m : Finmap fun _ : α => β} {k : α} {v : β}
    (h : m.lookup k = some v) : f v + total f (m.erase k) = total f m := by
  have hm : (m.erase k).insert k v = m := by
    refine ext_lookup fun x => ?_
    rw [lookup_insert_ite, lookup_erase_ite]
    by_cases hx : x = k
    · rw [if_pos hx, hx, h]
    · rw [if_neg hx, if_neg hx]
  rw [← total_insert_of_notMem f notMem_erase_self v, hm]

/-- Overwriting the value `v` by `w` moves the sum by the difference of the two. -/
theorem total_insert_add (f : β → M) {m : Finmap fun _ : α => β} {k : α} {v : β}
    (h : m.lookup k = some v) (w : β) : total f (m.insert k w) + f v = total f m + f w := by
  have hins : m.insert k w = (m.erase k).insert k w := by
    refine ext_lookup fun x => ?_
    rw [lookup_insert_ite, lookup_insert_ite, lookup_erase_ite]
    by_cases hx : x = k
    · rw [if_pos hx, if_pos hx]
    · rw [if_neg hx, if_neg hx, if_neg hx]
  rw [hins, total_insert_of_notMem f notMem_erase_self w, ← total_erase_add f h]
  abel

/-- The sum over the entries, key by key. -/
theorem total_eq_sum_keys (f : β → M) (m : Finmap fun _ : α => β) :
    total f m = ∑ k ∈ m.keys, ((m.lookup k).map f).getD 0 := by
  have hkeys : m.keys.val = m.entries.map Sigma.fst := rfl
  rw [Finset.sum, hkeys, Multiset.map_map, total]
  refine congrArg Multiset.sum (Multiset.map_congr rfl ?_)
  rintro ⟨k, v⟩ hmem
  have hk : m.lookup k = some v := mem_lookup_iff.mpr hmem
  simp [hk]

end Total

/-! ## Iteration -/

/-- One order in which an iterator may visit the entries of a map: a list of the entries. -/
abbrev Enumeration (m : Finmap fun _ : α => β) :=
  { l : List (Sigma fun _ : α => β) // (l : Multiset (Sigma fun _ : α => β)) = m.entries }

omit [DecidableEq α] in
/-- Every map can be visited. -/
theorem nonempty_enumeration (m : Finmap fun _ : α => β) : Nonempty (Enumeration m) := by
  obtain ⟨l, hl⟩ := Quot.exists_rep m.entries
  exact ⟨⟨l, hl⟩⟩

omit [DecidableEq α] in
/-- A sum over a visit does not depend on its order. -/
theorem Enumeration.sum_map {M : Type*} [AddCommMonoid M] {m : Finmap fun _ : α => β}
    (order : Enumeration m) (f : β → M) : (order.1.map fun e => f e.2).sum = total f m := by
  have h := congrArg (fun s => (s.map fun e => f e.2).sum) order.2
  rw [Multiset.map_coe, Multiset.sum_coe] at h
  exact h

/-- Any two entries can be visited first. -/
theorem exists_enumeration_cons_cons {m : Finmap fun _ : α => β} {k k' : α} {v v' : β}
    (hk : m.lookup k = some v) (hk' : m.lookup k' = some v') (hne : k ≠ k') :
    ∃ (order : Enumeration m) (l : List (Sigma fun _ : α => β)),
      order.1 = ⟨k, v⟩ :: ⟨k', v'⟩ :: l := by
  obtain ⟨s, hs⟩ := Multiset.exists_cons_of_mem (mem_lookup_iff.mp hk)
  have hmem : (⟨k', v'⟩ : Sigma fun _ : α => β) ∈ s := by
    have hin := mem_lookup_iff.mp hk'
    rw [hs, Multiset.mem_cons] at hin
    exact hin.resolve_left fun h => hne (congrArg Sigma.fst h).symm
  obtain ⟨s', hs'⟩ := Multiset.exists_cons_of_mem hmem
  refine ⟨⟨⟨k, v⟩ :: ⟨k', v'⟩ :: s'.toList, ?_⟩, s'.toList, rfl⟩
  rw [← Multiset.cons_coe, ← Multiset.cons_coe, Multiset.coe_toList, hs, hs']

/-! ## Collecting entries -/

/-- Insert the entries of a list, one after the other. -/
def collect (l : List (α × β)) : Finmap fun _ : α => β :=
  l.foldl (fun m x => m.insert x.1 x.2) ∅

/-- An entry that is inserted again later leaves no trace. -/
theorem foldl_insert_of_mem {l : List (α × β)} {k : α} (h : k ∈ l.map Prod.fst) (v : β)
    (m : Finmap fun _ : α => β) :
    l.foldl (fun m x => m.insert x.1 x.2) (m.insert k v) =
      l.foldl (fun m x => m.insert x.1 x.2) m := by
  induction l generalizing m with
  | nil => cases h
  | cons x l ih =>
    rw [List.foldl_cons, List.foldl_cons]
    by_cases hx : x.1 = k
    · rw [hx, insert_insert]
    · rw [insert_insert_of_ne m (Ne.symm hx)]
      exact ih ((List.mem_cons.mp h).resolve_left fun e => hx e.symm) _

/-- An entry that is not inserted again can be inserted last. -/
theorem foldl_insert_of_notMem {l : List (α × β)} {k : α} (h : k ∉ l.map Prod.fst) (v : β)
    (m : Finmap fun _ : α => β) :
    l.foldl (fun m x => m.insert x.1 x.2) (m.insert k v) =
      (l.foldl (fun m x => m.insert x.1 x.2) m).insert k v := by
  induction l generalizing m with
  | nil => rfl
  | cons x l ih =>
    have hx : k ≠ x.1 := fun e => h (e ▸ List.mem_cons_self)
    rw [List.foldl_cons, List.foldl_cons, insert_insert_of_ne m hx]
    exact ih (fun hm => h (List.mem_cons_of_mem _ hm)) _

theorem collect_cons_of_mem {l : List (α × β)} {x : α × β} (h : x.1 ∈ l.map Prod.fst) :
    collect (x :: l) = collect l :=
  foldl_insert_of_mem h x.2 ∅

theorem collect_cons_of_notMem {l : List (α × β)} {x : α × β} (h : x.1 ∉ l.map Prod.fst) :
    collect (x :: l) = (collect l).insert x.1 x.2 :=
  foldl_insert_of_notMem h x.2 ∅

theorem mem_collect {l : List (α × β)} {k : α} : k ∈ collect l ↔ k ∈ l.map Prod.fst := by
  induction l with
  | nil => exact iff_of_false notMem_empty List.not_mem_nil
  | cons x l ih =>
    rw [List.map_cons, List.mem_cons]
    by_cases h : x.1 ∈ l.map Prod.fst
    · rw [collect_cons_of_mem h, ih]
      exact ⟨Or.inr, fun hk => hk.elim (fun e => e ▸ h) id⟩
    · rw [collect_cons_of_notMem h, mem_insert, ih]

/-- What a map holds has been inserted. -/
theorem mem_of_lookup_collect {l : List (α × β)} {k : α} {v : β}
    (h : (collect l).lookup k = some v) : (k, v) ∈ l := by
  induction l with
  | nil => cases h
  | cons x l ih =>
    by_cases hx : x.1 ∈ l.map Prod.fst
    · rw [collect_cons_of_mem hx] at h
      exact List.mem_cons_of_mem _ (ih h)
    · rw [collect_cons_of_notMem hx, lookup_insert_ite] at h
      split_ifs at h with hk
      · obtain rfl := Option.some.inj h
        rw [hk]
        exact List.mem_cons_self
      · exact List.mem_cons_of_mem _ (ih h)

/-- Inserting entries into a map that has some already. -/
theorem foldl_insert_eq_union (l : List (α × β)) (m : Finmap fun _ : α => β) :
    l.foldl (fun m x => m.insert x.1 x.2) m = collect l ∪ m := by
  induction l using List.reverseRecOn with
  | nil => exact empty_union.symm
  | append_singleton l x ih =>
    rw [collect, List.foldl_append, List.foldl_append, List.foldl_cons, List.foldl_nil, ih,
      insert_union]
    rfl

theorem collect_append (l l' : List (α × β)) : collect (l ++ l') = collect l' ∪ collect l := by
  rw [collect, List.foldl_append]
  exact foldl_insert_eq_union l' (collect l)

theorem lookup_collect_of_nodup {l : List (α × β)} (h : (l.map Prod.fst).Nodup) (k : α) :
    (collect l).lookup k = l.lookup k := by
  induction l with
  | nil => rfl
  | cons x l ih =>
    rw [List.map_cons, List.nodup_cons] at h
    rw [collect_cons_of_notMem h.1, lookup_insert_ite, ih h.2, List.lookup_cons]
    by_cases hk : k = x.1
    · rw [if_pos hk, beq_iff_eq.mpr hk]
    · rw [if_neg hk, beq_false_of_ne hk]

theorem lookup_collect_eq_some_iff {l : List (α × β)} (h : (l.map Prod.fst).Nodup) {k : α} {v : β} :
    (collect l).lookup k = some v ↔ (k, v) ∈ l := by
  rw [lookup_collect_of_nodup h, List.lookup_eq_some_iff]
  constructor
  · rintro ⟨l₁, l₂, rfl, -⟩
    exact List.mem_append_right _ List.mem_cons_self
  · intro hmem
    obtain ⟨l₁, l₂, rfl⟩ := List.append_of_mem hmem
    refine ⟨l₁, l₂, rfl, fun x hx => ?_⟩
    rw [List.map_append, List.map_cons, List.nodup_append] at h
    exact bne_iff_ne.mpr (h.2.2 _ (List.mem_map_of_mem hx) _ List.mem_cons_self).symm

/-- A key all of whose entries have one value holds it. -/
theorem lookup_collect_of_forall {l : List (α × β)} {k : α} {v : β} (hmem : (k, v) ∈ l)
    (h : ∀ x ∈ l, x.1 = k → x.2 = v) : (collect l).lookup k = some v := by
  induction l with
  | nil => cases hmem
  | cons x l ih =>
    have hrest : ∀ y ∈ l, y.1 = k → y.2 = v := fun y hy => h y (List.mem_cons_of_mem x hy)
    by_cases hx : x.1 ∈ l.map Prod.fst
    · rw [collect_cons_of_mem hx]
      refine ih ?_ hrest
      rcases List.mem_cons.mp hmem with rfl | hin
      · obtain ⟨⟨k', v'⟩, hy, rfl⟩ := List.mem_map.mp hx
        rw [← hrest _ hy rfl]
        exact hy
      · exact hin
    · rw [collect_cons_of_notMem hx, lookup_insert_ite]
      split_ifs with hk
      · exact congrArg some (h x List.mem_cons_self hk.symm)
      · refine ih ((List.mem_cons.mp hmem).resolve_left fun heq => hk ?_) hrest
        exact congrArg Prod.fst heq

theorem total_collect_le (f : β → ℕ) (l : List (α × β)) :
    total f (collect l) ≤ (l.map fun x => f x.2).sum := by
  induction l with
  | nil => exact Nat.zero_le _
  | cons x l ih =>
    rw [List.map_cons, List.sum_cons]
    by_cases h : x.1 ∈ l.map Prod.fst
    · rw [collect_cons_of_mem h]
      omega
    · rw [collect_cons_of_notMem h, total_insert_of_notMem f (fun hm => h (mem_collect.mp hm))]
      omega

/-- **Nothing is lost** exactly when every entry that is inserted again later counts for nothing. -/
theorem total_collect_eq_iff (f : β → ℕ) (l : List (α × β)) :
    total f (collect l) = (l.map fun x => f x.2).sum ↔
      l.Pairwise fun x y => x.1 = y.1 → f x.2 = 0 := by
  induction l with
  | nil => simp [collect]
  | cons x l ih =>
    have hle := total_collect_le f l
    rw [List.map_cons, List.sum_cons, List.pairwise_cons, ← ih]
    by_cases h : x.1 ∈ l.map Prod.fst
    · have hx : (∀ y ∈ l, x.1 = y.1 → f x.2 = 0) ↔ f x.2 = 0 := by
        obtain ⟨y, hy, hyx⟩ := List.mem_map.mp h
        exact ⟨fun hall => hall y hy hyx.symm, fun h0 _ _ _ => h0⟩
      rw [collect_cons_of_mem h, hx]
      omega
    · have hx : ∀ y ∈ l, x.1 = y.1 → f x.2 = 0 := fun y hy he =>
        absurd (List.mem_map.mpr ⟨y, hy, he.symm⟩) h
      rw [collect_cons_of_notMem h, total_insert_of_notMem f (fun hm => h (mem_collect.mp hm)),
        Nat.add_left_cancel_iff]
      exact (and_iff_right hx).symm

/-- Where nothing is lost, every key holds the sum of its entries. -/
theorem lookup_collect {f : β → ℕ} {l : List (α × β)}
    (h : l.Pairwise fun x y => x.1 = y.1 → f x.2 = 0) (k : α) :
    ((collect l).lookup k).elim 0 f = ((l.filter fun x => x.1 = k).map fun x => f x.2).sum := by
  induction l with
  | nil => simp [collect]
  | cons x l ih =>
    obtain ⟨hx, hl⟩ := List.pairwise_cons.mp h
    by_cases hm : x.1 ∈ l.map Prod.fst
    · have h0 : f x.2 = 0 := by
        obtain ⟨y, hy, hyx⟩ := List.mem_map.mp hm
        exact hx y hy hyx.symm
      rw [collect_cons_of_mem hm, ih hl]
      by_cases hk : x.1 = k
      · rw [List.filter_cons_of_pos (by simpa using hk), List.map_cons, List.sum_cons, h0, zero_add]
      · rw [List.filter_cons_of_neg (by simpa using hk)]
    · rw [collect_cons_of_notMem hm, lookup_insert_ite]
      by_cases hk : x.1 = k
      · have hnil : (l.filter fun y => y.1 = k) = [] := by
          rw [List.filter_eq_nil_iff]
          intro y hy he
          exact hm (List.mem_map.mpr ⟨y, hy, (of_decide_eq_true he).trans hk.symm⟩)
        rw [if_pos hk.symm, List.filter_cons_of_pos (by simpa using hk), hnil]
        simp
      · rw [if_neg (Ne.symm hk), ih hl, List.filter_cons_of_neg (by simpa using hk)]

/-! ## Grouping -/

/-- A sum over a list is the sum over its groups, if every element belongs to one of them. -/
theorem sum_fibers {M : Type*} [AddCommMonoid M] (f : γ → M) (g : γ → α) (s : Finset α)
    (l : List γ) (h : ∀ x ∈ l, g x ∈ s) :
    ∑ k ∈ s, ((l.filter fun x => g x = k).map f).sum = (l.map f).sum := by
  induction l with
  | nil => simp
  | cons x l ih =>
    have hsplit : ∀ k, (((x :: l).filter fun y => g y = k).map f).sum =
        (if g x = k then f x else 0) + ((l.filter fun y => g y = k).map f).sum := by
      intro k
      by_cases hk : g x = k
      · rw [List.filter_cons_of_pos (by simpa using hk), if_pos hk, List.map_cons, List.sum_cons]
      · rw [List.filter_cons_of_neg (by simpa using hk), if_neg hk, zero_add]
    rw [Finset.sum_congr rfl fun k _ => hsplit k, Finset.sum_add_distrib,
      ih fun y hy => h y (List.mem_cons_of_mem x hy), List.map_cons, List.sum_cons,
      Finset.sum_ite_eq, if_pos (h x List.mem_cons_self)]

omit [DecidableEq α] in
/-- One element of each list makes up the union of the lists exactly if none has more than one. -/
theorem sum_head?_eq_iff (s : Finset α) (l : α → List β) :
    ∑ k ∈ s, ((l k : List β) : Multiset β) = ∑ k ∈ s, (((l k).head?.toList : List β) : Multiset β) ↔
      ∀ k ∈ s, (l k).length ≤ 1 := by
  have hhead : ∀ xs : List β, xs.head?.toList.length ≤ xs.length ∧
      (xs.head?.toList.length = xs.length ↔ xs.length ≤ 1) := by
    intro xs
    rcases xs with _ | ⟨x, _ | ⟨y, xs⟩⟩ <;> simp
  constructor
  · intro h k hk
    have hcard := congrArg Multiset.card h
    simp only [Multiset.card_sum, Multiset.coe_card] at hcard
    have hterm := (Finset.sum_eq_sum_iff_of_le fun k _ => (hhead (l k)).1).mp hcard.symm
    exact (hhead (l k)).2.mp (hterm k hk)
  · intro h
    refine Finset.sum_congr rfl fun k hk => ?_
    have hone := h k hk
    generalize l k = xs at hone
    rcases xs with _ | ⟨x, _ | ⟨y, xs⟩⟩
    · rfl
    · rfl
    · simp at hone

end Finmap
