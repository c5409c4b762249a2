import Mathlib.Data.Finset.Card
import Mathlib.Data.List.Induction
import Mathlib.Order.Defs.LinearOrder

/-!
# Counting with a high-water mark

Distinct values can be counted with one mark in place of a set: count a value when it is above the
mark, and raise the mark to it.  That never counts a value twice, and misses those that first come
below the mark.  So the count is right exactly when every value, as it first comes, is above all
values before it.
-/

namespace HighWater

variable {α : Type*} [LinearOrder α] (floor : α)

/-- The mark and the count, after one more value. -/
def step (s : α × ℕ) (a : α) : α × ℕ :=
  if s.1 < a then (a, s.2 + 1) else s

/-- The mark and the count, from a floor. -/
def run (l : List α) : α × ℕ :=
  l.foldl step (floor, 0)

/-- Every value, as it first comes, is above the floor and above all values before it. -/
def FirstsRise (l : List α) : Prop :=
  ∀ past a rest, l = past ++ a :: rest → a ∉ past → floor < a ∧ ∀ c ∈ past, c < a

variable {floor}

theorem run_concat (l : List α) (a : α) : run floor (l ++ [a]) = step (run floor l) a := by
  rw [run, List.foldl_append]
  rfl

/-- The mark is the highest of the values and the floor. -/
theorem mark_lt_iff {l : List α} {a : α} :
    (run floor l).1 < a ↔ floor < a ∧ ∀ c ∈ l, c < a := by
  induction l using List.reverseRecOn generalizing a with
  | nil => simp [run]
  | append_singleton l b ih =>
    rw [run_concat, step]
    split_ifs with hb
    · have hall := ih.mp hb
      refine ⟨fun ha => ⟨hall.1.trans ha, fun c hc => ?_⟩, fun h => h.2 b (by simp)⟩
      rcases List.mem_append.mp hc with hc | hc
      · exact (hall.2 c hc).trans ha
      · rwa [List.mem_singleton.mp hc]
    · rw [ih]
      refine ⟨fun h => ⟨h.1, fun c hc => ?_⟩, fun h => ⟨h.1, fun c hc => ?_⟩⟩
      · rcases List.mem_append.mp hc with hc | hc
        · exact h.2 c hc
        · rw [List.mem_singleton.mp hc]
          exact (not_lt.mp hb).trans_lt (ih.mpr h)
      · exact h.2 c (List.mem_append_left _ hc)

theorem not_mem_of_mark_lt {l : List α} {a : α} (h : (run floor l).1 < a) : a ∉ l :=
  fun ha => lt_irrefl a ((mark_lt_iff.mp h).2 a ha)

theorem toFinset_concat (l : List α) (a : α) : (l ++ [a]).toFinset = insert a l.toFinset := by
  rw [List.toFinset_append, Finset.union_comm]
  rfl

/-- No value is counted twice. -/
theorem count_le (floor : α) (l : List α) : (run floor l).2 ≤ l.toFinset.card := by
  induction l using List.reverseRecOn with
  | nil => exact Nat.zero_le _
  | append_singleton l a ih =>
    rw [run_concat, step, toFinset_concat]
    split_ifs with ha
    · have hnew : a ∉ l.toFinset := by simpa using not_mem_of_mark_lt ha
      rw [Finset.card_insert_of_notMem hnew]
      exact Nat.succ_le_succ ih
    · exact ih.trans (Finset.card_le_card (Finset.subset_insert a _))

theorem firstsRise_concat {l : List α} {a : α} :
    FirstsRise floor (l ++ [a]) ↔ FirstsRise floor l ∧ (a ∉ l → (run floor l).1 < a) := by
  refine ⟨fun h => ⟨fun past b rest hl => ?_, fun ha => mark_lt_iff.mpr (h l a [] rfl ha)⟩,
    fun h past b rest hl hb => ?_⟩
  · exact h past b (rest ++ [a]) (by rw [hl]; simp)
  · rcases List.eq_nil_or_concat rest with rfl | ⟨rest, c, rfl⟩
    · obtain ⟨rfl, hab⟩ := List.append_inj' hl rfl
      cases hab
      exact mark_lt_iff.mp (h.2 hb)
    · rw [List.concat_eq_append, ← List.cons_append, ← List.append_assoc] at hl
      exact h.1 past b rest (List.append_inj_left' hl rfl) hb

/-- **The count is right exactly when every value rises as it first comes.** -/
theorem count_eq_iff (l : List α) :
    (run floor l).2 = l.toFinset.card ↔ FirstsRise floor l := by
  induction l using List.reverseRecOn with
  | nil => exact iff_of_true rfl fun past a rest h => by simp at h
  | append_singleton l a ih =>
    have hle := count_le floor l
    rw [firstsRise_concat, ← ih, run_concat, step, toFinset_concat]
    split_ifs with ha
    · have hnew : a ∉ l.toFinset := by simpa using not_mem_of_mark_lt ha
      rw [Finset.card_insert_of_notMem hnew]
      simp [ha]
    · by_cases hmem : a ∈ l
      · rw [Finset.insert_eq_of_mem (List.mem_toFinset.mpr hmem)]
        simp [hmem]
      · rw [Finset.card_insert_of_notMem (by simpa using hmem)]
        refine iff_of_false (by omega) fun h => ha (h.2 hmem)

/-- What rises does so from the beginning. -/
theorem FirstsRise.of_prefix {l l' : List α} (h : FirstsRise floor l') (hl : l <+: l') :
    FirstsRise floor l := by
  obtain ⟨tail, rfl⟩ := hl
  exact fun past a rest hsplit => h past a (rest ++ tail) (by rw [hsplit]; simp)

end HighWater
