import Mathlib.Data.List.Nodup
import Mathlib.Data.List.Perm.Basic

/-!
# Lists without repetition

* `firstRepeated`: the first element of a list that has occurred before; there is none exactly when
  the list has no repetition (`firstRepeated_eq_none_iff`).
* `pushNew`: append what is not there yet.  On a list without repetition that is plain appending
  (`foldl_pushNew`).
* `lookup_eq_some_iff_mem`, `lookup_eq_of_perm`: a table whose keys are distinct is read the same in
  any order.  Two tables with the same keys in the same order are told apart by reading them
  (`eq_of_lookup_eq`).
-/

namespace Repeats

variable {α β : Type*} [DecidableEq α]

/-- The first element that is among those before it, or among the `earlier` ones. -/
def firstRepeated (earlier : List α) : List α → Option α
  | [] => none
  | a :: rest => if a ∈ earlier then some a else firstRepeated (earlier ++ [a]) rest

theorem firstRepeated_eq_none_iff (earlier l : List α) :
    firstRepeated earlier l = none ↔ (∀ a ∈ l, a ∉ earlier) ∧ l.Nodup := by
  induction l generalizing earlier with
  | nil => simp [firstRepeated]
  | cons a rest ih =>
    rw [firstRepeated]
    by_cases ha : a ∈ earlier
    · rw [if_pos ha]
      exact iff_of_false (by simp) fun h => h.1 a List.mem_cons_self ha
    · rw [if_neg ha, ih, List.nodup_cons]
      constructor
      · rintro ⟨hrest, hnd⟩
        refine ⟨fun b hb => ?_, fun hin => hrest a hin (by simp), hnd⟩
        rcases List.mem_cons.mp hb with rfl | hb
        · exact ha
        · exact fun hin => hrest b hb (List.mem_append_left _ hin)
      · rintro ⟨hall, hnotin, hnd⟩
        refine ⟨fun b hb hin => ?_, hnd⟩
        rcases List.mem_append.mp hin with hin | hin
        · exact hall b (List.mem_cons_of_mem a hb) hin
        · rw [List.mem_singleton] at hin
          exact hnotin (hin ▸ hb)

theorem firstRepeated_nil_eq_none_iff (l : List α) : firstRepeated [] l = none ↔ l.Nodup := by
  rw [firstRepeated_eq_none_iff]
  exact and_iff_right fun a _ => List.not_mem_nil

/-- Append an element that is not there yet. -/
def pushNew (out : List α) (a : α) : List α :=
  if a ∈ out then out else out ++ [a]

theorem foldl_pushNew {out l : List α} (h : (out ++ l).Nodup) : l.foldl pushNew out = out ++ l := by
  induction l generalizing out with
  | nil => exact (List.append_nil out).symm
  | cons a l ih =>
    have ha : a ∉ out := fun hin => (List.nodup_append.mp h).2.2 a hin a List.mem_cons_self rfl
    rw [← List.singleton_append, ← List.append_assoc] at h
    rw [List.foldl_cons, pushNew, if_neg ha, ih h, List.append_assoc, List.singleton_append]

theorem lookup_eq_some_iff_mem {l : List (α × β)} (h : (l.map Prod.fst).Nodup) {k : α} {v : β} :
    l.lookup k = some v ↔ (k, v) ∈ l := by
  induction l with
  | nil => simp
  | cons x l ih =>
    obtain ⟨k', v'⟩ := x
    rw [List.map_cons, List.nodup_cons] at h
    rw [List.lookup_cons, List.mem_cons, Prod.mk.injEq]
    by_cases hk : k = k'
    · subst hk
      have hnot : (k, v) ∉ l := fun hin => h.1 (List.mem_map.mpr ⟨(k, v), hin, rfl⟩)
      simp [hnot, eq_comm]
    · rw [beq_false_of_ne hk]
      simp [hk, ih h.2]

theorem lookup_eq_of_perm {l l' : List (α × β)} (h : (l.map Prod.fst).Nodup) (hperm : l.Perm l')
    (k : α) : l.lookup k = l'.lookup k := by
  refine Option.ext fun v => ?_
  rw [lookup_eq_some_iff_mem h, lookup_eq_some_iff_mem ((hperm.map Prod.fst).nodup_iff.mp h),
    hperm.mem_iff]

theorem eq_of_lookup_eq {l l' : List (α × β)} (h : (l.map Prod.fst).Nodup)
    (hkeys : l.map Prod.fst = l'.map Prod.fst) (hlookup : ∀ k, l.lookup k = l'.lookup k) :
    l = l' := by
  have hlen : l.length = l'.length := by simpa using congrArg List.length hkeys
  refine List.ext_getElem hlen fun i hi hi' => ?_
  have hkey : l[i].1 = l'[i].1 := by
    have hget : (l.map Prod.fst)[i]? = (l'.map Prod.fst)[i]? := by rw [hkeys]
    simpa [hi, hi'] using hget
  have hval : l'.lookup l'[i].1 = some l[i].2 := by
    rw [← hkey, ← hlookup]
    exact (lookup_eq_some_iff_mem h).mpr (List.getElem_mem hi)
  have hval' : l'.lookup l'[i].1 = some l'[i].2 :=
    (lookup_eq_some_iff_mem (hkeys ▸ h)).mpr (List.getElem_mem hi')
  exact Prod.ext hkey (Option.some_inj.mp (hval.symm.trans hval'))

end Repeats
