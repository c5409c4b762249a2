import Mathlib.Algebra.BigOperators.Group.List.Basic
import Mathlib.Data.List.Chain
import Mathlib.Order.MinMax

/-!
# Consecutive elements of a list

`consecutive f l` lists the values of `f` at each element and the next.

* `consecutive_concat`: what one more element adds.
* `length_consecutive`, `sum_consecutive_sub`: how many there are, and that differences telescope.
* `consecutive_congr`, `forall_mem_consecutive`: facts about neighbours.
* `foldl_max_spec`: the largest value of a list, by the loop that a running maximum is.
-/

namespace Consecutive

variable {α β : Type*} {f g : α → α → β}

/-- The values at each element and the next. -/
def consecutive (f : α → α → β) : List α → List β
  | [] => []
  | [_] => []
  | a :: b :: l => f a b :: consecutive f (b :: l)

theorem consecutive_cons_cons (f : α → α → β) (a b : α) (l : List α) :
    consecutive f (a :: b :: l) = f a b :: consecutive f (b :: l) :=
  rfl

theorem consecutive_concat (f : α → α → β) (l : List α) (c : α) :
    consecutive f (l ++ [c]) = consecutive f l ++ (l.getLast?.map fun a => f a c).toList := by
  induction l using consecutive.induct with
  | case1 => rfl
  | case2 a => rfl
  | case3 a b l ih =>
    rw [List.cons_append, List.cons_append, consecutive_cons_cons, ← List.cons_append, ih,
      consecutive_cons_cons, List.cons_append, List.getLast?_cons_cons]

theorem length_consecutive (f : α → α → β) (l : List α) :
    (consecutive f l).length = l.length - 1 := by
  induction l using consecutive.induct with
  | case1 => rfl
  | case2 a => rfl
  | case3 a b l ih =>
    rw [consecutive_cons_cons, List.length_cons, ih]
    simp

/-- **Differences telescope.** -/
theorem sum_consecutive_sub {G : Type*} [AddCommGroup G] (v : α → G) (a : α) (l : List α) :
    (consecutive (fun x y => v y - v x) (a :: l)).sum =
      v ((a :: l).getLast (List.cons_ne_nil a l)) - v a := by
  induction l generalizing a with
  | nil => rw [consecutive, List.sum_nil, List.getLast_singleton, sub_self]
  | cons b l ih =>
    rw [consecutive_cons_cons, List.sum_cons, ih, List.getLast_cons_cons, sub_add_sub_cancel']

theorem consecutive_congr {l : List α} (h : l.IsChain fun a b => f a b = g a b) :
    consecutive f l = consecutive g l := by
  induction l using consecutive.induct with
  | case1 => rfl
  | case2 a => rfl
  | case3 a b l ih =>
    rw [List.isChain_cons_cons] at h
    rw [consecutive_cons_cons, consecutive_cons_cons, h.1, ih h.2]

theorem forall_mem_consecutive {p : β → Prop} {l : List α}
    (h : l.IsChain fun a b => p (f a b)) : ∀ x ∈ consecutive f l, p x := by
  induction l using consecutive.induct with
  | case1 => exact fun x hx => absurd hx List.not_mem_nil
  | case2 a => exact fun x hx => absurd hx List.not_mem_nil
  | case3 a b l ih =>
    rw [List.isChain_cons_cons] at h
    intro x hx
    rcases List.mem_cons.mp hx with rfl | hx
    · exact h.1
    · exact ih h.2 x hx

/-- A running maximum ends at the start or at an element, above all of them. -/
theorem foldl_max_spec [LinearOrder α] (l : List α) (a : α) :
    (∀ x ∈ l, x ≤ l.foldl max a) ∧ a ≤ l.foldl max a ∧
      (l.foldl max a = a ∨ l.foldl max a ∈ l) := by
  induction l generalizing a with
  | nil => exact ⟨fun x hx => absurd hx List.not_mem_nil, le_rfl, Or.inl rfl⟩
  | cons b l ih =>
    obtain ⟨hall, hstart, hmem⟩ := ih (max a b)
    rw [List.foldl_cons]
    refine ⟨fun x hx => ?_, (le_max_left a b).trans hstart, ?_⟩
    · rcases List.mem_cons.mp hx with rfl | hx
      · exact (le_max_right a x).trans hstart
      · exact hall x hx
    · rcases hmem with hmem | hmem
      · rcases max_choice a b with hab | hab
        · exact Or.inl (hmem.trans hab)
        · exact Or.inr (by rw [hmem, hab]; exact List.mem_cons_self)
      · exact Or.inr (List.mem_cons_of_mem b hmem)

end Consecutive
