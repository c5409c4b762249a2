import Mathlib.Data.Int.CardIntervalMod
import Mathlib.Data.List.Nodup

/-!
# Round robin

Turn `i` goes to the element of a list at position `i` modulo its length.  If no element is listed
twice, each gets the same number of the first `m` turns, up to one.
-/

namespace RoundRobin

variable {α : Type*} [DecidableEq α] {l : List α} {a : α}

/-- The number of the first `m` turns that go to `a`. -/
def turns (l : List α) (m : ℕ) (a : α) : ℕ :=
  (List.range m).countP fun i => l[i % l.length]? = some a

/-- **The turns of an element,** from its position. -/
theorem turns_eq (h : l.Nodup) (m : ℕ) (j : ℕ) (hj : j < l.length) :
    turns l m (l.get ⟨j, hj⟩) = m / l.length + if j < m % l.length then 1 else 0 := by
  have hpos : 0 < l.length := Nat.zero_lt_of_lt hj
  have hturn : ∀ i, l[i % l.length]? = some (l.get ⟨j, hj⟩) ↔ i ≡ j [MOD l.length] := by
    intro i
    rw [List.getElem?_eq_getElem (Nat.mod_lt i hpos), Option.some_inj, List.get_eq_getElem,
      h.getElem_inj_iff, Nat.ModEq, Nat.mod_eq_of_lt hj]
  have hcount := Nat.count_modEq_card m hpos j
  rw [Nat.mod_eq_of_lt hj] at hcount
  rw [← hcount, turns, Nat.count]
  exact List.countP_congr fun i _ => by rw [decide_eq_true_iff, decide_eq_true_iff, hturn]

/-- `⌈m / k⌉`. -/
theorem ceil_div {m k : ℕ} (hk : 0 < k) :
    (m + k - 1) / k = m / k + if 0 < m % k then 1 else 0 := by
  have hm := Nat.div_add_mod m k
  have hlt := Nat.mod_lt m hk
  split_ifs with hr
  · have hsplit : m + k - 1 = k * (m / k + 1) + (m % k - 1) := by
      rw [Nat.mul_succ]
      omega
    rw [hsplit, Nat.mul_add_div hk, Nat.div_eq_of_lt (show m % k - 1 < k by omega), Nat.add_zero]
  · have hsplit : m + k - 1 = k * (m / k) + (k - 1) := by omega
    rw [hsplit, Nat.mul_add_div hk, Nat.div_eq_of_lt (show k - 1 < k by omega)]

/-- **Round robin is even.** -/
theorem turns_eq_or (h : l.Nodup) (ha : a ∈ l) (m : ℕ) :
    turns l m a = m / l.length ∨ turns l m a = (m + l.length - 1) / l.length := by
  obtain ⟨⟨j, hj⟩, rfl⟩ := List.get_of_mem ha
  rw [turns_eq h m j hj, ceil_div (Nat.zero_lt_of_lt hj)]
  split_ifs <;> omega

end RoundRobin
