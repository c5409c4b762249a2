import Mathlib.Data.List.DropRight
import Mathlib.Data.List.Basic
import Mathlib.Data.Nat.Notation

/-!
# Text

Texts are lists of characters.  The functions are those of the standard string type of a language
whose strings are UTF-8: splitting at a separator, trimming, reading a decimal numeral, slicing at a
byte offset and cutting into lines.

* `splitOnce_eq_some_iff`, `splitn_eq_cons_cons_iff`, `before_eq_takeWhile`: what splitting finds.
* `trimMatches_splitOn`: trimming the whole text does not change its trimmed pieces.
* `parseU32_eq_some_iff`, `isNumeral_toString`: which texts are numerals, and printed ones are.
* `sliceTo_eq_some_iff`: a slice is a prefix, and exists at a character boundary only.
* `lines_cons`: the first line of a text.
-/

namespace Text

section Splitting

variable {α : Type*} [DecidableEq α] {c : α} {s a b x y : List α} {n : ℕ} {l : List (List α)}

/-! ## Splitting -/

/-- What stands before the first `c`, and what stands after it. -/
def splitOnce (c : α) : List α → Option (List α × List α)
  | [] => none
  | x :: s => if x = c then some ([], s) else (splitOnce c s).map fun p => (x :: p.1, p.2)

theorem splitOnce_append_cons (h : c ∉ a) : splitOnce c (a ++ c :: b) = some (a, b) := by
  induction a with
  | nil => rw [List.nil_append, splitOnce, if_pos rfl]
  | cons x a ih =>
    rw [List.mem_cons, not_or] at h
    rw [List.cons_append, splitOnce, if_neg (Ne.symm h.1), ih h.2, Option.map_some]

theorem splitOnce_of_notMem (h : c ∉ s) : splitOnce c s = none := by
  induction s with
  | nil => rfl
  | cons x s ih =>
    rw [List.mem_cons, not_or] at h
    rw [splitOnce, if_neg (Ne.symm h.1), ih h.2, Option.map_none]

theorem splitOnce_eq_some_iff : splitOnce c s = some (a, b) ↔ s = a ++ c :: b ∧ c ∉ a := by
  constructor
  · intro h
    by_cases hc : c ∈ s
    · obtain ⟨a', b', rfl, ha'⟩ := List.eq_append_cons_of_mem hc
      rw [splitOnce_append_cons ha', Option.some_inj, Prod.mk.injEq] at h
      obtain ⟨rfl, rfl⟩ := h
      exact ⟨rfl, ha'⟩
    · rw [splitOnce_of_notMem hc] at h
      cases h
  · rintro ⟨rfl, ha⟩
    exact splitOnce_append_cons ha

/-- At most `n` pieces, the last of which is not split. -/
def splitn (c : α) : ℕ → List α → List (List α)
  | 0, _ => []
  | 1, s => [s]
  | n + 2, s =>
    match splitOnce c s with
    | none => [s]
    | some (piece, rest) => piece :: splitn c (n + 1) rest

theorem splitn_eq_cons_cons_iff : splitn c (n + 2) s = x :: y :: l ↔
    ∃ rest, s = x ++ c :: rest ∧ c ∉ x ∧ splitn c (n + 1) rest = y :: l := by
  rw [splitn]
  split
  · rename_i hnone
    refine iff_of_false (by simp) ?_
    rintro ⟨rest, rfl, hx, -⟩
    rw [splitOnce_append_cons hx] at hnone
    cases hnone
  · rename_i piece rest hsome
    obtain ⟨rfl, hpiece⟩ := splitOnce_eq_some_iff.mp hsome
    rw [List.cons.injEq]
    constructor
    · rintro ⟨rfl, h⟩
      exact ⟨rest, rfl, hpiece, h⟩
    · rintro ⟨rest', heq, hx, h⟩
      have hsplit := splitOnce_append_cons (b := rest') hx
      rw [← heq, splitOnce_append_cons hpiece, Option.some_inj, Prod.mk.injEq] at hsplit
      obtain ⟨rfl, rfl⟩ := hsplit
      exact ⟨rfl, h⟩

/-- What stands before the first `c`; everything if there is none. -/
def before (c : α) (s : List α) : List α :=
  (splitOnce c s).elim s Prod.fst

theorem before_eq_takeWhile : before c s = s.takeWhile fun x => x ≠ c := by
  by_cases hc : c ∈ s
  · obtain ⟨a, b, rfl, ha⟩ := List.eq_append_cons_of_mem hc
    rw [before, splitOnce_append_cons ha, Option.elim_some, List.takeWhile_append_of_pos,
      List.takeWhile_cons_of_neg (by simp), List.append_nil]
    exact fun x hx => decide_eq_true (ne_of_mem_of_not_mem hx ha)
  · rw [before, splitOnce_of_notMem hc, Option.elim_none, eq_comm, List.takeWhile_eq_self_iff]
    exact fun x hx => decide_eq_true (ne_of_mem_of_not_mem hx hc)

theorem splitn_two_eq_cons_cons_iff : splitn c 2 s = x :: y :: l ↔
    s = x ++ c :: y ∧ c ∉ x ∧ l = [] := by
  rw [splitn_eq_cons_cons_iff]
  constructor
  · rintro ⟨rest, rfl, hx, h⟩
    cases h
    exact ⟨rfl, hx, rfl⟩
  · rintro ⟨rfl, hx, rfl⟩
    exact ⟨y, rfl, hx, rfl⟩

/-- The longest prefix without two separators. -/
theorem before_before_eq_iff {d : α} : before d (before c s) = a ↔
    ∃ rest, s = a ++ rest ∧ c ∉ a ∧ d ∉ a ∧ ∀ x ∈ rest.head?, x = c ∨ x = d := by
  rw [before_eq_takeWhile, before_eq_takeWhile, List.takeWhile_takeWhile]
  constructor
  · rintro rfl
    refine ⟨_, (List.takeWhile_append_dropWhile ..).symm, fun h => ?_, fun h => ?_, fun x hx => ?_⟩
    · simpa using List.mem_takeWhile_imp h
    · simpa using List.mem_takeWhile_imp h
    · have hhead := List.head?_dropWhile_not (fun y => decide (decide (y ≠ d) ∧ decide (y ≠ c))) s
      rw [Option.mem_def.mp hx] at hhead
      by_contra hne
      rw [not_or] at hne
      simp [hne.1, hne.2] at hhead
  · rintro ⟨rest, rfl, hc, hd, hrest⟩
    rw [List.takeWhile_append_of_pos fun x hx => by
      simp [ne_of_mem_of_not_mem hx hc, ne_of_mem_of_not_mem hx hd]]
    rcases rest with _ | ⟨x, rest⟩
    · rw [List.takeWhile_nil, List.append_nil]
    · rw [List.takeWhile_cons_of_neg, List.append_nil]
      rcases hrest x rfl with rfl | rfl <;> simp

end Splitting

section Trimming

variable {α : Type*} {p : α → Bool} {a b s : List α}

/-! ## Trimming -/

/-- The text without the characters at its ends that satisfy `p`. -/
def trimMatches (p : α → Bool) (s : List α) : List α :=
  (s.dropWhile p).rdropWhile p

/-- Trimming the end leaves a prefix alone that does not end in a trimmed character. -/
theorem rdropWhile_append (ha : a.rdropWhile p = a) :
    (a ++ b).rdropWhile p = a ++ b.rdropWhile p := by
  induction b using List.reverseRecOn with
  | nil => rw [List.append_nil, ha, List.rdropWhile_nil, List.append_nil]
  | append_singleton b x ih =>
    rw [← List.append_assoc]
    by_cases hx : p x = true
    · rw [List.rdropWhile_concat_pos _ _ _ hx, List.rdropWhile_concat_pos _ _ _ hx, ih]
    · rw [List.rdropWhile_concat_neg _ _ _ hx, List.rdropWhile_concat_neg _ _ _ hx,
        List.append_assoc]

theorem rdropWhile_of_forall (h : ∀ x ∈ s, p x = false) : s.rdropWhile p = s :=
  List.rdropWhile_eq_self_iff.mpr fun hs => by simp [h _ (List.getLast_mem hs)]

/-- Trimming a text whose first part has nothing to trim. -/
theorem trimMatches_append (hne : a ≠ []) (ha : ∀ x ∈ a, p x = false) :
    trimMatches p (a ++ b) = a ++ b.rdropWhile p := by
  obtain ⟨x, a, rfl⟩ := List.exists_cons_of_ne_nil hne
  rw [trimMatches, List.cons_append,
    List.dropWhile_cons_of_neg (by simp [ha x List.mem_cons_self]), ← List.cons_append,
    rdropWhile_append (rdropWhile_of_forall ha)]

/-- Trimming takes off what stands before. -/
theorem trimMatches_of_forall_append (h : ∀ x ∈ a, p x = true) :
    trimMatches p (a ++ s) = trimMatches p s := by
  rw [trimMatches, List.dropWhile_append_of_pos h, trimMatches]

/-- Trimming takes off what stands behind. -/
theorem trimMatches_append_of_forall (h : ∀ x ∈ b, p x = true) :
    trimMatches p (s ++ b) = trimMatches p s := by
  have hnil : b.rdropWhile p = [] := List.rdropWhile_eq_nil_iff.mpr h
  rw [trimMatches, trimMatches, List.dropWhile_append]
  split_ifs with hs
  · rw [List.dropWhile_eq_nil_iff.mpr h, List.isEmpty_iff.mp hs]
  · rw [List.rdropWhile, List.reverse_append, List.dropWhile_append_of_pos fun x hx => h x
      (List.mem_reverse.mp hx), ← List.rdropWhile]

/-- What trimming takes off. -/
theorem exists_eq_trimMatches (p : α → Bool) (s : List α) : ∃ a b,
    s = a ++ trimMatches p s ++ b ∧ (∀ x ∈ a, p x = true) ∧ ∀ x ∈ b, p x = true := by
  refine ⟨s.takeWhile p, (s.dropWhile p).rtakeWhile p, ?_, fun x hx => ?_, fun x hx => ?_⟩
  · rw [List.append_assoc, trimMatches, List.rdropWhile_append_rtakeWhile,
      List.takeWhile_append_dropWhile]
  · exact List.mem_takeWhile_imp hx
  · exact List.mem_rtakeWhile_imp hx

/-- Trimming keeps every character that it does not take off. -/
theorem mem_trimMatches_iff {c : α} (hc : p c = false) : c ∈ trimMatches p s ↔ c ∈ s := by
  obtain ⟨a, b, hs, ha, hb⟩ := exists_eq_trimMatches p s
  constructor
  · intro hin
    rw [hs]
    exact List.mem_append_left b (List.mem_append_right a hin)
  · intro hin
    rw [hs, List.mem_append, List.mem_append] at hin
    rcases hin with (hin | hin) | hin
    · exact absurd (ha c hin) (ne_true_of_eq_false hc)
    · exact hin
    · exact absurd (hb c hin) (ne_true_of_eq_false hc)

theorem trimMatches_dropWhile (p : α → Bool) (s : List α) :
    trimMatches p (s.dropWhile p) = trimMatches p s := by
  conv_rhs => rw [← List.takeWhile_append_dropWhile (p := p) (l := s)]
  exact (trimMatches_of_forall_append fun x hx => List.mem_takeWhile_imp hx).symm

theorem trimMatches_rdropWhile (p : α → Bool) (s : List α) :
    trimMatches p (s.rdropWhile p) = trimMatches p s := by
  conv_rhs => rw [← List.rdropWhile_append_rtakeWhile (p := p) (l := s)]
  exact (trimMatches_append_of_forall fun x hx => List.mem_rtakeWhile_imp hx).symm

@[simp] theorem trimMatches_trimMatches (p : α → Bool) (s : List α) :
    trimMatches p (trimMatches p s) = trimMatches p s := by
  conv_lhs => rw [trimMatches.eq_1 p s]
  rw [trimMatches_rdropWhile, trimMatches_dropWhile]

/-- Trimming reaches no further than a character that it does not take off. -/
theorem trimMatches_append_cons {c : α} (hc : p c = false) (left right : List α) :
    trimMatches p (left ++ c :: right) = left.dropWhile p ++ c :: right.rdropWhile p := by
  have hdrop : (left ++ c :: right).dropWhile p = left.dropWhile p ++ c :: right := by
    rw [List.dropWhile_append, List.dropWhile_cons_of_neg (by simp [hc])]
    split_ifs with hleft
    · rw [List.isEmpty_iff.mp hleft, List.nil_append]
    · rfl
  rw [trimMatches, hdrop, List.append_cons, rdropWhile_append
    (List.rdropWhile_concat_neg _ _ _ (by simp [hc])), ← List.append_cons]

variable [DecidableEq α] {c : α}

theorem splitOn_append_of_notMem (h : c ∉ b) (s : List α) : ∃ pieces last,
    s.splitOn c = pieces ++ [last] ∧ (s ++ b).splitOn c = pieces ++ [last ++ b] := by
  induction s with
  | nil => exact ⟨[], [], List.splitOn_nil c, List.splitOn_eq_singleton h⟩
  | cons x s ih =>
    obtain ⟨pieces, last, h1, h2⟩ := ih
    rw [List.cons_append, List.splitOn_cons_eq_if_modifyHead, List.splitOn_cons_eq_if_modifyHead,
      h1, h2]
    split_ifs
    · exact ⟨[] :: pieces, last, rfl, rfl⟩
    · cases pieces with
      | nil => exact ⟨[], x :: last, rfl, rfl⟩
      | cons piece pieces => exact ⟨(x :: piece) :: pieces, last, rfl, rfl⟩

theorem splitOn_of_notMem_append (h : c ∉ a) (s : List α) : ∃ first pieces,
    s.splitOn c = first :: pieces ∧ (a ++ s).splitOn c = (a ++ first) :: pieces := by
  induction a with
  | nil =>
    obtain ⟨first, pieces, hs⟩ := List.exists_cons_of_ne_nil (List.splitOn_ne_nil c s)
    exact ⟨first, pieces, hs, hs⟩
  | cons x a ih =>
    rw [List.mem_cons, not_or] at h
    obtain ⟨first, pieces, h1, h2⟩ := ih h.2
    refine ⟨first, pieces, h1, ?_⟩
    rw [List.cons_append, List.splitOn_cons_eq_if_modifyHead,
      if_neg (by simpa using Ne.symm h.1), h2]
    rfl

theorem notMem_of_mem_splitOn {piece : List α} (h : piece ∈ s.splitOn c) : c ∉ piece := by
  induction s generalizing piece with
  | nil =>
    rw [List.splitOn_nil, List.mem_singleton] at h
    exact h ▸ List.not_mem_nil
  | cons x s ih =>
    obtain ⟨first, pieces, hs⟩ := List.exists_cons_of_ne_nil (List.splitOn_ne_nil c s)
    rw [hs] at ih
    rw [List.splitOn_cons_eq_if_modifyHead, hs] at h
    split_ifs at h with hx
    · rcases List.mem_cons.mp h with rfl | h
      · exact List.not_mem_nil
      · exact ih h
    · rcases List.mem_cons.mp h with rfl | h
      · rw [List.mem_cons, not_or]
        exact ⟨fun hc => hx (beq_iff_eq.mpr hc.symm), ih List.mem_cons_self⟩
      · exact ih (List.mem_cons_of_mem first h)

/-- A character other than the separator is in one of the pieces. -/
theorem mem_iff_exists_mem_splitOn {x : α} (hx : x ≠ c) (s : List α) :
    x ∈ s ↔ ∃ piece ∈ s.splitOn c, x ∈ piece := by
  induction s with
  | nil => simp
  | cons y s ih =>
    obtain ⟨first, pieces, hs⟩ := List.exists_cons_of_ne_nil (List.splitOn_ne_nil c s)
    rw [hs, List.exists_mem_cons_iff] at ih
    rw [List.splitOn_cons_eq_if_modifyHead, hs, List.mem_cons, ih]
    split_ifs with hy
    · have hne : x ≠ y := fun h => hx (h.trans (beq_iff_eq.mp hy))
      simp [hne]
    · rw [List.modifyHead_cons, List.exists_mem_cons_iff, List.mem_cons, or_assoc]

/-- **The pieces of a text, trimmed,** do not change when the text is trimmed, if the separator is
no character that trimming takes off. -/
theorem trimMatches_splitOn (hc : p c = false) (s : List α) :
    ((trimMatches p s).splitOn c).map (trimMatches p) = (s.splitOn c).map (trimMatches p) := by
  obtain ⟨a, b, hs, ha, hb⟩ := exists_eq_trimMatches p s
  have hnot : ∀ l : List α, (∀ x ∈ l, p x = true) → c ∉ l := fun l hl hin => by
    rw [hl c hin] at hc
    cases hc
  obtain ⟨pieces, last, h1, h2⟩ := splitOn_append_of_notMem (hnot b hb) (trimMatches p s)
  obtain ⟨first, pieces', h3, h4⟩ := splitOn_of_notMem_append (hnot a ha) (trimMatches p s ++ b)
  have hright : ((trimMatches p s ++ b).splitOn c).map (trimMatches p) =
      ((trimMatches p s).splitOn c).map (trimMatches p) := by
    rw [h1, h2, List.map_append, List.map_append, List.map_singleton, List.map_singleton,
      trimMatches_append_of_forall hb]
  have hleft : ((a ++ (trimMatches p s ++ b)).splitOn c).map (trimMatches p) =
      ((trimMatches p s ++ b).splitOn c).map (trimMatches p) := by
    rw [h3, h4, List.map_cons, List.map_cons, trimMatches_of_forall_append ha]
  rw [← hright, ← hleft, ← List.append_assoc, ← hs]

end Trimming

/-! ## Numerals -/

/-- A decimal numeral: digits, after an optional `+`. -/
def parseNat (s : List Char) : Option ℕ :=
  let digits := (s.dropPrefix? ['+']).getD s
  if digits ≠ [] ∧ digits.all Char.isDigit = true then some (Nat.ofDigitChars 10 digits 0)
  else none

/-- A decimal numeral of a 32-bit number. -/
def parseU32 (s : List Char) : Option UInt32 :=
  (parseNat s).bind fun n => if n < UInt32.size then some (UInt32.ofNat n) else none

theorem isDigit_of_mem_toString {n : ℕ} {c : Char} (hc : c ∈ (toString n).toList) :
    c.isDigit = true := by
  rw [Nat.toString_eq_repr, Nat.toList_repr] at hc
  exact Nat.isDigit_of_mem_toDigits (by decide) (by decide) hc

theorem toList_toString_ne_nil (n : ℕ) : (toString n).toList ≠ [] := by
  rw [Nat.toString_eq_repr, Nat.toList_repr]
  exact Nat.toDigits_ne_nil

/-- `s` is a decimal numeral of `n`: digits, after an optional `+`. -/
def IsNumeral (s : List Char) (n : ℕ) : Prop :=
  ∃ digits, (s = '+' :: digits ∨ s = digits) ∧ digits ≠ [] ∧ (∀ c ∈ digits, c.isDigit = true) ∧
    Nat.ofDigitChars 10 digits 0 = n

theorem parseNat_eq_some_iff {s : List Char} {n : ℕ} : parseNat s = some n ↔ IsNumeral s n := by
  rw [parseNat]
  constructor
  · intro h
    split_ifs at h with hdigits
    cases h
    refine ⟨(s.dropPrefix? ['+']).getD s, ?_, hdigits.1, List.all_eq_true.mp hdigits.2, rfl⟩
    rcases hdrop : s.dropPrefix? ['+'] with _ | rest
    · exact Or.inr rfl
    · obtain ⟨sign, rfl, hsign⟩ := List.dropPrefix?_eq_some_iff.mp hdrop
      rw [eq_of_beq hsign]
      exact Or.inl rfl
  · rintro ⟨digits, hs, hne, hdigits, rfl⟩
    have hdrop : (s.dropPrefix? ['+']).getD s = digits := by
      rcases hs with rfl | rfl
      · rw [← List.singleton_append, List.dropPrefix?_append_of_beq _ BEq.rfl, Option.getD_some]
      · obtain ⟨d, ds, rfl⟩ := List.exists_cons_of_ne_nil hne
        have hd : (d == '+') = false := by
          rw [beq_eq_false_iff_ne]
          rintro rfl
          exact absurd (hdigits _ List.mem_cons_self) (by decide)
        rw [List.dropPrefix?, if_neg (by rw [hd]; decide), Option.getD_none]
    rw [hdrop, if_pos ⟨hne, List.all_eq_true.mpr hdigits⟩]

theorem isNumeral_toString (n : ℕ) : IsNumeral (toString n).toList n := by
  refine ⟨_, Or.inr rfl, toList_toString_ne_nil n, fun c hc => isDigit_of_mem_toString hc, ?_⟩
  rw [Nat.toString_eq_repr, Nat.toList_repr, Nat.ofDigitChars_ten_toDigits]

theorem parseU32_eq_some_iff {s : List Char} {n : UInt32} :
    parseU32 s = some n ↔ IsNumeral s n.toNat := by
  rw [parseU32, Option.bind_eq_some_iff]
  constructor
  · rintro ⟨m, hm, h⟩
    split_ifs at h with hlt
    cases h
    rw [UInt32.toNat_ofNat_of_lt' hlt]
    exact parseNat_eq_some_iff.mp hm
  · intro h
    exact ⟨n.toNat, parseNat_eq_some_iff.mpr h, by rw [if_pos n.toNat_lt, UInt32.ofNat_toNat]⟩

/-! ## Slices -/

/-- The number of bytes of a text. -/
def utf8Len : List Char → ℕ
  | [] => 0
  | c :: s => c.utf8Size + utf8Len s

@[simp] theorem utf8Len_nil : utf8Len [] = 0 := rfl

@[simp] theorem utf8Len_cons (c : Char) (s : List Char) :
    utf8Len (c :: s) = c.utf8Size + utf8Len s := rfl

theorem eq_nil_of_utf8Len_eq_zero {s : List Char} (h : utf8Len s = 0) : s = [] := by
  cases s with
  | nil => rfl
  | cons c s =>
    have hpos := c.utf8Size_pos
    rw [utf8Len_cons] at h
    omega

/-- The first `n` bytes; there is no such text where byte `n` is not at a character boundary. -/
def sliceTo : ℕ → List Char → Option (List Char)
  | 0, _ => some []
  | _ + 1, [] => none
  | n + 1, c :: s =>
    if c.utf8Size ≤ n + 1 then (sliceTo (n + 1 - c.utf8Size) s).map fun a => c :: a else none

theorem sliceTo_eq_some_iff {n : ℕ} {s a : List Char} :
    sliceTo n s = some a ↔ utf8Len a = n ∧ a <+: s := by
  induction s generalizing n a with
  | nil =>
    rw [List.prefix_nil]
    cases n with
    | zero =>
      rw [sliceTo, Option.some_inj]
      exact ⟨fun h => ⟨by rw [← h, utf8Len_nil], h.symm⟩, fun h => h.2.symm⟩
    | succ n =>
      refine iff_of_false (by simp [sliceTo]) ?_
      rintro ⟨hlen, rfl⟩
      cases hlen
  | cons c s ih =>
    cases n with
    | zero =>
      rw [sliceTo, Option.some_inj]
      refine ⟨fun h => ⟨by rw [← h, utf8Len_nil], h ▸ List.nil_prefix⟩, fun h => ?_⟩
      exact (eq_nil_of_utf8Len_eq_zero h.1).symm
    | succ n =>
      have hcons : utf8Len a = n + 1 ∧ a <+: c :: s ↔
          ∃ b, utf8Len b + c.utf8Size = n + 1 ∧ b <+: s ∧ c :: b = a := by
        constructor
        · rintro ⟨hlen, hpre⟩
          rcases a with _ | ⟨d, b⟩
          · cases hlen
          · obtain ⟨rfl, hb⟩ := List.cons_prefix_cons.mp hpre
            exact ⟨b, by rw [← hlen, utf8Len_cons, Nat.add_comm], hb, rfl⟩
        · rintro ⟨b, hlen, hb, rfl⟩
          exact ⟨by rw [utf8Len_cons, Nat.add_comm, hlen], List.cons_prefix_cons.mpr ⟨rfl, hb⟩⟩
      rw [hcons, sliceTo]
      split_ifs with hle
      · rw [Option.map_eq_some_iff]
        refine exists_congr fun b => ?_
        have hlen : utf8Len b = n + 1 - c.utf8Size ↔ utf8Len b + c.utf8Size = n + 1 := by omega
        rw [ih, and_assoc, hlen]
      · refine iff_of_false (by simp) ?_
        rintro ⟨b, hlen, -⟩
        omega

/-! ## Lines -/

/-- Without the carriage return at the end, if there is one. -/
def dropCarriageReturn (line : List Char) : List Char :=
  if line.getLast? = some '\r' then line.dropLast else line

/-- The lines of a text, without their endings, a line feed after an optional carriage return.  The
last line may have no ending, and is then not a line if it is empty. -/
def lines (s : List Char) : List (List Char) :=
  let pieces := s.splitOn '\n'
  pieces.dropLast.map dropCarriageReturn ++ pieces.getLast?.toList.filter fun last => last ≠ []

theorem lines_cons {line rest : List Char} (h : '\n' ∉ line) :
    lines (line ++ '\n' :: rest) = dropCarriageReturn line :: lines rest := by
  rw [lines, List.splitOn_append_cons_self_of_not_mem h, List.dropLast_cons_of_ne_nil
    (List.splitOn_ne_nil _ _), List.map_cons, List.cons_append,
    List.getLast?_cons_of_ne_nil (List.splitOn_ne_nil _ _), lines]

end Text
