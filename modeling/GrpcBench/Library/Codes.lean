import GrpcBench.Library.Text

/-!
# Self-delimiting codes

A code writes a value as a list of letters, its word.  In front of a continuation of a given kind,
a word shows where it ends if the letters written determine the value and the continuation.  Words
of such codes can be put one after the other, and read back.

* `Delimits`: the words of a code end by themselves, in front of continuations of a kind.
* `delimits_of_read`, `delimits_of_forall`: by a reader, and by a kind of letters.
* `Delimits.prod`, `Delimits.list`, `Delimits.append_const`, `lines_injective`: words put together.
* `delimits_utf8EncodeChar`, `mem_utf8_iff`: UTF-8 as a code of characters, and its bytes below 128.
-/

namespace Codes

variable {α : Type*} {β : Type*} {γ : Type*}

/-- In front of a continuation with `follows`, a word of the code shows where it ends. -/
def Delimits (follows : List β → Prop) (code : α → List β) : Prop :=
  ∀ a a' r r', follows r → follows r' → code a ++ r = code a' ++ r' → a = a' ∧ r = r'

variable {P Q : List β → Prop} {code : α → List β}

/-! ## Codes that are read -/

/-- A code with a reader. -/
theorem delimits_of_read {read : List β → Option (α × List β)}
    (h : ∀ a r, P r → read (code a ++ r) = some (a, r)) : Delimits P code := by
  intro a a' r r' hr hr' heq
  have hread := h a r hr
  rw [heq, h a' r' hr', Option.some.injEq, Prod.mk.injEq] at hread
  exact ⟨hread.1.symm, hread.2.symm⟩

/-- A code all of whose letters are of a kind, in front of a letter that is not. -/
theorem delimits_of_forall {p : β → Bool} (hinj : Function.Injective code)
    (hall : ∀ a, ∀ x ∈ code a, p x = true) :
    Delimits (fun r => ∀ x ∈ r.head?, p x = false) code := by
  have hword : ∀ a r, (∀ x ∈ r.head?, p x = false) → (code a ++ r).takeWhile p = code a := by
    intro a r hr
    rw [List.takeWhile_append_of_pos (hall a)]
    rcases r with _ | ⟨x, r⟩
    · simp
    · rw [List.takeWhile_cons_of_neg (by simp [hr x rfl]), List.append_nil]
  intro a a' r r' hr hr' heq
  have hcode : code a = code a' := by
    rw [← hword a r hr, heq, hword a' r' hr']
  refine ⟨hinj hcode, ?_⟩
  rw [hcode] at heq
  exact List.append_cancel_left heq

/-! ## Words put together -/

namespace Delimits

theorem mono (h : Delimits P code) (hQ : ∀ r, Q r → P r) : Delimits Q code :=
  fun a a' r r' hr hr' heq => h a a' r r' (hQ r hr) (hQ r' hr') heq

theorem injective (h : Delimits P code) (hnil : P []) : Function.Injective code :=
  fun a a' heq => (h a a' [] [] hnil hnil (congrArg (· ++ []) heq)).1

/-- A code of codes. -/
theorem comp_injective {f : γ → α} (h : Delimits P code) (hf : Function.Injective f) :
    Delimits P (code ∘ f) :=
  fun c c' r r' hr hr' heq => (h (f c) (f c') r r' hr hr' heq).imp_left fun e => hf e

theorem const_append (h : Delimits P code) (start : List β) :
    Delimits P fun a => start ++ code a := by
  intro a a' r r' hr hr' heq
  rw [List.append_assoc, List.append_assoc] at heq
  exact h a a' r r' hr hr' (List.append_cancel_left heq)

/-- Words with an end mark. -/
theorem append_const (h : Delimits P code) {mark : List β} (hmark : ∀ r, Q r → P (mark ++ r)) :
    Delimits Q fun a => code a ++ mark := by
  intro a a' r r' hr hr' heq
  rw [List.append_assoc, List.append_assoc] at heq
  obtain ⟨ha, hrest⟩ := h a a' _ _ (hmark r hr) (hmark r' hr') heq
  exact ⟨ha, List.append_cancel_left hrest⟩

/-- Two words. -/
theorem prod {code' : γ → List β} (h : Delimits P code) (h' : Delimits Q code')
    (hnext : ∀ c r, Q r → P (code' c ++ r)) :
    Delimits Q fun p : α × γ => code p.1 ++ code' p.2 := by
  rintro ⟨a, c⟩ ⟨a', c'⟩ r r' hr hr' heq
  rw [List.append_assoc, List.append_assoc] at heq
  obtain ⟨ha, hrest⟩ := h a a' _ _ (hnext c r hr) (hnext c' r' hr') heq
  obtain ⟨hc, hr⟩ := h' c c' r r' hr hr' hrest
  exact ⟨Prod.ext ha hc, hr⟩

/-- A list of words, in front of what no word begins. -/
theorem list (h : Delimits P code) (hnext : ∀ a r, P (code a ++ r)) (hend : ∀ r, Q r → P r)
    (hstop : ∀ a s, ¬ Q (code a ++ s)) : Delimits Q fun as : List α => as.flatMap code := by
  have hfollows : ∀ (as : List α) r, Q r → P (as.flatMap code ++ r) := fun as r hr => by
    cases as with
    | nil => exact hend r hr
    | cons a as =>
      rw [List.flatMap_cons, List.append_assoc]
      exact hnext a _
  show ∀ (as as' : List α) r r', Q r → Q r' →
    as.flatMap code ++ r = as'.flatMap code ++ r' → as = as' ∧ r = r'
  intro as
  induction as with
  | nil =>
    intro as' r r' hr hr' heq
    cases as' with
    | nil => exact ⟨rfl, heq⟩
    | cons a' as' =>
      rw [List.flatMap_nil, List.nil_append, List.flatMap_cons, List.append_assoc] at heq
      exact absurd (heq ▸ hr) (hstop a' _)
  | cons a as ih =>
    intro as' r r' hr hr' heq
    rw [List.flatMap_cons, List.append_assoc] at heq
    cases as' with
    | nil =>
      rw [List.flatMap_nil, List.nil_append] at heq
      exact absurd (heq ▸ hr') (hstop a _)
    | cons a' as' =>
      rw [List.flatMap_cons, List.append_assoc] at heq
      obtain ⟨ha, hrest⟩ := h a a' _ _ (hfollows as r hr) (hfollows as' r' hr') heq
      obtain ⟨has, hr⟩ := ih as' r r' hr hr' hrest
      exact ⟨by rw [ha, has], hr⟩

end Delimits

/-- Lines: words without the mark that ends each of them. -/
theorem lines_injective [DecidableEq β] {mark : β} (hinj : Function.Injective code)
    (hmark : ∀ a, mark ∉ code a) :
    Function.Injective fun as : List α => as.flatMap fun a => code a ++ [mark] := by
  have hword : Delimits (fun r => ∀ x ∈ r.head?, decide (x ≠ mark) = false) code :=
    delimits_of_forall hinj fun a x hx => decide_eq_true fun heq => hmark a (heq ▸ hx)
  have hline : Delimits (fun _ => True) fun a => code a ++ [mark] :=
    hword.append_const fun r _ x hx => by
      cases hx
      simp
  have hlist : Delimits (fun r : List β => r = []) fun as : List α =>
      as.flatMap fun a => code a ++ [mark] :=
    hline.list (fun _ _ => trivial) (fun _ _ => trivial) fun a s h => by
      simp at h
  exact hlist.injective rfl

/-! ## Numerals and characters -/

theorem toList_toString_injective : Function.Injective fun n : ℕ => (toString n).toList := by
  intro n n' heq
  have h := Text.parseNat_eq_some_iff.mpr (Text.isNumeral_toString n)
  have h' := Text.parseNat_eq_some_iff.mpr (Text.isNumeral_toString n')
  dsimp only at heq
  rw [heq, h'] at h
  exact (Option.some.inj h).symm

/-- A numeral ends where no digit follows. -/
theorem delimits_numeral : Delimits (fun r => ∀ c ∈ r.head?, c.isDigit = false)
    fun n : ℕ => (toString n).toList :=
  delimits_of_forall toList_toString_injective fun _ _ hc => Text.isDigit_of_mem_toString hc

/-- UTF-8 shows where a character ends. -/
theorem delimits_utf8EncodeChar : Delimits (fun _ => True) String.utf8EncodeChar := by
  intro c c' r r' _ _ heq
  have hread (c : Char) (r : List UInt8) :
      ByteArray.utf8DecodeChar? (String.utf8EncodeChar c ++ r).toByteArray 0 = some c := by
    rw [List.toByteArray_append]
    exact ByteArray.utf8DecodeChar?_utf8EncodeChar_append
  have hc : c = c' := by
    have h := hread c r
    rw [heq, hread c' r'] at h
    exact (Option.some.inj h).symm
  subst hc
  exact ⟨rfl, List.append_cancel_left heq⟩

/-- The bytes of a text. -/
def utf8 (s : List Char) : List UInt8 :=
  s.flatMap String.utf8EncodeChar

theorem utf8_injective : Function.Injective utf8 := by
  have hlist : Delimits (fun r : List UInt8 => r = []) fun s : List Char =>
      s.flatMap String.utf8EncodeChar :=
    delimits_utf8EncodeChar.list (fun _ _ => trivial) (fun _ _ => trivial) fun c s h =>
      String.utf8EncodeChar_ne_nil (List.append_eq_nil_iff.mp h).1
  exact hlist.injective rfl

/-- A byte below 128 is a character of its own. -/
theorem mem_utf8EncodeChar {c : Char} {b : UInt8} (hb : b.toNat < 128)
    (h : b ∈ String.utf8EncodeChar c) : c.toNat = b.toNat := by
  have hlead : ∀ x k : UInt8, 128 ≤ k.toNat → b ≠ x ||| k := by
    rintro x k hk rfl
    rw [UInt8.toNat_or] at hb
    exact absurd (Nat.lt_of_le_of_lt (hk.trans Nat.right_le_or) hb) (Nat.lt_irrefl 128)
  match hc : c.utf8Size, c.utf8Size_pos, c.utf8Size_le_four with
  | 1, _, _ =>
    rw [String.utf8EncodeChar_eq_singleton hc, List.mem_singleton] at h
    rw [Char.utf8Size_eq_one_iff, UInt32.le_iff_toNat_le] at hc
    rw [h, UInt32.toNat_toUInt8]
    exact (Nat.mod_eq_of_lt (Nat.lt_of_le_of_lt hc (by decide))).symm
  | 2, _, _ =>
    rw [String.utf8EncodeChar_eq_cons_cons hc] at h
    simp [hlead] at h
  | 3, _, _ =>
    rw [String.utf8EncodeChar_eq_cons_cons_cons hc] at h
    simp [hlead] at h
  | 4, _, _ =>
    rw [String.utf8EncodeChar_eq_cons_cons_cons_cons hc] at h
    simp [hlead] at h

/-- The bytes below 128 are the characters below 128. -/
theorem mem_utf8_iff {s : List Char} {b : UInt8} (hb : b.toNat < 128) :
    b ∈ utf8 s ↔ ∃ c ∈ s, c.toNat = b.toNat := by
  rw [utf8, List.mem_flatMap]
  refine exists_congr fun c => and_congr_right fun _ => ⟨mem_utf8EncodeChar hb, fun hc => ?_⟩
  rw [← hc] at hb
  have hsize : c.utf8Size = 1 := by
    rw [Char.utf8Size_eq_one_iff, UInt32.le_iff_toNat_le]
    exact Nat.le_of_lt_succ hb
  have hbyte : b = c.val.toUInt8 := by
    rw [← UInt8.toNat_inj, UInt32.toNat_toUInt8]
    exact hc.symm.trans (Nat.mod_eq_of_lt (Nat.lt_trans hb (by decide))).symm
  rw [String.utf8EncodeChar_eq_singleton hsize, hbyte]
  exact List.mem_singleton_self _

end Codes
