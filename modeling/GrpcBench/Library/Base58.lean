import Mathlib.Data.List.TakeWhile
import Mathlib.Data.Nat.Digits.Lemmas

/-!
# Base58

Base58 writes the number whose big-endian digits are the given bytes with 58 letters, and then one
`1` in front for every zero byte at the start, which the number does not show.  On byte strings of
one length the number alone tells them apart, so that `encode` is injective there
(`encode_injective`).  With the leading zeros it is on all of them, and every text of letters is the
text of a byte string: reading and writing are inverse to each other (`decode_eq_some_iff`).
-/

namespace Base58

/-- The letters: no `0`, `O`, `I` and `l`. -/
def alphabet : List Char :=
  "123456789ABCDEFGHJKLMNPQRSTUVWXYZabcdefghijkmnopqrstuvwxyz".toList

/-- The letter of a digit. -/
def letter (d : ℕ) : Char :=
  alphabet.getD d '1'

/-- The number of a byte string, the first byte weighing most. -/
def value (bytes : List UInt8) : ℕ :=
  Nat.ofDigits 256 (bytes.reverse.map UInt8.toNat)

/-- The base-58 digits of a byte string, the last one first. -/
def digits (bytes : List UInt8) : List ℕ :=
  Nat.digits 58 (value bytes) ++ List.replicate (bytes.takeWhile fun b => b == 0).length 0

/-- The text of a byte string. -/
def encode (bytes : List UInt8) : String :=
  String.ofList ((digits bytes).reverse.map letter)

theorem idxOf_letter : ∀ d < 58, alphabet.idxOf (letter d) = d := by
  decide

theorem lt_of_mem_digits {bytes : List UInt8} {d : ℕ} (h : d ∈ digits bytes) : d < 58 := by
  rcases List.mem_append.mp h with h | h
  · exact Nat.digits_lt_base (by decide) h
  · rw [List.eq_of_mem_replicate h]
    decide

/-- The digits are read off their letters. -/
theorem map_idxOf_letter (bytes : List UInt8) :
    ((digits bytes).map letter).map alphabet.idxOf = digits bytes := by
  rw [List.map_map]
  exact (List.map_congr_left fun d hd => idxOf_letter d (lt_of_mem_digits hd)).trans
    (List.map_id (digits bytes))

/-- The digits are those of the number. -/
theorem ofDigits_digits (bytes : List UInt8) : Nat.ofDigits 58 (digits bytes) = value bytes := by
  rw [digits, Nat.ofDigits_append_replicate_zero, Nat.ofDigits_digits]

theorem value_inj {a b : List UInt8} (hlen : a.length = b.length) (h : value a = value b) :
    a = b := by
  have hlt : ∀ l : List UInt8, ∀ n ∈ l.reverse.map UInt8.toNat, n < 256 := fun l n hn => by
    obtain ⟨x, -, rfl⟩ := List.mem_map.mp hn
    exact x.toNat_lt
  have hmap := Nat.ofDigits_inj_of_len_eq (by decide) (by simpa using hlen) (hlt a) (hlt b) h
  exact List.reverse_injective (List.map_injective_iff.mpr (fun _ _ => UInt8.toNat_inj.mp) hmap)

/-- **Texts of byte strings of one length** are told apart. -/
theorem encode_injective {a b : List UInt8} (hlen : a.length = b.length)
    (h : encode a = encode b) : a = b := by
  have hletters : (digits a).map letter = (digits b).map letter := by
    rw [encode, encode, String.ofList_inj, List.map_reverse, List.map_reverse] at h
    exact List.reverse_injective h
  have hdigits : digits a = digits b := by
    rw [← map_idxOf_letter a, hletters, map_idxOf_letter b]
  refine value_inj hlen ?_
  rw [← ofDigits_digits, hdigits, ofDigits_digits]

/-! ## Leading zeros

In any base a list of digits is a number and a count of leading zeros, and it is any number and any
count. -/

/-- The zeros at the start. -/
def leadingZeros (ds : List ℕ) : ℕ :=
  (ds.takeWhile fun d => d == 0).length

/-- The digits of a number in base `b`, with some zeros in front. -/
def pad (b zeros n : ℕ) : List ℕ :=
  List.replicate zeros 0 ++ (Nat.digits b n).reverse

variable {b : ℕ}

theorem number_pad (zeros n : ℕ) : Nat.ofDigits b (pad b zeros n).reverse = n := by
  rw [pad, List.reverse_append, List.reverse_reverse, List.reverse_replicate,
    Nat.ofDigits_append_replicate_zero, Nat.ofDigits_digits]

theorem leadingZeros_pad (zeros n : ℕ) : leadingZeros (pad b zeros n) = zeros := by
  have hhead : ((Nat.digits b n).reverse.takeWhile fun d => d == 0) = [] := by
    rcases Nat.eq_zero_or_pos n with rfl | hn
    · simp
    · have hlast := Nat.getLast_digit_ne_zero b hn.ne'
      rw [← List.dropLast_append_getLast (Nat.digits_ne_nil_iff_ne_zero.mpr hn.ne'),
        List.reverse_append, List.reverse_singleton, List.singleton_append,
        List.takeWhile_cons_of_neg (by simpa using hlast)]
  rw [leadingZeros, pad, List.takeWhile_append_of_pos (by simp), hhead, List.append_nil,
    List.length_replicate]

/-- **A list of digits** is its leading zeros and its number. -/
theorem pad_leadingZeros (hb : 1 < b) {ds : List ℕ} (hds : ∀ d ∈ ds, d < b) :
    pad b (leadingZeros ds) (Nat.ofDigits b ds.reverse) = ds := by
  have hzeros : ds.takeWhile (fun d => d == 0) = List.replicate (leadingZeros ds) 0 :=
    List.eq_replicate_iff.mpr ⟨rfl, fun d hd => by simpa using List.mem_takeWhile_imp hd⟩
  have hsplit : List.replicate (leadingZeros ds) 0 ++ (ds.dropWhile fun d => d == 0) = ds := by
    rw [← hzeros, List.takeWhile_append_dropWhile]
  have hnumber : Nat.ofDigits b ds.reverse =
      Nat.ofDigits b (ds.dropWhile fun d => d == 0).reverse := by
    conv_lhs => rw [← hsplit]
    rw [List.reverse_append, List.reverse_replicate, Nat.ofDigits_append_replicate_zero]
  rw [pad, hnumber, Nat.digits_ofDigits b hb _ (fun d hd => ?_) fun hne => ?_,
    List.reverse_reverse, hsplit]
  · exact hds d ((List.dropWhile_sublist _).subset (List.mem_reverse.mp hd))
  · rw [List.getLast_reverse]
    simpa using List.head_dropWhile_not (fun d => d == 0) (List.reverse_ne_nil_iff.mp hne)

/-! ## Reading -/

/-- The byte string of a text, if all its characters are letters. -/
def decode (text : String) : Option (List UInt8) :=
  if text.toList.all fun c => c ∈ alphabet then
    let ds := text.toList.map alphabet.idxOf
    some ((pad 256 (leadingZeros ds) (Nat.ofDigits 58 ds.reverse)).map UInt8.ofNat)
  else none

theorem length_alphabet : alphabet.length = 58 := by
  decide

theorem letter_idxOf (c : Char) (hc : c ∈ alphabet) :
    letter (alphabet.idxOf c) = c ∧ alphabet.idxOf c < 58 := by
  have hlt := List.idxOf_lt_length_iff.mpr hc
  refine ⟨?_, length_alphabet ▸ hlt⟩
  rw [letter, List.getD_eq_getElem?_getD, List.getElem?_eq_getElem hlt, List.getElem_idxOf hlt,
    Option.getD_some]

theorem letter_mem (d : ℕ) (hd : d < 58) : letter d ∈ alphabet := by
  rw [← List.idxOf_lt_length_iff, idxOf_letter d hd, length_alphabet]
  exact hd

/-- A byte string has the leading zeros and the number of its bytes. -/
theorem digits_eq (bytes : List UInt8) : (digits bytes).reverse =
    pad 58 (leadingZeros (bytes.map UInt8.toNat))
      (Nat.ofDigits 256 (bytes.map UInt8.toNat).reverse) := by
  have hzeros : (bytes.takeWhile fun b => b == 0).length =
      leadingZeros (bytes.map UInt8.toNat) := by
    rw [leadingZeros, List.takeWhile_map, List.length_map]
    refine congrArg List.length (congrArg (fun p => bytes.takeWhile p) (funext fun b => ?_))
    rw [Function.comp_apply, Bool.eq_iff_iff, beq_iff_eq, beq_iff_eq, ← UInt8.toNat_inj]
    rfl
  rw [digits, List.reverse_append, List.reverse_replicate, hzeros, value, List.map_reverse, pad]

theorem pad_toNat (bytes : List UInt8) : pad 256 (leadingZeros (bytes.map UInt8.toNat))
    (Nat.ofDigits 256 (bytes.map UInt8.toNat).reverse) = bytes.map UInt8.toNat :=
  pad_leadingZeros (by decide) fun d hd => by
    obtain ⟨x, -, rfl⟩ := List.mem_map.mp hd
    exact x.toNat_lt

theorem map_ofNat_toNat (bytes : List UInt8) :
    (bytes.map UInt8.toNat).map UInt8.ofNat = bytes := by
  rw [List.map_map]
  exact (List.map_congr_left fun x _ => UInt8.ofNat_toNat).trans (List.map_id bytes)

/-- **Reading is the inverse of writing.** -/
theorem decode_eq_some_iff {text : String} {bytes : List UInt8} :
    decode text = some bytes ↔ encode bytes = text := by
  constructor
  · intro h
    rw [decode] at h
    split_ifs at h with hall
    rw [List.all_eq_true] at hall
    have hletters : ∀ c ∈ text.toList, c ∈ alphabet := fun c hc => by simpa using hall c hc
    obtain rfl := Option.some.inj h
    have hds : ∀ d ∈ text.toList.map alphabet.idxOf, d < 58 := by
      intro d hd
      obtain ⟨c, hc, rfl⟩ := List.mem_map.mp hd
      exact (letter_idxOf c (hletters c hc)).2
    have hbytes : ∀ zeros n, ((pad 256 zeros n).map UInt8.ofNat).map UInt8.toNat =
        pad 256 zeros n := by
      intro zeros n
      rw [List.map_map]
      refine (List.map_congr_left fun d hd => ?_).trans (List.map_id _)
      rcases List.mem_append.mp hd with hd | hd
      · rw [List.eq_of_mem_replicate hd]
        rfl
      · exact Nat.mod_eq_of_lt (Nat.digits_lt_base (by decide) (List.mem_reverse.mp hd))
    rw [encode, digits_eq, hbytes, leadingZeros_pad, number_pad, pad_leadingZeros (by decide) hds,
      List.map_map]
    refine (congrArg String.ofList ((List.map_congr_left fun c hc => ?_).trans
      (List.map_id _))).trans (String.ofList_toList)
    exact (letter_idxOf c (hletters c hc)).1
  · rintro rfl
    have hall : ((encode bytes).toList.all fun c => c ∈ alphabet) = true := by
      rw [encode, String.toList_ofList, List.all_map, List.all_eq_true]
      intro d hd
      simpa using letter_mem d (lt_of_mem_digits (List.mem_reverse.mp hd))
    have hds : (encode bytes).toList.map alphabet.idxOf = (digits bytes).reverse := by
      rw [encode, String.toList_ofList, List.map_reverse, List.map_reverse, map_idxOf_letter]
    rw [decode, if_pos hall]
    dsimp only
    rw [hds, digits_eq, leadingZeros_pad, number_pad, pad_toNat, map_ofNat_toNat]

end Base58
