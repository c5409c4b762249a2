import GrpcBench.Library.Codes
import GrpcBench.Raw
import Mathlib.Data.Finset.Sort
import Mathlib.Data.String.Basic

/-!
# The text of a raw record

`serde_json::to_string`, on the values that raw records are made of: no blanks, the keys of an
object in ascending order, and in a string the quotation mark, the backslash and the control
characters escaped.  A line feed is a control character, so a text is one line; and different values
have different texts, whatever strings they hold.

* `JsonValue.toText`, `JsonValue.toBytes`: the text, and its bytes.
* `JsonValue.toText_injective`, `JsonValue.lineFeed_notMem_toBytes`.
-/

namespace GrpcBench

open Codes (Delimits)

/-! ## Writing -/

/-- The digits of an escape `\u00XX`. -/
def hexDigits : List Char :=
  "0123456789abcdef".toList

/-- A character inside a string. -/
def escapeChar (c : Char) : List Char :=
  if c = '\x22' then ['\\', '\x22']
  else if c = '\\' then ['\\', '\\']
  else if c = '\x08' then ['\\', 'b']
  else if c = '\t' then ['\\', 't']
  else if c = '\n' then ['\\', 'n']
  else if c = '\x0c' then ['\\', 'f']
  else if c = '\r' then ['\\', 'r']
  else if c.toNat < 32 then
    ['\\', 'u', '0', '0', hexDigits.getD (c.toNat / 16) '0', hexDigits.getD (c.toNat % 16) '0']
  else [c]

/-- A string. -/
def stringText (s : String) : List Char :=
  '\x22' :: (s.toList.flatMap escapeChar ++ ['\x22'])

namespace JsonScalar

/-- The text of a scalar. -/
def toText : JsonScalar → List Char
  | .null => "null".toList
  | .number n => (toString n.toNat).toList
  | .string s => stringText s

end JsonScalar

/-- A key and its value. -/
def memberText (member : String × JsonScalar) : List Char :=
  stringText member.1 ++ ':' :: member.2.toText

/-- An object, from the first key on. -/
def membersText : List (String × JsonScalar) → List Char
  | [] => ['\x7d']
  | member :: rest =>
    memberText member ++ (rest.flatMap fun member => ',' :: memberText member) ++ ['\x7d']

/-- The entries of an object, in ascending order of their keys. -/
def sortedEntries (map : Finmap fun _ : String => JsonScalar) : List (String × JsonScalar) :=
  (map.keys.sort (· ≤ ·)).filterMap fun key => (map.lookup key).map fun value => (key, value)

namespace JsonValue

/-- `serde_json::to_string`. -/
def toText : JsonValue → List Char
  | .scalar value => value.toText
  | .object map => '\x7b' :: membersText (sortedEntries map)

/-- The bytes of the text. -/
def toBytes (value : JsonValue) : Option (List UInt8) :=
  some (Codes.utf8 value.toText)

end JsonValue

/-! ## Reading back -/

/-- A character of a string, read back. -/
def readChar : List Char → Option (Char × List Char)
  | [] => none
  | '\\' :: 'u' :: '0' :: '0' :: a :: b :: r =>
    some (Char.ofNat (16 * hexDigits.idxOf a + hexDigits.idxOf b), r)
  | '\\' :: 'b' :: r => some ('\x08', r)
  | '\\' :: 't' :: r => some ('\t', r)
  | '\\' :: 'n' :: r => some ('\n', r)
  | '\\' :: 'f' :: r => some ('\x0c', r)
  | '\\' :: 'r' :: r => some ('\r', r)
  | '\\' :: c :: r => some (c, r)
  | c :: r => some (c, r)

theorem idxOf_hexDigits : ∀ d < 16, hexDigits.idxOf (hexDigits.getD d '0') = d := by
  decide

theorem readChar_escapeChar (c : Char) (r : List Char) :
    readChar (escapeChar c ++ r) = some (c, r) := by
  unfold escapeChar
  split_ifs with h1 h2 h3 h4 h5 h6 h7 h8
  · rw [h1]
    rfl
  · rw [h2]
    rfl
  · rw [h3]
    rfl
  · rw [h4]
    rfl
  · rw [h5]
    rfl
  · rw [h6]
    rfl
  · rw [h7]
    rfl
  · have hvalue : 16 * (c.toNat / 16) + c.toNat % 16 = c.toNat := Nat.div_add_mod c.toNat 16
    show some (Char.ofNat (16 * hexDigits.idxOf (hexDigits.getD (c.toNat / 16) '0') +
      hexDigits.idxOf (hexDigits.getD (c.toNat % 16) '0')), r) = _
    rw [idxOf_hexDigits _ (by omega), idxOf_hexDigits _ (by omega), hvalue, Char.ofNat_toNat]
  · have hplain : ∀ r', '\\' :: r' ≠ c :: r := fun r' heq => h2 (List.cons.inj heq).1.symm
    rw [List.singleton_append, readChar.eq_def]
    split <;> simp_all

theorem delimits_escapeChar : Delimits (fun _ => True) escapeChar :=
  Codes.delimits_of_read fun c r _ => readChar_escapeChar c r

/-- No escaped character starts with the quotation mark. -/
theorem head_escapeChar (c : Char) (s r : List Char) : escapeChar c ++ s ≠ '\x22' :: r := by
  unfold escapeChar
  split_ifs with h1 <;> intro heq
  all_goals first | exact h1 (List.cons.inj heq).1 | simp at heq

theorem delimits_stringText : Delimits (fun _ => True) stringText := by
  have hlist : Delimits (fun r => ∃ r', r = '\x22' :: r') fun s : List Char =>
      s.flatMap escapeChar :=
    delimits_escapeChar.list (fun _ _ => trivial) (fun _ _ => trivial) fun c s h => by
      obtain ⟨r', heq⟩ := h
      exact head_escapeChar c s r' heq
  exact ((hlist.append_const fun r _ => ⟨r, rfl⟩).const_append ['\x22']).comp_injective
    fun _ _ heq => String.toList_inj.mp heq

/-- What may follow a value: not a digit. -/
def EndsValue (r : List Char) : Prop :=
  ∀ c ∈ r.head?, c.isDigit = false

theorem endsValue_cons {c : Char} (hc : c.isDigit = false) (r : List Char) :
    EndsValue (c :: r) := by
  rintro _ ⟨⟩
  exact hc

/-- A numeral starts with a digit. -/
theorem exists_numeral_append (n : ℕ) (r : List Char) :
    ∃ d s, (toString n).toList ++ r = d :: s ∧ d.isDigit = true := by
  obtain ⟨d, ds, hd⟩ := List.exists_cons_of_ne_nil (Text.toList_toString_ne_nil n)
  exact ⟨d, ds ++ r, by rw [hd]; rfl,
    Text.isDigit_of_mem_toString (n := n) (by rw [hd]; exact List.mem_cons_self)⟩

theorem numeral_append_ne {c : Char} (hc : c.isDigit = false) (n : ℕ) (r s : List Char) :
    (toString n).toList ++ r ≠ c :: s := by
  obtain ⟨d, s', heq, hd⟩ := exists_numeral_append n r
  rintro h
  rw [heq] at h
  rw [(List.cons.inj h).1, hc] at hd
  cases hd

theorem JsonScalar.delimits_toText : Delimits EndsValue JsonScalar.toText := by
  intro v v' r r' hr hr' heq
  cases v with
  | null =>
    cases v' with
    | null => exact ⟨rfl, List.append_cancel_left heq⟩
    | number n => exact absurd heq.symm (numeral_append_ne (by decide) n.toNat r' _)
    | string s => exact absurd (List.cons.inj heq).1 (by decide)
  | number n =>
    cases v' with
    | null => exact absurd heq (numeral_append_ne (by decide) n.toNat r _)
    | number n' =>
      obtain ⟨hn, hrest⟩ := Codes.delimits_numeral n.toNat n'.toNat r r' hr hr' heq
      exact ⟨congrArg _ (UInt64.toNat_inj.mp hn), hrest⟩
    | string s => exact absurd heq (numeral_append_ne (by decide) n.toNat r _)
  | string s =>
    cases v' with
    | null => exact absurd (List.cons.inj heq).1 (by decide)
    | number n => exact absurd heq.symm (numeral_append_ne (by decide) n.toNat r' _)
    | string s' =>
      obtain ⟨hs, hrest⟩ := delimits_stringText s s' r r' trivial trivial heq
      exact ⟨congrArg _ hs, hrest⟩

theorem delimits_memberText : Delimits EndsValue memberText :=
  delimits_stringText.prod (JsonScalar.delimits_toText.const_append [':']) fun _ _ _ => trivial

/-- The members of an object, told apart by what follows each of them. -/
theorem membersText_injective : Function.Injective membersText := by
  have hrest : Delimits (fun r => ∃ r', r = '\x7d' :: r') fun rest : List (String × JsonScalar) =>
      rest.flatMap fun member => ',' :: memberText member := by
    refine (delimits_memberText.const_append [',']).list (fun member r => ?_) ?_ ?_
    · exact endsValue_cons (by decide) _
    · rintro _ ⟨r, rfl⟩
      exact endsValue_cons (by decide) r
    · rintro member s ⟨r, heq⟩
      exact absurd (List.cons.inj heq).1 (by decide)
  have hmembers : Delimits (fun r : List Char => r = [])
      fun p : (String × JsonScalar) × List (String × JsonScalar) =>
        memberText p.1 ++ ((p.2.flatMap fun member => ',' :: memberText member) ++ ['\x7d']) := by
    refine delimits_memberText.prod (hrest.append_const fun r hr => ⟨r, rfl⟩) fun rest r hr => ?_
    cases rest with
    | nil => exact endsValue_cons (by decide) _
    | cons member rest => exact endsValue_cons (by decide) _
  intro l l' heq
  rcases l with _ | ⟨member, rest⟩ <;> rcases l' with _ | ⟨member', rest'⟩
  · rfl
  · exact absurd (List.cons.inj heq).1 (by decide)
  · exact absurd (List.cons.inj heq).1 (by decide)
  · rw [membersText, membersText, List.append_assoc, List.append_assoc] at heq
    have hpair : (member, rest) = (member', rest') := hmembers.injective rfl heq
    rw [(Prod.mk.inj hpair).1, (Prod.mk.inj hpair).2]

/-! ## Objects and values -/

theorem mem_sortedEntries (map : Finmap fun _ : String => JsonScalar) (key : String)
    (value : JsonScalar) : (key, value) ∈ sortedEntries map ↔ map.lookup key = some value := by
  simp only [sortedEntries, List.mem_filterMap, Finset.mem_sort, Option.map_eq_some_iff,
    Prod.mk.injEq]
  constructor
  · rintro ⟨k, -, v, hlook, rfl, rfl⟩
    exact hlook
  · intro hlook
    exact ⟨key, Finmap.mem_keys.mpr (Finmap.mem_of_lookup_eq_some hlook), value, hlook, rfl, rfl⟩

theorem sortedEntries_injective : Function.Injective sortedEntries := by
  intro map map' heq
  refine Finmap.ext_lookup fun key => Option.ext fun value => ?_
  rw [← mem_sortedEntries, heq, mem_sortedEntries]

namespace JsonValue

/-- **Different values have different texts.** -/
theorem toText_injective : Function.Injective toText := by
  have hobject : ∀ (v : JsonScalar) r, v.toText ≠ '\x7b' :: r := by
    intro v r
    cases v with
    | null => exact fun heq => absurd (List.cons.inj heq).1 (by decide)
    | number n =>
      have hne := numeral_append_ne (c := '\x7b') (by decide) n.toNat [] r
      rwa [List.append_nil] at hne
    | string s => exact fun heq => absurd (List.cons.inj heq).1 (by decide)
  intro v v' heq
  cases v with
  | scalar v =>
    cases v' with
    | scalar v' =>
      rw [JsonScalar.delimits_toText.injective (by rintro c ⟨⟩) heq]
    | object map => exact absurd heq (hobject v _)
  | object map =>
    cases v' with
    | scalar v' => exact absurd heq.symm (hobject v' _)
    | object map' =>
      rw [sortedEntries_injective (membersText_injective (List.cons.inj heq).2)]

end JsonValue

/-! ## One line -/

theorem lineFeed_notMem_escapeChar (c : Char) : '\n' ∉ escapeChar c := by
  have hdigits : ∀ d < 16, hexDigits.getD d '0' ≠ '\n' := by decide
  unfold escapeChar
  split_ifs with h1 h2 h3 h4 h5 h6 h7 h8
  · decide
  · decide
  · decide
  · decide
  · decide
  · decide
  · decide
  · have ha := hdigits (c.toNat / 16) (by omega)
    have hb := hdigits (c.toNat % 16) (by omega)
    simp only [List.mem_cons, List.not_mem_nil, or_false, not_or]
    exact ⟨by decide, by decide, by decide, by decide, ha.symm, hb.symm⟩
  · exact fun h => h5 (List.mem_singleton.mp h).symm

theorem lineFeed_notMem_stringText (s : String) : '\n' ∉ stringText s := by
  simp [stringText, lineFeed_notMem_escapeChar]

theorem JsonScalar.lineFeed_notMem_toText (v : JsonScalar) : '\n' ∉ v.toText := by
  cases v with
  | null => decide
  | number n => exact fun h => absurd (Text.isDigit_of_mem_toString h) (by decide)
  | string s => exact lineFeed_notMem_stringText s

theorem lineFeed_notMem_memberText (member : String × JsonScalar) : '\n' ∉ memberText member := by
  simp [memberText, lineFeed_notMem_stringText, JsonScalar.lineFeed_notMem_toText]

namespace JsonValue

theorem lineFeed_notMem_toText (v : JsonValue) : '\n' ∉ v.toText := by
  cases v with
  | scalar v => exact v.lineFeed_notMem_toText
  | object map =>
    rw [toText]
    rcases sortedEntries map with _ | ⟨member, rest⟩
    · decide
    · simp [membersText, lineFeed_notMem_memberText]

/-- **A text is one line.** -/
theorem lineFeed_notMem_toBytes {v : JsonValue} {bytes : List UInt8} (h : v.toBytes = some bytes) :
    10 ∉ bytes := by
  cases h
  intro hmem
  obtain ⟨c, hc, heq⟩ := (Codes.mem_utf8_iff (by decide)).mp hmem
  have hlf : c = '\n' := Char.toNat_inj.mp heq
  exact v.lineFeed_notMem_toText (hlf ▸ hc)

theorem toBytes_injective {v v' : JsonValue} (h : v.toBytes = v'.toBytes) : v = v' :=
  toText_injective (Codes.utf8_injective (Option.some.inj h))

end JsonValue

end GrpcBench
