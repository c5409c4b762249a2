import GrpcBench.Proto

/-!
# The grammar of version triples

`parse_semver` reads `MAJOR.MINOR.PATCH` and what may follow it, build metadata or a pre-release tag
in either order.

* `parseSemver_eq_ok_iff`: the texts it accepts.
* `parseSemver_toString_append`: it reads what `Display` prints, whatever suffix follows.
* `parseSemver_exact`: both.
-/

namespace GrpcBench

/-- Without the leading `v`, if there is one. -/
def withoutLeadingV : List Char → List Char
  | 'v' :: s => s
  | s => s

theorem dropPrefix?_getD (s : List Char) : (s.dropPrefix? ['v']).getD s = withoutLeadingV s := by
  rcases s with _ | ⟨c, s⟩
  · rfl
  · by_cases hc : c = 'v'
    · subst hc
      rw [← List.singleton_append, List.dropPrefix?_append_of_beq _ BEq.rfl]
      rfl
    · rw [List.dropPrefix?, if_neg (by simpa using hc), Option.getD_none, withoutLeadingV]
      rintro s' ⟨rfl, -⟩
      exact hc rfl

/-- Nothing, or build metadata or a pre-release tag. -/
def IsVersionSuffix (suffix : List Char) : Prop :=
  ∀ c ∈ suffix.head?, c = '+' ∨ c = '-'

/-- `s` is `A.B.C` and a suffix, where `A`, `B` and `C` are the numerals of the version. -/
def IsVersionText (s : List Char) (v : SemVer) : Prop :=
  ∃ major minor patch suffix, s = major ++ '.' :: (minor ++ '.' :: (patch ++ suffix)) ∧
    '.' ∉ major ∧ '.' ∉ minor ∧ '+' ∉ patch ∧ '-' ∉ patch ∧ IsVersionSuffix suffix ∧
    Text.IsNumeral major v.major.toNat ∧ Text.IsNumeral minor v.minor.toNat ∧
    Text.IsNumeral patch v.patch.toNat

theorem parseComponent_eq_ok_iff {raw : String} {s : List Char} {n : UInt32} :
    parseComponent raw s = .ok n ↔ Text.IsNumeral s n.toNat := by
  rw [← Text.parseU32_eq_some_iff, parseComponent]
  split
  · rename_i hnone
    rw [hnone]
    exact iff_of_false (by simp) (by simp)
  · rename_i m hsome
    rw [hsome, Except.ok.injEq, Option.some_inj]

theorem splitn_three_iff {s major minor rest : List Char} {tail : List (List Char)} :
    Text.splitn '.' 3 s = major :: minor :: rest :: tail ↔
      s = major ++ '.' :: (minor ++ '.' :: rest) ∧ '.' ∉ major ∧ '.' ∉ minor ∧ tail = [] := by
  rw [Text.splitn_eq_cons_cons_iff]
  constructor
  · rintro ⟨t, rfl, hmajor, h⟩
    obtain ⟨rfl, hminor, rfl⟩ := Text.splitn_two_eq_cons_cons_iff.mp h
    exact ⟨rfl, hmajor, hminor, rfl⟩
  · rintro ⟨rfl, hmajor, hminor, rfl⟩
    exact ⟨_, rfl, hmajor, Text.splitn_two_eq_cons_cons_iff.mpr ⟨rfl, hminor, rfl⟩⟩

/-- **The accepted texts.** -/
theorem parseSemver_eq_ok_iff {raw : String} {v : SemVer} :
    parseSemver raw = .ok v ↔ IsVersionText (withoutLeadingV (trim raw.toList).toList) v := by
  rw [parseSemver, dropPrefix?_getD]
  constructor
  · intro h
    split at h
    · rename_i major minor rest tail hsplit
      dsimp only at h
      obtain ⟨hs, hmajor, hminor, -⟩ := splitn_three_iff.mp hsplit
      obtain ⟨suffix, hrest, hplus, hminus, hsuffix⟩ := Text.before_before_eq_iff.mp
        (Eq.refl (Text.before '-' (Text.before '+' rest)))
      split at h
      · cases h
      · rename_i a ha
        split at h
        · cases h
        · rename_i b hb
          split at h
          · cases h
          · rename_i c hc
            cases h
            refine ⟨major, minor, _, suffix, ?_, hmajor, hminor, hplus, hminus, hsuffix,
              parseComponent_eq_ok_iff.mp ha, parseComponent_eq_ok_iff.mp hb,
              parseComponent_eq_ok_iff.mp hc⟩
            rw [← hrest, hs]
    · cases h
  · rintro ⟨major, minor, patch, suffix, hs, hmajor, hminor, hplus, hminus, hsuffix, ha, hb, hc⟩
    have hpatch : Text.before '-' (Text.before '+' (patch ++ suffix)) = patch :=
      Text.before_before_eq_iff.mpr ⟨suffix, rfl, hplus, hminus, hsuffix⟩
    rw [splitn_three_iff.mpr ⟨hs, hmajor, hminor, rfl⟩]
    simp only [hpatch, parseComponent_eq_ok_iff.mpr ha, parseComponent_eq_ok_iff.mpr hb,
      parseComponent_eq_ok_iff.mpr hc]

/-! ## Round trip -/

theorem toList_toString (v : SemVer) : (toString v).toList =
    (toString v.major).toList ++ '.' ::
      ((toString v.minor).toList ++ '.' :: (toString v.patch).toList) := by
  have h : toString v =
      toString v.major ++ "." ++ toString v.minor ++ "." ++ toString v.patch := rfl
  simp only [h, String.toList_append, List.append_assoc]
  rfl

theorem isDigit_of_mem_component {n : UInt32} {c : Char} (hc : c ∈ (toString n).toList) :
    c.isDigit = true :=
  Text.isDigit_of_mem_toString (n := n.toNat) hc

theorem isVersionText_toString_append (v : SemVer) {suffix : List Char}
    (h : IsVersionSuffix suffix) : IsVersionText ((toString v).toList ++ suffix) v := by
  have hdigits : ∀ {n : UInt32} {c : Char}, c.isDigit = false → c ∉ (toString n).toList :=
    fun hc hmem => Bool.eq_false_iff.mp hc (isDigit_of_mem_component hmem)
  refine ⟨(toString v.major).toList, (toString v.minor).toList, (toString v.patch).toList, suffix,
    ?_, hdigits rfl, hdigits rfl, hdigits rfl, hdigits rfl, h,
    Text.isNumeral_toString _, Text.isNumeral_toString _, Text.isNumeral_toString _⟩
  rw [toList_toString]
  simp only [List.append_assoc, List.cons_append]

theorem isWhiteSpace_of_mem_toString {v : SemVer} {c : Char} (hc : c ∈ (toString v).toList) :
    isWhiteSpace c = false := by
  rw [toList_toString] at hc
  simp only [List.mem_append, List.mem_cons] at hc
  rcases hc with hc | rfl | hc | rfl | hc
  · exact isWhiteSpace_of_isDigit (isDigit_of_mem_component hc)
  · rfl
  · exact isWhiteSpace_of_isDigit (isDigit_of_mem_component hc)
  · rfl
  · exact isWhiteSpace_of_isDigit (isDigit_of_mem_component hc)

theorem IsVersionSuffix.rdropWhile {suffix : List Char} (h : IsVersionSuffix suffix) :
    IsVersionSuffix (suffix.rdropWhile isWhiteSpace) := by
  rcases suffix with _ | ⟨c, rest⟩
  · exact h
  · have hc : isWhiteSpace c = false := by rcases h c rfl with rfl | rfl <;> rfl
    rw [← List.singleton_append, Text.rdropWhile_append (Text.rdropWhile_of_forall (by simpa))]
    exact h

theorem withoutLeadingV_toString (v : SemVer) (rest : List Char) :
    withoutLeadingV ((toString v).toList ++ rest) = (toString v).toList ++ rest := by
  obtain ⟨d, ds, hd⟩ := List.exists_cons_of_ne_nil (Text.toList_toString_ne_nil v.major.toNat)
  have hdigit : d.isDigit = true := Text.isDigit_of_mem_toString (hd ▸ List.mem_cons_self)
  have hmajor : (toString v.major).toList = d :: ds := hd
  rw [toList_toString, hmajor, List.cons_append, List.cons_append, withoutLeadingV]
  rintro s' ⟨rfl, -⟩
  exact absurd hdigit (by decide)

/-- **What is printed is read back,** whatever build metadata or tag follows it. -/
theorem parseSemver_toString_append (v : SemVer) {suffix : String}
    (h : IsVersionSuffix suffix.toList) :
    parseSemver (toString v ++ suffix) = .ok v ∧
      parseSemver ("v" ++ toString v ++ suffix) = .ok v := by
  have hne : (toString v).toList ≠ [] := by simp [toList_toString]
  constructor
  · rw [parseSemver_eq_ok_iff, String.toList_append, toList_trim,
      Text.trimMatches_append hne fun c hc => isWhiteSpace_of_mem_toString hc,
      withoutLeadingV_toString]
    exact isVersionText_toString_append v h.rdropWhile
  · rw [parseSemver_eq_ok_iff, String.toList_append, String.toList_append, toList_trim,
      Text.trimMatches_append (by simp) fun c hc => ?_]
    · exact isVersionText_toString_append v h.rdropWhile
    · rcases List.mem_append.mp hc with hc | hc
      · rw [List.mem_singleton.mp hc]
        rfl
      · exact isWhiteSpace_of_mem_toString hc

/-- `parse_semver` accepts its grammar and nothing else, so that it reads back every printed
version. -/
theorem parseSemver_exact (v : SemVer) :
    (∀ raw, parseSemver raw = .ok v ↔
      IsVersionText (withoutLeadingV (trim raw.toList).toList) v) ∧
    ∀ suffix : String, IsVersionSuffix suffix.toList →
      parseSemver (toString v ++ suffix) = .ok v ∧
        parseSemver ("v" ++ toString v ++ suffix) = .ok v :=
  ⟨fun _ => parseSemver_eq_ok_iff, fun _ => parseSemver_toString_append v⟩

theorem parseSemver_exact_prerelease :
    parseSemver ("v" ++ toString (⟨2, 1, 0⟩ : SemVer) ++ "-rc.4+build-7") = .ok ⟨2, 1, 0⟩ :=
  ((parseSemver_exact ⟨2, 1, 0⟩).2 "-rc.4+build-7"
    (fun _ hc => Or.inr (Option.some_inj.mp hc).symm)).2

end GrpcBench
