import GrpcBench.Collect.Affinity.Grammar

/-!
# The grammar of flat affinity

A flat text is a list of core numbers between commas, with white space around them ignored.  The
first item that is empty, no number, or a number that came before is the one refused.  The first
four cores are used, and the others are accepted and dropped.

* `IsFlat`: the texts that are taken for a list.
* `parseCores_eq_error_iff`: the item that is refused.
* `fromFlatVec_eq_ok_iff`: the layout is that of `AffinityPlan.fromCli`.
* `parse_flat_exact`: the parser accepts the lists and nothing else, and what it says otherwise.
* `parse_intercalate`: a printed list is read as the list itself.
-/

namespace GrpcBench

namespace AffinitySpec

/-! ## The refused item -/

/-- Why an item is refused, after the cores before it. -/
inductive Refused (label : String) (past : List UInt32) (item : List Char) :
    AffinityParseError → Prop
  | empty (h : trim item = "") : Refused label past item .emptySection
  | noNumber (hne : trim item ≠ "") (h : ∀ core, ¬ IsItem item core) :
    Refused label past item (.invalidCore (trim item) label)
  | occurred (core) (hitem : IsItem item core) (h : core ∈ past) :
    Refused label past item (.duplicateCore core)

theorem isItem_iff {item : List Char} {core : UInt32} :
    IsItem item core ↔ Text.parseU32 (trim item).toList = some core :=
  Text.parseU32_eq_some_iff.symm

theorem IsItem.trim_ne {item : List Char} {core : UInt32} (h : IsItem item core) :
    trim item ≠ "" := fun hempty => by
  rw [IsItem, hempty] at h
  exact isNumeral_ne_nil h rfl

theorem IsItem.unique {item : List Char} {core core' : UInt32} (h : IsItem item core)
    (h' : IsItem item core') : core = core' :=
  Option.some.inj ((isItem_iff.mp h).symm.trans (isItem_iff.mp h'))

theorem rightUnique_isItem : Relator.RightUnique IsItem := by
  intro item core core' h h'
  exact h.unique h'

/-- An item is refused, or read. -/
theorem parseCores_cons_eq_error_iff {label : String} {past : List UInt32} {part : List Char}
    {rest : List (List Char)} {e : AffinityParseError} :
    parseCores label past (part :: rest) = .error e ↔ Refused label past part e ∨
      ∃ core, IsItem part core ∧ core ∉ past ∧
        parseCores label (past ++ [core]) rest = .error e := by
  rw [parseCores]
  by_cases hempty : trim part = ""
  · rw [if_pos hempty, Except.error.injEq]
    constructor
    · rintro rfl
      exact Or.inl (.empty hempty)
    · rintro (hrefused | ⟨core, hitem, -⟩)
      · cases hrefused with
        | empty => rfl
        | noNumber hne => exact absurd hempty hne
        | occurred core hitem => exact absurd hempty hitem.trim_ne
      · exact absurd hempty hitem.trim_ne
  rw [if_neg hempty]
  rcases hnumber : Text.parseU32 (trim part).toList with _ | n
  · have hnone : ∀ core, ¬ IsItem part core := fun core hitem => by
      rw [isItem_iff, hnumber] at hitem
      cases hitem
    constructor
    · intro h
      cases h
      exact Or.inl (.noNumber hempty hnone)
    · rintro (hrefused | ⟨core, hitem, -⟩)
      · cases hrefused with
        | empty h => exact absurd h hempty
        | noNumber => rfl
        | occurred core hitem => exact absurd hitem (hnone core)
      · exact absurd hitem (hnone core)
  have hitem : IsItem part n := isItem_iff.mpr hnumber
  by_cases hin : n ∈ past
  · simp only [if_pos hin, Except.error.injEq]
    constructor
    · rintro rfl
      exact Or.inl (.occurred n hitem hin)
    · rintro (hrefused | ⟨core, hcore, hnot, -⟩)
      · cases hrefused with
        | empty h => exact absurd h hempty
        | noNumber _ h => exact absurd hitem (h n)
        | occurred core hcore => rw [hitem.unique hcore]
      · exact absurd (hitem.unique hcore ▸ hin) hnot
  · simp only [if_neg hin]
    constructor
    · exact fun h => Or.inr ⟨n, hitem, hin, h⟩
    · rintro (hrefused | ⟨core, hcore, -, h⟩)
      · cases hrefused with
        | empty h => exact absurd h hempty
        | noNumber _ h => exact absurd hitem (h n)
        | occurred core hcore h => exact absurd (hitem.unique hcore ▸ h) hin
      · rwa [hitem.unique hcore]

/-- **The first item that is refused** makes the error. -/
theorem parseCores_eq_error_iff {label : String} {parts : List (List Char)} {past : List UInt32}
    {e : AffinityParseError} : parseCores label past parts = .error e ↔
      ∃ good bad rest cores, parts = good ++ bad :: rest ∧ List.Forall₂ IsItem good cores ∧
        cores.Nodup ∧ (∀ c ∈ cores, c ∉ past) ∧ Refused label (past ++ cores) bad e := by
  induction parts generalizing past with
  | nil =>
    refine iff_of_false (fun h => by cases h) ?_
    rintro ⟨good, bad, rest, cores, heq, -⟩
    exact List.append_ne_nil_of_right_ne_nil good (List.cons_ne_nil bad rest) heq.symm
  | cons part parts ih =>
    rw [parseCores_cons_eq_error_iff]
    constructor
    · rintro (hrefused | ⟨core, hitem, hnot, h⟩)
      · exact ⟨[], part, parts, [], rfl, .nil, List.nodup_nil, by simp, by rwa [List.append_nil]⟩
      · obtain ⟨good, bad, rest, cores, rfl, hitems, hnd, hpast, hrefused⟩ := ih.mp h
        refine ⟨part :: good, bad, rest, core :: cores, rfl, .cons hitem hitems,
          List.nodup_cons.mpr ⟨fun hin => hpast core hin (by simp), hnd⟩, ?_, ?_⟩
        · rintro c (_ | ⟨_, hc⟩)
          · exact hnot
          · exact fun hin => hpast c hc (List.mem_append_left _ hin)
        · rwa [List.append_assoc, List.singleton_append] at hrefused
    · rintro ⟨good, bad, rest, cores, heq, hitems, hnd, hpast, hrefused⟩
      rcases good with _ | ⟨item, good⟩
      · obtain ⟨rfl, rfl⟩ := List.cons.inj heq
        rw [List.forall₂_nil_left_iff.mp hitems, List.append_nil] at hrefused
        exact Or.inl hrefused
      · obtain ⟨rfl, rfl⟩ := List.cons.inj heq
        obtain ⟨core, cores, hitem, hgood, rfl⟩ := List.forall₂_cons_left_iff.mp hitems
        rw [List.nodup_cons] at hnd
        refine Or.inr ⟨core, hitem, hpast core List.mem_cons_self, ih.mpr
          ⟨good, bad, rest, cores, rfl, hgood, hnd.2, fun c hc hin => ?_, ?_⟩⟩
        · rcases List.mem_append.mp hin with hin | hin
          · exact hpast c (List.mem_cons_of_mem core hc) hin
          · exact hnd.1 (List.mem_singleton.mp hin ▸ hc)
        · rwa [List.append_assoc, List.singleton_append]

/-! ## The layout -/

theorem fromSpec_injective : Function.Injective AffinityPlan.fromSpec := fun spec spec' h => by
  obtain ⟨h1, h2, h3, h4⟩ := AffinityPlan.mk.inj h
  cases spec
  cases spec'
  exact congr (congr (congr (congrArg mk h1) h2) h3) h4

/-- **The layout of a list** is that of `AffinityPlan::from_cli`, which does not check it. -/
theorem fromFlatVec_eq_ok_iff {cores : List UInt32} {spec : AffinitySpec} :
    fromFlatVec cores = .ok spec ↔
      cores.Nodup ∧ AffinityPlan.fromSpec spec = AffinityPlan.fromCli cores := by
  have hrepeated := Repeats.firstRepeated_nil_eq_none_iff cores
  unfold fromFlatVec
  rcases hfirst : Repeats.firstRepeated [] cores with _ | c
  · rw [hfirst] at hrepeated
    rw [and_iff_right (hrepeated.mp rfl), Except.ok.injEq]
    have hlayout : ∀ layout : AffinitySpec, AffinityPlan.fromSpec layout =
        AffinityPlan.fromCli cores → (layout = spec ↔
          AffinityPlan.fromSpec spec = AffinityPlan.fromCli cores) := fun layout hplan =>
      ⟨fun h => h ▸ hplan, fun h => fromSpec_injective (hplan.trans h.symm)⟩
    refine hlayout _ ?_
    rcases cores with _ | ⟨a, _ | ⟨b, _ | ⟨p, _ | ⟨c, rest⟩⟩⟩⟩ <;> rfl
  · rw [hfirst] at hrepeated
    exact iff_of_false (fun h => by cases h) fun h => by cases hrepeated.mpr h.1

/-- The cores that are used are the first four. -/
theorem allCores_of_fromCli {cores : List UInt32} {spec : AffinitySpec} (hnd : cores.Nodup)
    (h : AffinityPlan.fromSpec spec = AffinityPlan.fromCli cores) :
    spec.allCores = cores.take 4 := by
  have hflat (heq : spec.flat = cores.take 4) : spec.allCores = cores.take 4 := by
    rw [allCores_eq_flat (heq ▸ hnd.sublist (List.take_sublist 4 cores)), heq]
  rcases cores with _ | ⟨a, _ | ⟨b, _ | ⟨p, _ | ⟨c, rest⟩⟩⟩⟩ <;>
    obtain ⟨h1, h2, h3, h4⟩ := AffinityPlan.mk.inj h
  · exact hflat (by rw [flat, h1, h2, h3, h4]; rfl)
  · -- all receivers and the processor are on one core
    simp [allCores, h1, h2, h3, h4, Repeats.pushNew]
  · exact hflat (by rw [flat, h1, h2, h3, h4]; rfl)
  · exact hflat (by rw [flat, h1, h2, h3, h4]; rfl)
  · exact hflat (by rw [flat, h1, h2, h3, h4]; rfl)

/-! ## The parser -/

/-- A text that is taken for a flat list: it is not blank, it is not `auto`, and has no `=`. -/
structure IsFlat (raw : String) : Prop where
  notBlank : (trim raw.toList).toList ≠ []
  notAuto : (trim raw.toList).toList.map Char.toLower ≠ "auto".toList
  notSections : '=' ∉ (trim raw.toList).toList

/-- The items of a list, trimmed, are all that is read of it. -/
theorem parseCores_congr (label : String) {parts parts' : List (List Char)}
    (h : parts.map (Text.trimMatches isWhiteSpace) = parts'.map (Text.trimMatches isWhiteSpace))
    (past : List UInt32) : parseCores label past parts = parseCores label past parts' := by
  induction parts generalizing parts' past with
  | nil => rw [List.map_eq_nil_iff.mp (h.symm.trans rfl)]
  | cons part parts ih =>
    obtain ⟨part', rest', rfl, hpart, hrest⟩ := List.map_eq_cons_iff.mp h.symm
    have htrim : trim part = trim part' := by
      rw [← String.toList_inj, toList_trim, toList_trim, hpart]
    simp only [parseCores, htrim, ih hrest.symm]

theorem parseCoreList_trimMatches (value : List Char) (label : String) :
    parseCoreList (Text.trimMatches isWhiteSpace value) label = parseCoreList value label :=
  parseCores_congr label (Text.trimMatches_splitOn (by decide) value) []

theorem parse_of_isFlat (nproc : Option ℕ) {raw : String} (h : IsFlat raw) :
    parse nproc raw = some (fromFlatStr raw.toList) := by
  rw [parse, if_neg h.notBlank, if_neg h.notAuto, if_neg h.notSections, toList_trim, fromFlatStr,
    fromFlatStr, parseCoreList_trimMatches]

theorem fromFlatVec_ne_error {cores : List UInt32} (hnd : cores.Nodup) (e : AffinityParseError) :
    fromFlatVec cores ≠ .error e := fun h => by
  unfold fromFlatVec at h
  rw [(Repeats.firstRepeated_nil_eq_none_iff cores).mpr hnd] at h
  cases h

/-- **The grammar of flat affinity.**  A text that is taken for a flat list is accepted exactly when
its items are numerals of distinct cores, as the layout that `AffinityPlan::from_cli` has for them,
in which the first four are used.  Otherwise the error is that of the first item that is empty, no
numeral of a core, or the numeral of a core that came before. -/
theorem parse_flat_exact (nproc : Option ℕ) (raw : String) (h : IsFlat raw) :
    (∀ spec, parse nproc raw = some (.ok spec) ↔ ∃ cores : List UInt32,
      List.Forall₂ IsItem (raw.toList.splitOn ',') cores ∧ cores.Nodup ∧
        AffinityPlan.fromSpec spec = AffinityPlan.fromCli cores) ∧
    (∀ spec cores, parse nproc raw = some (.ok spec) →
      List.Forall₂ IsItem (raw.toList.splitOn ',') cores → spec.allCores = cores.take 4) ∧
    ∀ e, parse nproc raw = some (.error e) ↔ ∃ good bad rest cores,
      raw.toList.splitOn ',' = good ++ bad :: rest ∧ List.Forall₂ IsItem good cores ∧
        cores.Nodup ∧ Refused "flat" cores bad e := by
  have hok (cores : List UInt32) : parseCoreList raw.toList "flat" = .ok cores ↔
      List.Forall₂ IsItem (raw.toList.splitOn ',') cores ∧ cores.Nodup :=
    parseCoreList_eq_ok_iff
  have hunique {cores cores' : List UInt32}
      (hitems : List.Forall₂ IsItem (raw.toList.splitOn ',') cores)
      (hitems' : List.Forall₂ IsItem (raw.toList.splitOn ',') cores') : cores = cores' :=
    List.right_unique_forall₂' rightUnique_isItem hitems hitems'
  have hparse (spec) : parse nproc raw = some (.ok spec) ↔ ∃ cores : List UInt32,
      List.Forall₂ IsItem (raw.toList.splitOn ',') cores ∧ cores.Nodup ∧
        AffinityPlan.fromSpec spec = AffinityPlan.fromCli cores := by
    rw [parse_of_isFlat nproc h, Option.some_inj, fromFlatStr]
    rcases hcores : parseCoreList raw.toList "flat" with e | cores
    · refine iff_of_false (fun h => by cases h) ?_
      rintro ⟨cores, hitems, hnd, -⟩
      rw [(hok cores).mpr ⟨hitems, hnd⟩] at hcores
      cases hcores
    · obtain ⟨hitems, hnd⟩ := (hok cores).mp hcores
      refine fromFlatVec_eq_ok_iff.trans ((and_iff_right hnd).trans ?_)
      constructor
      · exact fun hplan => ⟨cores, hitems, hnd, hplan⟩
      · rintro ⟨cores', hitems', -, hplan⟩
        rwa [hunique hitems hitems']
  refine ⟨hparse, fun spec cores hspec hitems => ?_, fun e => ?_⟩
  · obtain ⟨cores', hitems', hnd, hplan⟩ := (hparse spec).mp hspec
    rw [hunique hitems hitems']
    exact allCores_of_fromCli hnd hplan
  · have herror : parseCoreList raw.toList "flat" = .error e ↔ ∃ good bad rest cores,
        raw.toList.splitOn ',' = good ++ bad :: rest ∧ List.Forall₂ IsItem good cores ∧
          cores.Nodup ∧ Refused "flat" cores bad e := by
      rw [parseCoreList, parseCores_eq_error_iff]
      simp
    rw [← herror, parse_of_isFlat nproc h, Option.some_inj, fromFlatStr]
    rcases hcores : parseCoreList raw.toList "flat" with e' | cores
    · exact ⟨fun h => by cases h; rfl, fun h => by cases h; rfl⟩
    · exact iff_of_false (fromFlatVec_ne_error ((hok cores).mp hcores).2 e) fun h => by cases h

/-- A text with a core that is given again after the fifth. -/
theorem parse_flat_exact_six_items :
    let raw := " 2,3, +4,5 ,6,3"
    parse none raw = some (.error (.duplicateCore 3)) ∧
      ∃ good bad rest cores, raw.toList.splitOn ',' = good ++ bad :: rest ∧
        List.Forall₂ IsItem good cores ∧ cores.Nodup ∧
          Refused "flat" cores bad (.duplicateCore 3) := by
  intro raw
  have herror : parse none " 2,3, +4,5 ,6,3" = some (.error (.duplicateCore 3)) := by decide
  have hflat : IsFlat " 2,3, +4,5 ,6,3" := ⟨by decide, by decide, by decide⟩
  exact ⟨herror, ((parse_flat_exact none _ hflat).2.2 _).mp herror⟩

/-! ## Printed lists -/

theorem isDigit_of_mem_toString {core : UInt32} {c : Char} (h : c ∈ (toString core).toList) :
    c.isDigit = true :=
  Text.isDigit_of_mem_toString (n := core.toNat) h

theorem toLower_of_isDigit {c : Char} (h : c.isDigit = true) : c.toLower = c := by
  have hrange : 48 ≤ c.val.toNat ∧ c.val.toNat ≤ 57 := by
    simpa [Char.isDigit, UInt32.le_iff_toNat_le] using h
  have hupper : ¬ (c.val ≥ 'A'.val ∧ c.val ≤ 'Z'.val) := fun hc => by
    have hlow : 65 ≤ c.val.toNat := UInt32.le_iff_toNat_le.mp hc.1
    omega
  exact dif_neg hupper

theorem isItem_toString (core : UInt32) : IsItem (toString core).toList core := by
  have hdigits : ∀ c ∈ (toString core).toList, isWhiteSpace c = false := fun c hc =>
    isWhiteSpace_of_isDigit (isDigit_of_mem_toString hc)
  have htrim : Text.trimMatches isWhiteSpace (toString core).toList = (toString core).toList := by
    have h := Text.trimMatches_append (b := []) (Text.toList_toString_ne_nil core.toNat) hdigits
    rwa [List.append_nil, List.rdropWhile_nil, List.append_nil] at h
  rw [IsItem, toList_trim, htrim]
  exact Text.isNumeral_toString core.toNat

/-- A list of numerals is read up to the first core that came before. -/
theorem parseCores_of_forall₂ {label : String} {parts : List (List Char)} {past cores : List UInt32}
    (h : List.Forall₂ IsItem parts cores) : parseCores label past parts =
      (Repeats.firstRepeated past cores).elim (.ok (past ++ cores)) fun c =>
        .error (.duplicateCore c) := by
  induction h generalizing past with
  | nil => rw [parseCores, Repeats.firstRepeated, Option.elim_none, List.append_nil]
  | cons hitem hrest ih =>
    rename_i core parts cores
    rw [parseCores, if_neg hitem.trim_ne, isItem_iff.mp hitem, Repeats.firstRepeated]
    dsimp only
    split_ifs with hin
    · rfl
    · rw [ih, List.append_assoc, List.singleton_append]

/-- A text of digits and commas that starts with a digit is taken for a list. -/
theorem isFlat_of_digits {s : List Char} (hne : s ≠ [])
    (hchars : ∀ c ∈ s, c.isDigit = true ∨ c = ',') : IsFlat (String.ofList s) := by
  have hblank : ∀ c ∈ s, isWhiteSpace c = false := fun c hc => by
    rcases hchars c hc with hdigit | rfl
    · exact isWhiteSpace_of_isDigit hdigit
    · rfl
  have htrim : (trim (String.ofList s).toList).toList = s := by
    have h := Text.trimMatches_append (b := []) hne hblank
    rw [List.append_nil, List.rdropWhile_nil, List.append_nil] at h
    rw [String.toList_ofList, toList_trim, h]
  constructor
  · rw [htrim]
    exact hne
  · intro hauto
    rw [htrim] at hauto
    have hletter : 'a' ∈ "auto".toList := by decide
    rw [← hauto] at hletter
    obtain ⟨c, hc, hlower⟩ := List.mem_map.mp hletter
    rcases hchars c hc with hdigit | rfl
    · rw [toLower_of_isDigit hdigit] at hlower
      rw [hlower] at hdigit
      exact absurd hdigit (by decide)
    · exact absurd hlower (by decide)
  · intro hin
    rw [htrim] at hin
    rcases hchars _ hin with hdigit | heq
    · exact absurd hdigit (by decide)
    · exact absurd heq (by decide)

/-- **A printed list is read as the list itself**, refusals included. -/
theorem parse_intercalate (nproc : Option ℕ) (cores : List UInt32) :
    parse nproc (String.ofList ([','].intercalate (cores.map fun c => (toString c).toList))) =
      some (fromFlatVec cores) := by
  rcases hcores : cores with _ | ⟨core, rest⟩
  · rfl
  rw [← hcores]
  have hitems : List.Forall₂ IsItem (cores.map fun c => (toString c).toList) cores :=
    List.forall₂_map_left_iff.mpr (List.forall₂_same.mpr fun c _ => isItem_toString c)
  have hsplit : ([','].intercalate (cores.map fun c => (toString c).toList)).splitOn ',' =
      cores.map fun c => (toString c).toList := by
    refine List.splitOn_intercalate ',' (fun piece hpiece hin => ?_) (by simp [hcores])
    obtain ⟨c, -, rfl⟩ := List.mem_map.mp hpiece
    exact absurd (isDigit_of_mem_toString hin) (by decide)
  have hflat : IsFlat
      (String.ofList ([','].intercalate (cores.map fun c => (toString c).toList))) := by
    refine isFlat_of_digits (fun hnil => ?_) fun c hc => ?_
    · rw [hnil, hcores] at hsplit
      exact Text.toList_toString_ne_nil core.toNat (List.cons.inj hsplit).1.symm
    · rw [or_iff_not_imp_right]
      intro hcomma
      obtain ⟨piece, hpiece, hin⟩ := (Text.mem_iff_exists_mem_splitOn hcomma _).mp hc
      rw [hsplit] at hpiece
      obtain ⟨core, -, rfl⟩ := List.mem_map.mp hpiece
      exact isDigit_of_mem_toString hin
  rw [parse_of_isFlat nproc hflat, String.toList_ofList, fromFlatStr, parseCoreList, hsplit,
    parseCores_of_forall₂ hitems]
  rcases hfirst : Repeats.firstRepeated [] cores with _ | c
  · rfl
  · have herror : fromFlatVec cores = .error (.duplicateCore c) := by
      unfold fromFlatVec
      rw [hfirst]
    rw [herror]
    rfl

end AffinitySpec

end GrpcBench
