import GrpcBench.Collect.Affinity
import Mathlib.Data.List.Forall2

/-!
# The grammar of structured affinity

A structured text is a list of sections `role=list` between colons, and a list is a list of core
numbers between commas.  White space is ignored around roles, lists and numbers.  The parser trims
at four places and splits at three characters; `Text.trimMatches_splitOn` says that trimming a whole
does not change its trimmed pieces, so that the grammar is stated on the text as it is.

* `IsItem`, `IsSection`, `IsLayout`: the grammar, and what is asked of the sections together.
* `readSection_eq_ok_iff`, `Sections.assign_eq_ok_iff`: one section.
* `Sections.foldlM_step_eq_ok_iff`: the loop over the sections.
* `flat_perm`: the cores of a spec are those of its sections.
* `parse_structured_exact`: the parser accepts the grammar and nothing else.
-/

namespace GrpcBench

/-- The roles of a section. -/
inductive AffinityRole where
  | ep1 | ep2 | proc | ctrl
  deriving DecidableEq, Repr

namespace AffinityRole

/-- The text of a role. -/
def name : AffinityRole → String
  | .ep1 => "ep1"
  | .ep2 => "ep2"
  | .proc => "proc"
  | .ctrl => "ctrl"

/-- The roles that take one core only. -/
def single : AffinityRole → Bool
  | .ep1 | .ep2 => false
  | .proc | .ctrl => true

end AffinityRole

namespace AffinitySpec

/-! ## The grammar -/

/-- A number in a list. -/
def IsItem (item : List Char) (core : UInt32) : Prop :=
  Text.IsNumeral (trim item).toList core.toNat

/-- A section `role=list`. -/
def IsSection (sect : List Char) (role : AffinityRole) (cores : List UInt32) : Prop :=
  ∃ left right, sect = left ++ '=' :: right ∧ trim left = role.name ∧
    List.Forall₂ IsItem (right.splitOn ',') cores

/-- What the sections have to satisfy together. -/
structure IsLayout (entries : List (AffinityRole × List UInt32)) : Prop where
  roles : (entries.map Prod.fst).Nodup
  single : ∀ x ∈ entries, x.1.single = true → x.2.length = 1
  cores : (entries.flatMap Prod.snd).Nodup

/-- The spec of a list of sections. -/
def ofEntries (entries : List (AffinityRole × List UInt32)) : AffinitySpec where
  endpoint1 := (entries.lookup .ep1).getD []
  endpoint2 := (entries.lookup .ep2).getD []
  processor := (entries.lookup .proc).bind List.head?
  control := (entries.lookup .ctrl).bind List.head?

/-! ## Lists of cores -/

theorem isNumeral_ne_nil {s : List Char} {n : ℕ} (h : Text.IsNumeral s n) : s ≠ [] := by
  obtain ⟨digits, hs, hne, -⟩ := h
  rcases hs with rfl | rfl
  · exact List.cons_ne_nil _ _
  · exact hne

/-- The loop reads every item, and refuses a number that it has read before. -/
theorem parseCores_eq_ok_iff {label : String} {parts : List (List Char)}
    {past cores : List UInt32} : parseCores label past parts = .ok cores ↔
      ∃ new, cores = past ++ new ∧ List.Forall₂ IsItem parts new ∧ new.Nodup ∧
        ∀ c ∈ new, c ∉ past := by
  induction parts generalizing past with
  | nil =>
    rw [parseCores, Except.ok.injEq]
    constructor
    · rintro rfl
      exact ⟨[], (List.append_nil _).symm, .nil, List.nodup_nil, by simp⟩
    · rintro ⟨new, rfl, hitems, -, -⟩
      cases hitems
      exact (List.append_nil _).symm
  | cons part rest ih =>
    rw [parseCores]
    constructor
    · intro h
      split_ifs at h with hempty
      rcases hn : Text.parseU32 (trim part).toList with _ | n
      · simp only [hn] at h
        cases h
      · simp only [hn] at h
        split_ifs at h with hin
        obtain ⟨new, rfl, hitems, hnd, hnot⟩ := ih.mp h
        refine ⟨n :: new, by rw [List.append_assoc, List.singleton_append],
          .cons (Text.parseU32_eq_some_iff.mp hn) hitems,
          List.nodup_cons.mpr ⟨fun hmem => hnot n hmem (by simp), hnd⟩, fun c hc => ?_⟩
        rcases List.mem_cons.mp hc with rfl | hc
        · exact hin
        · exact fun hp => hnot c hc (List.mem_append_left _ hp)
    · rintro ⟨new, rfl, hitems, hnd, hnot⟩
      obtain ⟨n, new, hitem, hrest, rfl⟩ := List.forall₂_cons_left_iff.mp hitems
      have hne : trim part ≠ "" := fun hempty => by
        rw [IsItem, hempty] at hitem
        exact isNumeral_ne_nil hitem rfl
      rw [List.nodup_cons] at hnd
      rw [if_neg hne]
      simp only [Text.parseU32_eq_some_iff.mpr hitem]
      rw [if_neg (hnot n List.mem_cons_self)]
      refine ih.mpr ⟨new, by rw [List.append_assoc, List.singleton_append], hrest, hnd.2,
        fun c hc hin => ?_⟩
      rcases List.mem_append.mp hin with hin | hin
      · exact hnot c (List.mem_cons_of_mem n hc) hin
      · exact hnd.1 (List.mem_singleton.mp hin ▸ hc)

theorem parseCoreList_eq_ok_iff {value : List Char} {label : String} {cores : List UInt32} :
    parseCoreList value label = .ok cores ↔
      List.Forall₂ IsItem (value.splitOn ',') cores ∧ cores.Nodup := by
  rw [parseCoreList, parseCores_eq_ok_iff]
  constructor
  · rintro ⟨new, rfl, hitems, hnd, -⟩
    exact ⟨hitems, hnd⟩
  · rintro ⟨hitems, hnd⟩
    exact ⟨cores, rfl, hitems, hnd, fun c _ => List.not_mem_nil⟩

/-- A list is read off its trimmed items. -/
theorem forall₂_isItem_iff {parts : List (List Char)} {cores : List UInt32} :
    List.Forall₂ IsItem parts cores ↔
      List.Forall₂ (fun item (core : UInt32) => Text.IsNumeral item core.toNat)
        (parts.map (Text.trimMatches isWhiteSpace)) cores := by
  have hitem : IsItem = fun item (core : UInt32) =>
      Text.IsNumeral (Text.trimMatches isWhiteSpace item) core.toNat := by
    funext item core
    rw [IsItem, toList_trim]
  rw [List.forall₂_map_left_iff, hitem]

/-- The items of a trimmed text are those of the text. -/
theorem parseCoreList_trimMatches_eq_ok_iff {value : List Char} {label : String}
    {cores : List UInt32} :
    parseCoreList (Text.trimMatches isWhiteSpace value) label = .ok cores ↔
      List.Forall₂ IsItem (value.splitOn ',') cores ∧ cores.Nodup := by
  rw [parseCoreList_eq_ok_iff, forall₂_isItem_iff, Text.trimMatches_splitOn (by decide),
    ← forall₂_isItem_iff]

/-! ## One section -/

/-- A section is read off its trimmed text. -/
theorem readSection_trimMatches (sect : List Char) :
    readSection (Text.trimMatches isWhiteSpace sect) = readSection sect := by
  simp only [readSection, toList_trim, Text.trimMatches_trimMatches]

theorem mem_trim_iff {s : List Char} : '=' ∈ (trim s).toList ↔ '=' ∈ s := by
  rw [toList_trim, Text.mem_trimMatches_iff (by decide)]

theorem readSection_of_notMem {sect : List Char} (h : '=' ∉ sect) {x : String × List UInt32} :
    readSection sect ≠ .ok x := by
  rw [readSection, Text.splitOnce_of_notMem (mt mem_trim_iff.mp h)]
  split_ifs <;> simp

theorem readSection_append_cons {left right : List Char} (h : '=' ∉ left) {role : String}
    {cores : List UInt32} : readSection (left ++ '=' :: right) = .ok (role, cores) ↔
      trim left = role ∧ cores ≠ [] ∧
        parseCoreList (Text.trimMatches isWhiteSpace right) (trim left) = .ok cores := by
  have hleft : '=' ∉ left.dropWhile isWhiteSpace := fun hin =>
    h ((List.dropWhile_sublist isWhiteSpace).mem hin)
  have htrim : (trim (left ++ '=' :: right)).toList =
      left.dropWhile isWhiteSpace ++ '=' :: right.rdropWhile isWhiteSpace := by
    rw [toList_trim, Text.trimMatches_append_cons (by decide)]
  have hrole : trim (left.dropWhile isWhiteSpace) = trim left := by
    rw [← String.toList_inj, toList_trim, toList_trim, Text.trimMatches_dropWhile]
  rw [readSection, htrim, if_neg (List.append_ne_nil_of_right_ne_nil _ (List.cons_ne_nil _ _)),
    Text.splitOnce_append_cons hleft]
  simp only [hrole, toList_trim, Text.trimMatches_rdropWhile]
  rcases parseCoreList (Text.trimMatches isWhiteSpace right) (trim left) with e | cs
  · simp
  · by_cases hnil : cs = []
    · simp only [if_pos hnil]
      refine iff_of_false (by simp) ?_
      rintro ⟨-, hne, heq⟩
      exact hne ((Except.ok.inj heq).symm.trans hnil)
    · simp only [if_neg hnil, Except.ok.injEq, Prod.mk.injEq]
      exact ⟨fun ⟨hr, hc⟩ => ⟨hr, hc ▸ hnil, hc⟩, fun ⟨hr, _, hc⟩ => ⟨hr, hc⟩⟩

theorem readSection_eq_ok_iff {sect : List Char} {role : AffinityRole} {cores : List UInt32} :
    readSection sect = .ok (role.name, cores) ↔ IsSection sect role cores ∧ cores.Nodup := by
  constructor
  · intro h
    by_cases hin : '=' ∈ sect
    · obtain ⟨left, right, rfl, hleft⟩ := List.eq_append_cons_of_mem hin
      obtain ⟨hrole, -, hlist⟩ := (readSection_append_cons hleft).mp h
      obtain ⟨hitems, hnd⟩ := parseCoreList_trimMatches_eq_ok_iff.mp hlist
      exact ⟨⟨left, right, rfl, hrole, hitems⟩, hnd⟩
    · exact absurd h (readSection_of_notMem hin)
  · rintro ⟨⟨left, right, rfl, hrole, hitems⟩, hnd⟩
    have hleft : '=' ∉ left := by
      rw [← mem_trim_iff, hrole]
      cases role <;> decide
    have hne : cores ≠ [] := fun hnil => by
      rw [hnil, List.forall₂_nil_right_iff] at hitems
      exact List.splitOn_ne_nil _ _ hitems
    exact (readSection_append_cons hleft).mpr
      ⟨hrole, hne, parseCoreList_trimMatches_eq_ok_iff.mpr ⟨hitems, hnd⟩⟩

/-! ## The loop over the sections -/

namespace Sections

/-- The seen flag of a role. -/
def seen (s : Sections) : AffinityRole → Bool
  | .ep1 => s.seenEp1
  | .ep2 => s.seenEp2
  | .proc => s.seenProc
  | .ctrl => s.seenCtrl

/-- The variables after a section that is taken. -/
def place (s : Sections) (cores : List UInt32) : AffinityRole → Sections
  | .ep1 => { s with seenEp1 := true, me := { s.me with endpoint1 := cores } }
  | .ep2 => { s with seenEp2 := true, me := { s.me with endpoint2 := cores } }
  | .proc => { s with seenProc := true, me := { s.me with processor := cores.head? } }
  | .ctrl => { s with seenCtrl := true, me := { s.me with control := cores.head? } }

theorem seen_place (s : Sections) (cores : List UInt32) (r r' : AffinityRole) :
    (s.place cores r).seen r' = (s.seen r' || r == r') := by
  cases r <;> cases r' <;> simp [place, seen]

theorem assign_eq_ok_iff {s s' : Sections} {role : String} {cores : List UInt32} :
    s.assign role cores = .ok s' ↔ ∃ r : AffinityRole, role = r.name ∧ s.seen r = false ∧
      (r.single = true → cores.length = 1) ∧ s' = s.place cores r := by
  constructor
  · intro h
    unfold assign at h
    split at h
    · split_ifs at h with hseen
      cases h
      exact ⟨.ep1, rfl, eq_false_of_ne_true hseen, by simp [AffinityRole.single], rfl⟩
    · split_ifs at h with hseen
      cases h
      exact ⟨.ep2, rfl, eq_false_of_ne_true hseen, by simp [AffinityRole.single], rfl⟩
    · split_ifs at h with hseen hone
      cases h
      exact ⟨.proc, rfl, eq_false_of_ne_true hseen, fun _ => by omega, rfl⟩
    · split_ifs at h with hseen hone
      cases h
      exact ⟨.ctrl, rfl, eq_false_of_ne_true hseen, fun _ => by omega, rfl⟩
    · cases h
  · rintro ⟨r, rfl, hseen, hone, rfl⟩
    cases r with
    | ep1 => exact if_neg (ne_true_of_eq_false hseen)
    | ep2 => exact if_neg (ne_true_of_eq_false hseen)
    | proc => exact (if_neg (ne_true_of_eq_false hseen)).trans (if_neg (by simp [hone rfl]))
    | ctrl => exact (if_neg (ne_true_of_eq_false hseen)).trans (if_neg (by simp [hone rfl]))

/-- One section of the loop, with the role and the cores that it states. -/
theorem step_eq_ok_iff {s s' : Sections} {sect : List Char} : s.step sect = .ok s' ↔
    ∃ x : AffinityRole × List UInt32, readSection sect = .ok (x.1.name, x.2) ∧
      s.seen x.1 = false ∧ (x.1.single = true → x.2.length = 1) ∧ s' = s.place x.2 x.1 := by
  rw [step]
  constructor
  · intro h
    rcases hread : readSection sect with e | ⟨role, cores⟩
    · simp only [hread] at h
      cases h
    · simp only [hread] at h
      obtain ⟨r, rfl, hseen, hone, rfl⟩ := assign_eq_ok_iff.mp h
      exact ⟨(r, cores), rfl, hseen, hone, rfl⟩
  · rintro ⟨⟨r, cores⟩, hread, hseen, hone, rfl⟩
    simp only [hread]
    exact assign_eq_ok_iff.mpr ⟨r, rfl, hseen, hone, rfl⟩

/-- The loop takes every section, and refuses a role that it has seen before. -/
theorem foldlM_step_eq_ok_iff {sects : List (List Char)} {s s' : Sections} :
    sects.foldlM step s = .ok s' ↔ ∃ entries : List (AffinityRole × List UInt32),
      List.Forall₂ (fun sect x => readSection sect = .ok (x.1.name, x.2)) sects entries ∧
      (∀ x ∈ entries, s.seen x.1 = false) ∧ (entries.map Prod.fst).Nodup ∧
      (∀ x ∈ entries, x.1.single = true → x.2.length = 1) ∧
      s' = entries.foldl (fun s x => s.place x.2 x.1) s := by
  induction sects generalizing s with
  | nil =>
    constructor
    · intro h
      cases h
      exact ⟨[], .nil, by simp, List.nodup_nil, by simp, rfl⟩
    · rintro ⟨entries, hread, -, -, -, rfl⟩
      cases hread
      rfl
  | cons sect sects ih =>
    rw [List.foldlM_cons]
    constructor
    · intro h
      rcases hstep : s.step sect with e | s₁
      · rw [hstep] at h
        cases h
      · rw [hstep] at h
        obtain ⟨x, hx, hseen, hone, rfl⟩ := step_eq_ok_iff.mp hstep
        obtain ⟨entries, hread, hnot, hnd, hsingle, rfl⟩ := ih.mp h
        have hrole : ∀ y ∈ entries, s.seen y.1 = false ∧ x.1 ≠ y.1 := fun y hy => by
          simpa [seen_place] using hnot y hy
        refine ⟨x :: entries, .cons hx hread, ?_, List.nodup_cons.mpr ⟨fun hin => ?_, hnd⟩, ?_, rfl⟩
        · exact List.forall_mem_cons.mpr ⟨hseen, fun y hy => (hrole y hy).1⟩
        · obtain ⟨y, hy, heq⟩ := List.mem_map.mp hin
          exact (hrole y hy).2 heq.symm
        · exact List.forall_mem_cons.mpr ⟨hone, hsingle⟩
    · rintro ⟨entries, hread, hnot, hnd, hsingle, rfl⟩
      obtain ⟨x, rest, hx, hrest, rfl⟩ := List.forall₂_cons_left_iff.mp hread
      rw [List.map_cons, List.nodup_cons] at hnd
      rw [List.forall_mem_cons] at hnot hsingle
      rw [step_eq_ok_iff.mpr ⟨x, hx, hnot.1, hsingle.1, rfl⟩]
      refine ih.mpr ⟨rest, hrest, fun y hy => ?_, hnd.2, hsingle.2, rfl⟩
      have hne : x.1 ≠ y.1 := fun heq => hnd.1 (heq ▸ List.mem_map_of_mem hy)
      rw [seen_place, hnot.2 y hy, beq_false_of_ne hne, Bool.or_false]

end Sections

/-! ## The spec of the sections -/

section Entries

variable {past entries entries' : List (AffinityRole × List UInt32)} {r : AffinityRole}
  {cores : List UInt32}

theorem lookup_eq_none_of_notMem (h : r ∉ past.map Prod.fst) : past.lookup r = none := by
  rw [List.lookup_eq_none_iff]
  exact fun x hx => bne_iff_ne.mpr fun heq => h (heq ▸ List.mem_map_of_mem hx)

theorem lookup_append_singleton (h : r ∉ past.map Prod.fst) (r' : AffinityRole) :
    (past ++ [(r, cores)]).lookup r' = if r' = r then some cores else past.lookup r' := by
  rw [List.lookup_append]
  by_cases hr : r' = r
  · rw [hr, lookup_eq_none_of_notMem h, Option.none_or, if_pos rfl, List.lookup_cons_self]
  · rw [if_neg hr, List.lookup_cons, beq_false_of_ne hr]
    exact Option.or_none

theorem me_place {s : Sections} (hme : s.me = ofEntries past) (h : r ∉ past.map Prod.fst) :
    (s.place cores r).me = ofEntries (past ++ [(r, cores)]) := by
  cases r <;> simp [Sections.place, hme, ofEntries, lookup_append_singleton h]

theorem nodup_roles_concat {x : AffinityRole × List UInt32}
    (h : ((past ++ [x]).map Prod.fst).Nodup) :
    (past.map Prod.fst).Nodup ∧ x.1 ∉ past.map Prod.fst := by
  rw [List.map_append, List.map_singleton, List.nodup_append] at h
  exact ⟨h.1, fun hin => h.2.2 x.1 hin x.1 List.mem_cons_self rfl⟩

/-- The variables of the loop hold the spec of the sections taken so far. -/
theorem me_foldl_place (h : (entries.map Prod.fst).Nodup) :
    (entries.foldl (fun s x => s.place x.2 x.1) ({} : Sections)).me = ofEntries entries := by
  induction entries using List.reverseRecOn with
  | nil => rfl
  | append_singleton past x ih =>
    obtain ⟨hpast, hx⟩ := nodup_roles_concat h
    rw [List.foldl_append]
    exact me_place (ih hpast) hx

/-- The cores of a role. -/
def coresOf (spec : AffinitySpec) : AffinityRole → List UInt32
  | .ep1 => spec.endpoint1
  | .ep2 => spec.endpoint2
  | .proc => spec.processor.toList
  | .ctrl => spec.control.toList

theorem coresOf_place (s : Sections) (hone : r.single = true → cores.length = 1)
    (r' : AffinityRole) :
    (s.place cores r).me.coresOf r' = if r' = r then cores else s.me.coresOf r' := by
  cases r with
  | ep1 => cases r' <;> rfl
  | ep2 => cases r' <;> rfl
  | proc =>
    obtain ⟨core, rfl⟩ := List.length_eq_one_iff.mp (hone rfl)
    cases r' <;> rfl
  | ctrl =>
    obtain ⟨core, rfl⟩ := List.length_eq_one_iff.mp (hone rfl)
    cases r' <;> rfl

theorem count_flat (spec : AffinitySpec) (c : UInt32) :
    spec.flat.count c = (spec.coresOf .ep1).count c + (spec.coresOf .ep2).count c +
      (spec.coresOf .proc).count c + (spec.coresOf .ctrl).count c := by
  rw [flat, List.count_append, List.count_append, List.count_append]
  rfl

theorem coresOf_ofEntries_of_notMem (h : r ∉ past.map Prod.fst) :
    (ofEntries past).coresOf r = [] := by
  have hnone := lookup_eq_none_of_notMem h
  cases r <;> simp [coresOf, ofEntries, hnone]

theorem flat_ofEntries_append (h : r ∉ past.map Prod.fst)
    (hone : r.single = true → cores.length = 1) :
    (ofEntries (past ++ [(r, cores)])).flat.Perm ((ofEntries past).flat ++ cores) := by
  let s : Sections := { me := ofEntries past }
  have hplace : (s.place cores r).me = ofEntries (past ++ [(r, cores)]) := me_place rfl h
  have hfree : (ofEntries past).coresOf r = [] := coresOf_ofEntries_of_notMem h
  rw [← hplace, List.perm_iff_count]
  intro c
  rw [List.count_append, count_flat, count_flat, coresOf_place s hone, coresOf_place s hone,
    coresOf_place s hone, coresOf_place s hone]
  cases r <;> simp [s, hfree] <;> omega

/-- The cores of a spec are those of its sections. -/
theorem flat_perm (hroles : (entries.map Prod.fst).Nodup)
    (hone : ∀ x ∈ entries, x.1.single = true → x.2.length = 1) :
    (ofEntries entries).flat.Perm (entries.flatMap Prod.snd) := by
  induction entries using List.reverseRecOn with
  | nil => exact List.Perm.refl _
  | append_singleton past x ih =>
    obtain ⟨hpast, hx⟩ := nodup_roles_concat hroles
    have hperm := ih hpast fun y hy => hone y (List.mem_append_left _ hy)
    rw [List.flatMap_append, List.flatMap_singleton]
    exact (flat_ofEntries_append hx (hone x (by simp))).trans (hperm.append_right x.2)

theorem isLayout_iff : IsLayout entries ↔ (entries.map Prod.fst).Nodup ∧
    (∀ x ∈ entries, x.1.single = true → x.2.length = 1) ∧ (ofEntries entries).flat.Nodup := by
  constructor
  · rintro ⟨hroles, hone, hcores⟩
    exact ⟨hroles, hone, (flat_perm hroles hone).nodup_iff.mpr hcores⟩
  · rintro ⟨hroles, hone, hflat⟩
    exact ⟨hroles, hone, (flat_perm hroles hone).nodup_iff.mp hflat⟩

/-- Sections can be told in any order. -/
theorem IsLayout.perm (h : IsLayout entries) (hperm : entries.Perm entries') :
    IsLayout entries' where
  roles := (hperm.map Prod.fst).nodup_iff.mp h.roles
  single := fun x hx => h.single x (hperm.mem_iff.mpr hx)
  cores := (hperm.flatMap_right Prod.snd).nodup_iff.mp h.cores

theorem ofEntries_perm (h : IsLayout entries) (hperm : entries.Perm entries') :
    ofEntries entries = ofEntries entries' := by
  simp only [ofEntries, Repeats.lookup_eq_of_perm h.roles hperm]

end Entries

/-! ## The cores of a spec -/

/-- Where no core occurs twice, nothing is left out of the list. -/
theorem allCores_eq_flat {spec : AffinitySpec} (h : spec.flat.Nodup) :
    spec.allCores = spec.flat := by
  obtain ⟨e1, e2, p, c⟩ := spec
  have hlist : (e1 ++ e2 ++ p.toList ++ c.toList).foldl Repeats.pushNew [] =
      e1 ++ e2 ++ p.toList ++ c.toList := Repeats.foldl_pushNew h
  rw [List.foldl_append, List.foldl_append, List.foldl_append] at hlist
  cases p <;> cases c <;> exact hlist

/-! ## The parser -/

/-- The sections are those of a spec. -/
def IsStructured (sects : List (List Char)) (spec : AffinitySpec) : Prop :=
  ∃ entries : List (AffinityRole × List UInt32),
    List.Forall₂ (fun sect x => IsSection sect x.1 x.2) sects entries ∧ IsLayout entries ∧
      spec = ofEntries entries

theorem IsStructured.perm {sects sects' : List (List Char)} {spec : AffinitySpec}
    (h : IsStructured sects spec) (hperm : sects.Perm sects') : IsStructured sects' spec := by
  obtain ⟨entries, hsects, hlayout, rfl⟩ := h
  obtain ⟨entries', hsects', hentries⟩ := List.perm_comp_forall₂ hperm.symm hsects
  exact ⟨entries', hsects', hlayout.perm hentries.symm, ofEntries_perm hlayout hentries.symm⟩

/-- The parser reads the sections off the trimmed text; those of the text itself say the same. -/
theorem fromStructured_eq_ok_iff {raw : List Char} {spec : AffinitySpec} :
    fromStructured (Text.trimMatches isWhiteSpace raw) = .ok spec ↔
      IsStructured (raw.splitOn ':') spec := by
  have hread : ∀ {sects : List (List Char)} {entries : List (AffinityRole × List UInt32)},
      List.Forall₂ (fun sect x => readSection sect = .ok (x.1.name, x.2))
        (sects.map (Text.trimMatches isWhiteSpace)) entries ↔
      List.Forall₂ (fun sect x => readSection sect = .ok (x.1.name, x.2)) sects entries := by
    intro sects entries
    simp only [List.forall₂_map_left_iff, readSection_trimMatches]
  rw [fromStructured]
  constructor
  · intro h
    rcases hloop : ((Text.trimMatches isWhiteSpace raw).splitOn ':').foldlM Sections.step {}
      with e | s
    · simp only [hloop] at h
      cases h
    · simp only [hloop] at h
      split at h
      · cases h
      · rename_i hnd
        cases h
        obtain ⟨entries, hsects, -, hroles, hone, rfl⟩ := Sections.foldlM_step_eq_ok_iff.mp hloop
        rw [me_foldl_place hroles] at hnd ⊢
        rw [Repeats.firstRepeated_nil_eq_none_iff] at hnd
        rw [← hread, Text.trimMatches_splitOn (by decide), hread] at hsects
        exact ⟨entries, hsects.imp fun _ _ h => (readSection_eq_ok_iff.mp h).1,
          isLayout_iff.mpr ⟨hroles, hone, hnd⟩, rfl⟩
  · rintro ⟨entries, hsects, hlayout, rfl⟩
    obtain ⟨hroles, hone, hnd⟩ := isLayout_iff.mp hlayout
    have hlists : ∀ x ∈ entries, x.2.Nodup := (List.nodup_flatMap.mp hlayout.cores).1
    have hsects' : List.Forall₂ (fun sect (x : AffinityRole × List UInt32) =>
        readSection sect = .ok (x.1.name, x.2)) (raw.splitOn ':') entries := by
      rw [List.forall₂_iff_zip] at hsects ⊢
      exact ⟨hsects.1, fun hin =>
        readSection_eq_ok_iff.mpr ⟨hsects.2 hin, hlists _ (List.of_mem_zip hin).2⟩⟩
    rw [← hread, ← Text.trimMatches_splitOn (by decide), hread] at hsects'
    rw [Sections.foldlM_step_eq_ok_iff.mpr ⟨entries, hsects', fun x _ => by cases x.1 <;> rfl,
      hroles, hone, rfl⟩]
    simp only [me_foldl_place hroles, (Repeats.firstRepeated_nil_eq_none_iff _).mpr hnd]

/-- A text with an `=` in it is taken for sections. -/
theorem parse_eq_fromStructured (nproc : Option ℕ) {raw : String}
    (h : '=' ∈ (trim raw.toList).toList) :
    parse nproc raw = some (fromStructured (Text.trimMatches isWhiteSpace raw.toList)) := by
  have hauto : (trim raw.toList).toList.map Char.toLower ≠ "auto".toList := fun heq => by
    have hin : '='.toLower ∈ "auto".toList := heq ▸ List.mem_map_of_mem h
    exact absurd hin (by decide)
  rw [parse, if_neg (List.ne_nil_of_mem h), if_neg hauto, if_pos h, toList_trim]

theorem parse_eq_ok_iff (nproc : Option ℕ) {raw : String} (h : '=' ∈ (trim raw.toList).toList)
    (spec : AffinitySpec) :
    parse nproc raw = some (.ok spec) ↔ IsStructured (raw.toList.splitOn ':') spec := by
  rw [parse_eq_fromStructured nproc h, Option.some_inj, fromStructured_eq_ok_iff]

/-- **The grammar of structured affinity.**  A text with an `=` in it is accepted exactly when it is
a list of sections that go together, as the spec of these sections.  Their order does not matter,
and the cores of the spec are those of its roles, each of them once. -/
theorem parse_structured_exact (nproc : Option ℕ) (raw : String)
    (h : '=' ∈ (trim raw.toList).toList) (spec : AffinitySpec) :
    (parse nproc raw = some (.ok spec) ↔ ∃ entries : List (AffinityRole × List UInt32),
      List.Forall₂ (fun sect x => IsSection sect x.1 x.2) (raw.toList.splitOn ':') entries ∧
        IsLayout entries ∧ spec = ofEntries entries) ∧
    (∀ sects : List (List Char), sects.Perm (raw.toList.splitOn ':') →
      (parse nproc (String.ofList ([':'].intercalate sects)) = some (.ok spec) ↔
        parse nproc raw = some (.ok spec))) ∧
    (parse nproc raw = some (.ok spec) →
      spec.allCores =
          spec.endpoint1 ++ spec.endpoint2 ++ spec.processor.toList ++ spec.control.toList ∧
        spec.allCores.Nodup) := by
  refine ⟨parse_eq_ok_iff nproc h spec, fun sects hperm => ?_, fun hok => ?_⟩
  · have hsplit : (String.ofList ([':'].intercalate sects)).toList.splitOn ':' = sects := by
      rw [String.toList_ofList]
      exact List.splitOn_intercalate ':'
        (fun piece hpiece => Text.notMem_of_mem_splitOn (hperm.mem_iff.mp hpiece))
        (fun hnil => List.splitOn_ne_nil ':' raw.toList (hnil ▸ hperm).nil_eq.symm)
    have heq : '=' ∈ (trim (String.ofList ([':'].intercalate sects)).toList).toList := by
      rw [mem_trim_iff, Text.mem_iff_exists_mem_splitOn (c := ':') (by decide)] at h ⊢
      obtain ⟨piece, hpiece, hin⟩ := h
      exact ⟨piece, by rw [hsplit]; exact hperm.mem_iff.mpr hpiece, hin⟩
    rw [parse_eq_ok_iff nproc heq, parse_eq_ok_iff nproc h, hsplit]
    exact ⟨fun hs => hs.perm hperm, fun hs => hs.perm hperm.symm⟩
  · obtain ⟨entries, -, hlayout, rfl⟩ := (parse_eq_ok_iff nproc h spec).mp hok
    have hnd : (ofEntries entries).flat.Nodup := (isLayout_iff.mp hlayout).2.2
    have hall : (ofEntries entries).allCores = (ofEntries entries).flat := allCores_eq_flat hnd
    rw [hall]
    exact ⟨rfl, hnd⟩

theorem parse_structured_exact_two_sections :
    let spec : AffinitySpec := { endpoint1 := [2, 3], processor := some 5 }
    parse none " ep1 = 2,3:proc=5" = some (.ok spec) ∧
      parse none "proc=5: ep1 = 2,3" = some (.ok spec) ∧ spec.allCores = [2, 3, 5] :=
  have hok : parse none " ep1 = 2,3:proc=5" =
      some (.ok { endpoint1 := [2, 3], processor := some 5 }) := by decide
  have hall := parse_structured_exact none " ep1 = 2,3:proc=5" (by decide)
    { endpoint1 := [2, 3], processor := some 5 }
  ⟨hok, (hall.2.1 ["proc=5".toList, " ep1 = 2,3".toList] (by decide)).mpr hok, (hall.2.2 hok).1⟩

example : parse none "ep1=2:ep1=3" = some (.error (.duplicateRole "ep1")) := by decide

example : parse none "ep1=2=3" = some (.error (.invalidCore "2=3" "ep1")) := by decide

end AffinitySpec

end GrpcBench
