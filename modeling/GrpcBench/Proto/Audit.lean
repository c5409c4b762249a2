import GrpcBench.Proto.Baselines

/-!
# Evaluation of a version text

The server's text is its own.  `short_preview` cuts a long one at byte 77, which may be inside a
character; nothing else in `evaluate` can panic.  A degraded outcome should leave a warning.

* `isSome_evaluate_iff`: the texts that are evaluated.
* `mem_warnings_blob`, `mem_warnings_plain`: the warnings of a record.
* `evaluate_audit_trail`: the texts whose warnings explain the outcome; all warnings reach the
  output, with the endpoint's label.
-/

namespace GrpcBench

variable {reader : BlobReader} {quoted : String → String} {raw : String}

/-- The version this build was compiled with. -/
def harnessProto : SemVer := ⟨12, 3, 0⟩

theorem parseSemver_harness : parseSemver harnessProtoCrateVersion = .ok harnessProto := by
  decide +kernel

theorem evaluate_of_blob {blob : VersionBlob} (h : parseVersionBlob reader raw = some blob) :
    evaluate reader quoted raw = some (evaluateBlob quoted harnessProto raw blob) := by
  rw [evaluate, parseSemver_harness]
  simp only [h]

theorem evaluate_of_plain (h : parseVersionBlob reader raw = none) :
    evaluate reader quoted raw =
      (shortPreview quoted raw).map (evaluatePlain harnessProto raw) := by
  rw [evaluate, parseSemver_harness]
  simp only [h]

/-! ## Panics -/

/-- Byte `n` of the text is at a character boundary. -/
def IsCharBoundary (s : List Char) (n : ℕ) : Prop :=
  ∃ before, before <+: s ∧ Text.utf8Len before = n

theorem isSome_sliceTo_iff {n : ℕ} {s : List Char} :
    (Text.sliceTo n s).isSome = true ↔ IsCharBoundary s n := by
  rw [Option.isSome_iff_exists]
  exact exists_congr fun before => Text.sliceTo_eq_some_iff.trans and_comm

theorem isSome_shortPreview_iff : (shortPreview quoted raw).isSome = true ↔
    Text.utf8Len (trim raw.toList).toList ≤ 80 ∨ IsCharBoundary (trim raw.toList).toList 77 := by
  rw [shortPreview]
  split_ifs with hlen
  · exact iff_of_true rfl (Or.inl hlen)
  · rw [Option.isSome_map, isSome_sliceTo_iff, or_iff_right hlen]

/-- **The texts that are evaluated.** -/
theorem isSome_evaluate_iff (reader : BlobReader) (quoted : String → String) (raw : String) :
    (evaluate reader quoted raw).isSome = true ↔
      (parseVersionBlob reader raw).isSome = true ∨
        Text.utf8Len (trim raw.toList).toList ≤ 80 ∨
        IsCharBoundary (trim raw.toList).toList 77 := by
  rcases h : parseVersionBlob reader raw with _ | blob
  · rw [evaluate_of_plain h, Option.isSome_map, isSome_shortPreview_iff]
    simp
  · rw [evaluate_of_blob h]
    exact iff_of_true rfl (Or.inl rfl)

/-- Forty-one letters of two bytes each: byte 77 is inside the thirty-ninth. -/
theorem evaluate_two_byte_letters :
    evaluate ⟨fun _ => none, fun _ => none⟩ (fun s => "\"" ++ s ++ "\"")
      (String.ofList (List.replicate 41 'é')) = none := by
  decide +kernel

/-! ## Warnings -/

theorem mem_dedup {α : Type} [DecidableEq α] {a : α} {l : List α} : a ∈ dedup l ↔ a ∈ l := by
  induction l using dedup.induct with
  | case1 => exact Iff.rfl
  | case2 b => exact Iff.rfl
  | case3 b l ih =>
    rw [dedup, if_pos rfl, ih, List.mem_cons (l := b :: l), List.mem_cons, or_self_left]
  | case4 b c l hne ih => rw [dedup, if_neg hne, List.mem_cons, ih, List.mem_cons (l := c :: l)]

theorem mem_warnings_assemble {v : EndpointVersion} {w : String} :
    w ∈ (assemble v).warnings ↔ w ∈ v.warnings := by
  rw [assemble, mem_dedup, List.mem_mergeSort]

theorem mem_warnings_plain {harness : SemVer} {preview w : String} :
    w ∈ (evaluatePlain harness raw preview).warnings ↔
      w = "server version string is not JSON (" ++ preview ++
        "); treating as plain version label" :=
  mem_warnings_assemble.trans List.mem_singleton

theorem mem_warnings_blob {harness : SemVer} {blob : VersionBlob} {w : String} :
    w ∈ (evaluateBlob quoted harness raw blob).warnings ↔
      (blob.package = none ∧
        w = "server GetVersion did not include `package`; baseline check skipped") ∨
      w ∈ (parseReported quoted "proto" (blob.proto.or blob.version)).2 ∨
      w ∈ (parseReported quoted "plugin" blob.version).2 ∨
      w ∈ (evaluateBlob quoted harness raw blob).compatibility.warnings := by
  refine mem_warnings_assemble.trans ?_
  simp only [List.mem_append, or_assoc]
  refine or_congr ?_ Iff.rfl
  split_ifs with hpackage
  · simp [Option.isNone_iff_eq_none.mp hpackage]
  · simp [Option.isNone_iff_eq_none] at hpackage
    simp [hpackage]

/-! ## The audit trail -/

/-- The warning says why no version was found. -/
def Explains (w : String) : Prop :=
  ∃ text, w = "server version string is not JSON (" ++ text ∨
    w = "could not parse server proto version: " ++ text

/-- The warnings account for a degraded outcome. -/
def Compatibility.ExplainedBy (warnings : List String) : Compatibility → Prop
  | .warn reason => reason ∈ warnings
  | .unknown reason => reason ∈ warnings ∨ ∃ w ∈ warnings, Explains w
  | _ => True

/-- Two texts that differ where both are fixed. -/
theorem append_ne_append {p q : String} (n : ℕ) (hp : n ≤ p.toList.length)
    (hq : n ≤ q.toList.length) (h : p.toList.take n ≠ q.toList.take n) (x y : String) :
    p ++ x ≠ q ++ y := by
  intro heq
  have htake := congrArg (fun s : String => s.toList.take n) heq
  simp only [String.toList_append, List.take_append_of_le_length hp,
    List.take_append_of_le_length hq] at htake
  exact h htake

theorem SemVer.ord_eq_eq_iff {v w : SemVer} : v.ord w = .eq ↔ v = w := by
  obtain ⟨major, minor, patch⟩ := v
  rw [ord, Ordering.then_eq_eq, Ordering.then_eq_eq, SemVer.mk.injEq]
  simp only [Std.compare_eq_iff_eq]

theorem drift_cases (harness serverProto : SemVer) :
    (serverProto = harness ∧ drift harness serverProto = .accept) ∨
      (serverProto ≠ harness ∧
        ∃ text, drift harness serverProto = .warn ("server proto " ++ text)) := by
  unfold drift
  split
  · rename_i h
    exact Or.inl ⟨SemVer.ord_eq_eq_iff.mp h, rfl⟩
  all_goals
    rename_i h
    refine Or.inr ⟨fun heq => ?_, _, congrArg _ (by simp only [String.append_assoc]; rfl)⟩
    rw [SemVer.ord_eq_eq_iff.mpr heq] at h
    cases h

/-- A reported proto version leaves nothing unknown. -/
theorem classify_ne_unknown {harness serverProto : SemVer} {serverPlugin : Option SemVer}
    {package : Option String} {reason : String} :
    classify harness (some serverProto) serverPlugin package ≠ .unknown reason := by
  intro h
  rw [classify] at h
  split_ifs at h
  rcases hbase : refuseBelowBaseline serverProto serverPlugin package with _ | outcome
  · rw [hbase, Option.getD_none] at h
    rcases drift_cases harness serverProto with ⟨-, hdrift⟩ | ⟨-, text, hdrift⟩
    · rw [hdrift] at h
      cases h
    · rw [hdrift] at h
      cases h
  · obtain ⟨pkg, minimum, -, -, -, rfl⟩ := refuseBelowBaseline_eq_some_iff.mp hbase
    rw [hbase] at h
    cases h

theorem compatibility_blob (harness : SemVer) (blob : VersionBlob) :
    (evaluateBlob quoted harness raw blob).compatibility =
      classify harness (parseReported quoted "proto" (blob.proto.or blob.version)).1
        (parseReported quoted "plugin" blob.version).1 blob.package := rfl

/-- Without any version the only warning there can be is the one about the package. -/
theorem not_explainedBy_of_unversioned {harness : SemVer} {blob : VersionBlob}
    (hreported : blob.proto.or blob.version = none) :
    ¬ (evaluateBlob quoted harness raw blob).compatibility.ExplainedBy
        (evaluateBlob quoted harness raw blob).warnings := by
  obtain ⟨-, hversion⟩ := Option.or_eq_none_iff.mp hreported
  have hunknown : (evaluateBlob quoted harness raw blob).compatibility =
      .unknown "server did not report a parseable proto version" := by
    rw [compatibility_blob, hreported]
    rfl
  have hwarnings : ∀ w ∈ (evaluateBlob quoted harness raw blob).warnings,
      w = "server GetVersion did not include `package`; baseline check skipped" := by
    intro w hw
    rw [mem_warnings_blob, hunknown, hreported, hversion] at hw
    rcases hw with ⟨-, hw⟩ | hw | hw | hw
    · exact hw
    · exact absurd hw List.not_mem_nil
    · exact absurd hw List.not_mem_nil
    · exact absurd hw List.not_mem_nil
  rw [hunknown]
  rintro (hreason | ⟨w, hw, text, h | h⟩)
  · exact absurd (hwarnings _ hreason) (by decide)
  · exact append_ne_append 8 (by decide) (by decide) (by decide) "" text
      (String.append_empty.trans ((hwarnings w hw).symm.trans h))
  · exact append_ne_append 8 (by decide) (by decide) (by decide) "" text
      (String.append_empty.trans ((hwarnings w hw).symm.trans h))

/-- A version that is not a triple is warned about, and so is a drift from one that is. -/
theorem explainedBy_of_versioned {harness : SemVer} {blob : VersionBlob} {s : String}
    (hreported : blob.proto.or blob.version = some s) :
    (evaluateBlob quoted harness raw blob).compatibility.ExplainedBy
      (evaluateBlob quoted harness raw blob).warnings := by
  have hc : (evaluateBlob quoted harness raw blob).compatibility = _ :=
    compatibility_blob harness blob
  rcases hparse : parseSemver s with e | serverProto
  · have hunknown : (evaluateBlob quoted harness raw blob).compatibility =
        .unknown "server did not report a parseable proto version" := by
      rw [hc, hreported, parseReported, hparse]
      rfl
    rw [hunknown]
    refine Or.inr ⟨_, mem_warnings_blob.mpr (Or.inr (Or.inl ?_)), e.message quoted, Or.inr rfl⟩
    rw [hreported, parseReported, hparse]
    exact List.mem_singleton_self _
  · have hwarn : ∀ w ∈ (evaluateBlob quoted harness raw blob).compatibility.warnings,
        w ∈ (evaluateBlob quoted harness raw blob).warnings :=
      fun w hw => mem_warnings_blob.mpr (Or.inr (Or.inr (Or.inr hw)))
    rw [hreported, parseReported, hparse] at hc
    rcases houtcome : (evaluateBlob quoted harness raw blob).compatibility with
      _ | reason | ⟨a, b⟩ | ⟨a, b, c⟩ | reason
    · trivial
    · rw [houtcome] at hwarn
      exact hwarn reason (List.mem_singleton_self _)
    · trivial
    · trivial
    · exact absurd (hc.symm.trans houtcome) classify_ne_unknown

/-- A blob explains its outcome if it has one of the fields that give the proto version. -/
theorem explainedBy_blob_iff {harness : SemVer} {blob : VersionBlob} :
    (evaluateBlob quoted harness raw blob).compatibility.ExplainedBy
        (evaluateBlob quoted harness raw blob).warnings ↔
      blob.proto.isSome = true ∨ blob.version.isSome = true := by
  rcases hreported : blob.proto.or blob.version with _ | s
  · obtain ⟨hproto, hversion⟩ := Option.or_eq_none_iff.mp hreported
    exact iff_of_false (not_explainedBy_of_unversioned hreported) (by simp [hproto, hversion])
  · refine iff_of_true (explainedBy_of_versioned hreported) ?_
    rcases hproto : blob.proto with _ | proto
    · rw [hproto, Option.none_or] at hreported
      exact Or.inr (by rw [hreported]; rfl)
    · exact Or.inl rfl

/-- A plain label explains its outcome unless it is a version that the build has drifted from. -/
theorem explainedBy_plain_iff {harness : SemVer} {preview : String} :
    (evaluatePlain harness raw preview).compatibility.ExplainedBy
        (evaluatePlain harness raw preview).warnings ↔
      ∀ serverProto, parseSemver (plainLabel raw) = .ok serverProto →
        serverProto = harness ∨ serverProto.major < harness.major := by
  have hc : (evaluatePlain harness raw preview).compatibility =
      classify harness (parseSemver (plainLabel raw)).toOption none none := by
    simp only [evaluatePlain, assemble]
  rcases hparse : parseSemver (plainLabel raw) with e | serverProto
  · refine iff_of_true ?_ fun _ h => absurd h (by simp)
    rw [hc, hparse]
    exact Or.inr ⟨_, mem_warnings_plain.mpr rfl, _, Or.inl String.append_assoc⟩
  · have hunique : (∀ v, Except.ok serverProto = (.ok v : Except SemVerParseError SemVer) →
        v = harness ∨ v.major < harness.major) ↔
        serverProto = harness ∨ serverProto.major < harness.major :=
      ⟨fun h => h serverProto rfl, fun h v hv => Except.ok.inj hv ▸ h⟩
    have hoption : (Except.ok serverProto : Except SemVerParseError SemVer).toOption =
        some serverProto := rfl
    rw [hc, hparse, hunique, hoption, classify]
    split_ifs with hmajor
    · exact iff_of_true trivial (Or.inr hmajor)
    · have hnone : refuseBelowBaseline serverProto none none = none := rfl
      rw [or_iff_left hmajor, hnone, Option.getD_none]
      rcases drift_cases harness serverProto with ⟨heq, hdrift⟩ | ⟨hne, text, hdrift⟩
      · rw [hdrift]
        exact iff_of_true trivial heq
      · rw [hdrift]
        refine iff_of_false (fun hreason => ?_) hne
        have htext := mem_warnings_plain.mp hreason
        rw [String.append_assoc] at htext
        exact append_ne_append 8 (by decide) (by decide) (by decide) _ _ htext

/-! ## The output -/

theorem mem_labelled {label w : String} {v : EndpointVersion} (hw : w ∈ v.warnings) :
    label ++ ": " ++ w ∈ v.labelled label :=
  List.mem_map_of_mem hw

/-- The text is a blob with a field that gives the proto version, or a plain label that is not a
version, is the build's own, or has an older major. -/
def IsAccountable (reader : BlobReader) (raw : String) : Prop :=
  match parseVersionBlob reader raw with
  | some blob => blob.proto.isSome = true ∨ blob.version.isSome = true
  | none => ∀ serverProto, parseSemver (plainLabel raw) = .ok serverProto →
      serverProto = harnessProto ∨ serverProto.major < harnessProto.major

theorem explainedBy_iff {v : EndpointVersion} (h : evaluate reader quoted raw = some v) :
    v.compatibility.ExplainedBy v.warnings ↔ IsAccountable reader raw := by
  rw [IsAccountable]
  rcases hblob : parseVersionBlob reader raw with _ | blob
  · rw [evaluate_of_plain hblob] at h
    obtain ⟨preview, -, rfl⟩ := Option.map_eq_some_iff.mp h
    exact explainedBy_plain_iff
  · rw [evaluate_of_blob hblob, Option.some_inj] at h
    rw [← h]
    exact explainedBy_blob_iff

/-- **The audit trail.**  The warnings of an evaluated text explain a degraded outcome exactly if
the text is accountable, and all of them are in the output under the label of the endpoint. -/
theorem evaluate_audit_trail {v : EndpointVersion} (h : evaluate reader quoted raw = some v) :
    (v.compatibility.ExplainedBy v.warnings ↔ IsAccountable reader raw) ∧
    ∀ w ∈ v.warnings, ∀ other,
      "endpoint1" ++ ": " ++ w ∈ (ProtoMetadata.fromEndpoints v other).compatibilityWarnings ∧
      "endpoint2" ++ ": " ++ w ∈ (ProtoMetadata.fromEndpoints other v).compatibilityWarnings ∧
      "endpoint1" ++ ": " ++ w ∈ (ProtoMetadata.fromSingleEndpoint v).compatibilityWarnings :=
  ⟨explainedBy_iff h, fun _ hw _ => ⟨List.mem_append_left _ (mem_labelled hw),
    List.mem_append_right _ (mem_labelled hw), mem_labelled hw⟩⟩

/-- A plain label that is no version: the outcome is unknown, and the warning explains it. -/
theorem evaluate_audit_trail_plain :
    let v := evaluatePlain harnessProto "nightly" "\"nightly\""
    v.compatibility = .unknown "server did not report a parseable proto version" ∧
      v.compatibility.ExplainedBy v.warnings := by
  intro v
  have hv : evaluate ⟨fun _ => none, fun _ => none⟩ (fun s => "\"" ++ s ++ "\"") "nightly" =
      some v := by
    decide +kernel
  have hparse : (parseSemver (plainLabel "nightly")).toOption = none := by decide +kernel
  have haccountable : IsAccountable ⟨fun _ => none, fun _ => none⟩ "nightly" := by
    intro serverProto hok
    rw [hok] at hparse
    cases hparse
  exact ⟨by decide +kernel, (evaluate_audit_trail hv).1.mpr haccountable⟩

/-- A plain label of an older minor version: the outcome is a warning that is not recorded. -/
theorem plain_drift_not_recorded :
    (evaluate ⟨fun _ => none, fun _ => none⟩ (fun s => "\"" ++ s ++ "\"") "12.2.0").map
        (fun v => v.warnings) =
      some ["server version string is not JSON (\"12.2.0\"); treating as plain version label"] ∧
    (evaluate ⟨fun _ => none, fun _ => none⟩ (fun s => "\"" ++ s ++ "\"") "12.2.0").map
        (fun v => v.compatibility) =
      some (.warn ("server proto 12.2.0 is older than harness build 12.3.0 within the same " ++
        "major; continuing because protobuf is forward-compatible for added fields, but flag " ++
        "the version drift")) := by
  decide +kernel

end GrpcBench
