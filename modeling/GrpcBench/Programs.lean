import GrpcBench.Library.Text
import Mathlib.Data.List.DropRight
import Mathlib.Data.List.Nodup
import Mathlib.Data.Nat.Notation

/-!
# Program sets

`programs.rs`: the programs whose accounts and transactions a run subscribes to, in file order, and
the loader of the TSV file they come from.  Decoding base58 is a library's; here it is a function
with the decoded bytes or an error text.  So is `{:?}`, the quoted form of a string in an error.

* `ProgramSet.fromReader`: the loader.
* `ProgramSet.Loaded.nodup_programIds`: a loaded set has no program twice.
-/

namespace GrpcBench

/-- One program entry from the TSV file. -/
structure ProgramEntry where
  shortName : String
  programId : String
  description : String
  deriving DecidableEq, Repr

/-- Parsed `--programs` TSV file. -/
structure ProgramSet where
  source : String
  entries : List ProgramEntry
  deriving DecidableEq, Repr

/-- Why a row is malformed. -/
inductive MalformedRow where
  | missingShortName
  | missingProgramId
  | tooManyColumns
  | notBase58 (programId error : String)
  | wrongLength (programId : String) (length : ℕ)
  deriving DecidableEq, Repr

/-- The `reason` text. -/
def MalformedRow.reason (quoted : String → String) : MalformedRow → String
  | .missingShortName => "missing short_name (first tab-separated column)"
  | .missingProgramId => "missing program_id (second tab-separated column)"
  | .tooManyColumns => "more than three tab-separated columns"
  | .notBase58 programId error =>
    "program_id " ++ quoted programId ++ " is not valid base58: " ++ error
  | .wrongLength programId length =>
    "program_id " ++ quoted programId ++ " decoded to " ++ toString length ++ " bytes, want 32"

/-- `ProgramsError`. -/
inductive ProgramsError where
  | openFile (path source : String)
  | read (path source : String)
  | malformedRow (path : String) (line : ℕ) (row : MalformedRow)
  | empty (path : String)
  | duplicateShortName (path : String) (line : ℕ) (shortName : String)
  | duplicateProgramId (path : String) (line : ℕ) (programId : String)
  deriving DecidableEq, Repr

/-- The `#[error]` text. -/
def ProgramsError.message (quoted : String → String) : ProgramsError → String
  | .openFile path source => "failed to open programs file " ++ path ++ ": " ++ source
  | .read path source => "failed to read programs file " ++ path ++ ": " ++ source
  | .malformedRow path line row =>
    path ++ ":" ++ toString line ++ ": malformed row: " ++ row.reason quoted
  | .empty path => path ++ ": file contained no program entries"
  | .duplicateShortName path line shortName =>
    path ++ ":" ++ toString line ++ ": duplicate short_name " ++ quoted shortName
  | .duplicateProgramId path line programId =>
    path ++ ":" ++ toString line ++ ": duplicate program_id " ++ programId

/-! ## Loading -/

/-- The white space of `str::trim`: Unicode `White_Space`. -/
def isWhiteSpace (c : Char) : Bool :=
  (0x09 ≤ c.toNat && c.toNat ≤ 0x0D) || (0x2000 ≤ c.toNat && c.toNat ≤ 0x200A) ||
    [0x20, 0x85, 0xA0, 0x1680, 0x2028, 0x2029, 0x202F, 0x205F, 0x3000].contains c.toNat

/-- `str::trim`. -/
def trim (s : List Char) : String :=
  String.ofList ((s.dropWhile isWhiteSpace).rdropWhile isWhiteSpace)

theorem toList_trim (s : List Char) : (trim s).toList = Text.trimMatches isWhiteSpace s :=
  String.toList_ofList

theorem isWhiteSpace_of_isDigit {c : Char} (hc : c.isDigit = true) : isWhiteSpace c = false := by
  have hlow : 48 ≤ c.toNat ∧ c.toNat ≤ 57 := by
    simpa [Char.isDigit, UInt32.le_iff_toNat_le] using hc
  simp [isWhiteSpace]
  omega

/-- `trim_end_matches(['\r', '\n'])`. -/
def trimEndOfLine (s : List Char) : List Char :=
  s.rdropWhile fun c => c == '\r' || c == '\n'

/-- `validate_program_id`. -/
def validateProgramId (decode : String → Except String (List UInt8)) (s : String) :
    Except MalformedRow Unit :=
  match decode s with
  | .error e => .error (.notBase58 s e)
  | .ok decoded => if decoded.length = 32 then .ok () else .error (.wrongLength s decoded.length)

/-- `parse_row`. -/
def parseRow (decode : String → Except String (List UInt8)) (raw : List Char) :
    Except MalformedRow ProgramEntry :=
  let parts := (raw.splitOn '\t').map trim
  match parts[0]?.filter fun s => s ≠ "" with
  | none => .error .missingShortName
  | some shortName =>
    match parts[1]?.filter fun s => s ≠ "" with
    | none => .error .missingProgramId
    | some programId =>
      if parts[3]?.isSome then .error .tooManyColumns
      else
        match validateProgramId decode programId with
        | .error row => .error row
        | .ok () => .ok ⟨shortName, programId, parts[2]?.getD ""⟩

/-- The loop over the lines, from line number `lineNo` on; a line that cannot be read is an error
text. -/
def loadRows (decode : String → Except String (List UInt8)) (path : String) :
    ℕ → List ProgramEntry → List (Except String String) →
      Except ProgramsError (List ProgramEntry)
  | _, entries, [] => .ok entries
  | _, _, .error source :: _ => .error (.read path source)
  | lineNo, entries, .ok line :: rest =>
    let trimmed := trimEndOfLine line.toList
    if trimmed = [] ∨ trimmed.head? = some '#' then loadRows decode path (lineNo + 1) entries rest
    else
      match parseRow decode trimmed with
      | .error row => .error (.malformedRow path lineNo row)
      | .ok entry =>
        match entries.find? fun e => e.shortName == entry.shortName with
        | some dup => .error (.duplicateShortName path lineNo dup.shortName)
        | none =>
          match entries.find? fun e => e.programId == entry.programId with
          | some dup => .error (.duplicateProgramId path lineNo dup.programId)
          | none => loadRows decode path (lineNo + 1) (entries ++ [entry]) rest

namespace ProgramSet

/-- `ProgramSet::from_reader`. -/
def fromReader (decode : String → Except String (List UInt8)) (source : String)
    (lines : List (Except String String)) : Except ProgramsError ProgramSet :=
  match loadRows decode source 1 [] lines with
  | .error e => .error e
  | .ok [] => .error (.empty source)
  | .ok entries => .ok ⟨source, entries⟩

/-- `ProgramSet::load`, given what opening the file yields. -/
def load (decode : String → Except String (List UInt8)) (path : String)
    (file : Except String (List (Except String String))) : Except ProgramsError ProgramSet :=
  match file with
  | .error source => .error (.openFile path source)
  | .ok lines => fromReader decode path lines

/-- `ProgramSet::program_ids`. -/
def programIds (programs : ProgramSet) : List String :=
  programs.entries.map ProgramEntry.programId

/-- The system program alone. -/
def system : ProgramSet where
  source := "programs.tsv"
  entries := [⟨"system", "11111111111111111111111111111111", ""⟩]

/-- A program set that some file loads as. -/
def Loaded (decode : String → Except String (List UInt8)) (programs : ProgramSet) : Prop :=
  ∃ path file, load decode path file = .ok programs

end ProgramSet

/-! ## What the loader establishes -/

/-- No short name and no program occurs twice. -/
def Distinct (entries : List ProgramEntry) : Prop :=
  (entries.map ProgramEntry.shortName).Nodup ∧ (entries.map ProgramEntry.programId).Nodup

variable {decode : String → Except String (List UInt8)}

theorem nodup_concat_of_find? {β : Type} [BEq β] [LawfulBEq β] {f : ProgramEntry → β}
    {entries : List ProgramEntry} {entry : ProgramEntry} (h : (entries.map f).Nodup)
    (hfind : (entries.find? fun e => f e == f entry) = none) :
    ((entries ++ [entry]).map f).Nodup := by
  rw [List.map_append, List.map_singleton, List.nodup_append]
  refine ⟨h, List.nodup_singleton _, fun b hb b' hb' heq => ?_⟩
  obtain ⟨e, he, rfl⟩ := List.mem_map.mp hb
  rw [List.mem_singleton.mp hb'] at heq
  exact List.find?_eq_none.mp hfind e he (by simpa using heq)

/-- The loop adds no duplicate. -/
theorem Distinct.loadRows {path : String} {lines : List (Except String String)} {lineNo : ℕ}
    {entries loaded : List ProgramEntry} (h : Distinct entries)
    (hload : loadRows decode path lineNo entries lines = .ok loaded) : Distinct loaded := by
  induction lines generalizing lineNo entries with
  | nil =>
    cases hload
    exact h
  | cons line rest ih =>
    cases line with
    | error source => cases hload
    | ok line =>
      rw [GrpcBench.loadRows] at hload
      split_ifs at hload with hskip
      · exact ih h hload
      · split at hload
        · cases hload
        · split at hload
          · cases hload
          · rename_i hname
            split at hload
            · cases hload
            · rename_i hid
              exact ih ⟨nodup_concat_of_find? h.1 hname, nodup_concat_of_find? h.2 hid⟩ hload

theorem ProgramSet.loadRows_of_fromReader {source : String} {lines : List (Except String String)}
    {programs : ProgramSet} (h : fromReader decode source lines = .ok programs) :
    programs.entries ≠ [] ∧ loadRows decode source 1 [] lines = .ok programs.entries := by
  rw [fromReader] at h
  split at h
  · cases h
  · cases h
  · rename_i entries hne hload
    cases h
    exact ⟨hne, hload⟩

/-- A loaded set is not empty, and has no short name and no program twice. -/
theorem ProgramSet.Loaded.distinct {programs : ProgramSet} (h : programs.Loaded decode) :
    programs.entries ≠ [] ∧ Distinct programs.entries := by
  obtain ⟨path, file, h⟩ := h
  unfold load at h
  split at h
  · cases h
  · obtain ⟨hne, hload⟩ := loadRows_of_fromReader h
    have hnil : Distinct [] := ⟨List.nodup_nil, List.nodup_nil⟩
    exact ⟨hne, hnil.loadRows hload⟩

theorem ProgramSet.Loaded.nodup_programIds {programs : ProgramSet} (h : programs.Loaded decode) :
    programs.programIds.Nodup :=
  h.distinct.2.2

end GrpcBench
