import GrpcBench.Library.Text
import GrpcBench.Programs

/-!
# Programs files

A programs file has one line for each entry, its fields separated by tabs, and may have empty lines
and comments anywhere.  Each line ends with a line feed, after a carriage return or not.

* `FileLine`, `render`, `readLines`: such a file as a text, and the lines that are read from it.
* `loadRows_render`: the loader finds the entries of the file.
* `rows`, `loadRows_sound`: what it finds in any lines are its rows, in order.
* `fromReader_exact`: the two directions.
-/

namespace GrpcBench

/-! ## Files -/

/-- A line of a programs file. -/
inductive FileLine where
  | entry (entry : ProgramEntry)
  | blank
  | comment (text : List Char)
  deriving DecidableEq

/-- How a line ends. -/
inductive LineEnding where
  | lf | crlf
  deriving DecidableEq

/-- The text of a line. -/
def FileLine.render : FileLine → List Char
  | .entry e =>
    ['\t'].intercalate [e.shortName.toList, e.programId.toList, e.description.toList]
  | .blank => []
  | .comment text => '#' :: text

/-- The carriage return of a line, if any. -/
def LineEnding.carriageReturn : LineEnding → List Char
  | .lf => []
  | .crlf => ['\r']

/-- The text of a file. -/
def render (file : List (FileLine × LineEnding)) : List Char :=
  file.flatMap fun l => l.1.render ++ l.2.carriageReturn ++ ['\n']

/-- The entry of a line, if it has one. -/
def FileLine.programEntry : FileLine → Option ProgramEntry
  | .entry e => some e
  | _ => none

/-- The entries of a file, in order. -/
def entriesOf (file : List (FileLine × LineEnding)) : List ProgramEntry :=
  file.filterMap fun l => l.1.programEntry

/-- What `BufRead::lines` reads from a text. -/
def readLines (text : List Char) : List (Except String String) :=
  (Text.lines text).map fun line => .ok (String.ofList line)

/-- A field is trimmed, and free of tabs and line feeds. -/
structure IsField (s : String) : Prop where
  trimmed : trim s.toList = s
  no_tab : '\t' ∉ s.toList
  no_lineFeed : '\n' ∉ s.toList

/-- An entry that can be written to a file. -/
structure ProgramEntry.Writable (decode : String → Except String (List UInt8))
    (e : ProgramEntry) : Prop where
  shortName : IsField e.shortName
  programId : IsField e.programId
  description : IsField e.description
  named : e.shortName ≠ ""
  not_comment : e.shortName.toList.head? ≠ some '#'
  decodes : ∃ bytes, decode e.programId = .ok bytes ∧ bytes.length = 32

/-- A line that can be written to a file. -/
def FileLine.Writable (decode : String → Except String (List UInt8)) : FileLine → Prop
  | .entry e => e.Writable decode
  | .blank => True
  | .comment text => '\n' ∉ text

variable {decode : String → Except String (List UInt8)}

theorem FileLine.programEntry_eq_some_iff {l : FileLine} {e : ProgramEntry} :
    l.programEntry = some e ↔ l = .entry e := by
  cases l <;> simp [FileLine.programEntry]

/-! ## Trimming -/

theorem trimEndOfLine_dropCarriageReturn (s : List Char) :
    trimEndOfLine (Text.dropCarriageReturn s) = trimEndOfLine s := by
  unfold Text.dropCarriageReturn
  split_ifs with h
  · obtain ⟨line, rfl⟩ := List.getLast?_eq_some_iff.mp h
    rw [List.dropLast_concat]
    exact (List.rdropWhile_concat_pos _ _ _ (by decide)).symm
  · rfl

theorem trimEndOfLine_carriageReturn (s : List Char) (ending : LineEnding) :
    trimEndOfLine (s ++ ending.carriageReturn) = trimEndOfLine s := by
  cases ending with
  | lf => rw [LineEnding.carriageReturn, List.append_nil]
  | crlf => exact List.rdropWhile_concat_pos _ _ _ (by decide)

/-- The end of a trimmed text is no line ending. -/
theorem trimEndOfLine_of_trimmed {s : String} (h : trim s.toList = s) :
    trimEndOfLine s.toList = s.toList := by
  have hchars : (s.toList.dropWhile isWhiteSpace).rdropWhile isWhiteSpace = s.toList := by
    have hlist := congrArg String.toList h
    rwa [trim, String.toList_ofList] at hlist
  have hlast : s.toList.rdropWhile isWhiteSpace = s.toList := by
    have hidem := List.rdropWhile_idempotent isWhiteSpace (s.toList.dropWhile isWhiteSpace)
    rwa [hchars] at hidem
  refine List.rdropWhile_eq_self_iff.mpr fun hne hend => ?_
  refine List.rdropWhile_eq_self_iff.mp hlast hne ?_
  rcases Bool.or_eq_true_iff.mp hend with heq | heq
  · rw [eq_of_beq heq]
    rfl
  · rw [eq_of_beq heq]
    rfl

theorem render_entry (e : ProgramEntry) : (FileLine.entry e).render =
    (e.shortName.toList ++ '\t' :: e.programId.toList ++ ['\t']) ++ e.description.toList := by
  simp [FileLine.render, List.intercalate]

/-- An entry's line has nothing to trim, a last empty field included. -/
theorem trimEndOfLine_render {e : ProgramEntry} (h : e.Writable decode) :
    trimEndOfLine (FileLine.entry e).render = (FileLine.entry e).render := by
  rw [render_entry, trimEndOfLine, Text.rdropWhile_append]
  · exact congrArg _ (trimEndOfLine_of_trimmed h.description.trimmed)
  · exact List.rdropWhile_concat_neg _ _ _ (by decide)

/-! ## Rows -/

/-- The row that the loader sees on a line, unless it skips the line. -/
def rowOf (line : String) : Option (List Char) :=
  let trimmed := trimEndOfLine line.toList
  if trimmed = [] ∨ trimmed.head? = some '#' then none else some trimmed

/-- One line of the loop. -/
theorem loadRows_cons (path line : String) (lineNo : ℕ) (entries : List ProgramEntry)
    (rest : List (Except String String)) :
    loadRows decode path lineNo entries (.ok line :: rest) =
      match rowOf line with
      | none => loadRows decode path (lineNo + 1) entries rest
      | some row =>
        match parseRow decode row with
        | .error e => .error (.malformedRow path lineNo e)
        | .ok entry =>
          match entries.find? fun e => e.shortName == entry.shortName with
          | some dup => .error (.duplicateShortName path lineNo dup.shortName)
          | none =>
            match entries.find? fun e => e.programId == entry.programId with
            | some dup => .error (.duplicateProgramId path lineNo dup.programId)
            | none => loadRows decode path (lineNo + 1) (entries ++ [entry]) rest := by
  rw [loadRows, rowOf]
  split_ifs <;> rfl

/-- The line of a file that the loader sees. -/
theorem rowOf_render {l : FileLine} (h : l.Writable decode) (ending : LineEnding) :
    rowOf (String.ofList (Text.dropCarriageReturn (l.render ++ ending.carriageReturn))) =
      l.programEntry.map fun e => (FileLine.entry e).render := by
  rw [rowOf, String.toList_ofList, trimEndOfLine_dropCarriageReturn, trimEndOfLine_carriageReturn]
  cases l with
  | entry e =>
    have hne : e.shortName.toList ≠ [] := fun hnil => h.named (String.toList_eq_nil_iff.mp hnil)
    obtain ⟨c, cs, hcs⟩ := List.exists_cons_of_ne_nil hne
    have hc : c ≠ '#' := fun heq => h.not_comment (by rw [hcs, heq]; rfl)
    rw [trimEndOfLine_render h, render_entry, hcs]
    simp [hc, FileLine.programEntry, render_entry, hcs]
  | blank => rfl
  | comment text =>
    have hhash : trimEndOfLine ('#' :: text) = '#' :: trimEndOfLine text :=
      Text.rdropWhile_append (a := ['#']) (by decide)
    rw [FileLine.render, hhash]
    simp [FileLine.programEntry]

/-- A rendered row parses as its entry. -/
theorem parseRow_render (hempty : decode "" = .ok []) {e : ProgramEntry} (h : e.Writable decode) :
    parseRow decode (FileLine.entry e).render = .ok e := by
  have hsplit : (FileLine.entry e).render.splitOn '\t' =
      [e.shortName.toList, e.programId.toList, e.description.toList] := by
    refine List.splitOn_intercalate '\t' (fun field hfield => ?_) (by simp)
    simp only [List.mem_cons, List.not_mem_nil, or_false] at hfield
    rcases hfield with rfl | rfl | rfl
    · exact h.shortName.no_tab
    · exact h.programId.no_tab
    · exact h.description.no_tab
  obtain ⟨bytes, hdecode, hlength⟩ := h.decodes
  have hid : e.programId ≠ "" := by
    intro hnil
    rw [hnil, hempty, Except.ok.injEq] at hdecode
    rw [← hdecode] at hlength
    cases hlength
  have hvalid : validateProgramId decode e.programId = .ok () := by
    simp only [validateProgramId, hdecode, hlength, if_true]
  have hfilter : ∀ s : String, s ≠ "" → (some s).filter (fun s => decide (s ≠ "")) = some s :=
    fun s hs => by rw [Option.filter_some, if_pos (decide_eq_true hs)]
  rw [parseRow, hsplit]
  simp only [List.map_cons, List.map_nil, h.shortName.trimmed, h.programId.trimmed,
    h.description.trimmed, List.getElem?_cons_zero, List.getElem?_cons_succ, List.getElem?_nil,
    hfilter _ h.named, hfilter _ hid, hvalid]
  rfl

/-! ## Writing and reading back -/

theorem notMem_render {l : FileLine} (h : l.Writable decode) (ending : LineEnding) :
    '\n' ∉ l.render ++ ending.carriageReturn := by
  have hending : '\n' ∉ ending.carriageReturn := by cases ending <;> decide
  have hline : '\n' ∉ l.render := by
    cases l with
    | entry e =>
      rw [render_entry]
      simp [h.shortName.no_lineFeed, h.programId.no_lineFeed, h.description.no_lineFeed]
    | blank => simp [FileLine.render]
    | comment text =>
      have htext : '\n' ∉ text := h
      simp [FileLine.render, htext]
  simp [hline, hending]

theorem readLines_render_cons {l : FileLine × LineEnding} (h : l.1.Writable decode)
    (file : List (FileLine × LineEnding)) : readLines (render (l :: file)) =
      .ok (String.ofList (Text.dropCarriageReturn (l.1.render ++ l.2.carriageReturn))) ::
        readLines (render file) := by
  rw [readLines, render, List.flatMap_cons, List.append_assoc, List.singleton_append,
    Text.lines_cons (notMem_render h l.2), List.map_cons]
  rfl

theorem find?_eq_none_of_nodup {β : Type} [BEq β] [LawfulBEq β] {f : ProgramEntry → β}
    {entries rest : List ProgramEntry} {entry : ProgramEntry}
    (h : ((entries ++ entry :: rest).map f).Nodup) :
    (entries.find? fun e => f e == f entry) = none := by
  rw [List.map_append, List.map_cons, List.nodup_append] at h
  refine List.find?_eq_none.mpr fun e he heq => ?_
  exact h.2.2 _ (List.mem_map_of_mem he) _ List.mem_cons_self (eq_of_beq heq)

/-- **Writing and reading back.**  The loop finds the entries of a file. -/
theorem loadRows_render (hempty : decode "" = .ok []) {file : List (FileLine × LineEnding)}
    (hfile : ∀ l ∈ file, l.1.Writable decode) {entries : List ProgramEntry}
    (hdistinct : Distinct (entries ++ entriesOf file)) (path : String) (lineNo : ℕ) :
    loadRows decode path lineNo entries (readLines (render file)) =
      .ok (entries ++ entriesOf file) := by
  induction file generalizing entries lineNo with
  | nil => rw [entriesOf, List.filterMap_nil, List.append_nil]; rfl
  | cons l file ih =>
    obtain ⟨hl, hfile⟩ := List.forall_mem_cons.mp hfile
    rw [readLines_render_cons hl, loadRows_cons, rowOf_render hl]
    rcases hentry : l.1.programEntry with _ | e
    · have hrest : entriesOf (l :: file) = entriesOf file := List.filterMap_cons_none hentry
      rw [hrest] at hdistinct ⊢
      exact ih hfile hdistinct (lineNo + 1)
    · have hrest : entriesOf (l :: file) = e :: entriesOf file := List.filterMap_cons_some hentry
      have hwritable : e.Writable decode := by
        rw [FileLine.programEntry_eq_some_iff.mp hentry] at hl
        exact hl
      rw [hrest] at hdistinct ⊢
      have happend : entries ++ e :: entriesOf file = (entries ++ [e]) ++ entriesOf file := by simp
      simp only [Option.map_some, parseRow_render hempty hwritable,
        find?_eq_none_of_nodup hdistinct.1, find?_eq_none_of_nodup hdistinct.2]
      rw [happend] at hdistinct ⊢
      exact ih hfile hdistinct (lineNo + 1)

/-! ## What is loaded -/

/-- The second column of a row. -/
def programIdColumn (row : List Char) : String :=
  (((row.splitOn '\t').map trim)[1]?).getD ""

/-- A row that parses has a program in its second column. -/
theorem parseRow_sound {row : List Char} {e : ProgramEntry} (h : parseRow decode row = .ok e) :
    e.programId = programIdColumn row ∧
      ∃ bytes, decode e.programId = .ok bytes ∧ bytes.length = 32 := by
  rw [parseRow] at h
  split at h
  · cases h
  · split at h
    · cases h
    · rename_i programId hid
      split_ifs at h
      split at h
      · cases h
      · rename_i hvalid
        cases h
        obtain ⟨hcolumn, -⟩ := Option.filter_eq_some_iff.mp hid
        refine ⟨by rw [programIdColumn, hcolumn]; rfl, ?_⟩
        rw [validateProgramId] at hvalid
        split at hvalid
        · cases hvalid
        · rename_i bytes hdecode
          split_ifs at hvalid with hlength
          exact ⟨bytes, hdecode, hlength⟩

/-- **What the loop finds** are the rows of the lines, in order. -/
theorem loadRows_sound {path : String} {lines : List (Except String String)} {lineNo : ℕ}
    {entries loaded : List ProgramEntry}
    (h : loadRows decode path lineNo entries lines = .ok loaded) :
    ∃ texts : List String, lines = texts.map .ok ∧ ∃ found, loaded = entries ++ found ∧
      List.Forall₂ (fun row e => parseRow decode row = .ok e) (texts.filterMap rowOf) found := by
  induction lines generalizing lineNo entries with
  | nil =>
    cases h
    exact ⟨[], rfl, [], (List.append_nil _).symm, .nil⟩
  | cons line rest ih =>
    cases line with
    | error source => cases h
    | ok line =>
      rw [loadRows_cons] at h
      rcases hrow : rowOf line with _ | row
      · rw [hrow] at h
        obtain ⟨texts, rfl, found, hloaded, hfound⟩ := ih h
        refine ⟨line :: texts, rfl, found, hloaded, ?_⟩
        rwa [List.filterMap_cons_none hrow]
      · rw [hrow] at h
        dsimp only at h
        split at h
        · cases h
        · rename_i entry hparse
          split at h
          · cases h
          · split at h
            · cases h
            · obtain ⟨texts, rfl, found, rfl, hfound⟩ := ih h
              refine ⟨line :: texts, rfl, entry :: found, List.append_assoc .., ?_⟩
              rw [List.filterMap_cons_some hrow]
              exact .cons hparse hfound

theorem programIds_of_rows {rows : List (List Char)} {entries : List ProgramEntry}
    (h : List.Forall₂ (fun row e => parseRow decode row = .ok e) rows entries) :
    entries.map ProgramEntry.programId = rows.map programIdColumn ∧
      ∀ e ∈ entries, ∃ bytes, decode e.programId = .ok bytes ∧ bytes.length = 32 := by
  induction h with
  | nil => simp
  | cons hparse _ ih =>
    obtain ⟨hid, hdecodes⟩ := parseRow_sound hparse
    rw [List.map_cons, List.map_cons, hid, ih.1]
    exact ⟨rfl, List.forall_mem_cons.mpr ⟨hdecodes, ih.2⟩⟩

namespace ProgramSet

/-- **Round trip and soundness.**  A file with at least one entry, whose lines can be written and
whose short names and programs are distinct, is read back as its entries in order.  Conversely, what
any lines load as is not empty, has no short name and no program twice, every program decodes to 32
bytes, and the programs are the second columns of the rows, in the order of the file. -/
theorem fromReader_exact (hempty : decode "" = .ok []) (source : String) :
    (∀ file : List (FileLine × LineEnding), (∀ l ∈ file, l.1.Writable decode) →
      entriesOf file ≠ [] → Distinct (entriesOf file) →
        fromReader decode source (readLines (render file)) = .ok ⟨source, entriesOf file⟩) ∧
    ∀ lines programs, fromReader decode source lines = .ok programs →
      programs.entries ≠ [] ∧ Distinct programs.entries ∧
      (∀ id ∈ programs.programIds, ∃ bytes, decode id = .ok bytes ∧ bytes.length = 32) ∧
      ∃ texts : List String, lines = texts.map .ok ∧
        List.Forall₂ (fun row e => parseRow decode row = .ok e) (texts.filterMap rowOf)
          programs.entries ∧
        programs.programIds = (texts.filterMap rowOf).map programIdColumn := by
  constructor
  · intro file hfile hne hdistinct
    have hload : loadRows decode source 1 [] (readLines (render file)) =
        .ok ([] ++ entriesOf file) := loadRows_render hempty hfile hdistinct source 1
    rw [fromReader, hload, List.nil_append]
    split
    · rename_i heq
      cases heq
    · rename_i heq
      exact absurd (Except.ok.inj heq) hne
    · rename_i entries _ heq
      rw [Except.ok.inj heq]
  · intro lines programs h
    obtain ⟨hne, hload⟩ := loadRows_of_fromReader h
    obtain ⟨texts, hlines, found, hfound, hrows⟩ := loadRows_sound hload
    rw [List.nil_append] at hfound
    rw [← hfound] at hrows
    obtain ⟨hids, hdecodes⟩ := programIds_of_rows hrows
    have hnil : Distinct [] := ⟨List.nodup_nil, List.nodup_nil⟩
    refine ⟨hne, hnil.loadRows hload, fun id hid => ?_, texts, hlines, hrows, hids⟩
    obtain ⟨e, he, rfl⟩ := List.mem_map.mp hid
    exact hdecodes e he

/-- What base58 makes of the digit for zero alone: zero bytes. -/
def decodeOnes (s : String) : Except String (List UInt8) :=
  if s.toList.all (· == '1') then .ok (s.toList.map fun _ => 0)
  else .error "provided string contained invalid character"

/-- The system program, after a comment and an empty line. -/
theorem fromReader_exact_system :
    let file := [(FileLine.comment "programs".toList, LineEnding.crlf), (.blank, .lf),
      (.entry ⟨"system", "11111111111111111111111111111111", ""⟩, .crlf)]
    fromReader decodeOnes "programs.tsv" (readLines (render file)) = .ok system := by
  intro file
  have hempty : decodeOnes "" = .ok [] := rfl
  refine (fromReader_exact hempty "programs.tsv").1 file ?_ (by decide) ?_
  · intro l hl
    simp only [file, List.mem_cons, List.not_mem_nil, or_false] at hl
    rcases hl with rfl | rfl | rfl
    · show '\n' ∉ "programs".toList
      decide
    · trivial
    · exact ⟨⟨by decide, by decide, by decide⟩, ⟨by decide, by decide, by decide⟩,
        ⟨by decide, by decide, by decide⟩, by decide, by decide, _, rfl, rfl⟩
  · exact ⟨List.nodup_singleton _, List.nodup_singleton _⟩

end ProgramSet

end GrpcBench
