import DeclIndex.Proofs.Console.Standard
import DeclIndex.Proofs.Table.Grouping
import DeclIndex.Proofs.Tool.Writing

/-!
# What is shown of tables

Each table is shown under the path of its file, and the rows of all tables are the records sorted by
file (`Table.render_sorts`). This holds of every console, but a console reads paths and cells as
texts with style tags. If it refuses one of them, showing the tables fails, and if it leaves out a
part of one, only the rest is shown. A path in which a part in brackets starts with a slash is
enough for the former (`Table.render_bracketed`).
-/

namespace DeclIndex.Table

open Sequence (bind_eq_ok_iff mapM_eq_ok_iff)

/-- The cells of a record. -/
def cells (record : Record) : Row :=
  ⟨record.kind.label, record.name, toString record.line⟩

/-- What a console writes for a table. -/
def emitted (console : Console) (table : Shown) : String :=
  console.rule table.title ++ console.table table.rows

/-- The rows of some tables from the first to the last, each with the file of its table. -/
def tagged (files : List String) (tables : List Shown) : List (String × Row) :=
  (files.zipWith (fun file table => table.rows.map fun row => (file, row)) tables).flatten

/-- What a console shows of the cells of a row. -/
structure ShowsRow (console : Console) (row shown : Row) : Prop where
  kind : console.markup row.kind = .ok shown.kind
  name : console.markup row.name = .ok shown.name
  line : console.markup row.line = .ok shown.line

/-- A row with the file of its table shows a record of that file. -/
def ShowsEntry (console : Console) (record : Record) (entry : String × Row) : Prop :=
  entry.1 = record.file ∧ ShowsRow console (cells record) entry.2

/-- Nothing keeps a record from being shown in a row. -/
structure HasRow (console : Console) (record : Record) : Prop where
  isWritable : record.IsWritable
  row : ∃ row, ShowsRow console (cells record) row

/-- Nothing keeps a record from being shown under the path of its file. -/
structure IsShown (console : Console) (base : Path) (record : Record) : Prop
    extends HasRow console record where
  title : ∃ title, console.markup (base.join record.file).text = .ok title

/-- The first title that a console refuses has this mistake in its tags. -/
def Refused (console : Console) (base : Path) (records : List Record) (message : String) : Prop :=
  ∃ before table after, ofRecords records = before ++ table :: after ∧
    (∀ other ∈ before, ∃ title, console.markup (other.title base) = .ok title) ∧
    console.markup (table.title base) = .error message

/-- A record is shown as it is, and so is the path of its file. -/
structure IsVerbatim (console : Console) (base : Path) (record : Record) : Prop where
  isWritable : record.IsWritable
  title : console.markup (base.join record.file).text = .ok (base.join record.file).text
  row : ShowsRow console (cells record) (cells record)

variable {console : Console} {base : Path} {records : List Record} {record : Record}
  {table : Table} {tables : List Table} {rows : List Row} {result : Row} {file : String}

/-! ## One table -/

theorem shownText_eq_ok_iff {text result : String} :
    shownText console text = .ok result ↔ console.markup text = .ok result :=
  Sequence.mapError_eq_ok_iff

theorem row_eq_ok_iff : row record = .ok result ↔ record.IsWritable ∧ cells record = result := by
  by_cases isWritable : record.IsWritable
  · rw [row, Text.decimal?_of_isWritable isWritable]
    constructor
    · intro isRow
      exact ⟨isWritable, Except.ok.inj isRow⟩
    · rintro ⟨_, rfl⟩
      rfl
  · rw [row, Text.decimal?_of_not_isWritable (Bool.eq_false_of_not_eq_true isWritable)]
    constructor
    · rintro ⟨⟩
    · intro isRow
      exact absurd isRow.1 isWritable

/-- What is shown of each column makes up what is shown of the rows. -/
theorem showsRow_zip {kinds names lines : List String}
    (areKinds : List.Forall₂ (fun row kind => console.markup row.kind = .ok kind) rows kinds)
    (areNames : List.Forall₂ (fun row name => console.markup row.name = .ok name) rows names)
    (areLines : List.Forall₂ (fun row line => console.markup row.line = .ok line) rows lines) :
    List.Forall₂ (ShowsRow console) rows
      ((kinds.zip (names.zip lines)).map fun cells => ⟨cells.1, cells.2.1, cells.2.2⟩) := by
  induction areKinds generalizing names lines with
  | nil => exact .nil
  | cons isKind _ inductionHypothesis =>
      cases areNames with
      | cons isName areNames =>
      cases areLines with
      | cons isLine areLines =>
      exact .cons ⟨isKind, isName, isLine⟩ (inductionHypothesis areNames areLines)

theorem mapM_shownText_eq_ok_iff {cell : Row → String} {results : List String} :
    rows.mapM (fun row => shownText console (cell row)) = .ok results ↔
      List.Forall₂ (fun row result => console.markup (cell row) = .ok result) rows results := by
  simp only [mapM_eq_ok_iff, shownText_eq_ok_iff]

/-- What is shown of the rows holds what is shown of each column. -/
theorem mapM_shownText_of_showsRow {cell : Row → String} {results : List Row}
    (isCell : ∀ {row shown : Row}, ShowsRow console row shown →
      console.markup (cell row) = .ok (cell shown))
    (areShown : List.Forall₂ (ShowsRow console) rows results) :
    rows.mapM (fun row => shownText console (cell row)) = .ok (results.map cell) := by
  rw [mapM_shownText_eq_ok_iff, List.forall₂_map_right_iff]
  exact areShown.imp fun _ _ isShown => isCell isShown

/-- The cells are read column by column, and put together again row by row. -/
theorem shownRows_eq_ok_iff {results : List Row} :
    shownRows console rows = .ok results ↔ List.Forall₂ (ShowsRow console) rows results := by
  constructor
  · intro areShown
    rcases bind_eq_ok_iff.mp areShown with ⟨kinds, areKinds, areShown⟩
    rcases bind_eq_ok_iff.mp areShown with ⟨names, areNames, areShown⟩
    rcases bind_eq_ok_iff.mp areShown with ⟨lines, areLines, areShown⟩
    cases areShown
    exact showsRow_zip (mapM_shownText_eq_ok_iff.mp areKinds) (mapM_shownText_eq_ok_iff.mp areNames)
      (mapM_shownText_eq_ok_iff.mp areLines)
  · intro areShown
    have areKinds := mapM_shownText_of_showsRow (fun isShown => isShown.kind) areShown
    have areNames := mapM_shownText_of_showsRow (fun isShown => isShown.name) areShown
    have areLines := mapM_shownText_of_showsRow (fun isShown => isShown.line) areShown
    simp only [shownRows, areKinds, areNames, areLines, bind, Except.bind, List.zip_map',
      List.map_map]
    exact congrArg Except.ok (List.map_id _)

theorem rows_eq_ok_iff :
    records.mapM row = .ok rows ↔
      (∀ record ∈ records, record.IsWritable) ∧ records.map cells = rows := by
  rw [mapM_eq_ok_iff]
  constructor
  · intro areRows
    have areCells : rows = records.map cells :=
      Sequence.eq_map_of_forall₂ areRows fun _ _ _ isRow => (row_eq_ok_iff.mp isRow).2.symm
    refine ⟨?_, areCells.symm⟩
    rw [areCells, List.forall₂_map_right_iff, List.forall₂_same] at areRows
    exact fun record isRecord => (row_eq_ok_iff.mp (areRows record isRecord)).1
  · rintro ⟨areWritable, rfl⟩
    rw [List.forall₂_map_right_iff, List.forall₂_same]
    exact fun record isRecord => row_eq_ok_iff.mpr ⟨areWritable record isRecord, rfl⟩

/-- A table is shown by its title and its rows, if its records can be written. -/
theorem shown_eq_ok_iff {shownTable : Shown} :
    table.shown console base = .ok shownTable ↔
      console.markup (table.title base) = .ok shownTable.title ∧
        (∀ record ∈ table.records, record.IsWritable) ∧
        List.Forall₂ (fun record row => ShowsRow console (cells record) row) table.records
          shownTable.rows := by
  rw [← List.forall₂_map_left_iff (f := cells)]
  constructor
  · intro isShown
    rcases bind_eq_ok_iff.mp isShown with ⟨title, isTitle, isShown⟩
    rcases bind_eq_ok_iff.mp isShown with ⟨rows, areRows, isShown⟩
    rcases bind_eq_ok_iff.mp isShown with ⟨shownRows, areShown, isShown⟩
    cases isShown
    rcases rows_eq_ok_iff.mp areRows with ⟨areWritable, rfl⟩
    exact ⟨shownText_eq_ok_iff.mp isTitle, areWritable, shownRows_eq_ok_iff.mp areShown⟩
  · rintro ⟨isTitle, areWritable, areShown⟩
    refine bind_eq_ok_iff.mpr ⟨_, shownText_eq_ok_iff.mpr isTitle, ?_⟩
    refine bind_eq_ok_iff.mpr ⟨_, rows_eq_ok_iff.mpr ⟨areWritable, rfl⟩, ?_⟩
    exact bind_eq_ok_iff.mpr ⟨_, shownRows_eq_ok_iff.mpr areShown, rfl⟩

/-- If all rows can be shown, the table is shown if and only if its title is not refused. -/
theorem exists_shown_iff (haveRows : ∀ record ∈ table.records, HasRow console record) :
    (∃ shownTable, table.shown console base = .ok shownTable) ↔
      ∃ title, console.markup (table.title base) = .ok title := by
  constructor
  · rintro ⟨shownTable, isShown⟩
    exact ⟨_, (shown_eq_ok_iff.mp isShown).1⟩
  · rintro ⟨title, isTitle⟩
    have areShown := fun record isRecord => (haveRows record isRecord).row
    rcases Sequence.exists_forall₂_iff.mpr areShown with ⟨rows, areRows⟩
    refine ⟨⟨title, rows⟩, shown_eq_ok_iff.mpr ⟨isTitle, ?_, areRows⟩⟩
    exact fun record isRecord => (haveRows record isRecord).isWritable

theorem shown_eq_error_iff (haveRows : ∀ record ∈ table.records, HasRow console record)
    {failure : Failure} :
    table.shown console base = .error failure ↔
      ∃ message, console.markup (table.title base) = .error message ∧
        failure = .markup message := by
  cases isTitle : console.markup (table.title base) with
  | ok title =>
      rcases (exists_shown_iff haveRows).mpr ⟨title, isTitle⟩ with ⟨shownTable, isShown⟩
      simp [isShown]
  | error message =>
      have fails : table.shown console base = .error (.markup message) := by
        rw [shown, shownText, isTitle]
        rfl
      simp [fails, eq_comm]

/-! ## All tables -/

theorem mem_of_mem_ofRecords (isTable : table ∈ ofRecords records)
    (isRecord : record ∈ table.records) : record ∈ records ∧ record.file = table.file := by
  rcases List.mem_map.mp isTable with ⟨file, _, rfl⟩
  exact ⟨(List.mem_filter.mp isRecord).1, Sequence.label_of_mem_filter isRecord⟩

/-- If all rows can be shown, nothing fails but reading a title. -/
theorem render_eq_error_iff (haveRows : ∀ record ∈ records, HasRow console record)
    {failure : Failure} :
    render console base records = .error failure ↔
      ∃ message, Refused console base records message ∧ failure = .markup message := by
  have haveRowsHere (table : Table) (isTable : table ∈ ofRecords records) (record : Record)
      (isRecord : record ∈ table.records) : HasRow console record :=
    haveRows record (mem_of_mem_ofRecords isTable isRecord).1
  have isJoined : render console base records = .error failure ↔
      (ofRecords records).mapM (shown console base) = .error failure := by
    rw [render, Sequence.bind_eq_error_iff]
    constructor
    · rintro (fails | ⟨_, _, isPure⟩)
      · exact fails
      · cases isPure
    · exact Or.inl
  rw [isJoined, Sequence.mapM_eq_error_iff]
  constructor
  · rintro ⟨before, table, after, areTables, areShown, fails⟩
    rw [areTables] at haveRowsHere
    rcases (shown_eq_error_iff (haveRowsHere table (by simp))).mp fails with
      ⟨message, isRefused, rfl⟩
    refine ⟨message, ⟨before, table, after, areTables, ?_, isRefused⟩, rfl⟩
    intro other isOther
    exact (exists_shown_iff (haveRowsHere other (by simp [isOther]))).mp (areShown other isOther)
  · rintro ⟨message, ⟨before, table, after, areTables, areTitles, isRefused⟩, rfl⟩
    rw [areTables] at haveRowsHere
    refine ⟨before, table, after, areTables, ?_, ?_⟩
    · intro other isOther
      exact (exists_shown_iff (haveRowsHere other (by simp [isOther]))).mpr
        (areTitles other isOther)
    · exact (shown_eq_error_iff (haveRowsHere table (by simp))).mpr ⟨message, isRefused, rfl⟩

theorem exists_shown_ofFile_iff (isFile : file ∈ files records) :
    (∃ shownTable, (ofFile records file).shown console base = .ok shownTable) ↔
      ∀ record ∈ records, record.file = file → IsShown console base record := by
  constructor
  · rintro ⟨shownTable, isShown⟩ record isRecord rfl
    rcases shown_eq_ok_iff.mp isShown with ⟨isTitle, areWritable, areShown⟩
    have isHere : record ∈ (ofFile records record.file).records :=
      List.mem_filter.mpr ⟨isRecord, beq_self_eq_true _⟩
    have isRow := Sequence.exists_forall₂_iff.mp ⟨_, areShown⟩ record isHere
    exact ⟨⟨areWritable record isHere, isRow⟩, ⟨_, isTitle⟩⟩
  · intro areShown
    have areShownHere : ∀ record ∈ (ofFile records file).records, IsShown console base record :=
      fun record isHere => areShown record (List.mem_filter.mp isHere).1
        (Sequence.label_of_mem_filter isHere)
    rcases mem_files_iff.mp isFile with ⟨record, isRecord, rfl⟩
    rw [exists_shown_iff fun record isHere => (areShownHere record isHere).toHasRow]
    exact (areShown record isRecord rfl).title

/-- All tables are shown if and only if nothing keeps one of the records from being shown. -/
theorem exists_tables_iff :
    (∃ tables, (ofRecords records).mapM (shown console base) = .ok tables) ↔
      ∀ record ∈ records, IsShown console base record := by
  rw [Sequence.exists_mapM_eq_ok_iff]
  constructor
  · intro areShown record isRecord
    have isFile : record.file ∈ files records := mem_files_iff.mpr ⟨record, isRecord, rfl⟩
    have isTable : ofFile records record.file ∈ ofRecords records := List.mem_map_of_mem isFile
    exact (exists_shown_ofFile_iff isFile).mp (areShown _ isTable) record isRecord rfl
  · intro areShown table isTable
    rcases List.mem_map.mp isTable with ⟨file, isFile, rfl⟩
    exact (exists_shown_ofFile_iff isFile).mpr fun record isRecord _ => areShown record isRecord

theorem render_eq_ok_iff {output : String} :
    render console base records = .ok output ↔
      ∃ tables, (ofRecords records).mapM (shown console base) = .ok tables ∧
        String.join (tables.map (emitted console)) = output := by
  constructor
  · intro isRendered
    rcases bind_eq_ok_iff.mp isRendered with ⟨tables, areTables, isOutput⟩
    exact ⟨tables, areTables, Except.ok.inj isOutput⟩
  · rintro ⟨tables, areTables, rfl⟩
    exact bind_eq_ok_iff.mpr ⟨tables, areTables, rfl⟩

/-- The titles are those of the files. -/
theorem titles_of_tables {shownTables : List Shown}
    (areTables : (ofRecords records).mapM (shown console base) = .ok shownTables) :
    List.Forall₂ (fun file table => console.markup (base.join file).text = .ok table.title)
      (files records) shownTables := by
  rw [← map_file_ofRecords, List.forall₂_map_left_iff]
  exact (mapM_eq_ok_iff.mp areTables).imp fun _ _ isShown => (shown_eq_ok_iff.mp isShown).1

theorem tagged_of_forall₂ {shownTables : List Shown}
    (areTables : List.Forall₂ (fun table shownTable => table.shown console base = .ok shownTable)
      tables shownTables) :
    List.Forall₂ (ShowsEntry console)
      (tables.flatMap entries) (tagged (tables.map (·.file)) shownTables) := by
  induction areTables with
  | nil => exact .nil
  | @cons table shownTable tables shownTables isTable _ inductionHypothesis =>
      have areEntries : List.Forall₂ (ShowsEntry console) table.entries
          (shownTable.rows.map fun row => (table.file, row)) := by
        rw [entries, List.forall₂_map_left_iff, List.forall₂_map_right_iff]
        exact (shown_eq_ok_iff.mp isTable).2.2.imp fun _ _ isShown => ⟨rfl, isShown⟩
      exact List.rel_append areEntries inductionHypothesis

/-- The rows are those of the records sorted by file. -/
theorem tagged_of_tables {shownTables : List Shown}
    (areTables : (ofRecords records).mapM (shown console base) = .ok shownTables) :
    List.Forall₂ (ShowsEntry console)
      (sorted records) (tagged (files records) shownTables) := by
  rw [← flatMap_entries_ofRecords, ← map_file_ofRecords]
  exact tagged_of_forall₂ (mapM_eq_ok_iff.mp areTables)

/-! ## Texts that are shown as they are -/

theorem ShowsRow.unique {row shown other : Row} (isShown : ShowsRow console row shown)
    (isOther : ShowsRow console row other) : shown = other := by
  have sameKind : shown.kind = other.kind := Except.ok.inj (isShown.kind.symm.trans isOther.kind)
  have sameName : shown.name = other.name := Except.ok.inj (isShown.name.symm.trans isOther.name)
  have sameLine : shown.line = other.line := Except.ok.inj (isShown.line.symm.trans isOther.line)
  cases shown
  cases other
  simp_all

theorem IsVerbatim.isShown (isVerbatim : IsVerbatim console base record) :
    IsShown console base record :=
  ⟨⟨isVerbatim.isWritable, ⟨_, isVerbatim.row⟩⟩, ⟨_, isVerbatim.title⟩⟩

section

variable {shownTables : List Shown}
  (areVerbatim : ∀ record ∈ records, IsVerbatim console base record)
  (areTables : (ofRecords records).mapM (shown console base) = .ok shownTables)

include areVerbatim areTables

theorem map_title_of_verbatim :
    shownTables.map (·.title) = (files records).map fun file => (base.join file).text := by
  have areTitles := titles_of_tables areTables
  rw [← List.forall₂_map_right_iff (f := Shown.title)
    (R := fun file title => console.markup (base.join file).text = .ok title)] at areTitles
  apply Sequence.eq_map_of_forall₂ areTitles
  intro file isFile title isTitle
  rcases mem_files_iff.mp isFile with ⟨record, isRecord, rfl⟩
  exact Except.ok.inj (isTitle.symm.trans (areVerbatim record isRecord).title)

theorem tagged_of_verbatim :
    tagged (files records) shownTables =
      (sorted records).map fun record => (record.file, cells record) := by
  apply Sequence.eq_map_of_forall₂ (tagged_of_tables areTables)
  rintro record isSorted ⟨file, row⟩ ⟨rfl, isRow⟩
  have isRecord : record ∈ records := List.mem_mergeSort.mp isSorted
  exact congrArg _ (isRow.unique (areVerbatim record isRecord).row)

end

/-! ## Tables are the records sorted by file -/

/-- There is one table for each file of the records, in the order of the files, and the tables are
those that are filled record by record. They are all shown if and only if each record can be written
and the console refuses none of their texts. Then what is shown of their rows is what the console
makes of the records sorted by file. If the console shows the texts as they are, then so are the
titles and the rows. -/
theorem render_sorts (console : Console) (base : Path) (records : List Record) :
    ((files records).Pairwise (· < ·) ∧
      (∀ file, file ∈ files records ↔ ∃ record ∈ records, record.file = file) ∧
      Sequence.IsStableSort (·.file) records (sorted records) ∧
      ofRecords records =
        (gather records).mergeSort (fun table other => decide (table.file ≤ other.file))) ∧
    ((∃ output, render console base records = .ok output) ↔
      ∀ record ∈ records, IsShown console base record) ∧
    (∀ output, render console base records = .ok output →
      ∃ tables, (ofRecords records).mapM (shown console base) = .ok tables ∧
        output = String.join (tables.map (emitted console)) ∧
        List.Forall₂ (fun file table => console.markup (base.join file).text = .ok table.title)
          (files records) tables ∧
        List.Forall₂ (ShowsEntry console) (sorted records) (tagged (files records) tables)) ∧
    ((∀ record ∈ records, IsVerbatim console base record) →
      ∃ tables, (ofRecords records).mapM (shown console base) = .ok tables ∧
        render console base records = .ok (String.join (tables.map (emitted console))) ∧
        tables.map (·.title) = (files records).map (fun file => (base.join file).text) ∧
        tagged (files records) tables =
          (sorted records).map fun record => (record.file, cells record)) := by
  refine ⟨⟨pairwise_files records, fun _ => mem_files_iff, ?_, ofRecords_eq_gather records⟩,
    ?_, ?_, ?_⟩
  · exact Sequence.isStableSort_mergeSort (·.file) records
  · rw [← exists_tables_iff]
    constructor
    · rintro ⟨output, isRendered⟩
      rcases render_eq_ok_iff.mp isRendered with ⟨tables, areTables, _⟩
      exact ⟨tables, areTables⟩
    · rintro ⟨tables, areTables⟩
      exact ⟨_, render_eq_ok_iff.mpr ⟨tables, areTables, rfl⟩⟩
  · intro output isRendered
    rcases render_eq_ok_iff.mp isRendered with ⟨tables, areTables, isOutput⟩
    exact ⟨tables, areTables, isOutput.symm, titles_of_tables areTables, tagged_of_tables areTables⟩
  · intro areVerbatim
    rcases exists_tables_iff.mpr fun record isRecord => (areVerbatim record isRecord).isShown with
      ⟨tables, areTables⟩
    exact ⟨tables, areTables, render_eq_ok_iff.mpr ⟨tables, areTables, rfl⟩,
      map_title_of_verbatim areVerbatim areTables, tagged_of_verbatim areVerbatim areTables⟩

/-! ## The standard console -/

/-- The standard console shows a record as it is if no text of it holds an opening bracket or a
character that moves a cursor. -/
theorem isVerbatim_standard (isWritable : record.IsWritable)
    (noBracket : ∀ text ∈ [(base.join record.file).text, record.kind.label, record.name],
      '[' ∉ text.toList)
    (areShown : ∀ text ∈ [(base.join record.file).text, record.kind.label, record.name],
      ∀ c ∈ text.toList, Console.isShown c = true) :
    IsVerbatim .standard base record := by
  have isShown (text : String)
      (isText : text ∈ [(base.join record.file).text, record.kind.label, record.name]) :
      Console.standard.markup text = .ok text :=
    Console.standard_markup_of_noBracket (noBracket text isText) (areShown text isText)
  refine ⟨isWritable, isShown _ (by simp), isShown _ (by simp [cells]), isShown _ (by simp [cells]),
    Console.standard_markup_toString record.line⟩

/-- Records of two files by turns. -/
def turns : List Record :=
  [⟨"A", .classes, 7, "a.py"⟩, ⟨"B", .classes, 1, "c.py"⟩, ⟨"C", .classes, 2, "a.py"⟩]

theorem files_turns : files turns = ["a.py", "c.py"] := by
  have areMet : (turns.map (·.file)).eraseDups = ["a.py", "c.py"] := by decide +kernel
  rw [files, areMet]
  exact List.mergeSort_of_pairwise (by decide)

theorem sorted_turns :
    sorted turns =
      [⟨"A", .classes, 7, "a.py"⟩, ⟨"C", .classes, 2, "a.py"⟩, ⟨"B", .classes, 1, "c.py"⟩] := by
  rw [← flatMap_entries_ofRecords, ofRecords, files_turns]
  decide +kernel

theorem render_sorts_turns :
    (∀ record ∈ turns, IsVerbatim .standard ⟨.root, ["d"]⟩ record) ∧
    ∃ tables, render .standard ⟨.root, ["d"]⟩ turns =
        .ok (String.join (tables.map (emitted .standard))) ∧
      tables.map (·.title) = ["/d/a.py", "/d/c.py"] ∧
      tagged ["a.py", "c.py"] tables = [("a.py", ⟨"class", "A", "7"⟩),
        ("a.py", ⟨"class", "C", "2"⟩), ("c.py", ⟨"class", "B", "1"⟩)] := by
  have areVerbatim : ∀ record ∈ turns, IsVerbatim .standard ⟨.root, ["d"]⟩ record := by
    have areShown : ∀ record ∈ turns, ∀ text ∈
        [((⟨.root, ["d"]⟩ : Path).join record.file).text, record.kind.label, record.name],
        '[' ∉ text.toList ∧ text.toList.all Console.isShown = true := by decide +kernel
    intro record isRecord
    apply isVerbatim_standard
    · revert record
      decide
    · exact fun text isText => (areShown record isRecord text isText).1
    · exact fun text isText => List.all_eq_true.mp (areShown record isRecord text isText).2
  rcases (render_sorts .standard ⟨.root, ["d"]⟩ turns).2.2.2 areVerbatim with
    ⟨tables, _, isRendered, areTitles, areTagged⟩
  rw [files_turns] at areTitles areTagged
  rw [sorted_turns] at areTagged
  exact ⟨areVerbatim, tables, isRendered, areTitles, areTagged⟩

/-- The slash makes the part in brackets an end of a style, and no style was begun. -/
theorem render_bracketed :
    render .standard ⟨.root, []⟩ [⟨"A", .classes, 1, "a[/b].py"⟩] =
      .error (.markup "closing tag '[/b]' at position 2 doesn't match any open tag") := by
  decide +kernel

end DeclIndex.Table
