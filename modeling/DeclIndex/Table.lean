import DeclIndex.Console.Basic
import DeclIndex.Failure
import DeclIndex.Text.Integer

/-!
# Tables

Records may be shown as one table per file, in the order of the files' names. The records of a file
keep their order. Each table has the path of its file as a title.

Titles and cells are read as texts with style tags, though they are not written as such. So a part
of a path in brackets may be left out, or keep the tables from being shown.
-/

namespace DeclIndex

/-- The records of one file. -/
structure Table where
  file : String
  records : List Record
  deriving DecidableEq, Repr

namespace Table

/-- The files of some records, each once, in the order of their names. -/
def files (records : List Record) : List String :=
  (records.map (·.file)).eraseDups.mergeSort fun file other => decide (file ≤ other)

/-- One table per file. -/
def ofRecords (records : List Record) : List Table :=
  (files records).map fun file => ⟨file, records.filter fun record => record.file == file⟩

/-! ## Showing tables -/

/-- The title of a table: the path of its file, given the directory that files are named from. -/
def title (table : Table) (base : Path) : String :=
  (base.join table.file).text

/-- The cells of a record. -/
def row (record : Record) : Except Failure Row := do
  let line ← Failure.written (Text.decimal? record.line)
  return ⟨record.kind.label, record.name, line⟩

/-- What a console shows of a title or a cell. -/
def shownText (console : Console) (text : String) : Except Failure String :=
  (console.markup text).mapError .markup

/-- What a console shows of some rows. The cells are read column by column. -/
def shownRows (console : Console) (rows : List Row) : Except Failure (List Row) := do
  let kinds ← rows.mapM fun row => shownText console row.kind
  let names ← rows.mapM fun row => shownText console row.name
  let lines ← rows.mapM fun row => shownText console row.line
  return (kinds.zip (names.zip lines)).map fun cells => ⟨cells.1, cells.2.1, cells.2.2⟩

/-- A table as it is shown. -/
structure Shown where
  title : String
  rows : List Row
  deriving DecidableEq, Repr

/-- What a console shows of a table. The title is read before the rows. -/
def shown (console : Console) (base : Path) (table : Table) : Except Failure Shown := do
  let title ← shownText console (table.title base)
  let rows ← table.records.mapM row
  return ⟨title, ← shownRows console rows⟩

/-- What is written to show some records as tables. -/
def render (console : Console) (base : Path) (records : List Record) : Except Failure String := do
  let tables ← (ofRecords records).mapM (shown console base)
  return String.join (tables.map fun table => console.rule table.title ++ console.table table.rows)

end Table

end DeclIndex
