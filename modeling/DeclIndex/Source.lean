import DeclIndex.Declarations
import DeclIndex.Failure

/-!
# The declarations of a file

A file is read as UTF-8, with one byte order mark at its start left out. Its lines end in line feeds
alone, so a carriage return belongs to the line that it ends.
-/

namespace DeclIndex.Source

/-- The text of a file. -/
def text (fs : FileSystem) (file : Path) : Except Failure (List Char) :=
  match fs.read file with
  | .error .nulByte => .error .nulByte
  | .error failure => .error (.unreadable file (.access failure))
  | .ok bytes =>
    (Text.Utf8.decode (Text.Utf8.dropMark bytes)).mapError fun failure =>
      .unreadable file (.encoding failure)

/-- The lines of a text. -/
def lines (text : List Char) : List String :=
  (text.splitOn '\n').map String.ofList

/-- The rules that find declarations of a kind. -/
def rules (kind : Kind) : Except Failure (List Rule) :=
  match kind.rules? with
  | some rules => .ok rules
  | none => .error (.unknownKind kind)

/-- The declarations of a kind in a file, which they name by its path from a base. The file is read
before the kind is looked at. -/
def declarations (fs : FileSystem) (file base : Path) (kind : Kind) :
    Except Failure (List Record) := do
  let text ← text fs file
  let rules ← rules kind
  return Declarations.scan rules kind (fs.relativePath file base) (lines text)

end DeclIndex.Source
