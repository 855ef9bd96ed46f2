import DeclIndex.Failure
import DeclIndex.Ignore.Matcher

/-!
# Ignore files

The ignore file of a directory is a text of lines that end in a line feed, a carriage return or
both. Blanks around a line do not count, and neither do lines that are blank or start with a number
sign. A file that is missing, locked or not encoded properly holds no lines.
-/

namespace DeclIndex.Ignore

/-- The name of an ignore file. -/
def fileName : String := ".gitignore"

/-- Every end of line as a line feed. -/
def unifyLineEnds : List Char → List Char
  | [] => []
  | '\r' :: '\n' :: rest => '\n' :: unifyLineEnds rest
  | '\r' :: rest => '\n' :: unifyLineEnds rest
  | c :: rest => c :: unifyLineEnds rest

/-- A line that may hold a pattern. -/
def isPatternLine (line : List Char) : Bool :=
  line ≠ [] && line.head? ≠ some '#'

/-- The lines of a text that may hold patterns. -/
def patternLines (text : List Char) : List (List Char) :=
  (((unifyLineEnds text).splitOn '\n').map (Text.trim Text.isBlank)).filter isPatternLine

/-- The lines of an ignore file's bytes that may hold patterns. -/
def linesOfBytes (bytes : List UInt8) : List String :=
  match Text.Utf8.decode bytes with
  | .ok text => (patternLines text).map String.ofList
  | .error _ => []

/-- The lines of the ignore file in a directory that may hold patterns. -/
def load (fs : FileSystem) (directory : Path) : Except Failure (List String) := do
  let path := directory.child fileName
  if ← FileSystem.ask path (fs.isFile path) then
    match fs.read path with
    | .ok bytes => return linesOfBytes bytes
    | .error _ => return []
  else return []

/-- The rules of the ignore file in a directory. -/
def Matcher.ofDirectory (fs : FileSystem) (directory : Path) : Except Failure Matcher := do
  let lines ← load fs directory
  (Matcher.ofLines lines).mapError .ignorePattern

end DeclIndex.Ignore
