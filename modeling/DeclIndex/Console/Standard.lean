import DeclIndex.Console.Basic
import DeclIndex.Console.Markup
import DeclIndex.Text.Cells

/-!
# The standard console

The standard console is as wide as a terminal, and leaves out the characters that would move the
cursor of one. It knows no pictures.

A title stands in the middle of a line of dashes. A table has three columns; a name that is too long
for its column goes on in the next line of its row.
-/

namespace DeclIndex.Console

/-- The width of a terminal in cells. -/
def terminalWidth : Nat := 80

/-- The characters that ring the bell of a terminal or move its cursor. -/
def controls : List Nat := [0x07, 0x08, 0x0b, 0x0c, 0x0d]

/-- The character is shown. -/
def isShown (c : Char) : Bool :=
  !controls.contains c.toNat

/-! ## Titles -/

/-- The longest start of a text that fits into some cells. -/
def fitting : Nat → List Char → List Char
  | _, [] => []
  | room, c :: rest =>
    if Text.cells c ≤ room then c :: fitting (room - Text.cells c) rest else []

/-- The start of a text that fills some cells exactly. A blank stands for the half of a wide
character that would not fit. -/
def cut (room : Nat) (text : List Char) : List Char :=
  let start := fitting room text
  start ++ List.replicate (room - Text.width start) ' '

/-- A title that is too long for some cells ends in an ellipsis. -/
def shorten (room : Nat) (title : List Char) : List Char :=
  if Text.width title ≤ room then title else cut (room - 1) title ++ ['…']

/-- A line of some cells with a title in its middle. A title has one line only. -/
def titleLine (cells : Nat) (title : String) : String :=
  let onOneLine := title.toList.map fun c => if c = '\n' then ' ' else c
  let text := shorten (cells - 4) onOneLine
  let side := (cells - Text.width text) / 2
  let left := List.replicate (side - 1) '-' ++ ' ' :: text ++ [' ']
  String.ofList (left ++ List.replicate (cells - Text.width left) '-')

/-! ## Tables -/

/-- The width of the column for the kind. -/
def kindWidth : Nat := 11

/-- The width of the column for the name. -/
def nameWidth : Nat := 49

/-- The width of the column for the line. -/
def lineWidth : Nat := 10

/-- A text with blanks after it up to a width. -/
def padEnd (width : Nat) (text : List Char) : List Char :=
  text ++ List.replicate (width - Text.width text) ' '

/-- A text with blanks before it up to a width. -/
def padStart (width : Nat) (text : List Char) : List Char :=
  List.replicate (width - Text.width text) ' ' ++ text

/-- The part of a text that goes into a line of a width, where some cells are used up already, and
the parts for the lines after it. -/
def foldFrom (width used : Nat) : List Char → List Char × List (List Char)
  | [] => ([], [])
  | c :: rest =>
    if used ≠ 0 ∧ width < used + Text.cells c then
      let (line, lines) := foldFrom width (Text.cells c) rest
      ([], (c :: line) :: lines)
    else
      let (line, lines) := foldFrom width (used + Text.cells c) rest
      (c :: line, lines)

/-- A text as lines of at most a width. -/
def fold (width : Nat) (text : List Char) : List (List Char) :=
  let (line, lines) := foldFrom width 0 text
  line :: lines

/-- A line across the table, with its ends, its crossings and what it is drawn with. -/
def border (left stroke crossing right : Char) : String :=
  let run (width : Nat) := List.replicate (width + 2) stroke
  String.ofList (left :: run kindWidth ++ crossing :: run nameWidth ++ crossing :: run lineWidth
    ++ [right])

/-- A line of cells between bars. -/
def cells (bar : Char) (kind name line : List Char) : String :=
  String.ofList ([bar, ' '] ++ padEnd kindWidth kind ++ [' ', bar, ' '] ++ padEnd nameWidth name
    ++ [' ', bar, ' '] ++ padStart lineWidth line ++ [' ', bar])

/-- The lines of the head of a table. -/
def head : List String :=
  [border '┏' '━' '┳' '┓', cells '┃' "kind".toList "name".toList "line".toList,
    border '┡' '━' '╇' '┩']

/-- The lines of a row. -/
def rowLines (row : Row) : List String :=
  let first (name : List Char) := cells '│' row.kind.toList name row.line.toList
  match fold nameWidth row.name.toList with
  | [] => [first []]
  | name :: more => first name :: more.map fun name => cells '│' [] name []

/-- The lines of a table. -/
def tableLines (rows : List Row) : List String :=
  head ++ rows.flatMap rowLines ++ [border '└' '─' '┴' '┘']

/-- The standard console. -/
def standard : Console where
  print text := String.ofList (text.toList.filter isShown) ++ "\n"
  markup text :=
    (Markup.shown text.toList).map fun letters => String.ofList (letters.filter isShown)
  rule title := titleLine terminalWidth title ++ "\n"
  table rows := String.join ((tableLines rows).map fun line => line ++ "\n")

end DeclIndex.Console
