/-!
# Positions in a text

A position is given by how many characters stand before it. It lies on a line and in a column, both
counted from one, where each line feed ends a line.
-/

namespace DeclIndex.Text

/-- The line of a position. -/
def lineOf (position : Nat) (text : List Char) : Nat :=
  (text.take position).count '\n' + 1

/-- The column of a position. -/
def columnOf (position : Nat) (text : List Char) : Nat :=
  ((text.take position).reverse.takeWhile (· != '\n')).length + 1

/-- The wording for a position, with line and column if the text has several lines. -/
def positionText (position : Nat) (text : List Char) : String :=
  "position " ++ toString position ++
    if text.contains '\n' then
      " (line " ++ toString (lineOf position text) ++ ", column "
        ++ toString (columnOf position text) ++ ")"
    else ""

end DeclIndex.Text
