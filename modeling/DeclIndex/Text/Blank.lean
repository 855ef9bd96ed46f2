import DeclIndex.Text.Ranges

/-!
# Blank characters and trimming

Blank are the white space of every script and the four information separators. The zero-width
characters and the byte order mark are not blank.
-/

namespace DeclIndex.Text

/-- White space of every script, and the information separators. -/
def blankRanges : Ranges :=
  [(0x9, 0xd), (0x1c, 0x20), (0x85, 0x85), (0xa0, 0xa0), (0x1680, 0x1680), (0x2000, 0x200a),
   (0x2028, 0x2029), (0x202f, 0x202f), (0x205f, 0x205f), (0x3000, 0x3000)]

/-- White space or an information separator. -/
def isBlank (c : Char) : Bool :=
  blankRanges.contains c

/-- White space of every script, without the information separators. -/
def isSpace (c : Char) : Bool :=
  isBlank c && !(0x1c ≤ c.toNat && c.toNat < 0x20)

/-- The text without the characters of a class at its end. -/
def dropEndWhile (drops : Char → Bool) (text : List Char) : List Char :=
  (text.reverse.dropWhile drops).reverse

/-- The text without the characters of a class at either end. -/
def trim (drops : Char → Bool) (text : List Char) : List Char :=
  dropEndWhile drops (text.dropWhile drops)

end DeclIndex.Text
