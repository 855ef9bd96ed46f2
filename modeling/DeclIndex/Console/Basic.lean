/-!
# Consoles

A run writes its output through a console. The records themselves are plain text. The titles and the
cells of tables may hold style tags, which the console reads, and it may refuse a text for its tags.
How lines are broken, which characters are left out and which names are shown as pictures is up to
the console.
-/

namespace DeclIndex

/-- The texts in the cells of one row of a table. -/
structure Row where
  kind : String
  name : String
  line : String
  deriving DecidableEq, Repr

/-- The ways in which texts are shown. -/
structure Console where
  /-- What is written for a plain text. -/
  print : String → String
  /-- What a text with style tags shows, or what is wrong with its tags. -/
  markup : String → Except String String
  /-- What is written for a line with a title in it. -/
  rule : String → String
  /-- What is written for a table with some rows. -/
  table : List Row → String

end DeclIndex
