/-!
# Declaration records

What a scan reports: a declared name, what kind of declaration it is, and the file and line that
it stands on.
-/

namespace DeclIndex

/-- A kind of declarations. Any word may name a kind, but not every kind can be listed. -/
structure Kind where
  /-- The word for one declaration of the kind. -/
  label : String
  deriving DecidableEq, Repr

namespace Kind

/-- The functions of a file. -/
def functions : Kind := ⟨"function"⟩

/-- The classes of a file. -/
def classes : Kind := ⟨"class"⟩

end Kind

/-- One declaration. -/
structure Record where
  name : String
  kind : Kind
  /-- The line of the declaration; the first line of a file is line 1. -/
  line : Int
  /-- The file as a path from the scanned directory, with slashes. -/
  file : String
  deriving DecidableEq, Repr

end DeclIndex
