/-!
# Paths

A path is a list of names below an anchor. Its text may be written with repeated slashes and with
names that stand for the directory itself; both disappear when the text is read, while the name
for the parent directory stays, because what it leads to depends on links.

A location is a place in the tree of directories, given by the names that lead there from the root.
Locations are where paths lead once the names for parents are gone, be it along the tree, or only
by the letter (`Location.append`).
-/

namespace DeclIndex

/-- The parts of a text between slashes. -/
def components (text : String) : List String :=
  (text.toList.splitOn '/').map String.ofList

/-- Some names with slashes between them. -/
def slashed (names : List String) : String :=
  "/".intercalate names

/-- A place in the tree of directories: the names that lead there, the innermost first. -/
abbrev Location := List String

namespace Location

/-- A name means the directory that it stands in. -/
def isSelf (name : String) : Bool :=
  name == "" || name == "."

/-- One more component, by the letter: the name for the parent removes the last component, and the
root is its own parent. -/
def step (location : Location) (name : String) : Location :=
  if isSelf name then location
  else if name == ".." then location.tail
  else name :: location

/-- Some more components, by the letter. -/
def append (location : Location) (names : List String) : Location :=
  names.foldl step location

/-- The components that lead from one list of names to another: up to the last common directory
and down again. -/
def between : List String → List String → List String
  | name :: names, other :: others =>
    if name = other then between names others
    else List.replicate (names.length + 1) ".." ++ other :: others
  | names, others => List.replicate names.length ".." ++ others

/-- The components that lead from a base to a location. -/
def relative (location base : Location) : List String :=
  between base.reverse location.reverse

end Location

/-- Where the names of a path start. -/
inductive Anchor where
  /-- The working directory. -/
  | here
  /-- The root directory. -/
  | root
  /-- The root directory, written with two slashes. -/
  | doubleRoot
  deriving DecidableEq, Repr

/-- A path: an anchor and the names below it, the outermost first. -/
structure Path where
  anchor : Anchor
  names : List String
  deriving DecidableEq, Repr

namespace Path

/-- Two slashes at the start are kept apart from one; three or more count as one. -/
def anchorOf : List Char → Anchor
  | '/' :: '/' :: '/' :: _ => .root
  | '/' :: '/' :: _ => .doubleRoot
  | '/' :: _ => .root
  | _ => .here

/-- The path that a text spells. -/
def ofText (text : String) : Path :=
  ⟨anchorOf text.toList, (components text).filter fun name => !Location.isSelf name⟩

/-- The text of a path. -/
def text (path : Path) : String :=
  match path.anchor, path.names with
  | .here, [] => "."
  | .here, names => slashed names
  | .root, names => "/" ++ slashed names
  | .doubleRoot, names => "//" ++ slashed names

/-- Some more names below a path. -/
def append (path : Path) (names : List String) : Path :=
  { path with names := path.names ++ names }

/-- One more name below a path. -/
def child (path : Path) (name : String) : Path :=
  path.append [name]

/-- The path that a text spells, starting from a base unless the text starts from the root. -/
def join (base : Path) (text : String) : Path :=
  match (ofText text).anchor with
  | .here => base.append (ofText text).names
  | .root | .doubleRoot => ofText text

/-- The path without its last name. -/
def parent (path : Path) : Path :=
  { path with names := path.names.dropLast }

end Path

end DeclIndex
