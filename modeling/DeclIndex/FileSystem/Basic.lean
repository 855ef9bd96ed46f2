import DeclIndex.FileSystem.Tree
import DeclIndex.Text.Quoted

/-!
# File systems

A file system is a tree below a root directory, which is neither locked nor closed, together with a
working directory. `FileSystem.tree?` says what is at a location.

A trail is a location together with the trees that lie on the way to it. Whoever follows names one
by one keeps a trail, so that neither the next name nor the way back needs another look at the
tree from its root.
-/

namespace DeclIndex

/-- Why a file system refuses a path. -/
inductive AccessFailure where
  | missing
  | denied
  | notDirectory
  | isDirectory
  | nameTooLong
  | tooManyLinks
  | fileTooLarge
  | nulByte
  deriving DecidableEq, Repr

namespace AccessFailure

/-- The number and the wording of a failure. -/
def description : AccessFailure → String
  | missing => "[Errno 2] No such file or directory"
  | denied => "[Errno 13] Permission denied"
  | notDirectory => "[Errno 20] Not a directory"
  | isDirectory => "[Errno 21] Is a directory"
  | nameTooLong => "[Errno 36] File name too long"
  | tooManyLinks => "[Errno 40] Too many levels of symbolic links"
  | fileTooLarge => "[Errno 75] Value too large for defined data type"
  | nulByte => "embedded null byte"

/-- What is said of a path that was refused. -/
def message (failure : AccessFailure) (path : Path) : String :=
  match failure with
  | nulByte => nulByte.description
  | _ => failure.description ++ ": " ++ Text.quoted path.text

/-- The failure only says that nothing is there. -/
def isAbsence : AccessFailure → Bool
  | missing | notDirectory | tooManyLinks | nulByte => true
  | denied | isDirectory | nameTooLong | fileTooLarge => false

end AccessFailure

/-- A tree of directories and the directory in which relative paths start. -/
structure FileSystem where
  /-- What is in the root directory. -/
  contents : List (EntryName × Tree)
  workingDirectory : Location

/-- The names that lead from the root to a place, the innermost first, each with the tree that it
stands for. -/
abbrev Trail := List (String × Tree)

/-- The place that a trail leads to. -/
def Trail.location (trail : Trail) : Location :=
  trail.map (·.1)

namespace FileSystem

/-- The whole tree. -/
def root (fs : FileSystem) : Tree :=
  .node (.directory false false) fs.contents

/-- The tree at the end of a trail. -/
def treeAt (fs : FileSystem) : Trail → Tree
  | [] => fs.root
  | (_, tree) :: _ => tree

/-- The trail to a location, if something is there. -/
def trail? (fs : FileSystem) : Location → Option Trail
  | [] => some []
  | name :: location => do
    let trail ← fs.trail? location
    let tree ← (fs.treeAt trail).child? name
    return (name, tree) :: trail

/-- The tree at a location. -/
def tree? (fs : FileSystem) (location : Location) : Option Tree :=
  (fs.trail? location).map fs.treeAt

/-- The entry at a location. The root is a directory, and only directories have entries below. -/
def entry? (fs : FileSystem) (location : Location) : Option Entry :=
  (fs.tree? location).map (·.entry)

/-! ## Changing the tree -/

/-- The file system without a location and everything below it. -/
def erase (fs : FileSystem) (location : Location) : FileSystem :=
  { fs with contents := (fs.root.erase location.reverse).children }

/-- The file system with an entry at a location, whose parent is a directory already. What is
below the location stays if a directory replaces a directory. -/
def insert (fs : FileSystem) (location : Location) (entry : Entry) : FileSystem :=
  { fs with contents := (fs.root.insert entry location.reverse).children }

/-- The file system with directories all the way to a location. -/
def insertDirectories (fs : FileSystem) : Location → FileSystem
  | [] => fs
  | name :: location =>
    (fs.insertDirectories location).insert (name :: location) (.directory false false)

/-- A tree with nothing but the way to a directory, which is the working directory. -/
def withDirectory (location : Location) : FileSystem :=
  insertDirectories ⟨[], location⟩ location

end FileSystem

end DeclIndex
