import DeclIndex.FileSystem.Lookup

/-!
# Editing a tree by paths

An entry is written at a path below some directory. Directories that are missing on the way are
created, and links on the way are followed. The last name is taken as it is, so that a link there
is replaced or removed itself.
-/

namespace DeclIndex.FileSystem

/-- The directory that a name leads to, which is created if nothing is there. -/
def enter (fs : FileSystem) (directory : Location) (name : String) : FileSystem × Location :=
  match fs.trailFrom directory [name] with
  | .ok trail => (fs, trail.location)
  | .error _ => (fs.insert (name :: directory) (.directory false false), name :: directory)

/-- The directory that some names lead to, which is created if need be. -/
def enterAll (fs : FileSystem) (directory : Location) (names : List String) :
    FileSystem × Location :=
  names.foldl (fun state name => state.1.enter state.2 name) (fs, directory)

/-- Writes an entry at a path below a directory. -/
def put (fs : FileSystem) (directory : Location) (path : Path) (entry : Entry) : FileSystem :=
  match path.names.getLast? with
  | none => fs.insert directory entry
  | some name =>
    let (made, parent) := fs.enterAll directory path.names.dropLast
    made.insert (name :: parent) entry

/-- Removes what is at a path below a directory. -/
def remove (fs : FileSystem) (directory : Location) (path : Path) : FileSystem :=
  match path.names.getLast?, fs.trailFrom directory path.names.dropLast with
  | some name, .ok parent => fs.erase (name :: parent.location)
  | _, _ => fs

/-- Makes the directory that a path leads to the working directory. -/
def changeDirectory (fs : FileSystem) (path : Path) : Except AccessFailure FileSystem := do
  let trail ← fs.locate path
  if (fs.treeAt trail).entry.isDirectory then
    return { fs with workingDirectory := trail.location }
  else throw .notDirectory

end DeclIndex.FileSystem
