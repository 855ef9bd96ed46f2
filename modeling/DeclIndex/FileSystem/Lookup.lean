import DeclIndex.FileSystem.Basic

/-!
# Following paths

A path is followed name by name from where it starts. A link is replaced by its target, and at most
`FileSystem.maxLinks` links are followed on the way. The trail that results holds no link.

A directory that is closed lets nobody pass: each name after it, even one that means the directory
itself, is denied. Only a slash at the end asks for nothing in the directory.

The queries follow the path first. A path that leads nowhere answers that nothing is there. A name
that is too long and a closed directory on the way are failures of the query itself.
-/

namespace DeclIndex.FileSystem

/-- The most links that are followed for one path. -/
def maxLinks : Nat := 40

/-- A path whose text has this many bytes is too long. -/
def tooLong : Nat := 4096

/-- A file with this many bytes is too large to be opened. -/
def tooLarge : Nat := 0x8000000000000000

/-- How far names lead without following a link. -/
inductive Progress where
  /-- All names were used up. -/
  | arrived (trail : Trail)
  /-- In a directory, a link was met before the remaining names. -/
  | link (directory : Trail) (target : String) (rest : List String)

/-- Follows names from the end of a trail up to the first link. -/
def advance (fs : FileSystem) (trail : Trail) : List String → Except AccessFailure Progress
  | [] => .ok (.arrived trail)
  | name :: rest =>
    let here := fs.treeAt trail
    if here.entry.isDirectory then
      if name == "" then fs.advance trail rest
      else if here.entry.isClosed then .error .denied
      else if Location.isSelf name then fs.advance trail rest
      else if name == ".." then fs.advance trail.tail rest
      else if Entry.maxNameLength < name.utf8ByteSize then .error .nameTooLong
      else
        match here.child? name with
        | none => .error .missing
        | some tree =>
          match tree.entry with
          | .link target => .ok (.link trail target rest)
          | _ => fs.advance ((name, tree) :: trail) rest
    else .error .notDirectory

/-- Where the target of a link in a directory starts. -/
def targetStart (directory : Trail) (target : String) : Trail :=
  if target.startsWith "/" then [] else directory

/-- Follows names from the end of a trail, with a limit on the number of links. -/
def follow (fs : FileSystem) : Nat → Trail → List String → Except AccessFailure Trail
  | 0, trail, names => do
    match ← fs.advance trail names with
    | .arrived reached => return reached
    | .link _ _ _ => throw .tooManyLinks
  | links + 1, trail, names => do
    match ← fs.advance trail names with
    | .arrived reached => return reached
    | .link directory target rest =>
      fs.follow links (targetStart directory target) (components target ++ rest)

/-- The trail that names lead along from a location. -/
def trailFrom (fs : FileSystem) (location : Location) (names : List String) :
    Except AccessFailure Trail :=
  match fs.trail? location with
  | some trail => fs.follow maxLinks trail names
  | none => .error .missing

/-- Where the names of a path start. -/
def start (fs : FileSystem) (path : Path) : Location :=
  match path.anchor with
  | .here => fs.workingDirectory
  | .root | .doubleRoot => []

/-- The trail that a path leads along. -/
def locate (fs : FileSystem) (path : Path) : Except AccessFailure Trail :=
  if path.names.any fun name => name.toList.contains '\x00' then .error .nulByte
  else if tooLong ≤ path.text.utf8ByteSize then .error .nameTooLong
  else fs.trailFrom (fs.start path) path.names

/-! ## Queries -/

/-- What a path leads to. -/
def find (fs : FileSystem) (path : Path) : Except AccessFailure Tree :=
  (fs.locate path).map fs.treeAt

/-- What a path leads to, if anything is there. -/
def find? (fs : FileSystem) (path : Path) : Except AccessFailure (Option Entry) :=
  match fs.find path with
  | .ok tree => .ok (some tree.entry)
  | .error failure => if failure.isAbsence then .ok none else .error failure

/-- The path leads to something. -/
def holds (fs : FileSystem) (path : Path) : Except AccessFailure Bool :=
  (fs.find? path).map (·.isSome)

/-- The path leads to a directory. -/
def isDirectory (fs : FileSystem) (path : Path) : Except AccessFailure Bool :=
  (fs.find? path).map (·.any (·.isDirectory))

/-- The path leads to a regular file. -/
def isFile (fs : FileSystem) (path : Path) : Except AccessFailure Bool :=
  (fs.find? path).map (·.any (·.isFile))

/-- The names in the directory that a path leads to. -/
def list (fs : FileSystem) (path : Path) : Except AccessFailure (List String) := do
  let tree ← fs.find path
  match tree.entry with
  | .directory false _ => return tree.names
  | .directory true _ => throw .denied
  | _ => throw .notDirectory

/-- The bytes of the file that a path leads to; a pipe holds none. -/
def read (fs : FileSystem) (path : Path) : Except AccessFailure (List UInt8) := do
  let tree ← fs.find path
  match tree.entry with
  | .file bytes false => if bytes.length < tooLarge then return bytes else throw .fileTooLarge
  | .file _ true | .directory true _ => throw .denied
  | .directory false _ => throw .isDirectory
  | .fifo => return []
  | .link _ => throw .tooManyLinks

/-! ## Absolute and relative paths -/

/-- The location of a path by the letter, without following links. -/
def absolute (fs : FileSystem) (path : Path) : Location :=
  (fs.start path).append path.names

/-- The path from a base to a file, both taken by the letter, with slashes. -/
def relativePath (fs : FileSystem) (file base : Path) : String :=
  match (fs.absolute file).relative (fs.absolute base) with
  | [] => "."
  | names => slashed names

end DeclIndex.FileSystem
