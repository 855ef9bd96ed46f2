import DeclIndex.Ignore.File

/-!
# Walking a directory

A walk looks at a directory, then at the directories in it, then at those one level further down,
as deep as a limit allows. What is ignored is passed over, and so is all that lies in an ignored
directory. Links are followed; the limit on the depth, and the limit on links in one path, end
every loop. A walk that fails anywhere yields nothing.

Paths are lists of names below the root of the walk. `Walk.listings` gives what the walk saw of
each directory that it looked at, in order, and the files found are those of all listings.
-/

namespace DeclIndex

/-- What a walk keeps of one directory. -/
structure Listing where
  directory : List String
  files : List (List String)
  subdirectories : List (List String)
  deriving DecidableEq, Repr

/-- A walk: the tree, the rules for what is passed over, and the root. -/
structure Walk where
  fs : FileSystem
  matcher : Ignore.Matcher
  root : Path

namespace Walk

/-- What a walk does with a path. -/
inductive Use where
  | keep
  | enter
  | passOver
  deriving DecidableEq, Repr

/-- What the walk does with a path below its root. -/
def use (walk : Walk) (names : List String) : Except AccessFailure Use := do
  let path := walk.root.append names
  let isDirectory ← walk.fs.isDirectory path
  if walk.matcher.ignores (slashed names) isDirectory then return .passOver
  else if isDirectory then return .enter
  else return if ← walk.fs.isFile path then .keep else .passOver

/-- Looks at one directory. -/
def look (walk : Walk) (directory : List String) : Except AccessFailure Listing := do
  let names ← walk.fs.list (walk.root.append directory)
  let children ← names.mapM fun name => do
    let child := directory ++ [name]
    return (child, ← walk.use child)
  let used (use : Use) := (children.filter fun child => child.2 == use).map (·.1)
  return ⟨directory, used .keep, used .enter⟩

/-- Looks at some directories and then at those below them, down to a number of levels. -/
def listings (walk : Walk) : Nat → List (List String) → Except AccessFailure (List Listing)
  | _, [] => .ok []
  | 0, directory :: others => (directory :: others).mapM walk.look
  | levels + 1, directory :: others => do
    let here ← (directory :: others).mapM walk.look
    let below ← walk.listings levels (here.flatMap (·.subdirectories))
    return here ++ below

/-- The files that the walk finds; a negative limit lets it see the root alone. -/
def files (walk : Walk) (maxDepth : Int) : Except AccessFailure (List (List String)) := do
  let listings ← walk.listings maxDepth.toNat [[]]
  return listings.flatMap (·.files)

/-- The files to scan below a root. A root that is a file is the only one. -/
def enumerate (walk : Walk) (maxDepth : Int) : Except Failure (List Path) := do
  if ← FileSystem.ask walk.root (walk.fs.holds walk.root) then
    if ← FileSystem.ask walk.root (walk.fs.isFile walk.root) then return [walk.root]
    else
      match walk.files maxDepth with
      | .ok files => return files.map walk.root.append
      | .error _ => return []
  else return []

end Walk

end DeclIndex
