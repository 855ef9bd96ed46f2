import DeclIndex.FileSystem.Lookup

/-!
# Resolving links

Resolving a path gives the absolute path that leads to the same place without any link. Names that
do not exist are kept, and the name for the parent directory removes the last name, whether that
exists or not.

Links within targets of links are resolved in turn. A link that is met while it is being resolved
closes a loop. It is then left as it is, with all that follows it, and the path is refused if the
loop is still on the way to what it names. A link is recognised by its spelling: the same link may
be met once from the working directory and once from the root before the loop is seen. A name whose
spelling with all that leads there is too long, or leads through a closed directory, is never taken
for a link.

Where a link leads is found out once. This keeps the work small when each link of a chain names the
one before it twice. Targets are resolved one inside the other, and there is room for
`FileSystem.maxNesting` of them.
-/

namespace DeclIndex.FileSystem

/-- Where the spelling of a half-resolved path starts. -/
inductive Base where
  /-- The root directory, written with one slash or with two. -/
  | root (double : Bool)
  /-- So many directories above the working directory. -/
  | above (count : Nat)
  deriving DecidableEq, Repr

/-- A half-resolved path: its base and the names below, the innermost first. -/
structure Spot where
  base : Base
  below : List String
  deriving DecidableEq, Repr

namespace Spot

/-- One name further down. -/
def child (spot : Spot) (name : String) : Spot :=
  { spot with below := name :: spot.below }

/-- One directory up. -/
def parent (spot : Spot) : Spot :=
  match spot.below, spot.base with
  | _ :: below, _ => { spot with below := below }
  | [], .root _ => spot
  | [], .above count => ⟨.above (count + 1), []⟩

/-- The spelling starts at the root. -/
def isRooted (spot : Spot) : Bool :=
  match spot.base with
  | .root _ => true
  | .above _ => false

/-- How a half-resolved path is spelled. -/
def spelling (spot : Spot) : Path :=
  match spot.base with
  | .root double => ⟨if double then .doubleRoot else .root, spot.below.reverse⟩
  | .above count => ⟨.here, List.replicate count ".." ++ spot.below.reverse⟩

/-- The location, given the working directory. -/
def location (workingDirectory : Location) (spot : Spot) : Location :=
  match spot.base with
  | .root _ => spot.below
  | .above count => spot.below ++ workingDirectory.drop count

/-- The absolute path of some more names, taken by the letter, given the working directory. -/
def path (workingDirectory : Location) (spot : Spot) (names : List String) : Path :=
  ⟨if spot.base = .root true then .doubleRoot else .root,
    ((spot.location workingDirectory).append names).reverse⟩

/-- The spot where the names of an absolute path start. -/
def ofAnchor (anchor : Anchor) : Spot :=
  ⟨.root (anchor = .doubleRoot), []⟩

end Spot

/-- The links that were met, the latest first, by their spelling: each with the spot that it leads
to, or with none as long as it is being resolved. -/
abbrev Links := List (Spot × Option Spot)

/-- What resolving names came to. -/
inductive Resolution where
  /-- Everything is resolved. -/
  | resolved (spot : Spot) (links : Links)
  /-- A loop was met at a spot; the names after it were not looked at. -/
  | loop (spot : Spot) (rest : List String)
  /-- A name holds a null byte. -/
  | nulByte
  /-- The target of a link lies too deep inside those of others. -/
  | tooDeep
  deriving DecidableEq, Repr

/-- Names after a spot with names of its own. They start anew at the root if they are written like
an absolute path, that is if a second slash follows the name of a link. -/
def Resolution.loopBefore (spot : Spot) (pending rest : List String) : Resolution :=
  match rest with
  | "" :: _ :: _ =>
    let path := Path.ofText (slashed rest)
    .loop (.ofAnchor path.anchor) path.names
  | _ => .loop spot (pending ++ rest)

/-- The target of the link that the spelling of a spot leads to. Nothing is found at a spot whose
spelling is too long. -/
def linkTarget? (fs : FileSystem) (spot : Spot) : Option String :=
  if tooLong ≤ spot.spelling.text.utf8ByteSize then none
  else
    match (fs.trail? (fs.start spot.spelling)).map (fs.advance · spot.spelling.names) with
    | some (.ok (.link _ target [])) => some target
    | _ => none

/-- Resolves names from a spot on, given a way to resolve the target of a link in a directory and
the links that were met. -/
def resolveNames (fs : FileSystem) (enter : Links → Spot → String → Resolution)
    (links : Links) (spot : Spot) : List String → Resolution
  | [] => .resolved spot links
  | name :: rest =>
    if Location.isSelf name then fs.resolveNames enter links spot rest
    else if name == ".." then fs.resolveNames enter links spot.parent rest
    else if name.toList.contains '\x00' then .nulByte
    else
      let next := spot.child name
      match fs.linkTarget? next with
      | some target =>
        match links.lookup next with
        | some (some reached) => fs.resolveNames enter links reached rest
        | some none => .loopBefore next [] rest
        | none =>
          match enter ((next, none) :: links) spot target with
          | .resolved reached links =>
            fs.resolveNames enter ((next, some reached) :: links) reached rest
          | .loop reached pending => .loopBefore reached pending rest
          | .nulByte => .nulByte
          | .tooDeep => .tooDeep
      | none => fs.resolveNames enter links next rest

/-- Where the target of a link in a directory starts. -/
def targetSpot (directory : Spot) (target : String) : Spot :=
  if target.startsWith "/" then .ofAnchor .root else directory

/-- Resolves names from a spot on, with a limit on how many targets of links may be resolved one
inside the other. -/
def resolveWithin (fs : FileSystem) : Nat → Links → Spot → List String → Resolution
  | 0 => fs.resolveNames fun _ _ _ => .tooDeep
  | depth + 1 => fs.resolveNames fun links spot target =>
      fs.resolveWithin depth links (targetSpot spot target) (components target)

/-- How many targets of links may be resolved one inside the other: as many as there can be calls
in progress, without the few that lead to the first of them. -/
def maxNesting : Nat := 990

/-- Where the resolution of a path starts. -/
def startSpot (path : Path) : Spot :=
  match path.anchor with
  | .here => ⟨.above 0, []⟩
  | .root | .doubleRoot => .ofAnchor .root

/-- Why a path cannot be resolved. -/
inductive ResolveFailure where
  | linkLoop (path : Path)
  | nulByte
  /-- There are too many links that lead one through the other. -/
  | tooDeep
  /-- The path starts in the working directory, and that is gone. -/
  | noWorkingDirectory
  deriving DecidableEq, Repr

/-- Refuses a resolved path that still leads into a loop. -/
def checkLoop (fs : FileSystem) (path : Path) : Except ResolveFailure Path :=
  match fs.locate path with
  | .error .tooManyLinks => .error (.linkLoop path)
  | .error .nulByte => .error .nulByte
  | _ => .ok path

/-- The working directory has not been removed. -/
def hasWorkingDirectory (fs : FileSystem) : Bool :=
  (fs.entry? fs.workingDirectory).any (·.isDirectory)

/-- The absolute path of a spot and some more names. -/
def settle (fs : FileSystem) (spot : Spot) (rest : List String) : Except ResolveFailure Path :=
  if spot.isRooted || fs.hasWorkingDirectory then
    fs.checkLoop (spot.path fs.workingDirectory rest)
  else .error .noWorkingDirectory

/-- The absolute path without links that leads where a path leads. -/
def resolve (fs : FileSystem) (path : Path) : Except ResolveFailure Path :=
  match fs.resolveWithin maxNesting [] (startSpot path) path.names with
  | .resolved spot _ => fs.settle spot []
  | .loop spot rest => fs.settle spot rest
  | .nulByte => .error .nulByte
  | .tooDeep => .error .tooDeep

end DeclIndex.FileSystem
