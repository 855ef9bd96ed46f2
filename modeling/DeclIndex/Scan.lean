import DeclIndex.Source
import DeclIndex.Walk

/-!
# Scans

A scan lists the declarations of one kind in a file, or in all files of a directory that are not
ignored. Files of a directory may be read by several workers. Each result goes to the place of its
file, so the order in which the workers finish does not show in the report.

A file of a directory that cannot be read is reported and passed over. If the scanned path is itself
such a file, the scan fails.
-/

namespace DeclIndex

/-- What to scan. -/
structure Request where
  path : String
  /-- How many levels of directories to descend. -/
  maxDepth : Int
  deriving DecidableEq, Repr

namespace Request

/-- The levels that a scan descends if nothing else is asked for. -/
def defaultDepth : Int := 4

end Request

/-- A file that a scan passed over. -/
structure ScanError where
  /-- The file as a path from the scanned directory. -/
  file : String
  message : String
  deriving DecidableEq, Repr

/-- What a scan found. -/
structure Report where
  records : List Record
  errors : List ScanError
  deriving DecidableEq, Repr

/-- An order in which any number of tasks may be finished. -/
structure Schedule where
  order : Nat → List Nat
  perm (count : Nat) : (order count).Perm (List.range count)

namespace Schedule

/-- Tasks are finished as they were started. -/
def inOrder : Schedule :=
  ⟨List.range, fun count => .refl (List.range count)⟩

end Schedule

/-- A number of workers, and the order in which they finish. -/
structure Scanner where
  workers : Nat
  workers_pos : 0 < workers
  schedule : Schedule

namespace Scanner

/-- A single worker. -/
def single : Scanner := ⟨1, Nat.one_pos, .inOrder⟩

/-- The scanner with some workers, of which there must be at least one. -/
def ofWorkers (workers : Int) : Except Failure Scanner :=
  if h : 0 < workers.toNat then .ok ⟨workers.toNat, h, .inOrder⟩ else .error .noWorkers

/-- The result of one file of a directory. -/
structure FileReport where
  records : List Record
  error : Option ScanError
  deriving DecidableEq, Repr

/-- Reads one file of a directory. Only a file without a text is passed over. -/
def readFile (fs : FileSystem) (root : Path) (kind : Kind) (file : Path) :
    Except Failure FileReport :=
  match Source.declarations fs file root kind with
  | .ok records => .ok ⟨records, none⟩
  | .error (.unreadable path cause) =>
    .ok ⟨[], some ⟨fs.relativePath file root, (Failure.unreadable path cause).message⟩⟩
  | .error failure => .error failure

/-- Puts the result of one file into its place. -/
def fill (task : Path → Except Failure FileReport) (files : List Path)
    (places : List FileReport) (index : Nat) : Except Failure (List FileReport) :=
  match files[index]? with
  | some file => do return places.set index (← task file)
  | none => .ok places

/-- The results of the files of a directory, in the order of the files. -/
def readAll (scanner : Scanner) (task : Path → Except Failure FileReport) (files : List Path) :
    Except Failure (List FileReport) :=
  if scanner.workers = 1 ∨ files.length ≤ 1 then files.mapM task
  else
    (scanner.schedule.order files.length).foldlM (fill task files)
      (List.replicate files.length ⟨[], none⟩)

/-- The results of files as one report. -/
def collect (results : List FileReport) : Report :=
  ⟨results.flatMap (·.records), results.filterMap (·.error)⟩

/-- Scans the files below a directory. -/
def scanDirectory (scanner : Scanner) (fs : FileSystem) (root : Path) (maxDepth : Int)
    (kind : Kind) : Except Failure Report := do
  let matcher ← Ignore.Matcher.ofDirectory fs root
  let files ← Walk.enumerate ⟨fs, matcher, root⟩ maxDepth
  return collect (← scanner.readAll (readFile fs root kind) files)

/-- Scans one file. -/
def scanFile (fs : FileSystem) (file : Path) (kind : Kind) : Except Failure Report :=
  (Source.declarations fs file file.parent kind).map fun records => ⟨records, []⟩

/-- Scans a path for the declarations of a kind. -/
def scan (scanner : Scanner) (fs : FileSystem) (request : Request) (kind : Kind) :
    Except Failure Report :=
  if request.maxDepth < 0 then .error .negativeDepth
  else do
    let root ← (fs.resolve (.ofText request.path)).mapError .ofResolve
    if ← FileSystem.ask root (fs.isFile root) then scanFile fs root kind
    else scanner.scanDirectory fs root request.maxDepth kind

end Scanner

end DeclIndex
