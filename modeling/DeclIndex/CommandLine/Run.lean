import DeclIndex.CommandLine.Options
import DeclIndex.Console.Standard
import DeclIndex.Server
import DeclIndex.Table

/-!
# Running a command line

A run ends with an exit code and what it wrote. A command line that is not understood, a number that
is out of range and a scanned file that cannot be read all end with the code 2; the latter two also
leave a line that says so. Files of a directory that were passed over are named on the error stream,
and do not count as a failure of the run. Whatever else goes wrong is a failure of its own. Output
goes through a console.
-/

namespace DeclIndex.CommandLine

/-- How a run ended. -/
structure Outcome where
  exitCode : Nat
  /-- What was written to the output stream. -/
  output : String
  /-- What was written to the error stream. -/
  errors : String
  /-- The level of log messages that the run set, if it came to that. -/
  logLevel : Option LogLevel
  /-- The number of workers of the server, if one was started. -/
  served : Option Int
  deriving DecidableEq, Repr

namespace Outcome

/-- A command line that is not understood. -/
def misused : Outcome := ⟨2, "", "", none, none⟩

/-- A run that was given up with a message. -/
def refused (level : LogLevel) (message : String) : Outcome :=
  ⟨2, "", message ++ "\n", some level, none⟩

end Outcome

/-- The value of a setting, if it was not left out. -/
def require {α : Type} (setting : Setting) : Given α → Except Failure α
  | some value => .ok value
  | none => .error (.noValue setting)

/-- The line that names a file which a scan passed over. -/
def errorLine (error : ScanError) : String :=
  "scan_error: " ++ error.file ++ ": " ++ error.message ++ "\n"

/-- The directory from which a scan of a path names its files. -/
def base (fs : FileSystem) (path : Path) : Except Failure Path := do
  let root ← (fs.resolve path).mapError .ofResolve
  return if ← FileSystem.ask root (fs.isFile root) then root.parent else root

/-- What is written to show the records of a scan. If there are none, only JSON shows that. -/
def display (console : Console) (fs : FileSystem) (path : String) (format : Given Format)
    (records : List Record) : Except Failure String :=
  match format, records with
  | some .table, _ => do Table.render console (← base fs (.ofText path)) records
  | some .json, _ => do return console.print (← Record.render .json records)
  | _, [] => .ok ""
  | _, _ => do return console.print (← Record.render .text records)

/-- Scans a path and shows what was found. -/
def list (console : Console) (fs : FileSystem) (level : LogLevel) (kind : Kind) (path : String)
    (maxDepth : Int) (format : Given Format) (scanner : Scanner) : Except Failure Outcome :=
  match scanner.scan fs ⟨path, maxDepth⟩ kind with
  | .error (.unreadable file cause) =>
    .ok (.refused level ("Failed to read file: " ++ (Failure.unreadable file cause).message))
  | .error failure => .error failure
  | .ok report => do
    let output ← display console fs path format report.records
    return ⟨0, output, String.join (report.errors.map errorLine), some level, none⟩

/-- Runs a command with some workers. -/
def perform (console : Console) (fs : FileSystem) (level : LogLevel) (workers : Int)
    (scanner : Scanner) : Command → Except Failure Outcome
  | .serve _ => .ok ⟨0, "", "", some level, some workers⟩
  | .list kind options => do
    let maxDepth ← require .maxDepth options.maxDepth
    if maxDepth < 0 then return .refused level "max-depth must be >= 0"
    else
      let path ← require .path options.path
      list console fs level kind path maxDepth options.format scanner

/-- The number of workers that a command asks for. -/
def Command.workers : Command → Given Int
  | .serve workers => workers
  | .list _ options => options.workers

/-- Runs a command line. -/
def run (fs : FileSystem) (words : List String) (console : Console := .standard) :
    Except Failure Outcome :=
  match read? words with
  | none => .ok .misused
  | some invocation => do
    let level ← require .logLevel invocation.logLevel
    let workers ← require .workers invocation.command.workers
    match Scanner.ofWorkers workers with
    | .error _ => return .refused level "workers must be > 0"
    | .ok scanner => perform console fs level workers scanner invocation.command

end DeclIndex.CommandLine
