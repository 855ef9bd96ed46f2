import DeclIndex.CommandLine.Run
import DeclIndex.FileSystem.Snapshot

/-!
# The program

The program reads a snapshot of a tree from its standard input, runs its command line on that tree,
and ends with the exit code of the run.
-/

open DeclIndex

/-- Everything that is left on a stream. -/
partial def readRest (stream : IO.FS.Stream) (text : String) : IO String := do
  let line ← stream.getLine
  if line.isEmpty then return text else readRest stream (text ++ line)

/-- Runs the command line. -/
def main (words : List String) : IO UInt32 := do
  let tree := FileSystem.Snapshot.read (← readRest (← IO.getStdin) "")
  match CommandLine.run tree words with
  | .ok outcome =>
    (← IO.getStdout).putStr outcome.output
    (← IO.getStderr).putStr outcome.errors
    return outcome.exitCode.toUInt32
  | .error failure =>
    (← IO.getStderr).putStrLn failure.message
    return 1
