import DeclIndex.Tool

/-!
# The server

The server offers the tools under its own name, with the number of workers that it was started
with. Depths reach it as doubles.
-/

namespace DeclIndex

/-- The tools, together with the workers that they use. -/
structure Server where
  scanner : Scanner

namespace Server

/-- The name that the server announces. -/
def name : String := "HelperPro Code Analyzer"

/-- A server with some workers, of which there must be at least one. -/
def ofWorkers (workers : Int) : Except Failure Server :=
  (Scanner.ofWorkers workers).map Server.mk

/-- The depth that a call has if it gives none. -/
def defaultDepth : Float := 4

/-- The text that answers a call of a tool. -/
def call (server : Server) (fs : FileSystem) (tool path : String) (depth : Option Float) :
    Except Failure String :=
  Tool.answer server.scanner fs tool
    [("path", .text path), ("maxDepth", .double (depth.getD defaultDepth))] .text

/-- The tools in the order of their names. -/
def tools : List Tool :=
  Tool.all.mergeSort fun tool other => decide (tool.name ≤ other.name)

end Server

end DeclIndex
