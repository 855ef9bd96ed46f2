import DeclIndex.Scan
import DeclIndex.Json
import DeclIndex.Double

/-!
# Tools

A tool is a scan for one kind of declarations that other programs may call by name. Its answer is a
text: the records, in one of two forms, or what went wrong. Only records that cannot be written have
no answer.
-/

namespace DeclIndex

/-! ## Rendering -/

/-- The forms in which records are written. -/
inductive OutputFormat where
  | text
  | json
  deriving DecidableEq, Repr

namespace OutputFormat

/-- The form with a name; records are written as plain text unless JSON is asked for. -/
def ofName (name : String) : OutputFormat :=
  if name = "json" then json else text

end OutputFormat

namespace Record

/-- A record as a line of text. -/
def toLine (record : Record) : Except Failure String := do
  let line ← Failure.written (Text.decimal? record.line)
  return record.name ++ "; " ++ record.file ++ ":" ++ line

/-- A record as an object, in which the name goes by the label of the kind. -/
def toJson (record : Record) : Json :=
  .ofMembers [(record.kind.label, .text record.name), ("line", .integer record.line),
    ("file", .text record.file)]

/-- Records in one of the forms. -/
def render (format : OutputFormat) (records : List Record) : Except Failure String :=
  match format with
  | .text => do return "\n".intercalate (← records.mapM toLine)
  | .json => Failure.written (Json.list (records.map toJson)).render?

end Record

namespace Failure

/-- A message of what went wrong, as an object. -/
def renderMessage (message : String) : String :=
  (Json.object [("error", .text message)]).spelling

end Failure

/-! ## Arguments -/

/-- A value that a caller may pass. -/
inductive Argument where
  | null
  | bool (value : Bool)
  | integer (value : Int)
  | double (value : Float)
  | text (value : String)
  /-- A list or an object; no tool takes one. -/
  | compound

namespace Argument

/-- The path among some arguments. -/
def path (arguments : List (String × Argument)) : Except ArgumentFailure String :=
  match arguments.lookup "path" with
  | some (text value) => if value = "" then .error .noPath else .ok value
  | _ => .error .noPath

/-- The integer that an argument gives for a depth. -/
def depth? : Argument → Except ArgumentFailure (Option Int)
  | null => .ok none
  | integer value => .ok (some value)
  | double value =>
    match Double.whole? value with
    | some whole => .ok (some whole)
    | none => .error .depthNotWhole
  | bool _ | text _ | compound => .error .depthNotNumber

/-- The depth among some arguments. -/
def depth (arguments : List (String × Argument)) : Except ArgumentFailure Int := do
  match ← depth? ((arguments.lookup "maxDepth").getD null) with
  | none => return Request.defaultDepth
  | some value => if value < 0 then throw .depthNegative else return value

end Argument

/-- What some arguments ask for. The path is looked at before the depth. -/
def Request.ofArguments (arguments : List (String × Argument)) : Except Failure Request :=
  (do return ⟨← Argument.path arguments, ← Argument.depth arguments⟩ :
    Except ArgumentFailure Request).mapError .argument

/-! ## The tools -/

/-- A scan that can be called by name. -/
structure Tool where
  name : String
  description : String
  kind : Kind
  deriving DecidableEq, Repr

namespace Tool

/-- The tool that lists functions. -/
def getFunctions : Tool :=
  ⟨"get_functions",
    "Get all functions in a directory. Returns one line per function with function name, "
      ++ "file path and line number.",
    .functions⟩

/-- The tool that lists classes. -/
def getClasses : Tool :=
  ⟨"get_classes",
    "Get all classes in a directory. Returns one line per class with class name, "
      ++ "file path and line number.",
    .classes⟩

/-- All tools. -/
def all : List Tool := [getFunctions, getClasses]

/-- The tool with a name. -/
def find? (name : String) : Option Tool :=
  all.find? fun tool => tool.name == name

/-- The arguments that every tool takes. -/
def properties : Json :=
  .object [("path", .object [("type", .text "string")]),
    ("maxDepth", .object [("type", .text "number"), ("default", .integer Request.defaultDepth)])]

/-- The arguments that every tool needs. -/
def required : Json := .list [.text "path"]

/-- A tool as it is announced. -/
def toJson (tool : Tool) : Json :=
  .object [("name", .text tool.name), ("description", .text tool.description),
    ("inputSchema", .object [("type", .text "object"), ("properties", properties),
      ("required", required)])]

/-- The records that a call of a tool yields. -/
def call (scanner : Scanner) (fs : FileSystem) (name : String)
    (arguments : List (String × Argument)) : Except Failure (List Record) :=
  match find? name with
  | none => .error (.unknownTool name)
  | some tool => do
    let request ← Request.ofArguments arguments
    return (← scanner.scan fs request tool.kind).records

/-- The text that answers a call of a tool. -/
def answer (scanner : Scanner) (fs : FileSystem) (name : String)
    (arguments : List (String × Argument)) (format : OutputFormat) : Except Failure String :=
  match call scanner fs name arguments with
  | .ok records => Record.render format records
  | .error failure => .ok (Failure.renderMessage failure.message)

end Tool

end DeclIndex
