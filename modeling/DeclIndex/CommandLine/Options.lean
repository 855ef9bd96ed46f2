import DeclIndex.Scan
import DeclIndex.Text.Integer

/-!
# Options of the command line

A command line starts with the options that hold for all commands. The command follows, and then its
own options. An option is written out or shortened to a start that no other option shares, and its
value is the next word or comes after an equals sign. A value of its own word must not look like an
option. Of several values for one option the last one counts, but all must be valid.

A value of two hyphens after an equals sign counts as no value at all.
-/

namespace DeclIndex.CommandLine

/-! ## Words -/

/-- What a word of the command line is. -/
inductive Word where
  /-- A command or a value. -/
  | plain
  /-- An option, perhaps with a value after an equals sign. -/
  | option (name : String) (value : Option String)
  /-- An option that is not known, a request for help, or the end of all options. -/
  | refused
  deriving DecidableEq, Repr

/-- A word up to its first equals sign, and what comes after. -/
def splitEquals (word : List Char) : List Char × Option (List Char) :=
  let name := word.takeWhile (· != '=')
  match word.drop name.length with
  | [] => (name, none)
  | _ :: value => (name, some value)

/-- The digits of a number after a minus sign, with or without a point. A line feed may follow. -/
def isNegativeNumber (word : List Char) : Bool :=
  let digits (text : List Char) := text.all Text.isDigit
  match word with
  | '-' :: rest =>
    let number := if rest.getLast? = some '\n' then rest.dropLast else rest
    match number.splitOn '.' with
    | [whole] => digits whole && !whole.isEmpty
    | [whole, fraction] => digits whole && digits fraction && !fraction.isEmpty
    | _ => false
  | _ => false

/-- A word that starts with a hyphen and is no option is a value only if it cannot be meant as an
option. -/
def unknown (word : List Char) : Word :=
  if isNegativeNumber word || word.contains ' ' then .plain else .refused

/-- What a word is, given the names of the options. -/
def classify (options : List String) (word : String) : Word :=
  let text := word.toList
  let (name, value) := splitEquals text
  let value := value.map String.ofList
  match text with
  | '-' :: '-' :: [] => .refused
  | '-' :: '-' :: _ =>
    if options.contains (String.ofList name) then .option (String.ofList name) value
    else
      match options.filter fun option => name.isPrefixOf option.toList with
      | [] => unknown text
      | [option] => .option option value
      | _ => .refused
  | '-' :: 'h' :: _ => .refused
  | ['-'] => .plain
  | '-' :: _ => unknown text
  | _ => .plain

/-- A value of an option, or that it was left out. -/
abbrev Given (α : Type) := Option α

/-- The value after an equals sign. -/
def explicit (value : String) : Given String :=
  if value = "--" then none else some value

/-- The options in some words, with their values; anything else among the words is refused. -/
def assignments (options : List String) : List String → Option (List (String × Given String))
  | [] => some []
  | word :: rest =>
    match classify options word with
    | .option name (some value) => do return (name, explicit value) :: (← assignments options rest)
    | .option name none =>
      match rest with
      | [] => none
      | value :: rest' => do
        guard (classify options value = .plain)
        return (name, some value) :: (← assignments options rest')
    | .plain | .refused => none

/-! ## Settings -/

/-- The levels of log messages. -/
inductive LogLevel where
  | debug
  | info
  | warning
  | error
  deriving DecidableEq, Repr

/-- The name of a level. -/
def LogLevel.label : LogLevel → String
  | debug => "DEBUG"
  | info => "INFO"
  | warning => "WARNING"
  | error => "ERROR"

/-- The level with a name. -/
def LogLevel.ofLabel? (label : String) : Option LogLevel :=
  [debug, info, warning, error].find? fun level => level.label == label

/-- The forms in which the command line shows records. -/
inductive Format where
  | text
  | json
  | table
  deriving DecidableEq, Repr

/-- The form with a name. -/
def Format.ofName? (name : String) : Option Format :=
  [("text", text), ("json", json), ("table", table)].lookup name

/-- The value of an option among the given ones: the last, or a default if there is none. All
values must be valid; one that was left out is. -/
def setting {α : Type} (read : String → Option α) (default : α) (name : String)
    (given : List (String × Given String)) : Option (Given α) := do
  let values ← (given.filter fun item => item.1 == name).mapM fun item =>
    match item.2 with
    | none => some none
    | some text => (read text).map some
  return values.getLast?.getD (some default)

/-- What a command is to scan, and how to show it. -/
structure ScanOptions where
  path : Given String
  maxDepth : Given Int
  format : Given Format
  workers : Given Int
  deriving DecidableEq, Repr

/-- A command with its options. -/
inductive Command where
  | list (kind : Kind) (options : ScanOptions)
  | serve (workers : Given Int)
  deriving DecidableEq, Repr

/-- A whole command line. -/
structure Invocation where
  logLevel : Given LogLevel
  command : Command
  deriving DecidableEq, Repr

/-- The number of workers among the given options. -/
def workers (given : List (String × Given String)) : Option (Given Int) :=
  setting Text.integer? 1 "--workers" given

/-- The options of a scan. The path must be given. -/
def scanOptions (words : List String) : Option ScanOptions := do
  let given ← assignments ["--help", "--path", "--max-depth", "--format", "--workers"] words
  guard (given.all fun item => item.1 != "--help")
  guard (given.any fun item => item.1 == "--path")
  return {
    path := ← setting some "" "--path" given
    maxDepth := ← setting Text.integer? Request.defaultDepth "--max-depth" given
    format := ← setting Format.ofName? .text "--format" given
    workers := ← workers given }

/-- The options of the server. -/
def serveOptions (words : List String) : Option (Given Int) := do
  let given ← assignments ["--help", "--workers"] words
  guard (given.all fun item => item.1 != "--help")
  workers given

/-- A command and the words after it. -/
def command (name : String) (words : List String) : Option Command :=
  match name with
  | "functions" => (scanOptions words).map (.list .functions)
  | "classes" => (scanOptions words).map (.list .classes)
  | "serve" => (serveOptions words).map .serve
  | _ => none

/-- The options before the command. -/
def globalOptions : List String := ["--help", "--log-level"]

/-- The value of a global option; help is no invocation. -/
def logLevel? (name : String) (value : Given String) : Option (Given LogLevel) :=
  if name = "--log-level" then
    match value with
    | none => some none
    | some text => (LogLevel.ofLabel? text).map some
  else none

/-- Reads the words of a command line, given the level of log messages so far. -/
def readFrom (level : Given LogLevel) : List String → Option Invocation
  | [] => none
  | word :: rest =>
    match classify globalOptions word with
    | .plain => (command word rest).map (Invocation.mk level)
    | .option name (some value) => do
      readFrom (← logLevel? name (explicit value)) rest
    | .option name none =>
      match rest with
      | [] => none
      | value :: rest' => do
        guard (classify globalOptions value = .plain)
        readFrom (← logLevel? name (some value)) rest'
    | .refused => none

/-- Reads the words of a command line. -/
def read? (words : List String) : Option Invocation :=
  readFrom (some .info) words

end DeclIndex.CommandLine
