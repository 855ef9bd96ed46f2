import DeclIndex.FileSystem.Lookup
import DeclIndex.FileSystem.Resolve
import DeclIndex.Ignore.Rule
import DeclIndex.Record
import DeclIndex.Text.Utf8

/-!
# Failures

All causes for which a request is refused, and their wording. A file that cannot be read has a
cause of its own, since a scan of a directory passes over such a file and reports it.
-/

namespace DeclIndex

/-- Why the text of a file is not to be had. -/
inductive ReadFailure where
  | access (failure : AccessFailure)
  | encoding (failure : Text.Utf8.Failure)
  deriving DecidableEq, Repr

/-- What is said of a file without a text. -/
def ReadFailure.message (file : Path) : ReadFailure → String
  | access failure => failure.message file
  | encoding failure => failure.message

/-- What is wrong with the arguments of a tool. -/
inductive ArgumentFailure where
  | noPath
  | depthNotNumber
  | depthNotWhole
  | depthNegative
  deriving DecidableEq, Repr

/-- The wording of an argument's mistake. -/
def ArgumentFailure.message : ArgumentFailure → String
  | noPath => "Argument 'path' must be a non-empty string"
  | depthNotNumber => "Argument 'maxDepth' must be a number"
  | depthNotWhole => "Argument 'maxDepth' must be a whole number"
  | depthNegative => "Argument 'maxDepth' must be >= 0"

/-- The settings of the command line that may be left without a value. -/
inductive Setting where
  | logLevel
  | workers
  | maxDepth
  | path
  deriving DecidableEq, Repr

/-- What is said of a setting without a value. -/
def Setting.message : Setting → String
  | logLevel => "Level not an integer or a valid string: []"
  | workers => "'<=' not supported between instances of 'list' and 'int'"
  | maxDepth => "'<' not supported between instances of 'list' and 'int'"
  | path => "expected str, bytes or os.PathLike object, not list"

/-- Why a request is refused. -/
inductive Failure where
  /-- A file has no text. -/
  | unreadable (file : Path) (cause : ReadFailure)
  /-- A path cannot even be looked at. -/
  | access (path : Path) (cause : AccessFailure)
  /-- A path leads into a loop of links. -/
  | linkLoop (path : Path)
  /-- A path holds a null byte. -/
  | nulByte
  /-- A path leads through too many links that lie one in the target of the other. -/
  | tooDeep
  /-- A path starts in a working directory that is gone. -/
  | noWorkingDirectory
  /-- There are no rules for a kind. -/
  | unknownKind (kind : Kind)
  | ignorePattern (cause : Ignore.PatternFailure)
  | noWorkers
  | negativeDepth
  | unknownTool (name : String)
  | argument (cause : ArgumentFailure)
  | noValue (setting : Setting)
  /-- A number has too many digits to be written. -/
  | tooManyDigits
  /-- A text holds style tags that cannot be read. -/
  | markup (message : String)
  deriving DecidableEq, Repr

namespace Failure

/-- The wording of a failure. -/
def message : Failure → String
  | unreadable file cause => file.text ++ ": " ++ cause.message file
  | access path cause => cause.message path
  | linkLoop path => "Symlink loop from " ++ Text.quoted path.text
  | nulByte => "embedded null byte"
  | tooDeep => "maximum recursion depth exceeded"
  | noWorkingDirectory => AccessFailure.missing.description
  | unknownKind kind => Text.quoted kind.label
  | ignorePattern cause => cause.message
  | noWorkers => "max_workers must be > 0"
  | negativeDepth => "max_depth must be >= 0"
  | unknownTool name => "Unknown tool: " ++ name
  | argument cause => cause.message
  | noValue setting => setting.message
  | tooManyDigits =>
    "Exceeds the limit (4300 digits) for integer string conversion; "
      ++ "use sys.set_int_max_str_digits() to increase the limit"
  | markup message => message

/-- A path that could not be resolved. -/
def ofResolve : FileSystem.ResolveFailure → Failure
  | .linkLoop path => linkLoop path
  | .nulByte => nulByte
  | .tooDeep => tooDeep
  | .noWorkingDirectory => noWorkingDirectory

/-- The text in which a number is written, if that can be done. -/
def written (text : Option String) : Except Failure String :=
  match text with
  | some text => .ok text
  | none => .error tooManyDigits

end Failure

/-- The answer to a question about a path. If the path cannot even be looked at, the request
fails. -/
def FileSystem.ask {α : Type} (path : Path) (answer : Except AccessFailure α) : Except Failure α :=
  answer.mapError (.access path)

end DeclIndex
