import DeclIndex.Pattern.Basic
import DeclIndex.Record

/-!
# Rules for declarations

A rule recognises one form of declaration by the line that it begins on, and in one case also by
the line before. It yields the declared name, which is what its pattern captures. The rules of a
kind are tried independently of each other on every line.
-/

namespace DeclIndex

/-- A form of declaration. -/
structure Rule where
  /-- A short name of the form. -/
  label : String
  /-- How a line with such a declaration begins. -/
  line : Pattern
  /-- How the line before must begin, where there is one. -/
  previous : Option Pattern := none
  deriving DecidableEq, Repr

namespace Rule

open Pattern

/-- The rule allows the line to follow the given one; the first line of a file follows none. -/
def follows (rule : Rule) (previous : Option String) : Bool :=
  match rule.previous, previous with
  | some pattern, some line => (pattern.read? line.toList).isSome
  | _, _ => true

/-- The name that the rule finds declared on a line. -/
def name? (rule : Rule) (line : String) (previous : Option String) : Option String := do
  let reading ← rule.line.read? line.toList
  guard (rule.follows previous)
  return String.ofList (← reading.captured)

/-! ## Pieces of the rules -/

/-- Any blanks. -/
def blanks : Pattern := many .blank

/-- At least one blank. -/
def gap : Pattern := oneOrMore .blank

/-- The declared name. -/
def declared : Pattern := capture (oneOrMore .word)

/-- A word that need not be there, and the gap after it. -/
def leading (word : String) : Pattern := optional (chain [exactly word, gap])

/-- A keyword, the declared name and an opening parenthesis. -/
def call (keyword : String) : Pattern :=
  chain [exactly keyword, gap, declared, blanks, exactly "("]

/-- Everything up to a closing parenthesis of the same line. -/
def parameters : Pattern :=
  chain [exactly "(", many (.except '\n'), exactly ")"]

/-! ## Functions -/

/-- A function with its keyword. -/
def functionDeclaration : Rule where
  label := "function-declaration"
  line := chain [blanks, leading "async", call "function"]

/-- A variable that is bound to an arrow function. -/
def arrowBinding : Rule where
  label := "arrow-binding"
  line :=
    chain [blanks, leading "export",
      choice (exactly "const") [exactly "let", exactly "var"], gap, declared, blanks,
      exactly "=", blanks, leading "async", parameters, blanks, exactly "=>"]

/-- A method whose modifiers stand on the line before. -/
def methodAfterModifier : Rule where
  label := "method-after-modifier"
  line := chain [blanks, leading "async", declared, blanks, parameters, blanks, one (.only '\x7b')]
  previous :=
    some <| chain [blanks,
      choice (exactly "public")
        [exactly "private", exactly "protected", exactly "static", exactly "*"]]

/-- A function with a short keyword. -/
def shortKeyword : Rule where
  label := "go-func"
  line := chain [blanks, call "func"]

/-- A definition whose body is indented. -/
def indentedDefinition : Rule where
  label := "python-def"
  line := chain [blanks, call "def"]

/-- A function after its return type. One more word may stand before that; if none does, the line
must start with a blank. -/
def typedReturn : Rule where
  label := "typed-return"
  line :=
    chain [blanks,
      optional (choice (exactly "public")
        [exactly "private", exactly "protected", exactly "static", oneOrMore .word]),
      gap, oneOrMore .word, gap, declared, blanks, exactly "("]

/-- A function with its keyword and nothing before. -/
def plainFunction : Rule where
  label := "php-function"
  line := chain [blanks, call "function"]

/-- The rules for functions. -/
def functionRules : List Rule :=
  [functionDeclaration, arrowBinding, methodAfterModifier, shortKeyword, indentedDefinition,
    typedReturn, plainFunction]

/-! ## Classes -/

/-- The keyword of a class and its name. -/
def classHead : Pattern := chain [exactly "class", gap, declared]

/-- A class that may be exported. -/
def classDeclaration : Rule where
  label := "class-declaration"
  line := chain [blanks, leading "export", classHead]

/-- A class that may be restricted in its visibility. -/
def visibilityClass : Rule where
  label := "visibility-class"
  line :=
    chain [blanks,
      optional (choice (exactly "public") [exactly "private", exactly "protected"]), blanks,
      classHead]

/-- A class after nothing but blanks. -/
def indentedClass : Rule where
  label := "indented-class"
  line := chain [blanks, classHead]

/-- The rules for classes. -/
def classRules : List Rule :=
  [classDeclaration, visibilityClass, indentedClass]

end Rule

/-- The rules that find declarations of a kind, if the kind can be listed. -/
def Kind.rules? (kind : Kind) : Option (List Rule) :=
  [(functions, Rule.functionRules), (classes, Rule.classRules)].lookup kind

end DeclIndex
