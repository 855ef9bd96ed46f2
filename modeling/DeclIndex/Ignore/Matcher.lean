import DeclIndex.Ignore.Rule

/-!
# Ignoring paths by several rules

Later rules win over earlier ones, except that a rule which matches the path itself wins over one
that only matches a directory on the way. A path is ignored if the winning rule is not negated. A
directory is ignored as well if its path with a slash at the end is.
-/

namespace DeclIndex.Ignore

/-- The rules of an ignore file, in its order. -/
structure Matcher where
  rules : List Rule
  deriving DecidableEq, Repr

namespace Matcher

/-- The rules on some lines, or the first mistake in them. -/
def ofLines (lines : List String) : Except PatternFailure Matcher := do
  let rules ← lines.mapM Rule.ofLine
  return ⟨rules.filterMap id⟩

/-- The rules that match a path, the last one first. -/
def hits (matcher : Matcher) (path : List Char) : List (Rule × Rule.Match) :=
  matcher.rules.reverse.filterMap fun rule => (rule.match? path).map fun found => (rule, found)

/-- The rule that decides on a path. -/
def winner? (matcher : Matcher) (path : List Char) : Option Rule :=
  let hits := matcher.hits path
  ((hits.find? fun hit => hit.2 == .direct).or hits.head?).map (·.1)

/-- A path without one leading slash or one leading dot and slash. -/
def fromRoot : List Char → List Char
  | '/' :: rest => rest
  | '.' :: '/' :: rest => rest
  | path => path

/-- The rules ignore a path as it is written. -/
def ignoresText (matcher : Matcher) (path : List Char) : Bool :=
  (matcher.winner? (fromRoot path)).any fun rule => !rule.negated

/-- The rules ignore a path below the scanned directory. -/
def ignores (matcher : Matcher) (path : String) (isDirectory : Bool) : Bool :=
  let trimmed := Text.trim (· == '/') path.toList
  !trimmed.isEmpty
    && (matcher.ignoresText trimmed || isDirectory && matcher.ignoresText (trimmed ++ ['/']))

end Matcher

end DeclIndex.Ignore
