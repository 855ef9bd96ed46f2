import DeclIndex.Rule

/-!
# The declarations of a text

The lines of a text are read once, from first to last. Every rule is tried on every line, and a
name counts only where it is met first: the lines further down, and the later rules on the same
line, may yield it again without effect. Of a rule only the name matters that it finds on a line.
-/

namespace DeclIndex

/-- A way to find the name that a line declares, given the line before it. -/
abbrev Finder := String → Option String → Option String

namespace Declarations

/-- The names that are found on a line, in the order of the finders. -/
def names (finders : List Finder) (line : String) (previous : Option String) : List String :=
  finders.filterMap fun find => find line previous

/-- The names that were not seen before, each once. -/
def fresh (seen : List String) : List String → List String
  | [] => []
  | name :: names =>
    if seen.contains name then fresh seen names else name :: fresh (name :: seen) names

/-- The declarations from a line on, given its number, the line before it and the names that the
lines before it declare. -/
def scanFrom (finders : List Finder) (kind : Kind) (file : String) (number : Nat)
    (previous : Option String) (seen : List String) : List String → List Record
  | [] => []
  | line :: lines =>
    let names := fresh seen (names finders line previous)
    names.map (fun name => ⟨name, kind, number, file⟩)
      ++ scanFrom finders kind file (number + 1) (some line) (names ++ seen) lines

/-- The declarations that are found on the lines of a file. -/
def scanWith (finders : List Finder) (kind : Kind) (file : String) (lines : List String) :
    List Record :=
  scanFrom finders kind file 1 none [] lines

/-- The declarations that some rules find on the lines of a file. -/
def scan (rules : List Rule) (kind : Kind) (file : String) (lines : List String) : List Record :=
  scanWith (rules.map Rule.name?) kind file lines

end Declarations

end DeclIndex
