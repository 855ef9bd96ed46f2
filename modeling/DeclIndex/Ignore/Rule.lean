import DeclIndex.Ignore.Piece
import DeclIndex.Text.Position
import DeclIndex.Text.Quoted

/-!
# Ignore patterns

A line of an ignore file holds one pattern. A pattern is split at its slashes into segments, and
these become pieces. A pattern without an inner slash applies at any depth, every other one from
the scanned directory on. A pattern that ends with a slash applies to directories only, and one that
starts with an exclamation mark takes back what earlier patterns ignore.

Some lines hold no pattern: blank ones, comments, a lone slash, and those with a bracket that is
never closed. A line is malformed if its last backslash escapes nothing, or if it has no segment.
-/

namespace DeclIndex.Ignore

/-- A mistake in an ignore pattern. -/
inductive PatternFailure where
  | malformed (line : String)
  /-- A range of characters ends before it begins, at a position of the pattern's spelling. -/
  | reversedRange (first last : Char) (position : Nat) (spelling : List Char)
  deriving DecidableEq, Repr

/-- The wording of a mistake. -/
def PatternFailure.message : PatternFailure → String
  | malformed line => "Invalid git pattern: " ++ Text.quoted line
  | reversedRange first last position spelling =>
    "bad character range "
      ++ String.ofList (Members.spelling first ++ '-' :: Members.spelling last)
      ++ " at " ++ Text.positionText position spelling

/-! ## Segments -/

/-- Why reading a pattern stops. -/
inductive Stop where
  /-- The line holds no pattern. -/
  | inert
  /-- The line is malformed. -/
  | malformed
  deriving DecidableEq, Repr

/-- Where a reader stands within a segment. -/
inductive Place where
  /-- Outside of sets. -/
  | plain
  /-- After a backslash. -/
  | escaped
  /-- After the bracket that opens a set. -/
  | opened
  /-- Before the first member of a set. -/
  | before (negated : Bool)
  /-- After some members of a set, the last one first. -/
  | inside (negated : Bool) (members : List Char)

/-- The pieces of the rest of a segment. The first member of a set may be any character, even the
bracket that would close the set further on. -/
def glob : Place → List Char → Except Stop (List Piece)
  | .plain, [] => .ok []
  | .escaped, [] => .error .malformed
  | .opened, [] | .before _, [] | .inside _ _, [] => .error .inert
  | .plain, c :: rest =>
    match c with
    | '\\' => glob .escaped rest
    | '[' => glob .opened rest
    | '*' => (glob .plain rest).map (.star :: ·)
    | '?' => (glob .plain rest).map (.question :: ·)
    | _ => (glob .plain rest).map (.literal c :: ·)
  | .escaped, c :: rest => (glob .plain rest).map (.literal c :: ·)
  | .opened, c :: rest =>
    if c = '!' ∨ c = '^' then glob (.before true) rest else glob (.inside false [c]) rest
  | .before negated, c :: rest => glob (.inside negated [c]) rest
  | .inside negated members, c :: rest =>
    if c = ']' then (glob .plain rest).map (.set negated members.reverse :: ·)
    else glob (.inside negated (c :: members)) rest

/-- The segment that stands for any directories. -/
def anyDirectories : List Char := ['*', '*']

/-- The pieces of a segment that is not `anyDirectories`. -/
def segmentPieces (segment : List Char) : Except Stop (List Piece) :=
  if segment = ['*'] then .ok [.name] else glob .plain segment

/-- The pieces of some segments. A slash is due before the first of them, unless nothing comes
before it or only leading directories do, which bring a slash of their own. -/
def morePieces (directoryOnly slashDue : Bool) : List (List Char) → Except Stop (List Piece)
  | [] => .ok []
  | segment :: rest =>
    if segment = anyDirectories then
      if rest.isEmpty then .ok [if directoryOnly then .below else .slash]
      else (morePieces directoryOnly true rest).map (.anyInner :: ·)
    else do
      let slash := if slashDue then [Piece.slash] else []
      let here ← segmentPieces segment
      let more ← if rest.isEmpty then pure [.finish] else morePieces directoryOnly true rest
      return slash ++ here ++ more

/-- The pieces of all segments. Patterns that consist of little more than stars match any path, or
any directory, wherever they are looked for; every other pattern is read from the start. -/
def pieces (directoryOnly : Bool) (segments : List (List Char)) : Except Stop (List Piece) :=
  if segments = [anyDirectories] then
    .ok [if directoryOnly then .below else .anything]
  else if segments = [anyDirectories, ['*']] then .ok [.anything]
  else if segments = [anyDirectories, ['*'], anyDirectories] then
    .ok [if directoryOnly then .below else .slash]
  else
    match segments with
    | [] => .error .malformed
    | segment :: rest =>
      if segment = anyDirectories then
        (morePieces directoryOnly false rest).map fun more => .start :: .anyLeading :: more
      else (morePieces directoryOnly false segments).map (.start :: ·)

/-- Segments from the scanned directory on: a leading slash is dropped, and a pattern without an
inner slash may apply below any directories. -/
def rooted : List (List Char) → List (List Char)
  | [] :: rest => rest
  | [segment] =>
    if segment = anyDirectories then [segment] else [anyDirectories, segment]
  | [segment, []] =>
    if segment = anyDirectories then [segment, []] else [anyDirectories, segment, []]
  | segments => segments

/-- A slash at the end stands for everything below. -/
def openEnded (segments : List (List Char)) : List (List Char) :=
  if segments.getLast? = some [] then segments.dropLast ++ [anyDirectories] else segments

/-- Any directories below any directories are any directories. -/
def collapse : List (List Char) → List (List Char)
  | first :: second :: rest =>
    if first = anyDirectories ∧ second = anyDirectories then collapse (second :: rest)
    else first :: collapse (second :: rest)
  | segments => segments

/-! ## Rules -/

/-- What a pattern says of the paths that it matches. -/
structure Rule where
  /-- Matching paths are not ignored after all. -/
  negated : Bool
  /-- The pattern is read from the start of a path only. -/
  anchored : Bool
  pattern : Pattern
  deriving DecidableEq, Repr

namespace Rule

/-- The pieces as one rule. -/
def ofPieces (negated : Bool) (pieces : List Piece) : Except PatternFailure Rule :=
  match Piece.reversed? 0 pieces with
  | some (first, last, position) =>
    .error (.reversedRange first last position (pieces.flatMap Piece.spelling))
  | none =>
    .ok ⟨negated, pieces.head? == some .start, Pattern.chain (pieces.map Piece.pattern)⟩

/-- The text of a line as far as it matters. A blank at the end counts only after a backslash. -/
def significant (line : List Char) : List Char :=
  if ['\\', ' '].isSuffixOf line then line else Text.dropEndWhile Text.isBlank line

/-- A leading exclamation mark and what it stands before. -/
def splitMark : List Char → Bool × List Char
  | '!' :: rest => (true, rest)
  | text => (false, text)

/-- The rule on a line of an ignore file, if the line holds one. -/
def ofLine (line : String) : Except PatternFailure (Option Rule) :=
  let text := significant line.toList
  if text = [] ∨ text.head? = some '#' ∨ text = ['/'] then .ok none
  else
    let (negated, body) := splitMark text
    let segments := body.splitOn '/'
    let directoryOnly := segments.getLast? == some []
    match pieces directoryOnly (collapse (openEnded (rooted segments))) with
    | .error .inert => .ok none
    | .error .malformed => .error (.malformed line)
    | .ok pieces => (ofPieces negated pieces).map some

/-- How a rule matches a path. -/
inductive Match where
  /-- The path itself. -/
  | direct
  /-- A directory that the path names or lies in. -/
  | directory
  deriving DecidableEq, Repr

/-- The rule's match on a path. -/
def match? (rule : Rule) (path : List Char) : Option Match :=
  let reading := if rule.anchored then rule.pattern.read? path else rule.pattern.find? path
  reading.map fun r => if r.captured.isSome then .directory else .direct

end Rule

end DeclIndex.Ignore
