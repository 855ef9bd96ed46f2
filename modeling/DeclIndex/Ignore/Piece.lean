import DeclIndex.Pattern.Basic

/-!
# Pieces of an ignore pattern

An ignore pattern becomes a sequence of pieces, each of which takes some part of a path. Every piece
also has a spelling as part of a regular expression. It fixes the position at which a mistake in a
set of characters is reported.

A piece that may end the match at a slash captures that slash: then the pattern matched a directory
above the path, and not the path itself.
-/

namespace DeclIndex.Ignore

/-- One part of an ignore pattern. -/
inductive Piece where
  /-- The start of the path. -/
  | start
  /-- Any directories, before the first name. -/
  | anyLeading
  /-- Any directories, between two names. -/
  | anyInner
  | slash
  /-- A whole name. -/
  | name
  /-- Any characters of a name. -/
  | star
  /-- One character of a name. -/
  | question
  | literal (c : Char)
  /-- One character of a set, or one outside of it. -/
  | set (negated : Bool) (members : List Char)
  /-- The end of the path, or a slash after which anything may follow. -/
  | finish
  /-- A slash after which anything may follow. -/
  | below
  /-- One character of the path. -/
  | anything
  deriving DecidableEq, Repr

namespace Members

/-- The ranges that the members of a set stand for. A hyphen between two members makes a range of
them, a hyphen at either end is a member itself. -/
def bounds : List Char → List (Char × Char)
  | [] => []
  | c :: '-' :: d :: rest => (c, d) :: bounds rest
  | c :: rest => (c, c) :: bounds rest

/-- A member in the spelling of a set. -/
def spelling (c : Char) : List Char :=
  if c = '\\' then ['\\', '\\'] else [c]

/-- The first range of a set that ends before it begins, with its position in the spelling. -/
def reversed? (position : Nat) : List Char → Option (Char × Char × Nat)
  | [] => none
  | c :: '-' :: d :: rest =>
    if d < c then some (c, d, position)
    else reversed? (position + (spelling c).length + 1 + (spelling d).length) rest
  | c :: rest => reversed? (position + (spelling c).length) rest

end Members

namespace Piece

open Pattern

/-- The characters that a regular expression reads as themselves only after a backslash. -/
def special : List Char :=
  ['(', ')', '[', ']', '\x7b', '\x7d', '?', '*', '+', '-', '|', '^', '$', '\\', '.', '&', '~', '#',
    ' ', '\t', '\n', '\r', '\x0b', '\x0c']

/-- The opening of a set up to its first member. -/
def setOpening (negated : Bool) : List Char :=
  if negated then ['[', '^'] else ['[']

/-- A piece as part of a regular expression. -/
def spelling : Piece → List Char
  | start => ['^']
  | anyLeading => "(?:.+/)?".toList
  | anyInner => "(?:/.+)?".toList
  | slash => ['/']
  | name => "[^/]+".toList
  | star => "[^/]*".toList
  | question => "[^/]".toList
  | literal c => if special.contains c then ['\\', c] else [c]
  | set negated members => setOpening negated ++ members.flatMap Members.spelling ++ [']']
  | finish => "(?:(?P<ps_d>/)|$)".toList
  | below => "(?P<ps_d>/)".toList
  | anything => ['.']

/-- What a piece takes of a path. -/
def pattern : Piece → Pattern
  | start => nothing
  | anyLeading => optional (chain [oneOrMore (.except '\n'), one (.only '/')])
  | anyInner => optional (chain [one (.only '/'), oneOrMore (.except '\n')])
  | slash => one (.only '/')
  | name => oneOrMore (.except '/')
  | star => many (.except '/')
  | question => one (.except '/')
  | literal c => one (.only c)
  | set negated members => one (.ranges negated (Members.bounds members))
  | finish => either (capture (one (.only '/'))) Pattern.finish
  | below => capture (one (.only '/'))
  | anything => one (.except '\n')

/-- The first reversed range in a sequence of pieces, with its position in the spelling. -/
def reversed? (position : Nat) : List Piece → Option (Char × Char × Nat)
  | [] => none
  | piece :: pieces =>
    let inside :=
      match piece with
      | set negated members =>
        Members.reversed? (position + (setOpening negated).length) members
      | _ => none
    inside.or (reversed? (position + piece.spelling.length) pieces)

end Piece

end DeclIndex.Ignore
