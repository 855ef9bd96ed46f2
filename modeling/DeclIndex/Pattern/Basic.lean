import DeclIndex.Text.Blank
import DeclIndex.Text.Word

/-!
# Patterns over characters

A pattern describes how a text may begin. It is read from left to right: a run of characters takes
as many as it can and gives them back one at a time when what follows fails, and a choice tries its
first branch before its second. So the ways in which a text can be read are ordered, and the first
complete one counts. It decides what the pattern captures.

`Pattern.ways` lists all ways in that order and `Pattern.first` finds the first one that a
condition on the outcome accepts, without building the list. `Pattern.first_eq_findSome?` says that
the two agree.
-/

namespace DeclIndex

/-- A set of characters that a pattern may ask for. -/
inductive CharSet where
  | only (c : Char)
  | blank
  | word
  /-- All characters but one. -/
  | except (c : Char)
  /-- The characters of some closed ranges, or all others. -/
  | ranges (negated : Bool) (bounds : List (Char × Char))
  deriving DecidableEq, Repr

namespace CharSet

/-- The set holds the character. -/
def contains : CharSet → Char → Bool
  | only c, d => d == c
  | blank, d => Text.isBlank d
  | word, d => Text.isWord d
  | except c, d => d != c
  | ranges negated bounds, d =>
    (bounds.any fun bound => bound.1 ≤ d && d ≤ bound.2) != negated

end CharSet

/-- How a text may begin. -/
inductive Pattern where
  /-- Takes nothing. -/
  | nothing
  /-- Takes one character. -/
  | one (set : CharSet)
  /-- Takes a run of characters, as long as possible and perhaps empty. -/
  | many (set : CharSet)
  /-- One pattern and then another. -/
  | seq (before after : Pattern)
  /-- The first pattern or, failing that, the second. -/
  | either (preferred other : Pattern)
  /-- Remembers what the inner pattern took. -/
  | capture (inner : Pattern)
  /-- Takes nothing, at the end of the text or before a line feed that ends it. -/
  | finish
  deriving DecidableEq, Repr

/-- How far a text was read. -/
structure Reading where
  /-- What is left of the text. -/
  rest : List Char
  /-- What was captured last. -/
  captured : Option (List Char)
  deriving DecidableEq, Repr

namespace Pattern

/-! ## Building patterns -/

/-- Some patterns, one after the other. -/
def chain : List Pattern → Pattern
  | [] => nothing
  | [pattern] => pattern
  | pattern :: patterns => seq pattern (chain patterns)

/-- The first of some patterns that allows the text to be read on. -/
def choice : Pattern → List Pattern → Pattern
  | pattern, [] => pattern
  | pattern, next :: others => either pattern (choice next others)

/-- The characters of a text, one after the other. -/
def exactly (text : String) : Pattern :=
  chain (text.toList.map fun c => one (.only c))

/-- A pattern that may be left out, but is not if it can be read. -/
def optional (pattern : Pattern) : Pattern :=
  either pattern nothing

/-- A run of at least one character. -/
def oneOrMore (set : CharSet) : Pattern :=
  seq (one set) (many set)

/-! ## Reading a text -/

variable {α : Type}

/-- What remains after a run of characters of a set: the longest run first, the empty one last. -/
def remainders (set : CharSet) : List Char → List (List Char)
  | [] => [[]]
  | c :: rest =>
    if set.contains c then remainders set rest ++ [c :: rest] else [c :: rest]

/-- The part of a text that was read to reach a remainder. -/
def taken (text rest : List Char) : List Char :=
  text.take (text.length - rest.length)

/-- All ways to read a text by a pattern, in the order in which they are tried. -/
def ways : Pattern → Reading → List Reading
  | nothing, r => [r]
  | one set, r =>
    match r.rest with
    | [] => []
    | c :: rest => if set.contains c then [{ r with rest := rest }] else []
  | many set, r => (remainders set r.rest).map fun rest => { r with rest := rest }
  | seq before after, r => (before.ways r).flatMap after.ways
  | either preferred other, r => preferred.ways r ++ other.ways r
  | capture inner, r =>
    (inner.ways r).map fun r' => { r' with captured := some (taken r.rest r'.rest) }
  | finish, r => if r.rest = [] ∨ r.rest = ['\n'] then [r] else []

/-- The first answer of a continuation after a run of characters of a set. -/
def firstRemainder (set : CharSet) (next : List Char → Option α) : List Char → Option α
  | [] => next []
  | c :: rest =>
    if set.contains c then (firstRemainder set next rest).or (next (c :: rest))
    else next (c :: rest)

/-- The first answer of a continuation over the ways to read a text. -/
def first : Pattern → Reading → (Reading → Option α) → Option α
  | nothing, r, next => next r
  | one set, r, next =>
    match r.rest with
    | [] => none
    | c :: rest => if set.contains c then next { r with rest := rest } else none
  | many set, r, next => firstRemainder set (fun rest => next { r with rest := rest }) r.rest
  | seq before after, r, next => before.first r fun r' => after.first r' next
  | either preferred other, r, next => (preferred.first r next).or (other.first r next)
  | capture inner, r, next =>
    inner.first r fun r' => next { r' with captured := some (taken r.rest r'.rest) }
  | finish, r, next => if r.rest = [] ∨ r.rest = ['\n'] then next r else none

/-- The pattern's first way to read the beginning of a text. -/
def read? (pattern : Pattern) (text : List Char) : Option Reading :=
  pattern.first ⟨text, none⟩ some

/-- The pattern's first way to read some part of a text; an earlier start goes before a later. -/
def find? (pattern : Pattern) : List Char → Option Reading
  | [] => pattern.read? []
  | c :: rest => (pattern.read? (c :: rest)).or (find? pattern rest)

/-! ## The two readings agree -/

theorem firstRemainder_eq_findSome? (set : CharSet) (next : List Char → Option α)
    (text : List Char) :
    firstRemainder set next text = (remainders set text).findSome? next := by
  induction text with
  | nil => simp [firstRemainder, remainders]
  | cons c rest inductionHypothesis =>
    simp only [firstRemainder, remainders]
    split
    · simp [List.findSome?_append, inductionHypothesis]
    · simp

/-- Searching a list of lists in order is searching their concatenation. -/
theorem findSome?_flatMap {β γ : Type} (f : β → List γ) (next : γ → Option α) (items : List β) :
    (items.flatMap f).findSome? next = items.findSome? fun item => (f item).findSome? next := by
  induction items with
  | nil => rfl
  | cons item items inductionHypothesis =>
    simp only [List.flatMap_cons, List.findSome?_append, inductionHypothesis, List.findSome?_cons]
    cases (f item).findSome? next <;> rfl

/-- Reading with a continuation finds the first way that the continuation accepts. -/
theorem first_eq_findSome? (pattern : Pattern) (r : Reading) (next : Reading → Option α) :
    pattern.first r next = (pattern.ways r).findSome? next := by
  induction pattern generalizing r next with
  | nothing => simp [first, ways]
  | one set =>
    simp only [first, ways]
    split
    · simp
    · split <;> simp
  | many set =>
    simp [first, ways, firstRemainder_eq_findSome?, List.findSome?_map, Function.comp_def]
  | seq before after hBefore hAfter =>
    simp [first, ways, hBefore, hAfter, findSome?_flatMap]
  | either preferred other hPreferred hOther =>
    simp [first, ways, hPreferred, hOther, List.findSome?_append]
  | capture inner hInner => simp [first, ways, hInner, List.findSome?_map, Function.comp_def]
  | finish =>
    simp only [first, ways]
    split <;> simp

/-- A pattern reads the beginning of a text by the first of its ways. -/
theorem read?_eq_head? (pattern : Pattern) (text : List Char) :
    pattern.read? text = (pattern.ways ⟨text, none⟩).head? := by
  rw [read?, first_eq_findSome?, ← List.head?_filterMap, List.filterMap_some]

end Pattern

end DeclIndex
