import DeclIndex.Proofs.Ignore.Closing
import DeclIndex.Proofs.Ignore.Matching

/-!
# Patterns for single names

A pattern with one segment asks for a name of the path that the segment matches
(`Piece.exists_allow_single_iff`). The name is the first one if the pattern starts with a slash. It
is not the last one if the pattern ends with a slash, since a file is looked up without a slash
behind its own name.

What stands before the name is taken by the piece for leading directories, which takes any
characters up to some slash. So it is not by itself that the match starts and ends with a name: the
text of the path is split at its slashes, once by its names and once by the match, and a segment
never takes a slash.
-/

namespace DeclIndex

/-! ## Texts of names -/

theorem notMem_slashed {names : List String} {c : Char} (notSlash : c ≠ '/')
    (notIn : ∀ name ∈ names, c ∉ name.toList) : c ∉ (slashed names).toList := by
  cases names with
  | nil => exact List.not_mem_nil
  | cons name names =>
      rcases List.forall_mem_cons.mp notIn with ⟨notHere, notLater⟩
      rw [toList_slashed_cons]
      simp only [List.mem_append, List.mem_flatMap, List.mem_cons, not_or, not_exists, not_and]
      exact ⟨notHere, fun other isOther => ⟨notSlash, notLater other isOther⟩⟩

namespace Ignore

open Pattern

namespace Piece

variable {body : List Piece} {run rest letters : List Char} {names : List String}
  {anywhere belowOnly : Bool}

/-! ## Single pieces -/

theorem allows_start : start.pattern.Allows run rest ↔ run = [] :=
  allows_nothing

theorem allows_below : below.pattern.Allows run rest ↔ run = ['/'] := by
  simp [pattern, allows_capture, allows_one, CharSet.contains]

theorem forall_contains_except_iff {d : Char} :
    (∀ c ∈ run, (CharSet.except d).contains c = true) ↔ d ∉ run := by
  simp only [CharSet.contains, bne_iff_ne]
  constructor
  · intro areOther isIn
    exact areOther d isIn rfl
  · rintro notIn c isIn rfl
    exact notIn isIn

/-- Leading directories are none at all, or end with a slash. -/
theorem allows_anyLeading :
    anyLeading.pattern.Allows run rest ↔
      run = [] ∨ ∃ above, above ≠ [] ∧ '\n' ∉ above ∧ run = above ++ ['/'] := by
  constructor
  · intro allows
    rcases allows_either.mp allows with allows | allows
    · rcases allows_chain_cons.mp allows with ⟨above, last, allowsAbove, allowsLast, rfl⟩
      rcases allows_oneOrMore.mp allowsAbove with ⟨nonempty, noFeed⟩
      rcases allows_one.mp allowsLast with ⟨c, isSlash, rfl⟩
      have isSlash : c = '/' := by simpa [CharSet.contains] using isSlash
      rw [isSlash]
      exact Or.inr ⟨above, nonempty, forall_contains_except_iff.mp noFeed, rfl⟩
    · exact Or.inl (allows_nothing.mp allows)
  · rintro (rfl | ⟨above, nonempty, noFeed, rfl⟩)
    · exact allows_either.mpr (Or.inr (allows_nothing.mpr rfl))
    · apply allows_either.mpr
      left
      apply allows_chain_cons.mpr
      refine ⟨above, ['/'], ?_, allows_one.mpr ⟨'/', rfl, rfl⟩, rfl⟩
      apply allows_oneOrMore.mpr
      exact ⟨nonempty, forall_contains_except_iff.mpr noFeed⟩

theorem notMem_slash_of_allow (within : ∀ piece ∈ body, piece.WithinName)
    (allow : Allow body run rest) : '/' ∉ run := by
  induction body generalizing run with
  | nil =>
      have isEmpty : run = [] := allows_nothing.mp allow
      simp [isEmpty]
  | cons piece body inductionHypothesis =>
      rcases List.forall_mem_cons.mp within with ⟨withinFirst, withinOthers⟩
      rcases allow_cons.mp allow with ⟨first, second, allowsFirst, allowSecond, rfl⟩
      rw [List.mem_append, not_or]
      exact ⟨withinFirst.notMem_slash allowsFirst, inductionHypothesis withinOthers allowSecond⟩

theorem allow_literals : Allow (letters.map literal) run rest ↔ run = letters := by
  induction letters generalizing run with
  | nil => exact allows_nothing
  | cons c letters inductionHypothesis =>
      simp only [List.map_cons, allow_cons, inductionHypothesis, pattern, allows_one,
        CharSet.contains, beq_iff_eq]
      constructor
      · rintro ⟨_, _, ⟨_, rfl, rfl⟩, rfl, rfl⟩
        rfl
      · rintro rfl
        exact ⟨[c], letters, ⟨c, rfl, rfl⟩, rfl, rfl⟩

theorem allow_star_literals :
    Allow (star :: letters.map literal) run rest ↔
      ∃ before, '/' ∉ before ∧ run = before ++ letters := by
  rw [allow_cons]
  constructor
  · rintro ⟨before, _, allowsStar, allowLetters, rfl⟩
    rw [allow_literals.mp allowLetters]
    have within : star.WithinName := trivial
    exact ⟨before, within.notMem_slash allowsStar, rfl⟩
  · rintro ⟨before, noSlash, rfl⟩
    refine ⟨before, letters, allows_many.mpr ?_, allow_literals.mpr rfl, rfl⟩
    exact forall_contains_except_iff.mpr noSlash

/-! ## Patterns with one segment -/

/-- The pieces of a pattern with one segment. The name that it asks for may lie in any directory, or
has to be the first one, and something may have to lie below it. -/
def single (anywhere belowOnly : Bool) (body : List Piece) : List Piece :=
  .start :: ((if anywhere then [.anyLeading] else []) ++
    (body ++ [if belowOnly then .below else .finish]))

/-- What stands before the name that a pattern asks for: leading directories, or nothing at all. -/
def Leading (anywhere : Bool) (first : List Char) : Prop :=
  first = [] ∨ anywhere = true ∧ ∃ above, above ≠ [] ∧ '\n' ∉ above ∧ first = above ++ ['/']

/-- What is taken behind the name that a pattern asks for: a slash, or nothing at the end. -/
def Ending (belowOnly : Bool) (last rest : List Char) : Prop :=
  last = ['/'] ∨ belowOnly = false ∧ last = [] ∧ rest = []

theorem allow_leading_iff :
    Allow (if anywhere then [anyLeading] else []) run rest ↔ Leading anywhere run := by
  unfold Leading
  cases anywhere with
  | true =>
      rw [if_pos rfl, allow_singleton, allows_anyLeading]
      simp
  | false =>
      have isNothing : Allow [] run rest ↔ run = [] := allows_nothing
      simp [isNothing]

/-- The end of the text may also stand before a line feed, but a path may be known to hold none. -/
theorem allow_ending_iff (noFeed : '\n' ∉ rest) :
    Allow [if belowOnly then below else finish] run rest ↔ Ending belowOnly run rest := by
  have notFeed : rest ≠ ['\n'] := by
    rintro rfl
    exact noFeed List.mem_cons_self
  unfold Ending
  rw [allow_singleton]
  cases belowOnly with
  | true => simp [allows_below]
  | false => simp [allows_finish_piece, notFeed]

theorem allow_single_iff (noFeed : '\n' ∉ rest) :
    Allow (single anywhere belowOnly body) run rest ↔
      ∃ first middle last, run = first ++ (middle ++ last) ∧ Leading anywhere first ∧
        Allow body middle (last ++ rest) ∧ Ending belowOnly last rest := by
  simp only [single, allow_cons, allow_append, allows_start, allow_leading_iff,
    allow_ending_iff noFeed]
  constructor
  · rintro ⟨_, _, rfl, ⟨first, _, isFirst, ⟨middle, last, allowMiddle, isLast, rfl⟩, rfl⟩, rfl⟩
    exact ⟨first, middle, last, rfl, isFirst, allowMiddle, isLast⟩
  · rintro ⟨first, middle, last, rfl, isFirst, allowMiddle, isLast⟩
    exact ⟨[], _, rfl, ⟨first, _, isFirst, ⟨middle, last, allowMiddle, isLast, rfl⟩, rfl⟩, rfl⟩

/-! ## Names and matches -/

/-- A match of the pieces splits a text at slashes around what the body takes. -/
theorem exists_parts_of_split {first middle last : List Char} (noSlash : '/' ∉ middle)
    (isFirst : Leading anywhere first) (isLast : Ending belowOnly last rest) :
    ∃ earlier later,
      (first ++ (middle ++ (last ++ rest))).splitOn '/' = earlier ++ middle :: later ∧
        (earlier = [] ∨ anywhere = true) ∧ (later ≠ [] ∨ belowOnly = false) := by
  have isMiddle : middle.splitOn '/' = [middle] := List.splitOn_eq_singleton noSlash
  have onwards : ∃ later, (middle ++ (last ++ rest)).splitOn '/' = middle :: later ∧
      (later ≠ [] ∨ belowOnly = false) := by
    rcases isLast with rfl | ⟨notBelow, rfl, rfl⟩
    · refine ⟨rest.splitOn '/', ?_, Or.inl (List.splitOn_ne_nil _ _)⟩
      rw [List.singleton_append, List.splitOn_append_cons_self, isMiddle]
      rfl
    · exact ⟨[], by simpa using isMiddle, Or.inr notBelow⟩
  rcases onwards with ⟨later, areParts, isLater⟩
  rcases isFirst with rfl | ⟨isAnywhere, above, _, _, rfl⟩
  · exact ⟨[], later, areParts, Or.inl rfl, isLater⟩
  · refine ⟨above.splitOn '/', later, ?_, Or.inr isAnywhere, isLater⟩
    rw [List.append_assoc, List.singleton_append, List.splitOn_append_cons_self, areParts]

/-- What stands before a name in a path can be taken for leading directories. -/
theorem exists_leading {before : List String} (isBefore : before = [] ∨ anywhere = true)
    (areNames : ∀ name ∈ before, Entry.isName name = true)
    (noFeed : ∀ name ∈ before, '\n' ∉ name.toList) (name : String) (after : List String) :
    ∃ first, Leading anywhere first ∧
      (slashed (before ++ name :: after)).toList = first ++ (slashed (name :: after)).toList := by
  cases before with
  | nil => exact ⟨[], Or.inl rfl, rfl⟩
  | cons top before =>
      have isAnywhere : anywhere = true := isBefore.resolve_left (List.cons_ne_nil top before)
      have someText : (slashed (top :: before)).toList ≠ [] := by
        have nonempty := Entry.ne_empty_of_isName (areNames top List.mem_cons_self)
        rw [toList_slashed_cons]
        simp [nonempty]
      refine ⟨(slashed (top :: before)).toList ++ ['/'], Or.inr ⟨isAnywhere, _, someText,
        notMem_slashed (by decide) noFeed, rfl⟩, ?_⟩
      rw [toList_slashed_append (List.cons_ne_nil top before), toList_slashed_cons name after]
      simp

theorem exists_ending {after : List String} (isAfter : after ≠ [] ∨ belowOnly = false)
    (noFeed : ∀ name ∈ after, '\n' ∉ name.toList) (name : String) :
    ∃ last rest, Ending belowOnly last rest ∧ '\n' ∉ rest ∧
      (slashed (name :: after)).toList = name.toList ++ (last ++ rest) := by
  cases after with
  | nil =>
      have notBelow : belowOnly = false := isAfter.resolve_left fun someAfter => someAfter rfl
      refine ⟨[], [], Or.inr ⟨notBelow, rfl, rfl⟩, List.not_mem_nil, ?_⟩
      simp [slashed_singleton]
  | cons next after =>
      refine ⟨['/'], (slashed (next :: after)).toList, Or.inl rfl,
        notMem_slashed (by decide) noFeed, ?_⟩
      rw [toList_slashed_cons, toList_slashed_cons]
      simp

/-- The pieces match a path from its start exactly if the body takes one of its names, in the right
place. -/
theorem exists_allow_single_iff (within : ∀ piece ∈ body, piece.WithinName) (nonempty : names ≠ [])
    (areNames : ∀ name ∈ names, Entry.isName name = true)
    (noFeed : ∀ name ∈ names, '\n' ∉ name.toList) :
    (∃ run rest, Allow (single anywhere belowOnly body) run rest ∧
      (slashed names).toList = run ++ rest) ↔
      ∃ before name after, names = before ++ name :: after ∧ Allow body name.toList [] ∧
        (before = [] ∨ anywhere = true) ∧ (after ≠ [] ∨ belowOnly = false) := by
  have endless : finish ∉ body := fun isFinish => within _ isFinish
  constructor
  · rintro ⟨run, rest, allow, isText⟩
    have noFeedRest : '\n' ∉ rest := by
      intro isIn
      apply notMem_slashed (by decide) noFeed
      rw [isText]
      exact List.mem_append_right run isIn
    rcases (allow_single_iff noFeedRest).mp allow with
      ⟨first, middle, last, rfl, isFirst, allowMiddle, isLast⟩
    have noSlash := notMem_slash_of_allow within allowMiddle
    rcases exists_parts_of_split noSlash isFirst isLast with
      ⟨earlier, later, areSplit, isEarlier, isLater⟩
    -- The text is split at the same slashes by its names.
    have areParts := splitOn_slashed
      (fun name isName => Entry.noSlash_of_isName (areNames name isName)) nonempty
    rw [isText, List.append_assoc, List.append_assoc, areSplit] at areParts
    rcases List.map_eq_append_iff.mp areParts.symm with ⟨before, others, rfl, rfl, areOthers⟩
    rcases List.map_eq_cons_iff.mp areOthers with ⟨name, after, rfl, rfl, rfl⟩
    refine ⟨before, name, after, rfl, allowMiddle.change_rest endless [], ?_, ?_⟩
    · simpa using isEarlier
    · simpa using isLater
  · rintro ⟨before, name, after, rfl, allow, isBefore, isAfter⟩
    simp only [List.forall_mem_append, List.forall_mem_cons] at areNames noFeed
    rcases exists_leading isBefore areNames.1 noFeed.1 name after with ⟨first, isFirst, isText⟩
    rcases exists_ending isAfter noFeed.2.2 name with ⟨last, rest, isLast, noFeedRest, isEnd⟩
    refine ⟨first ++ (name.toList ++ last), rest, ?_, by rw [isText, isEnd]; simp⟩
    apply (allow_single_iff noFeedRest).mpr
    exact ⟨first, name.toList, last, rfl, isFirst, allow.change_rest endless _, isLast⟩

/-! ## Rules with one segment -/

theorem reversed?_of_no_set {pieces : List Piece}
    (noSet : ∀ piece ∈ pieces, ∀ negated members, piece ≠ set negated members) (position : Nat) :
    reversed? position pieces = none := by
  induction pieces generalizing position with
  | nil => rfl
  | cons piece pieces inductionHypothesis =>
      rcases List.forall_mem_cons.mp noSet with ⟨notSet, noLaterSet⟩
      cases piece with
      | set negated members => exact absurd rfl (notSet negated members)
      | _ => exact inductionHypothesis noLaterSet _

theorem reversed?_single (within : ∀ piece ∈ body, piece.WithinName) :
    reversed? 0 (single anywhere belowOnly body) = none := by
  apply reversed?_of_no_set
  rintro piece isPiece negated members rfl
  simp only [single, List.mem_cons, List.mem_append] at isPiece
  rcases isPiece with isStart | isLeading | isBody | isEnding
  · cases isStart
  · cases anywhere <;> simp at isLeading
  · exact within _ isBody
  · cases belowOnly <;> simp at isEnding

end Piece

variable {segment : List Char} {body : List Piece}

/-- A segment between slashes that is read as some pieces of one name. -/
structure ReadsAs (segment : List Char) (body : List Piece) : Prop where
  noSlash : '/' ∉ segment
  nonempty : segment ≠ []
  notStar : segment ≠ ['*']
  notStars : segment ≠ anyDirectories
  isGlob : glob .plain segment = .ok body

theorem ReadsAs.piecesOf_name (reads : ReadsAs segment body) :
    piecesOf segment = .ok (Piece.single true false body) := by
  rw [piecesOf, List.splitOn_eq_singleton reads.noSlash]
  simp [rooted, openEnded, collapse, pieces, morePieces, segmentPieces, reads.nonempty,
    reads.notStar, reads.notStars, reads.isGlob, Piece.single, Except.map]

theorem ReadsAs.piecesOf_directory (reads : ReadsAs segment body) :
    piecesOf (segment ++ ['/']) = .ok (Piece.single true true body) := by
  rw [piecesOf, List.splitOn_append_cons_self, List.splitOn_eq_singleton reads.noSlash]
  simp [rooted, openEnded, collapse, pieces, morePieces, segmentPieces, reads.nonempty,
    reads.notStar, reads.notStars, reads.isGlob, Piece.single, Except.map, bind, Except.bind,
    pure, Except.pure]

theorem ReadsAs.piecesOf_atRoot (reads : ReadsAs segment body) :
    piecesOf ('/' :: segment) = .ok (Piece.single false false body) := by
  have isSplit : ('/' :: segment).splitOn '/' = [[], segment] := by
    simp [List.splitOn_cons_eq_if_modifyHead, List.splitOn_eq_singleton reads.noSlash]
  rw [piecesOf, isSplit]
  simp [rooted, openEnded, collapse, pieces, morePieces, segmentPieces, reads.nonempty,
    reads.notStar, reads.notStars, reads.isGlob, Piece.single, Except.map]

/-- A line that says something, without a mark at its start and without blanks at its end. -/
structure SpeaksPlainly (line : List Char) : Prop where
  nonempty : line ≠ []
  notSlash : line ≠ ['/']
  notMark : line.head? ≠ some '!'
  notComment : line.head? ≠ some '#'
  endsFlush : ∀ c ∈ line.getLast?, Text.isBlank c = false

theorem SpeaksPlainly.significant {line : List Char} (speaks : SpeaksPlainly line) :
    Rule.significant line = line := by
  rw [Rule.significant, Text.dropEndWhile_of_getLast? speaks.endsFlush, ite_self]

theorem SpeaksPlainly.ofLine {line : String} {read : List Piece}
    (speaks : SpeaksPlainly line.toList) (isRead : piecesOf line.toList = .ok read)
    (noRange : Piece.reversed? 0 read = none) :
    Rule.ofLine line = .ok (some ⟨false, read.head? == some .start,
      Pattern.chain (read.map Piece.pattern)⟩) := by
  apply Rule.ofLine_eq_some_iff.mpr
  rw [speaks.significant, Rule.splitMark_of_head? speaks.notMark]
  refine ⟨?_, read, isRead, Rule.ofPieces_eq_ok_iff.mpr ⟨noRange, rfl⟩⟩
  rintro (isEmpty | isComment | isSlash)
  · exact speaks.nonempty isEmpty
  · exact speaks.notComment isComment
  · exact speaks.notSlash isSlash

namespace Matcher

variable {line : String} {anywhere belowOnly : Bool}

theorem ofLines_singleton {rule : Rule} (isRule : Rule.ofLine line = .ok (some rule)) :
    ofLines [line] = .ok ⟨[rule]⟩ := by
  rw [ofLines, List.mapM_cons, isRule]
  rfl

/-- A pattern with one segment ignores the files that have a name for the segment in the right
place. -/
theorem exists_ignores_single (speaks : SpeaksPlainly line.toList)
    (within : ∀ piece ∈ body, piece.WithinName)
    (isRead : piecesOf line.toList = .ok (Piece.single anywhere belowOnly body)) :
    ∃ matcher, ofLines [line] = .ok matcher ∧
      ∀ names, names ≠ [] → (∀ name ∈ names, Entry.isName name = true) →
        (∀ name ∈ names, '\n' ∉ name.toList) →
        (matcher.ignores (slashed names) false = true ↔
          ∃ before name after, names = before ++ name :: after ∧ Piece.Allow body name.toList [] ∧
            (before = [] ∨ anywhere = true) ∧ (after ≠ [] ∨ belowOnly = false)) := by
  have isRule := speaks.ofLine isRead (Piece.reversed?_single within)
  refine ⟨_, ofLines_singleton isRule, ?_⟩
  intro names nonempty areNames noFeed
  have stays := fromRoot_slashed nonempty areNames []
  rw [List.append_nil] at stays
  rw [ignores_slashed _ nonempty areNames, Bool.false_and, Bool.or_false,
    ignoresText_iff (by simp), stays,
    ← Piece.exists_allow_single_iff within nonempty areNames noFeed]
  have isAnchored : ((Piece.single anywhere belowOnly body).head? == some .start) = true := rfl
  simp only [List.mem_singleton, exists_eq_left, Rule.match?, isAnchored, if_true,
    Option.isSome_map, Pattern.isSome_read?_iff]
  rfl

end Matcher

end Ignore

end DeclIndex
