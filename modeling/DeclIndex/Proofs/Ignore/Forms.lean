import DeclIndex.Proofs.Ignore.Below
import DeclIndex.Proofs.Ignore.Components

/-!
# Patterns made of one word

Most patterns are a word, perhaps with a slash at one of its ends, or a star, a dot and a word.
Which files such a pattern ignores can be told from the names of a path alone (`Form.covers`),
without any matching of texts (`Form.exists_ignores`).

A word holds no character that patterns, or lines of patterns, read in a way of their own. So its
characters stand for themselves. All forms have one segment, and they differ only in the pieces of
this segment, in whether the name that it asks for may lie in any directory, and in whether
something has to lie below that name.
-/

namespace DeclIndex.Ignore

/-- The characters that patterns and lines of patterns read in a way of their own. -/
def marks : List Char := ['/', '*', '?', '[', ']', '\\', '!', '#']

/-- A word without blanks and without marks. -/
structure IsWord (word : String) : Prop where
  nonempty : word ≠ ""
  noBlank : ∀ c ∈ word.toList, Text.isBlank c = false
  noMark : ∀ c ∈ word.toList, c ∉ marks

/-- The forms that a pattern has most of the time. -/
inductive Form where
  /-- A word. -/
  | name
  /-- A word with a slash behind it. -/
  | directory
  /-- A word with a slash before it. -/
  | atRoot
  /-- A word after a star and a dot. -/
  | ending
  deriving DecidableEq, Repr

namespace Form

/-- The line of a pattern. -/
def line (word : String) : Form → String
  | name => word
  | directory => word ++ "/"
  | atRoot => "/" ++ word
  | ending => "*." ++ word

/-- The pattern means some name on the way to a file, or the name of the file. -/
def covers (word : String) (names : List String) : Form → Bool
  | name => names.contains word
  | directory => names.dropLast.contains word
  | atRoot => names.head? == some word
  | ending => names.any fun name => ('.' :: word.toList).isSuffixOf name.toList

/-- The pieces of the segment in a pattern. -/
def body (word : String) : Form → List Piece
  | name | directory | atRoot => word.toList.map .literal
  | ending => .star :: ('.' :: word.toList).map .literal

/-- The pattern asks for a name in any directory. -/
def anywhere : Form → Bool
  | atRoot => false
  | name | directory | ending => true

/-- The pattern asks for something below the name. -/
def belowOnly : Form → Bool
  | directory => true
  | name | atRoot | ending => false

end Form

variable {word : String} {form : Form} {letters : List Char} {c : Char}

/-! ## Words -/

theorem IsWord.toList_ne_nil (isWord : IsWord word) : word.toList ≠ [] := by
  simpa using isWord.nonempty

theorem IsWord.notMem (isWord : IsWord word) {mark : Char} (isMark : mark ∈ marks) :
    mark ∉ word.toList :=
  fun isIn => isWord.noMark mark isIn isMark

/-- Outside of sets, only few characters do not stand for themselves. -/
theorem glob_of_literals
    (areLiterals : ∀ c ∈ letters, c ≠ '\\' ∧ c ≠ '[' ∧ c ≠ '*' ∧ c ≠ '?') :
    glob .plain letters = .ok (letters.map .literal) := by
  induction letters with
  | nil => rfl
  | cons c letters inductionHypothesis =>
      rcases List.forall_mem_cons.mp areLiterals with
        ⟨⟨notBackslash, notBracket, notStar, notQuestion⟩, areOthers⟩
      rw [glob, inductionHypothesis areOthers]
      · rfl
      · exact notBackslash
      · exact notBracket
      · exact notStar
      · exact notQuestion

theorem IsWord.isLiteral (isWord : IsWord word) :
    ∀ c ∈ word.toList, c ≠ '\\' ∧ c ≠ '[' ∧ c ≠ '*' ∧ c ≠ '?' := by
  intro c isIn
  refine ⟨?_, ?_, ?_, ?_⟩ <;> rintro rfl <;> exact isWord.noMark _ isIn (by decide)

theorem IsWord.readsAs_name (isWord : IsWord word) :
    ReadsAs word.toList (word.toList.map .literal) := by
  have noStar : '*' ∉ word.toList := isWord.notMem (by decide)
  constructor
  · exact isWord.notMem (by decide)
  · exact isWord.toList_ne_nil
  · intro isStar
    exact noStar (by simp [isStar])
  · intro areStars
    exact noStar (by simp [areStars, anyDirectories])
  · exact glob_of_literals isWord.isLiteral

theorem IsWord.readsAs_ending (isWord : IsWord word) :
    ReadsAs ('*' :: '.' :: word.toList) (.star :: ('.' :: word.toList).map .literal) := by
  have isLiteral : ∀ c ∈ '.' :: word.toList, c ≠ '\\' ∧ c ≠ '[' ∧ c ≠ '*' ∧ c ≠ '?' :=
    List.forall_mem_cons.mpr ⟨by decide, isWord.isLiteral⟩
  constructor
  · simpa using isWord.notMem (by decide)
  · exact List.cons_ne_nil _ _
  · simp
  · simp [anyDirectories]
  · rw [glob, glob_of_literals isLiteral]
    rfl

/-! ## Lines -/

theorem Form.mem_line (isIn : c ∈ (form.line word).toList) :
    c ∈ word.toList ∨ c ∈ ['/', '*', '.'] := by
  cases form with
  | name => exact Or.inl isIn
  | directory | atRoot | ending =>
      simp only [line, String.toList_append, List.mem_append] at isIn
      rcases isIn with isIn | isIn <;> simp_all

theorem Form.subset_line (word : String) (form : Form) :
    word.toList ⊆ (form.line word).toList := by
  cases form with
  | name => exact List.Subset.refl _
  | directory | atRoot | ending => simp [line]

theorem Form.notMem_line (isWord : IsWord word) {mark : Char} (isMark : mark ∈ marks)
    (isOther : mark ∉ ['/', '*', '.']) : mark ∉ (form.line word).toList := by
  intro isIn
  rcases mem_line isIn with isIn | isIn
  · exact isWord.notMem isMark isIn
  · exact isOther isIn

theorem Form.isPlainLine (isWord : IsWord word) (form : Form) : IsPlainLine (form.line word) := by
  constructor
  · intro isMark
    exact notMem_line isWord (by decide) (by decide) (List.mem_of_mem_head? isMark)
  · exact notMem_line isWord (by decide) (by decide)

theorem Form.speaksPlainly (isWord : IsWord word) (form : Form) :
    SpeaksPlainly (form.line word).toList := by
  rcases List.exists_mem_of_ne_nil _ isWord.toList_ne_nil with ⟨c, isLetter⟩
  have isIn := form.subset_line word isLetter
  constructor
  · exact List.ne_nil_of_mem isIn
  · intro isSlash
    rw [isSlash, List.mem_singleton] at isIn
    subst isIn
    exact isWord.notMem (by decide) isLetter
  · exact (form.isPlainLine isWord).1
  · intro isComment
    exact notMem_line isWord (by decide) (by decide) (List.mem_of_mem_head? isComment)
  · intro c isLast
    rcases mem_line (List.mem_of_mem_getLast? isLast) with isLetter | isOther
    · exact isWord.noBlank c isLetter
    · simp only [List.mem_cons, List.not_mem_nil, or_false] at isOther
      rcases isOther with rfl | rfl | rfl <;> decide

theorem Form.piecesOf_line (isWord : IsWord word) (form : Form) :
    piecesOf (form.line word).toList =
      .ok (Piece.single form.anywhere form.belowOnly (form.body word)) := by
  cases form with
  | name => exact isWord.readsAs_name.piecesOf_name
  | directory =>
      rw [line, String.toList_append]
      exact isWord.readsAs_name.piecesOf_directory
  | atRoot =>
      rw [line, String.toList_append]
      exact isWord.readsAs_name.piecesOf_atRoot
  | ending =>
      rw [line, String.toList_append]
      exact isWord.readsAs_ending.piecesOf_name

theorem Form.withinName_of_mem_body (isWord : IsWord word) (form : Form) :
    ∀ piece ∈ form.body word, piece.WithinName := by
  have areWithin : ∀ piece ∈ word.toList.map Piece.literal, piece.WithinName := by
    intro piece isPiece
    rcases List.mem_map.mp isPiece with ⟨c, isIn, rfl⟩
    rintro rfl
    exact isWord.notMem (by decide) isIn
  cases form with
  | name | directory | atRoot => exact areWithin
  | ending =>
      have notSlash : '.' ≠ '/' := by decide
      rw [body, List.map_cons, List.forall_mem_cons, List.forall_mem_cons]
      exact ⟨trivial, notSlash, areWithin⟩

/-! ## Covered names -/

variable {name : String} {names : List String}

theorem allow_word_iff :
    Piece.Allow (word.toList.map .literal) name.toList [] ↔ name = word := by
  rw [Piece.allow_literals, String.toList_inj]

/-- Before the dot, a star takes any beginning of a name. -/
theorem allow_ending_iff (noSlash : '/' ∉ name.toList) :
    Piece.Allow (.star :: ('.' :: word.toList).map .literal) name.toList [] ↔
      ('.' :: word.toList) <:+ name.toList := by
  rw [Piece.allow_star_literals]
  constructor
  · rintro ⟨before, _, isSplit⟩
    exact ⟨before, isSplit.symm⟩
  · rintro ⟨before, isSplit⟩
    refine ⟨before, ?_, isSplit.symm⟩
    intro isIn
    rw [← isSplit] at noSlash
    exact noSlash (List.mem_append_left _ isIn)

theorem mem_dropLast_iff :
    word ∈ names.dropLast ↔ ∃ before after, names = before ++ word :: after ∧ after ≠ [] := by
  constructor
  · intro isIn
    rcases List.eq_nil_or_concat' names with rfl | ⟨init, last, rfl⟩
    · cases isIn
    · rw [List.dropLast_concat] at isIn
      rcases List.append_of_mem isIn with ⟨before, after, rfl⟩
      exact ⟨before, after ++ [last], by simp, by simp⟩
  · rintro ⟨before, after, rfl, nonempty⟩
    rw [List.dropLast_append_of_ne_nil (List.cons_ne_nil _ _),
      List.dropLast_cons_of_ne_nil nonempty]
    simp

/-- The names of a file are covered exactly if one of them is what the segment asks for, and stands
in the right place. -/
theorem Form.covers_iff (areNames : ∀ name ∈ names, Entry.isName name = true) (form : Form) :
    form.covers word names = true ↔ ∃ before name after, names = before ++ name :: after ∧
      Piece.Allow (form.body word) name.toList [] ∧
        (before = [] ∨ form.anywhere = true) ∧ (after ≠ [] ∨ form.belowOnly = false) := by
  cases form with
  | name =>
      rw [covers, List.contains_iff_mem]
      constructor
      · intro isIn
        rcases List.append_of_mem isIn with ⟨before, after, rfl⟩
        exact ⟨before, word, after, rfl, allow_word_iff.mpr rfl, Or.inr rfl, Or.inr rfl⟩
      · rintro ⟨before, name, after, rfl, allow, _⟩
        rw [allow_word_iff.mp allow]
        simp
  | directory =>
      rw [covers, List.contains_iff_mem, mem_dropLast_iff]
      constructor
      · rintro ⟨before, after, rfl, nonempty⟩
        exact ⟨before, word, after, rfl, allow_word_iff.mpr rfl, Or.inr rfl, Or.inl nonempty⟩
      · rintro ⟨before, name, after, rfl, allow, _, someBelow⟩
        rw [allow_word_iff.mp allow]
        exact ⟨before, after, rfl, someBelow.resolve_right Bool.noConfusion⟩
  | atRoot =>
      rw [covers, beq_iff_eq, List.head?_eq_some_iff]
      constructor
      · rintro ⟨after, rfl⟩
        exact ⟨[], word, after, rfl, allow_word_iff.mpr rfl, Or.inl rfl, Or.inr rfl⟩
      · rintro ⟨before, name, after, rfl, allow, isFirst, _⟩
        rw [allow_word_iff.mp allow, isFirst.resolve_right Bool.noConfusion]
        exact ⟨after, rfl⟩
  | ending =>
      rw [covers, List.any_eq_true]
      constructor
      · rintro ⟨name, isIn, isSuffix⟩
        have noSlash := Entry.noSlash_of_isName (areNames name isIn)
        rcases List.append_of_mem isIn with ⟨before, after, rfl⟩
        exact ⟨before, name, after, rfl,
          (allow_ending_iff noSlash).mpr (List.isSuffixOf_iff_suffix.mp isSuffix),
          Or.inr rfl, Or.inr rfl⟩
      · rintro ⟨before, name, after, rfl, allow, _⟩
        have isIn : name ∈ before ++ name :: after := by simp
        have noSlash := Entry.noSlash_of_isName (areNames name isIn)
        exact ⟨name, isIn, List.isSuffixOf_iff_suffix.mpr ((allow_ending_iff noSlash).mp allow)⟩

theorem Form.exists_ignores (isWord : IsWord word) (form : Form) :
    ∃ matcher, Matcher.ofLines [form.line word] = .ok matcher ∧
      ∀ names, names ≠ [] → (∀ name ∈ names, Entry.isName name = true) →
        (∀ name ∈ names, '\n' ∉ name.toList) →
        matcher.ignores (slashed names) false = form.covers word names := by
  rcases Matcher.exists_ignores_single (form.speaksPlainly isWord)
    (form.withinName_of_mem_body isWord) (form.piecesOf_line isWord) with
    ⟨matcher, areRead, isIgnored⟩
  refine ⟨matcher, areRead, ?_⟩
  intro names nonempty areNames noFeed
  rw [Bool.eq_iff_iff, isIgnored names nonempty areNames noFeed, form.covers_iff areNames]

end DeclIndex.Ignore
