import DeclIndex.Text.Blank
import DeclIndex.Text.Word
import Mathlib.Data.List.TakeWhile

/-!
# Words of a text

The words of a text are its longest runs of word characters. No blank is a word character, so a
text of blanks and word characters alone is its words, with blanks before, between and behind them
(`Text.isPhrase_cons_iff`). This makes the words of a text the place where different ways to split
it meet: two splits of one text agree on every word.
-/

namespace DeclIndex.Text

/-! ## Classes of characters -/

namespace Ranges

/-- No range of the one meets a range of the other. -/
def Apart (ranges others : Ranges) : Prop :=
  ∀ range ∈ ranges, ∀ other ∈ others, range.2 < other.1 ∨ other.2 < range.1

instance (ranges others : Ranges) : Decidable (ranges.Apart others) :=
  inferInstanceAs (Decidable (∀ range ∈ ranges, ∀ other ∈ others, _))

theorem exists_range_of_contains {ranges : Ranges} {c : Char}
    (contained : ranges.contains c = true) :
    ∃ range ∈ ranges, range.1 ≤ c.toNat ∧ c.toNat ≤ range.2 := by
  induction ranges with
  | nil => simp [contains] at contained
  | cons range ranges inductionHypothesis =>
      simp only [contains] at contained
      split at contained
      · simp at contained
      · rename_i notBefore
        split at contained
        · rename_i notAfter
          exact ⟨range, List.mem_cons_self, by omega, notAfter⟩
        · rcases inductionHypothesis contained with ⟨found, isRange, bounds⟩
          exact ⟨found, List.mem_cons_of_mem _ isRange, bounds⟩

theorem contains_eq_false_of_apart {ranges others : Ranges} {c : Char} (apart : ranges.Apart others)
    (contained : ranges.contains c = true) : others.contains c = false := by
  cases inOthers : others.contains c with
  | false => rfl
  | true =>
      rcases exists_range_of_contains contained with ⟨range, isRange, _, _⟩
      rcases exists_range_of_contains inOthers with ⟨other, isOther, _, _⟩
      have := apart range isRange other isOther
      omega

end Ranges

theorem isWord_eq_false_of_isBlank {c : Char} (blank : isBlank c = true) : isWord c = false := by
  have apart : blankRanges.Apart wordRanges := by decide +kernel
  exact Ranges.contains_eq_false_of_apart apart blank

/-! ## Runs of a class -/

/-- A run of blanks, perhaps an empty one. -/
def Blanks (text : List Char) : Prop :=
  ∀ c ∈ text, isBlank c = true

/-- A run of at least one blank. -/
def IsGap (text : List Char) : Prop :=
  text ≠ [] ∧ Blanks text

/-- A run of at least one word character. -/
def IsName (text : List Char) : Prop :=
  text ≠ [] ∧ ∀ c ∈ text, isWord c = true

/-- The text does not go on with a word character. -/
def EndsWord (text : List Char) : Prop :=
  ∀ c ∈ text.head?, isWord c = false

@[simp]
theorem blanks_nil : Blanks [] := by
  simp [Blanks]

theorem endsWord_of_isGap {gap : List Char} (isGap : IsGap gap) (text : List Char) :
    EndsWord (gap ++ text) := by
  rcases isGap with ⟨nonempty, blanks⟩
  cases gap with
  | nil => exact absurd rfl nonempty
  | cons c gap => simpa [EndsWord] using isWord_eq_false_of_isBlank (blanks c List.mem_cons_self)

theorem endsWord_of_blanks {run : List Char} (blanks : Blanks run) : EndsWord run := by
  intro c isHead
  exact isWord_eq_false_of_isBlank (blanks c (List.mem_of_mem_head? isHead))

theorem endsWord_append_of_blanks {run text : List Char} (blanks : Blanks run)
    (endsWord : EndsWord text) : EndsWord (run ++ text) := by
  cases run with
  | nil => exact endsWord
  | cons c run => exact endsWord_of_isGap ⟨List.cons_ne_nil _ _, blanks⟩ text

theorem endsWord_append_of_ne_nil {text : List Char} (nonempty : text ≠ [])
    (endsWord : EndsWord text) (rest : List Char) : EndsWord (text ++ rest) := by
  cases text with
  | nil => exact absurd rfl nonempty
  | cons c text => exact endsWord

theorem isBlank_eq_false_of_isWord {c : Char} (word : isWord c = true) : isBlank c = false := by
  by_contra isBlank
  have noWord := isWord_eq_false_of_isBlank (Bool.of_not_eq_false isBlank)
  rw [word] at noWord
  cases noWord

/-- A text without the blanks at its start, where a name follows them. -/
theorem dropWhile_isBlank_append {run name : List Char} (blanks : Blanks run)
    (isName : IsName name) (after : List Char) :
    (run ++ (name ++ after)).dropWhile isBlank = name ++ after := by
  rcases isName with ⟨nonempty, allWord⟩
  rcases List.exists_cons_of_ne_nil nonempty with ⟨c, others, rfl⟩
  have notBlank : isBlank c = false := isBlank_eq_false_of_isWord (allWord c List.mem_cons_self)
  rw [List.dropWhile_append_of_pos blanks, List.cons_append,
    List.dropWhile_cons_of_neg (by simp [notBlank])]

/-! ## Words -/

/-- The longest runs of word characters in a text, from left to right. -/
def words (text : List Char) : List (List Char) :=
  (text.splitOnP fun c => !isWord c).filter fun run => run ≠ []

theorem words_nil : words [] = [] := rfl

theorem words_cons_of_isWord_eq_false {c : Char} (text : List Char) (noWord : isWord c = false) :
    words (c :: text) = words text := by
  simp [words, List.splitOnP_cons_eq_if_modifyHead, noWord]

theorem words_append_of_forall {run : List Char} (text : List Char)
    (noWord : ∀ c ∈ run, isWord c = false) : words (run ++ text) = words text := by
  induction run with
  | nil => rfl
  | cons c run inductionHypothesis =>
      rw [List.cons_append, words_cons_of_isWord_eq_false _ (noWord c List.mem_cons_self)]
      exact inductionHypothesis fun d inRun => noWord d (List.mem_cons_of_mem _ inRun)

theorem words_append_of_blanks {run : List Char} (text : List Char) (blanks : Blanks run) :
    words (run ++ text) = words text :=
  words_append_of_forall text fun c inRun => isWord_eq_false_of_isBlank (blanks c inRun)

theorem words_dropWhile_isBlank (text : List Char) :
    words (text.dropWhile isBlank) = words text := by
  calc
    words (text.dropWhile isBlank) =
        words (text.takeWhile isBlank ++ text.dropWhile isBlank) :=
      (words_append_of_blanks _ fun c => List.mem_takeWhile_imp).symm
    _ = words text := by rw [List.takeWhile_append_dropWhile]

/-- A name that is not continued is the first word. -/
theorem words_append_of_isName {name text : List Char} (isName : IsName name)
    (endsWord : EndsWord text) : words (name ++ text) = name :: words text := by
  rcases isName with ⟨nonempty, allWord⟩
  have noSplit : ∀ c ∈ name, (!isWord c) = false := fun c inName => by simp [allWord c inName]
  cases text with
  | nil =>
      rw [List.append_nil, words, List.splitOnP_eq_singleton noSplit, words_nil]
      simp [nonempty]
  | cons c text =>
      have noWord : isWord c = false := endsWord c rfl
      rw [words_cons_of_isWord_eq_false _ noWord, words,
        List.splitOnP_append_cons_of_forall_mem noSplit c (by simp [noWord])]
      simp [nonempty, words]

theorem endsWord_dropWhile (text : List Char) : EndsWord (text.dropWhile isWord) := by
  intro c isHead
  have notWord := List.head?_dropWhile_not isWord text
  rw [Option.mem_def.mp isHead] at notWord
  exact notWord

/-- A text that starts with a word character starts with a word. -/
theorem exists_name_append {c : Char} (text : List Char) (isWordChar : isWord c = true) :
    ∃ name after, c :: text = name ++ after ∧ IsName name ∧ EndsWord after := by
  refine ⟨(c :: text).takeWhile isWord, (c :: text).dropWhile isWord,
    List.takeWhile_append_dropWhile.symm, ⟨?_, ?_⟩, endsWord_dropWhile _⟩
  · simp [isWordChar]
  · exact fun d inName => List.mem_takeWhile_imp inName

/-- A text is its first word, with no word before it and the other words behind it. -/
theorem exists_first_word {text word : List Char} {others : List (List Char)}
    (wordsOf : words text = word :: others) :
    ∃ before after, text = before ++ word ++ after ∧ (∀ c ∈ before, isWord c = false) ∧
      IsName word ∧ EndsWord after ∧ words after = others := by
  induction text with
  | nil => simp [words_nil] at wordsOf
  | cons c text inductionHypothesis =>
      by_cases isWordChar : isWord c = true
      · rcases exists_name_append text isWordChar with ⟨name, after, split, isName, endsWord⟩
        rw [split, words_append_of_isName isName endsWord] at wordsOf
        rcases List.cons.inj wordsOf with ⟨rfl, rfl⟩
        exact ⟨[], after, split, by simp, isName, endsWord, rfl⟩
      · have noWord : isWord c = false := by simpa using isWordChar
        rw [words_cons_of_isWord_eq_false _ noWord] at wordsOf
        rcases inductionHypothesis wordsOf with ⟨before, after, rfl, beforeNoWord, rest⟩
        refine ⟨c :: before, after, rfl, ?_, rest⟩
        simpa [noWord] using beforeNoWord

theorem isWord_eq_false_of_words_eq_nil {text : List Char} (noWords : words text = []) :
    ∀ c ∈ text, isWord c = false := by
  induction text with
  | nil => simp
  | cons c text inductionHypothesis =>
      by_cases isWordChar : isWord c = true
      · rcases exists_name_append text isWordChar with ⟨name, after, split, isName, endsWord⟩
        rw [split, words_append_of_isName isName endsWord] at noWords
        exact absurd noWords (List.cons_ne_nil _ _)
      · have noWord : isWord c = false := by simpa using isWordChar
        rw [words_cons_of_isWord_eq_false _ noWord] at noWords
        simpa [noWord] using inductionHypothesis noWords

/-- The run is a longest run of word characters in the text: no word character stands next to it. -/
def IsWordOf (run text : List Char) : Prop :=
  ∃ before after, text = before ++ run ++ after ∧ IsName run ∧ EndsWord before.reverse ∧
    EndsWord after

theorem isWordOf_of_mem_words {run text : List Char} (isWord : run ∈ words text) :
    IsWordOf run text := by
  generalize wordsOf : words text = wordList at isWord
  induction wordList generalizing text with
  | nil => cases isWord
  | cons word others inductionHypothesis =>
      rcases exists_first_word wordsOf with ⟨before, after, rfl, noWord, isName, ends, wordsAfter⟩
      rcases List.mem_cons.mp isWord with rfl | isLater
      · refine ⟨before, after, rfl, isName, ?_, ends⟩
        intro c isLast
        exact noWord c (List.mem_reverse.mp (List.mem_of_mem_head? isLast))
      · rcases inductionHypothesis wordsAfter isLater with
          ⟨between, rest, rfl, isName', ends', endsRest⟩
        refine ⟨before ++ word ++ between, rest, by simp, isName', ?_, endsRest⟩
        -- The words do not touch: something is between them, and it ends with no word character.
        have nonempty : between ≠ [] := by
          rintro rfl
          rcases List.exists_cons_of_ne_nil isName'.1 with ⟨c, _, rfl⟩
          have noWord := ends c rfl
          rw [isName'.2 c List.mem_cons_self] at noWord
          cases noWord
        rw [List.reverse_append]
        exact endsWord_append_of_ne_nil (by simpa using nonempty) ends' _

theorem IsWordOf.append {run text rest : List Char} (isWordOf : IsWordOf run text)
    (ends : EndsWord rest) : IsWordOf run (text ++ rest) := by
  rcases isWordOf with ⟨before, after, rfl, isName, endsBefore, endsAfter⟩
  refine ⟨before, after ++ rest, by simp, isName, endsBefore, ?_⟩
  cases after with
  | nil => exact ends
  | cons c after => exact endsAfter

/-! ## Phrases -/

/-- The text is made of blanks and word characters, and these are its words. -/
def IsPhrase (wordList : List (List Char)) (text : List Char) : Prop :=
  (∀ c ∈ text, isBlank c = true ∨ isWord c = true) ∧ words text = wordList

theorem isPhrase_nil_iff {text : List Char} : IsPhrase [] text ↔ Blanks text := by
  constructor
  · rintro ⟨plain, noWords⟩ c inText
    have noWord := isWord_eq_false_of_words_eq_nil noWords c inText
    simpa [noWord] using plain c inText
  · intro blanks
    refine ⟨fun c inText => Or.inl (blanks c inText), ?_⟩
    simpa [words_nil] using words_append_of_blanks [] blanks

/-- A phrase is its first word, blanks before it, and a phrase of the other words. -/
theorem isPhrase_cons_iff {word text : List Char} {others : List (List Char)} :
    IsPhrase (word :: others) text ↔ ∃ before after, text = before ++ word ++ after ∧
      Blanks before ∧ IsName word ∧ EndsWord after ∧ IsPhrase others after := by
  constructor
  · rintro ⟨plain, wordsOf⟩
    rcases exists_first_word wordsOf with ⟨before, after, rfl, noWord, isName, endsWord, wordsAfter⟩
    refine ⟨before, after, rfl, ?_, isName, endsWord, ?_, wordsAfter⟩
    · intro c inBefore
      simpa [noWord c inBefore] using plain c (by simp [inBefore])
    · exact fun c inAfter => plain c (by simp [inAfter])
  · rintro ⟨before, after, rfl, blanks, isName, endsWord, plain, wordsAfter⟩
    constructor
    · intro c inText
      simp only [List.append_assoc, List.mem_append] at inText
      rcases inText with inBefore | inWord | inAfter
      · exact Or.inl (blanks c inBefore)
      · exact Or.inr (isName.2 c inWord)
      · exact plain c inAfter
    · rw [List.append_assoc, words_append_of_blanks _ blanks,
        words_append_of_isName isName endsWord, wordsAfter]

theorem isPhrase_append_of_blanks {run text : List Char} {wordList : List (List Char)}
    (blanks : Blanks run) : IsPhrase wordList (run ++ text) ↔ IsPhrase wordList text := by
  rw [IsPhrase, IsPhrase, words_append_of_blanks text blanks]
  constructor
  · rintro ⟨plain, wordsOf⟩
    exact ⟨fun c inText => plain c (List.mem_append_right _ inText), wordsOf⟩
  · rintro ⟨plain, wordsOf⟩
    refine ⟨fun c inBoth => ?_, wordsOf⟩
    rcases List.mem_append.mp inBoth with inRun | inText
    · exact Or.inl (blanks c inRun)
    · exact plain c inText

/-- What goes on after a word with a phrase of at least one word goes on with a gap. -/
theorem isPhrase_cons_and_endsWord_iff {word text : List Char} {others : List (List Char)} :
    EndsWord text ∧ IsPhrase (word :: others) text ↔ ∃ gap after, text = gap ++ word ++ after ∧
      IsGap gap ∧ IsName word ∧ EndsWord after ∧ IsPhrase others after := by
  rw [isPhrase_cons_iff]
  constructor
  · rintro ⟨endsText, before, after, rfl, blanks, isName, endsWord, isPhrase⟩
    refine ⟨before, after, rfl, ⟨?_, blanks⟩, isName, endsWord, isPhrase⟩
    rintro rfl
    rcases isName with ⟨nonempty, allWord⟩
    rcases List.exists_cons_of_ne_nil nonempty with ⟨c, rest, rfl⟩
    have noWord := endsText c rfl
    rw [allWord c List.mem_cons_self] at noWord
    exact Bool.noConfusion noWord
  · rintro ⟨gap, after, rfl, isGap, isName, endsWord, isPhrase⟩
    refine ⟨?_, gap, after, rfl, isGap.2, isName, endsWord, isPhrase⟩
    rw [List.append_assoc]
    exact endsWord_of_isGap isGap _

theorem isPhrase_of_endsWord_nil_iff {text : List Char} :
    EndsWord text ∧ IsPhrase [] text ↔ Blanks text := by
  rw [isPhrase_nil_iff]
  exact ⟨fun both => both.2, fun blanks => ⟨endsWord_of_blanks blanks, blanks⟩⟩

end DeclIndex.Text
