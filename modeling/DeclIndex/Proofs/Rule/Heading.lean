import DeclIndex.Proofs.Rule.Pieces
import Mathlib.Data.Option.Basic

/-!
# Rules that read a heading

All rules for functions but one read a phrase of words up to the first opening parenthesis of a
line, and capture its last word. `Rule.ReadsHeading` states this of a pattern, together with the
phrases that it admits and with what it wants behind the parenthesis. Since the words of a text do
not depend on how it is split, the pattern captures the same in whatever way it reads a line, and
the order in which it tries them does not show (`Rule.name?_iff_of_readsHeading`).

The remaining rule reads a phrase up to an equals sign instead, which no heading holds.
-/

namespace DeclIndex.Rule

open Pattern Text

variable {run rest text name : List Char} {captured : Option (List Char)} {rule : Rule}
  {line : String} {previous : Option String}

/-! ## Up to a mark -/

/-- The text before the first opening parenthesis. -/
def heading (text : List Char) : List Char :=
  text.takeWhile (· != '(')

/-- A character that ends every phrase. -/
def IsMark (mark : Char) : Prop :=
  isBlank mark = false ∧ isWord mark = false

theorem isMark_parenthesis : IsMark '(' := by
  constructor <;> decide +kernel

theorem isMark_equals : IsMark '=' := by
  constructor <;> decide +kernel

theorem ne_of_mem_phrase {mark : Char} (isMark : IsMark mark) {wordList : List (List Char)}
    (isPhrase : IsPhrase wordList text) : ∀ c ∈ text, (c != mark) = true := by
  intro c inText
  rw [bne_iff_ne]
  rintro rfl
  rcases isMark with ⟨noBlank, noWord⟩
  rcases isPhrase.1 c inText with blank | word
  · simp [blank] at noBlank
  · simp [word] at noWord

theorem takeWhile_phrase {mark : Char} (isMark : IsMark mark) {wordList : List (List Char)}
    (isPhrase : IsPhrase wordList text) (rest : List Char) :
    (text ++ mark :: rest).takeWhile (· != mark) = text := by
  rw [List.takeWhile_append_of_pos (ne_of_mem_phrase isMark isPhrase)]
  simp

theorem dropWhile_phrase {mark : Char} (isMark : IsMark mark) {wordList : List (List Char)}
    (isPhrase : IsPhrase wordList text) (rest : List Char) :
    (text ++ mark :: rest).dropWhile (· != mark) = mark :: rest := by
  rw [List.dropWhile_append_of_pos (ne_of_mem_phrase isMark isPhrase)]
  simp

theorem phrase_unique {mark : Char} (isMark : IsMark mark) {text text' rest rest' : List Char}
    {wordList wordList' : List (List Char)} (isPhrase : IsPhrase wordList text)
    (isPhrase' : IsPhrase wordList' text') (equal : text ++ mark :: rest = text' ++ mark :: rest') :
    wordList = wordList' := by
  have sameText : text = text' := by
    rw [← takeWhile_phrase isMark isPhrase rest, equal, takeWhile_phrase isMark isPhrase' rest']
  rw [← isPhrase.2, ← isPhrase'.2, sameText]

/-! ## Names of rules -/

theorem name?_eq_some_iff {name : String} :
    rule.name? line previous = some name ↔
      (∃ r, rule.line.read? line.toList = some r ∧ r.captured = some name.toList) ∧
        rule.follows previous = true := by
  simp only [name?, bind, Option.bind_eq_some_iff, pure, Option.some.injEq]
  constructor
  · rintro ⟨r, reads, _, guarded, letters, captured, rfl⟩
    refine ⟨⟨r, reads, ?_⟩, ?_⟩
    · rw [captured, String.toList_ofList]
    · by_contra notNext
      rw [guard, if_neg notNext] at guarded
      cases guarded
  · rintro ⟨⟨r, reads, captured⟩, isNext⟩
    refine ⟨r, reads, (), ?_, name.toList, captured, String.ofList_toList⟩
    rw [guard, if_pos isNext]
    rfl

theorem name?_eq_some_iff_of_settled (settled : rule.line.Settled) {name : String} :
    rule.name? line previous = some name ↔
      (∃ run rest, rule.line.Takes run rest (some name.toList) ∧ line.toList = run ++ rest) ∧
        rule.follows previous = true := by
  rw [name?_eq_some_iff, captured_read?_iff settled]

/-! ## Headings -/

/-- The pattern takes a phrase of admitted words, captures the last of them, and takes an opening
parenthesis with an admitted text behind it. -/
def ReadsHeading (pattern : Pattern) (admits : List (List Char) → List Char → Prop)
    (closes : List Char → Prop) : Prop :=
  ∀ run rest captured, pattern.Takes run rest captured ↔
    ∃ head wordList tail, run = head ++ '(' :: tail ∧ IsPhrase wordList head ∧
      wordList ≠ [] ∧ captured = wordList.getLast? ∧ admits wordList head ∧ closes tail

/-- The text has an opening parenthesis and nothing but blanks and word characters before it. -/
def HasPlainHeading (text : List Char) : Prop :=
  '(' ∈ text ∧ ∀ c ∈ heading text, isBlank c = true ∨ isWord c = true

/-- The text goes on with an admitted text behind its first opening parenthesis. -/
def Closes (closes : List Char → Prop) (text : List Char) : Prop :=
  ∃ tail rest, text.dropWhile (· != '(') = '(' :: tail ++ rest ∧ closes tail

variable {admits : List (List Char) → List Char → Prop} {closes : List Char → Prop}

theorem settled_of_readsHeading {pattern : Pattern} (reads : ReadsHeading pattern admits closes) :
    pattern.Settled := by
  intro run rest captured run' rest' captured' takes takes' equal
  rcases (reads ..).mp takes with ⟨head, wordList, tail, rfl, isPhrase, _, rfl, _, _⟩
  rcases (reads ..).mp takes' with ⟨head', wordList', tail', rfl, isPhrase', _, rfl, _, _⟩
  rw [List.append_assoc, List.append_assoc, List.cons_append, List.cons_append] at equal
  rw [phrase_unique isMark_parenthesis isPhrase isPhrase' equal]

theorem name?_iff_of_readsHeading (reads : ReadsHeading rule.line admits closes) {name : String} :
    rule.name? line previous = some name ↔
      HasPlainHeading line.toList ∧ (words (heading line.toList)).getLast? = some name.toList ∧
        admits (words (heading line.toList)) (heading line.toList) ∧
        Closes closes line.toList ∧ rule.follows previous = true := by
  rw [name?_eq_some_iff_of_settled (settled_of_readsHeading reads)]
  constructor
  · rintro ⟨⟨run, rest, takes, split⟩, isNext⟩
    rcases (reads ..).mp takes with
      ⟨head, wordList, tail, rfl, isPhrase, _, isLast, admitted, closed⟩
    rw [List.append_assoc, List.cons_append] at split
    have sameHead : heading line.toList = head := by
      rw [split]
      exact takeWhile_phrase isMark_parenthesis isPhrase _
    refine ⟨⟨?_, ?_⟩, ?_, ?_, ⟨tail, rest, ?_, closed⟩, isNext⟩
    · simp [split]
    · simpa [sameHead] using isPhrase.1
    · rw [sameHead, isPhrase.2, isLast]
    · simpa only [sameHead, isPhrase.2] using admitted
    · rw [split]
      exact dropWhile_phrase isMark_parenthesis isPhrase _
  · rintro ⟨⟨_, plain⟩, isLast, admitted, ⟨tail, rest, fromMark, closed⟩, isNext⟩
    refine ⟨⟨heading line.toList ++ '(' :: tail, rest, ?_, ?_⟩, isNext⟩
    · apply (reads ..).mpr
      refine ⟨_, _, tail, rfl, ⟨plain, rfl⟩, ?_, isLast.symm, admitted, closed⟩
      intro noWords
      simp [noWords] at isLast
    · rw [List.append_assoc, List.cons_append, ← List.cons_append, ← fromMark]
      exact List.takeWhile_append_dropWhile.symm

theorem getLast?_heading_of_readsHeading (reads : ReadsHeading rule.line admits closes)
    {name : String} (isName : rule.name? line previous = some name) :
    HasPlainHeading line.toList ∧ (words (heading line.toList)).getLast? = some name.toList := by
  rcases (name?_iff_of_readsHeading reads).mp isName with ⟨isPlain, isLast, _⟩
  exact ⟨isPlain, isLast⟩

theorem isSome_name?_iff_of_readsHeading (reads : ReadsHeading rule.line admits closes) :
    (rule.name? line previous).isSome = true ↔
      HasPlainHeading line.toList ∧ words (heading line.toList) ≠ [] ∧
        admits (words (heading line.toList)) (heading line.toList) ∧
        Closes closes line.toList ∧ rule.follows previous = true := by
  rw [Option.isSome_iff_exists]
  constructor
  · rintro ⟨name, isName⟩
    rcases (name?_iff_of_readsHeading reads).mp isName with ⟨isPlain, isLast, facts⟩
    refine ⟨isPlain, ?_, facts⟩
    intro noWords
    simp [noWords] at isLast
  · rintro ⟨isPlain, nonempty, facts⟩
    refine ⟨String.ofList ((words (heading line.toList)).getLast nonempty), ?_⟩
    apply (name?_iff_of_readsHeading reads).mpr
    refine ⟨isPlain, ?_, facts⟩
    rw [List.getLast?_eq_some_getLast nonempty, String.toList_ofList]

end DeclIndex.Rule
