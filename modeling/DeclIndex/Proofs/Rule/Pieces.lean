import DeclIndex.Rule
import DeclIndex.Proofs.Pattern.Building
import DeclIndex.Proofs.Text.Words

/-!
# What the pieces of the rules take

One lemma for each piece that the rules are built from. They describe the runs that a piece takes by
blanks, gaps, names and phrases, so that the rules themselves need not be opened down to single
characters.
-/

namespace DeclIndex

namespace Rule

open Pattern Text

variable {run rest : List Char} {captured : Option (List Char)}

theorem takes_blanks : blanks.Takes run rest captured ↔ Blanks run ∧ captured = none := Iff.rfl

theorem takes_gap : gap.Takes run rest captured ↔ IsGap run ∧ captured = none :=
  takes_oneOrMore .blank

theorem takes_word :
    (oneOrMore .word).Takes run rest captured ↔ IsName run ∧ captured = none :=
  takes_oneOrMore .word

theorem takes_declared : declared.Takes run rest captured ↔ IsName run ∧ captured = some run := by
  simp only [declared, Takes, takes_word, exists_and_left, exists_eq, and_true]

/-- A keyword and the gap after it, or nothing. -/
def IsLead (keyword : String) (run : List Char) : Prop :=
  run = [] ∨ ∃ gap, IsGap gap ∧ run = keyword.toList ++ gap

theorem takes_leading (keyword : String) :
    (leading keyword).Takes run rest captured ↔ IsLead keyword run ∧ captured = none := by
  simp only [leading, Pattern.optional, chain, Takes, takes_exactly, takes_gap]
  constructor
  · rintro (⟨_, gap, _, _, ⟨rfl, rfl⟩, ⟨isGap, rfl⟩, rfl, rfl⟩ | ⟨rfl, rfl⟩)
    · exact ⟨Or.inr ⟨gap, isGap, rfl⟩, rfl⟩
    · exact ⟨Or.inl rfl, rfl⟩
  · rintro ⟨rfl | ⟨gap, isGap, rfl⟩, rfl⟩
    · exact Or.inr ⟨rfl, rfl⟩
    · exact Or.inl ⟨_, gap, none, none, ⟨rfl, rfl⟩, ⟨isGap, rfl⟩, rfl, rfl⟩

/-- Parentheses around anything on one line. -/
def IsParameters (run : List Char) : Prop :=
  ∃ inside, '\n' ∉ inside ∧ run = '(' :: inside ++ [')']

theorem takes_parameters :
    parameters.Takes run rest captured ↔ IsParameters run ∧ captured = none := by
  simp only [parameters, chain, Takes, takes_exactly, CharSet.contains, bne_iff_ne]
  constructor
  · rintro ⟨_, _, _, _, ⟨rfl, rfl⟩, ⟨inside, _, _, _, ⟨sameLine, rfl⟩, ⟨rfl, rfl⟩, rfl, rfl⟩,
      rfl, rfl⟩
    exact ⟨⟨inside, fun isFeed => sameLine _ isFeed rfl, rfl⟩, rfl⟩
  · rintro ⟨⟨inside, sameLine, rfl⟩, rfl⟩
    exact ⟨_, _, none, none, ⟨rfl, rfl⟩, ⟨inside, _, none, none,
      ⟨fun c inInside isFeed => sameLine (isFeed ▸ inInside), rfl⟩, ⟨rfl, rfl⟩, rfl, rfl⟩, rfl, rfl⟩

/-! ## Phrases -/

/-- A blank start, an optional first keyword, a word and a phrase behind it are a phrase. -/
theorem isPhrase_of_isLead {keyword : String} (isKeyword : IsName keyword.toList)
    {before lead word after : List Char} {others : List (List Char)} (isBlank : Blanks before)
    (isLead : IsLead keyword lead) (isName : IsName word) (endsWord : EndsWord after)
    (isPhrase : IsPhrase others after) :
    IsPhrase (word :: others) (before ++ lead ++ word ++ after) ∨
      IsPhrase (keyword.toList :: word :: others) (before ++ lead ++ word ++ after) := by
  rcases isLead with rfl | ⟨gap, isGap, rfl⟩
  · left
    exact isPhrase_cons_iff.mpr
      ⟨before, after, by simp, isBlank, isName, endsWord, isPhrase⟩
  · right
    have follows := isPhrase_cons_and_endsWord_iff.mpr
      ⟨gap, after, rfl, isGap, isName, endsWord, isPhrase⟩
    exact isPhrase_cons_iff.mpr
      ⟨before, gap ++ word ++ after, by simp, isBlank, isKeyword, follows⟩

/-- A phrase that may have a first keyword starts with blanks, perhaps the keyword, and a word. -/
theorem exists_isLead_of_isPhrase {keyword : String} {word text : List Char}
    {others : List (List Char)}
    (isPhrase : IsPhrase (word :: others) text ∨
      IsPhrase (keyword.toList :: word :: others) text) :
    ∃ before lead after, text = before ++ lead ++ word ++ after ∧ Blanks before ∧
      IsLead keyword lead ∧ IsName word ∧ EndsWord after ∧ IsPhrase others after := by
  rcases isPhrase with isPhrase | isPhrase
  · rcases isPhrase_cons_iff.mp isPhrase with ⟨before, after, rfl, isBlank, facts⟩
    exact ⟨before, [], after, by simp, isBlank, Or.inl rfl, facts⟩
  · rcases isPhrase_cons_iff.mp isPhrase with ⟨before, _, rfl, isBlank, _, follows⟩
    rcases isPhrase_cons_and_endsWord_iff.mp follows with ⟨gap, after, rfl, isGap, facts⟩
    exact ⟨before, keyword.toList ++ gap, after, by simp, isBlank, Or.inr ⟨gap, isGap, rfl⟩, facts⟩

/-- A keyword, a name and an opening parenthesis, where the name and the blanks around it are a
phrase. -/
theorem takes_call (keyword : String) :
    (call keyword).Takes run rest captured ↔ ∃ name after,
      run = keyword.toList ++ after ++ ['('] ∧ captured = some name ∧
        EndsWord after ∧ IsPhrase [name] after := by
  simp only [call, chain, Takes, takes_exactly, takes_gap, takes_declared, takes_blanks,
    isPhrase_cons_and_endsWord_iff, isPhrase_of_endsWord_nil_iff]
  constructor
  · rintro ⟨_, _, _, _, ⟨rfl, rfl⟩, ⟨gap, _, _, _, ⟨isGap, rfl⟩, ⟨name, _, _, _, ⟨isName, rfl⟩,
      ⟨after, _, _, _, ⟨isBlank, rfl⟩, ⟨rfl, rfl⟩, rfl, rfl⟩, rfl, rfl⟩, rfl, rfl⟩, rfl, rfl⟩
    exact ⟨name, gap ++ name ++ after, by simp, rfl, gap, after, rfl, isGap, isName, isBlank⟩
  · rintro ⟨name, _, rfl, rfl, gap, after, rfl, isGap, isName, isBlank⟩
    exact ⟨_, gap ++ (name ++ (after ++ ['('])), _, _, ⟨rfl, rfl⟩, ⟨gap, _, _, _, ⟨isGap, rfl⟩,
      ⟨name, _, _, _, ⟨isName, rfl⟩, ⟨after, _, _, _, ⟨isBlank, rfl⟩, ⟨rfl, rfl⟩, rfl, rfl⟩,
      rfl, rfl⟩, rfl, rfl⟩, by simp, rfl⟩

end Rule

end DeclIndex
