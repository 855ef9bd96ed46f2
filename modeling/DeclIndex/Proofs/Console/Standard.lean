import DeclIndex.Console.Standard
import DeclIndex.Proofs.Text.Integer

/-!
# What the standard console shows as it is

A text without opening brackets holds no style tags, so all that the standard console may leave out
of it are characters that move a cursor (`Console.standard_markup_of_noBracket`). No word holds
either (`Console.standard_markup_of_isWord`).
-/

namespace DeclIndex

theorem Markup.shownFrom_of_noBracket {text : List Char} (noBracket : '[' ∉ text)
    (opened : List (List Char)) (position count : Nat) :
    shownFrom opened position (.plain count) text = .ok (backslashes count ++ text) := by
  induction text generalizing position count with
  | nil => rw [shownFrom, List.append_nil]
  | cons c text inductionHypothesis =>
      rw [List.mem_cons, not_or] at noBracket
      rw [shownFrom]
      split
      next isBackslash =>
        -- The backslash joins those that came before it.
        rw [inductionHypothesis noBracket.2, isBackslash, backslashes, List.replicate_succ',
          List.append_assoc]
        rfl
      next =>
        rw [if_neg (Ne.symm noBracket.1), inductionHypothesis noBracket.2]
        rfl

namespace Console

variable {text : String}

theorem ofList_filter_isShown (areShown : ∀ c ∈ text.toList, isShown c = true) :
    String.ofList (text.toList.filter isShown) = text := by
  rw [List.filter_eq_self.mpr areShown, String.ofList_toList]

theorem standard_print_of_isShown (areShown : ∀ c ∈ text.toList, isShown c = true) :
    standard.print text = text ++ "\n" :=
  congrArg (· ++ "\n") (ofList_filter_isShown areShown)

theorem standard_markup_of_noBracket (noBracket : '[' ∉ text.toList)
    (areShown : ∀ c ∈ text.toList, isShown c = true) : standard.markup text = .ok text := by
  have isPlain : Markup.shown text.toList = .ok text.toList :=
    Markup.shownFrom_of_noBracket noBracket [] 0 0
  simp only [standard, isPlain, Except.map, ofList_filter_isShown areShown]

theorem isShown_of_isWord {c : Char} (isWord : Text.isWord c = true) : isShown c = true := by
  rw [isShown, Bool.not_eq_true', ← Bool.not_eq_true, List.contains_iff_mem]
  intro isHidden
  have noWord : ∀ code ∈ controls, Text.isWord (.ofNat code) = false := by decide
  have notWord := noWord _ isHidden
  rw [Char.ofNat_toNat, isWord] at notWord
  cases notWord

theorem standard_markup_toString (value : Int) :
    standard.markup (toString value) = .ok (toString value) := by
  apply standard_markup_of_noBracket
  · intro isBracket
    rcases Text.isWord_of_mem_toString isBracket with isMinus | isWord
    · cases isMinus
    · cases isWord
  · intro c isIn
    rcases Text.isWord_of_mem_toString isIn with rfl | isWord
    · rfl
    · exact isShown_of_isWord isWord

theorem standard_markup_of_isWord (areWord : ∀ c ∈ text.toList, Text.isWord c = true) :
    standard.markup text = .ok text := by
  apply standard_markup_of_noBracket
  · intro isBracket
    cases areWord '[' isBracket
  · intro c isIn
    exact isShown_of_isWord (areWord c isIn)

end Console

end DeclIndex
