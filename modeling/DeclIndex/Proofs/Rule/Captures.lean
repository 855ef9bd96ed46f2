import DeclIndex.Proofs.Rule.Classes

/-!
# Rules capture words

Whatever a rule captures is a whole word of its line: a longest run of word characters. The rules
for functions capture the last word of a phrase that ends before a parenthesis or an equals sign.
-/

namespace DeclIndex

namespace Rule

open Text

variable {rule : Rule} {line name : String} {previous : Option String}

theorem endsWord_of_isMark {mark : Char} (isMark : IsMark mark) (text : List Char) :
    EndsWord (mark :: text) := by
  intro c isHead
  cases isHead
  exact isMark.2

/-- The last word of what stands before a mark is a whole word of the text. -/
theorem isWordOf_of_getLast? {mark : Char} {head rest word : List Char} (isMark : IsMark mark)
    (isLast : (words head).getLast? = some word) : IsWordOf word (head ++ mark :: rest) := by
  have isWord : word ∈ words head := List.mem_of_getLast? isLast
  exact (isWordOf_of_mem_words isWord).append (endsWord_of_isMark isMark rest)

theorem isWordOf_of_mem_functionRules (isRule : rule ∈ functionRules)
    (isName : rule.name? line previous = some name) : IsWordOf name.toList line.toList := by
  by_cases isArrow : rule = arrowBinding
  · subst isArrow
    rcases name?_arrowBinding_iff.mp isName with ⟨head, tail, rest, split, isBinding, _⟩
    rcases exists_phrase_of_isBinding isBinding with ⟨wordList, isPhrase, isLast⟩
    rw [split, List.append_assoc, List.cons_append]
    apply isWordOf_of_getLast? isMark_equals
    rw [isPhrase.2, isLast]
  · rcases hasPlainHeading_of_name? isRule isArrow isName with ⟨hasHeading, isLast⟩
    rcases exists_dropWhile_of_mem hasHeading.1 with ⟨rest, fromMark⟩
    have split : heading line.toList ++ '(' :: rest = line.toList := by
      rw [← fromMark]
      exact List.takeWhile_append_dropWhile
    rw [← split]
    exact isWordOf_of_getLast? isMark_parenthesis isLast

theorem mem_of_classWord? {wordList : List (List Char)} {word : List Char}
    (isWord : classWord? wordList = some word) : word ∈ wordList := by
  cases wordList with
  | nil => cases isWord
  | cons first others =>
      simp only [classWord?] at isWord
      split at isWord
      · exact List.mem_cons_of_mem _ (List.mem_of_getElem? isWord)
      · exact List.mem_cons_of_mem _ (List.mem_of_getElem? isWord)

theorem isWordOf_of_mem_classRules (isRule : rule ∈ classRules)
    (isName : rule.name? line previous = some name) : IsWordOf name.toList line.toList :=
  isWordOf_of_mem_words (mem_of_classWord? (classWord?_of_mem_classRules isRule isName))

end Rule

/-- The rules of a kind that can be listed. -/
theorem Kind.rules?_eq_some_iff {kind : Kind} {rules : List Rule} :
    kind.rules? = some rules ↔
      kind = functions ∧ rules = Rule.functionRules ∨ kind = classes ∧ rules = Rule.classRules := by
  unfold Kind.rules?
  by_cases isFunctions : kind = functions
  · subst isFunctions
    have different : functions ≠ classes := by decide
    simp [different, eq_comm]
  · by_cases isClasses : kind = classes
    · subst isClasses
      have noFunctions : (classes == functions) = false := rfl
      simp [List.lookup_cons, noFunctions, isFunctions, eq_comm]
    · simp [List.lookup_cons, beq_eq_false_iff_ne.mpr isFunctions,
        beq_eq_false_iff_ne.mpr isClasses, isFunctions, isClasses]

theorem Kind.exists_rules {kind : Kind} (isKind : kind = functions ∨ kind = classes) :
    ∃ rules, kind.rules? = some rules := by
  rcases isKind with rfl | rfl
  · exact ⟨_, rfl⟩
  · exact ⟨_, rfl⟩

theorem Kind.isWordOf_of_name? {kind : Kind} {rules : List Rule} {rule : Rule}
    {line name : String} {previous : Option String} (areRules : kind.rules? = some rules)
    (isRule : rule ∈ rules) (isName : rule.name? line previous = some name) :
    Text.IsWordOf name.toList line.toList := by
  rcases rules?_eq_some_iff.mp areRules with ⟨_, rfl⟩ | ⟨_, rfl⟩
  · exact Rule.isWordOf_of_mem_functionRules isRule isName
  · exact Rule.isWordOf_of_mem_classRules isRule isName

end DeclIndex
