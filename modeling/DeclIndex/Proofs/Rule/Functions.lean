import DeclIndex.Proofs.Rule.Heading
import Mathlib.Data.List.Basic

/-!
# The grammar of the rules for functions

Each rule is brought into a form in which the order of its ways no longer shows: by the words of a
heading, or for arrow functions by the whole line. `Rule.functionRules_grammar` collects the forms
of all seven rules.
-/

namespace DeclIndex.Rule

open Pattern Text

variable {run rest text name : List Char} {captured : Option (List Char)}
  {previous : Option String}

/-! ## Keywords -/

theorem isName_keyword {keyword : String}
    (isKeyword : keyword ∈ ["async", "function", "func", "def", "export", "const", "let", "var",
      "public", "private", "protected", "static", "class"]) :
    IsName keyword.toList := by
  have allNames : ∀ keyword ∈ ["async", "function", "func", "def", "export", "const", "let", "var",
      "public", "private", "protected", "static", "class"],
      keyword.toList ≠ [] ∧ keyword.toList.all isWord = true := by decide +kernel
  rcases allNames keyword isKeyword with ⟨nonempty, allWord⟩
  exact ⟨nonempty, List.all_eq_true.mp allWord⟩

/-! ## Rules with a keyword -/

/-- Nothing needs to follow the opening parenthesis. -/
def Anything (tail : List Char) : Prop :=
  tail = []

theorem exists_dropWhile_of_mem (isMember : '(' ∈ text) :
    ∃ rest, text.dropWhile (· != '(') = '(' :: rest := by
  induction text with
  | nil => cases isMember
  | cons c text inductionHypothesis =>
      by_cases isMark : c = '('
      · subst c
        exact ⟨text, by simp⟩
      · have inRest : '(' ∈ text := by simpa [Ne.symm isMark] using isMember
        rw [List.dropWhile_cons_of_pos (by simpa using isMark)]
        exact inductionHypothesis inRest

theorem closes_anything (hasHeading : HasPlainHeading text) : Closes Anything text := by
  rcases exists_dropWhile_of_mem hasHeading.1 with ⟨rest, fromMark⟩
  exact ⟨[], rest, fromMark, rfl⟩

/-- The words are a keyword and a name. -/
def IsCall (keyword : String) (wordList : List (List Char)) : Prop :=
  ∃ name, wordList = [keyword.toList, name]

theorem readsHeading_call {keyword : String} (isKeyword : IsName keyword.toList) :
    ReadsHeading (chain [blanks, call keyword]) (fun wordList _ => IsCall keyword wordList)
      Anything := by
  intro run rest captured
  simp only [chain, Takes, takes_blanks, takes_call]
  constructor
  · rintro ⟨before, _, _, _, ⟨isBlank, rfl⟩, ⟨name, after, rfl, rfl, follows⟩, rfl, rfl⟩
    refine ⟨before ++ keyword.toList ++ after, [keyword.toList, name], [], by simp, ?_,
      by simp, rfl, ⟨name, rfl⟩, rfl⟩
    exact isPhrase_cons_iff.mpr ⟨before, after, rfl, isBlank, isKeyword, follows⟩
  · rintro ⟨head, _, _, rfl, isPhrase, _, rfl, ⟨name, rfl⟩, rfl⟩
    rcases isPhrase_cons_iff.mp isPhrase with ⟨before, after, rfl, isBlank, _, follows⟩
    exact ⟨before, _, none, _, ⟨isBlank, rfl⟩, ⟨name, after, rfl, rfl, follows⟩, by simp, rfl⟩

theorem readsHeading_functionDeclaration :
    ReadsHeading functionDeclaration.line
      (fun wordList _ => IsCall "function" wordList ∨
        ∃ name, wordList = ["async".toList, "function".toList, name]) Anything := by
  intro run rest captured
  simp only [functionDeclaration, chain, Takes, takes_blanks, takes_leading, takes_call]
  constructor
  · rintro ⟨before, _, _, _, ⟨isBlank, rfl⟩, ⟨lead, _, _, _, ⟨isLead, rfl⟩,
      ⟨name, after, rfl, rfl, ends, follows⟩, rfl, rfl⟩, rfl, rfl⟩
    have isPhrase := isPhrase_of_isLead (isName_keyword (by simp)) isBlank isLead
      (isName_keyword (by simp) : IsName "function".toList) ends follows
    rcases isPhrase with isPhrase | isPhrase
    · exact ⟨_, _, [], by simp, isPhrase, by simp, rfl, Or.inl ⟨name, rfl⟩, rfl⟩
    · exact ⟨_, _, [], by simp, isPhrase, by simp, rfl, Or.inr ⟨name, rfl⟩, rfl⟩
  · rintro ⟨head, wordList, _, rfl, isPhrase, _, rfl, admitted, rfl⟩
    have hasName : ∃ name, wordList.getLast? = some name ∧
        (IsPhrase ["function".toList, name] head ∨
          IsPhrase ["async".toList, "function".toList, name] head) := by
      rcases admitted with ⟨name, rfl⟩ | ⟨name, rfl⟩
      · exact ⟨name, rfl, Or.inl isPhrase⟩
      · exact ⟨name, rfl, Or.inr isPhrase⟩
    rcases hasName with ⟨name, isLast, isPhrase⟩
    rcases exists_isLead_of_isPhrase isPhrase with
      ⟨before, lead, after, rfl, isBlank, isLead, _, follows⟩
    exact ⟨before, _, none, _, ⟨isBlank, rfl⟩, ⟨lead, _, none, _, ⟨isLead, rfl⟩,
      ⟨name, after, rfl, rfl, follows⟩, rfl, rfl⟩, by simp, by simp [isLast]⟩

/-! ## The rule with a return type -/

theorem takes_modifier :
    (Pattern.optional (choice (exactly "public") [exactly "private", exactly "protected",
      exactly "static", oneOrMore .word])).Takes run rest captured ↔
      (run = [] ∨ IsName run) ∧ captured = none := by
  simp only [Pattern.optional, Takes, takes_choice]
  constructor
  · rintro (⟨pattern, isChoice, takes⟩ | ⟨rfl, rfl⟩)
    · simp only [List.mem_cons, List.not_mem_nil, or_false] at isChoice
      rcases isChoice with rfl | rfl | rfl | rfl | rfl
      · rcases (takes_exactly _).mp takes with ⟨rfl, rfl⟩
        exact ⟨Or.inr (isName_keyword (by simp)), rfl⟩
      · rcases (takes_exactly _).mp takes with ⟨rfl, rfl⟩
        exact ⟨Or.inr (isName_keyword (by simp)), rfl⟩
      · rcases (takes_exactly _).mp takes with ⟨rfl, rfl⟩
        exact ⟨Or.inr (isName_keyword (by simp)), rfl⟩
      · rcases (takes_exactly _).mp takes with ⟨rfl, rfl⟩
        exact ⟨Or.inr (isName_keyword (by simp)), rfl⟩
      · rcases takes_word.mp takes with ⟨isName, rfl⟩
        exact ⟨Or.inr isName, rfl⟩
    · exact ⟨Or.inl rfl, rfl⟩
  · rintro ⟨rfl | isName, rfl⟩
    · exact Or.inr ⟨rfl, rfl⟩
    · exact Or.inl ⟨oneOrMore .word, by simp, takes_word.mpr ⟨isName, rfl⟩⟩

theorem takes_typedName :
    (chain [gap, oneOrMore .word, gap, declared, blanks, exactly "("]).Takes run rest captured ↔
      ∃ type name after, run = after ++ ['('] ∧ captured = some name ∧
        EndsWord after ∧ IsPhrase [type, name] after := by
  simp only [chain, Takes, takes_exactly, takes_gap, takes_word, takes_declared, takes_blanks,
    isPhrase_cons_and_endsWord_iff, isPhrase_of_endsWord_nil_iff]
  constructor
  · rintro ⟨gap, _, _, _, ⟨isGap, rfl⟩, ⟨type, _, _, _, ⟨isType, rfl⟩,
      ⟨gap', _, _, _, ⟨isGap', rfl⟩, ⟨name, _, _, _, ⟨isName, rfl⟩,
      ⟨after, _, _, _, ⟨isBlank, rfl⟩, ⟨rfl, rfl⟩, rfl, rfl⟩, rfl, rfl⟩, rfl, rfl⟩, rfl, rfl⟩,
      rfl, rfl⟩
    exact ⟨type, name, gap ++ type ++ (gap' ++ name ++ after), by simp, rfl, gap, _, rfl, isGap,
      isType, gap', after, rfl, isGap', isName, isBlank⟩
  · rintro ⟨type, name, _, rfl, rfl, gap, _, rfl, isGap, isType, gap', after, rfl, isGap', isName,
      isBlank⟩
    exact ⟨gap, _, none, _, ⟨isGap, rfl⟩, ⟨type, _, none, _, ⟨isType, rfl⟩,
      ⟨gap', _, none, _, ⟨isGap', rfl⟩, ⟨name, _, _, none, ⟨isName, rfl⟩,
      ⟨after, _, none, none, ⟨isBlank, rfl⟩, ⟨rfl, rfl⟩, rfl, rfl⟩, rfl, rfl⟩, rfl, rfl⟩, rfl, rfl⟩,
      by simp, rfl⟩

theorem readsHeading_typedReturn :
    ReadsHeading typedReturn.line
      (fun wordList head => wordList.length = 3 ∨ wordList.length = 2 ∧ EndsWord head)
      Anything := by
  intro run rest captured
  rw [typedReturn, takes_chain_cons, Takes]
  simp only [takes_blanks]
  constructor
  · rintro ⟨before, _, _, _, ⟨isBlank, rfl⟩, takes, rfl, rfl⟩
    rcases takes with ⟨modifier, _, _, _, takesModifier, takes, rfl, rfl⟩
    rcases takes_modifier.mp takesModifier with ⟨isModifier, rfl⟩
    rcases takes_typedName.mp takes with ⟨type, name, after, rfl, rfl, ends, isPhrase⟩
    rcases isModifier with rfl | isName
    · refine ⟨before ++ after, [type, name], [], by simp, ?_, by simp, rfl, Or.inr ⟨rfl, ?_⟩, rfl⟩
      · exact (isPhrase_append_of_blanks isBlank).mpr isPhrase
      · exact endsWord_append_of_blanks isBlank ends
    · refine ⟨before ++ modifier ++ after, [modifier, type, name], [], by simp, ?_, by simp, rfl,
        Or.inl rfl, rfl⟩
      exact isPhrase_cons_iff.mpr ⟨before, after, rfl, isBlank, isName, ends, isPhrase⟩
  · rintro ⟨head, wordList, _, rfl, isPhrase, _, rfl, admitted, rfl⟩
    rcases admitted with hasThree | ⟨hasTwo, ends⟩
    · rcases List.length_eq_three.mp hasThree with ⟨modifier, type, name, rfl⟩
      rcases isPhrase_cons_iff.mp isPhrase with ⟨before, after, rfl, isBlank, isName, follows⟩
      exact ⟨before, _, none, some name, ⟨isBlank, rfl⟩, ⟨modifier, _, none, some name,
        takes_modifier.mpr ⟨Or.inr isName, rfl⟩,
        takes_typedName.mpr ⟨type, name, after, rfl, rfl, follows⟩, rfl, rfl⟩, by simp, rfl⟩
    · rcases List.length_eq_two.mp hasTwo with ⟨type, name, rfl⟩
      exact ⟨[], _, none, some name, ⟨blanks_nil, rfl⟩, ⟨[], _, none, some name,
        takes_modifier.mpr ⟨Or.inl rfl, rfl⟩,
        takes_typedName.mpr ⟨type, name, head, rfl, rfl, ends, isPhrase⟩, rfl, rfl⟩, by simp, rfl⟩

/-! ## The rule for methods -/

/-- The parameters are closed on the same line, and a body follows. -/
def HasBody (tail : List Char) : Prop :=
  ∃ inside gap, '\n' ∉ inside ∧ Blanks gap ∧ tail = inside ++ ')' :: gap ++ ['\x7b']

theorem takes_methodTail :
    (chain [declared, blanks, parameters, blanks, one (.only '\x7b')]).Takes run rest captured ↔
      ∃ name after tail, run = name ++ after ++ '(' :: tail ∧ captured = some name ∧
        IsName name ∧ Blanks after ∧ HasBody tail := by
  simp only [chain, Takes, takes_declared, takes_blanks, takes_parameters, CharSet.contains,
    beq_iff_eq]
  constructor
  · rintro ⟨name, _, _, _, ⟨isName, rfl⟩, ⟨after, _, _, _, ⟨isBlank, rfl⟩, ⟨_, _, _, _,
      ⟨⟨inside, sameLine, rfl⟩, rfl⟩, ⟨gap, _, _, _, ⟨isGap, rfl⟩, ⟨⟨_, rfl, rfl⟩, rfl⟩,
      rfl, rfl⟩, rfl, rfl⟩, rfl, rfl⟩, rfl, rfl⟩
    exact ⟨name, after, inside ++ ')' :: gap ++ ['\x7b'], by simp, rfl, isName, isBlank,
      inside, gap, sameLine, isGap, rfl⟩
  · rintro ⟨name, after, _, rfl, rfl, isName, isBlank, inside, gap, sameLine, isGap, rfl⟩
    exact ⟨name, _, _, none, ⟨isName, rfl⟩, ⟨after, _, none, none, ⟨isBlank, rfl⟩,
      ⟨'(' :: inside ++ [')'], _, none, none, ⟨⟨inside, sameLine, rfl⟩, rfl⟩,
      ⟨gap, ['\x7b'], none, none, ⟨isGap, rfl⟩, ⟨⟨_, rfl, rfl⟩, rfl⟩, rfl, rfl⟩, rfl, rfl⟩,
      rfl, rfl⟩, by simp, rfl⟩

theorem readsHeading_methodAfterModifier :
    ReadsHeading methodAfterModifier.line
      (fun wordList _ => ∃ name, wordList = [name] ∨ wordList = ["async".toList, name])
      HasBody := by
  intro run rest captured
  rw [methodAfterModifier, takes_chain_cons, Takes]
  simp only [takes_blanks]
  constructor
  · rintro ⟨before, _, _, _, ⟨isBlank, rfl⟩, takes, rfl, rfl⟩
    rcases takes with ⟨lead, _, _, _, takesLead, takes, rfl, rfl⟩
    rcases (takes_leading _).mp takesLead with ⟨isLead, rfl⟩
    rcases takes_methodTail.mp takes with ⟨name, after, tail, rfl, rfl, isName, isBlank', hasBody⟩
    have isPhrase := isPhrase_of_isLead (isName_keyword (by simp)) isBlank isLead isName
      (endsWord_of_blanks isBlank') (isPhrase_nil_iff.mpr isBlank')
    rcases isPhrase with isPhrase | isPhrase
    · exact ⟨_, _, tail, by simp, isPhrase, by simp, rfl, ⟨name, Or.inl rfl⟩, hasBody⟩
    · exact ⟨_, _, tail, by simp, isPhrase, by simp, rfl, ⟨name, Or.inr rfl⟩, hasBody⟩
  · rintro ⟨head, wordList, tail, rfl, isPhrase, _, rfl, ⟨name, isForm⟩, hasBody⟩
    have isLast : wordList.getLast? = some name := by
      rcases isForm with rfl | rfl <;> rfl
    have isPhrase : IsPhrase [name] head ∨ IsPhrase ["async".toList, name] head := by
      rcases isForm with rfl | rfl
      · exact Or.inl isPhrase
      · exact Or.inr isPhrase
    rcases exists_isLead_of_isPhrase isPhrase with
      ⟨before, lead, after, rfl, isBlank, isLead, isName, _, isBlank'⟩
    rw [isPhrase_nil_iff] at isBlank'
    exact ⟨before, _, none, _, ⟨isBlank, rfl⟩, ⟨lead, _, none, some name,
      (takes_leading _).mpr ⟨isLead, rfl⟩,
      takes_methodTail.mpr ⟨name, after, tail, rfl, rfl, isName, isBlank', hasBody⟩, rfl, rfl⟩,
      by simp, by simp [isLast]⟩

/-- The line before, if there is one, starts with a modifier or an asterisk behind any blanks. -/
def AfterModifier (previous : Option String) : Prop :=
  ∀ line ∈ previous, ∃ before modifier rest, line.toList = before ++ modifier ++ rest ∧
    Blanks before ∧
      modifier ∈ ["public", "private", "protected", "static", "*"].map String.toList

theorem follows_methodAfterModifier_iff :
    methodAfterModifier.follows previous = true ↔ AfterModifier previous := by
  cases previous with
  | none => simp [follows, AfterModifier]
  | some line =>
      simp only [follows, methodAfterModifier, AfterModifier, Option.mem_some, forall_eq']
      constructor
      · intro isRead
        rcases Option.isSome_iff_exists.mp isRead with ⟨r, reads⟩
        rcases exists_takes_of_read? reads with ⟨_, takes, split⟩
        rcases takes with ⟨before, modifier, _, _, ⟨isBlank, _⟩, takesModifier, rfl, _⟩
        have isModifier := (takes_keywords "public" ["private", "protected", "static", "*"]).mp
          takesModifier
        exact ⟨before, modifier, r.rest, split, isBlank, isModifier.1⟩
      · rintro ⟨before, modifier, rest, split, isBlank, isModifier⟩
        rw [split]
        apply Option.isSome_iff_exists.mpr
        apply exists_read?_of_takes
        exact ⟨before, modifier, none, none, ⟨isBlank, rfl⟩,
          (takes_keywords "public" ["private", "protected", "static", "*"]).mpr ⟨isModifier, rfl⟩,
          rfl, rfl⟩

/-! ## The rule for arrow functions -/

/-- A keyword and a name, perhaps exported. -/
def IsBinding (name head : List Char) : Prop :=
  ∃ before lead keyword gap after, head = before ++ lead ++ keyword ++ gap ++ name ++ after ∧
    Blanks before ∧ IsLead "export" lead ∧ keyword ∈ ["const", "let", "var"].map String.toList ∧
    IsGap gap ∧ IsName name ∧ Blanks after

/-- Parameters on one line and an arrow, perhaps asynchronous. -/
def IsArrow (tail : List Char) : Prop :=
  ∃ before lead inside after,
    tail = before ++ lead ++ '(' :: inside ++ ')' :: after ++ ['=', '>'] ∧
    Blanks before ∧ IsLead "async" lead ∧ '\n' ∉ inside ∧ Blanks after

/-- The text starts with a name that is bound to an arrow function. -/
def BindsArrow (name text : List Char) : Prop :=
  ∃ head tail rest, text = head ++ '=' :: tail ++ rest ∧ IsBinding name head ∧ IsArrow tail

theorem takes_arrow :
    (chain [blanks, leading "async", parameters, blanks, exactly "=>"]).Takes run rest captured ↔
      IsArrow run ∧ captured = none := by
  simp only [chain, Takes, takes_blanks, takes_leading, takes_parameters, takes_exactly]
  constructor
  · rintro ⟨before, _, _, _, ⟨isBlank, rfl⟩, ⟨lead, _, _, _, ⟨isLead, rfl⟩, ⟨_, _, _, _,
      ⟨⟨inside, sameLine, rfl⟩, rfl⟩, ⟨after, _, _, _, ⟨isBlank', rfl⟩, ⟨rfl, rfl⟩, rfl, rfl⟩,
      rfl, rfl⟩, rfl, rfl⟩, rfl, rfl⟩
    exact ⟨⟨before, lead, inside, after, by simp, isBlank, isLead, sameLine, isBlank'⟩, rfl⟩
  · rintro ⟨⟨before, lead, inside, after, rfl, isBlank, isLead, sameLine, isBlank'⟩, rfl⟩
    exact ⟨before, _, none, none, ⟨isBlank, rfl⟩, ⟨lead, _, none, none, ⟨isLead, rfl⟩,
      ⟨'(' :: inside ++ [')'], _, none, none, ⟨⟨inside, sameLine, rfl⟩, rfl⟩,
      ⟨after, _, none, none, ⟨isBlank', rfl⟩, ⟨rfl, rfl⟩, rfl, rfl⟩, rfl, rfl⟩, rfl, rfl⟩,
      by simp, rfl⟩

theorem takes_arrowBinding :
    arrowBinding.line.Takes run rest captured ↔ ∃ name head tail,
      run = head ++ '=' :: tail ∧ captured = some name ∧ IsBinding name head ∧ IsArrow tail := by
  constructor
  · rintro ⟨before, _, _, _, ⟨isBlank, rfl⟩, ⟨lead, _, _, _, takesLead, ⟨keyword, _, _, _,
      takesKeyword, ⟨gap, _, _, _, takesGap, ⟨name, _, _, _, takesName, ⟨after, _, _, _,
      ⟨isBlank', rfl⟩, ⟨_, tail, _, _, takesEquals, takesArrow, rfl, rfl⟩, rfl, rfl⟩, rfl, rfl⟩,
      rfl, rfl⟩, rfl, rfl⟩, rfl, rfl⟩, rfl, rfl⟩
    rcases (takes_leading _).mp takesLead with ⟨isLead, rfl⟩
    rcases (takes_keywords "const" ["let", "var"]).mp takesKeyword with ⟨isKeyword, rfl⟩
    rcases takes_gap.mp takesGap with ⟨isGap, rfl⟩
    rcases takes_declared.mp takesName with ⟨isName, rfl⟩
    rcases (takes_exactly _).mp takesEquals with ⟨rfl, rfl⟩
    rcases takes_arrow.mp takesArrow with ⟨isArrow, rfl⟩
    exact ⟨name, before ++ lead ++ keyword ++ gap ++ name ++ after, tail, by simp, rfl,
      ⟨before, lead, keyword, gap, after, rfl, isBlank, isLead, isKeyword, isGap, isName, isBlank'⟩,
      isArrow⟩
  · rintro ⟨name, _, tail, rfl, rfl,
      ⟨before, lead, keyword, gap, after, rfl, isBlank, isLead, isKeyword, isGap, isName, isBlank'⟩,
      isArrow⟩
    refine ⟨before, _, none, some name, ⟨isBlank, rfl⟩, ⟨lead, _, none, some name,
      (takes_leading _).mpr ⟨isLead, rfl⟩, ⟨keyword, _, none, some name,
      (takes_keywords "const" ["let", "var"]).mpr ⟨isKeyword, rfl⟩, ⟨gap, _, none, some name,
      takes_gap.mpr ⟨isGap, rfl⟩, ⟨name, _, some name, none, takes_declared.mpr ⟨isName, rfl⟩,
      ⟨after, _, none, none, ⟨isBlank', rfl⟩, ⟨['='], tail, none, none,
      (takes_exactly _).mpr ⟨rfl, rfl⟩, takes_arrow.mpr ⟨isArrow, rfl⟩, rfl, rfl⟩,
      rfl, rfl⟩, rfl, rfl⟩, rfl, rfl⟩, rfl, rfl⟩, rfl, rfl⟩, ?_, rfl⟩
    simp

theorem exists_phrase_of_isBinding {name head : List Char} (isBinding : IsBinding name head) :
    ∃ wordList, IsPhrase wordList head ∧ wordList.getLast? = some name := by
  rcases isBinding with
    ⟨before, lead, keyword, gap, after, rfl, isBlank, isLead, isKeyword, isGap, isName, isBlank'⟩
  have isKeywordName : IsName keyword := by
    rcases List.mem_map.mp isKeyword with ⟨text, isText, rfl⟩
    apply isName_keyword
    simp only [List.mem_cons, List.not_mem_nil, or_false] at isText ⊢
    tauto
  have follows : EndsWord (gap ++ name ++ after) ∧ IsPhrase [name] (gap ++ name ++ after) :=
    isPhrase_cons_and_endsWord_iff.mpr ⟨gap, after, rfl, isGap, isName,
      isPhrase_of_endsWord_nil_iff.mpr isBlank'⟩
  have isPhrase := isPhrase_of_isLead (isName_keyword (by simp)) isBlank isLead isKeywordName
    follows.1 follows.2
  simp only [List.append_assoc] at isPhrase ⊢
  rcases isPhrase with isPhrase | isPhrase
  · exact ⟨_, isPhrase, rfl⟩
  · exact ⟨_, isPhrase, rfl⟩

theorem settled_arrowBinding : arrowBinding.line.Settled := by
  intro run rest captured run' rest' captured' takes takes' equal
  rcases takes_arrowBinding.mp takes with ⟨name, head, tail, rfl, rfl, isBinding, _⟩
  rcases takes_arrowBinding.mp takes' with ⟨name', head', tail', rfl, rfl, isBinding', _⟩
  rcases exists_phrase_of_isBinding isBinding with ⟨wordList, isPhrase, isLast⟩
  rcases exists_phrase_of_isBinding isBinding' with ⟨wordList', isPhrase', isLast'⟩
  rw [List.append_assoc, List.append_assoc, List.cons_append, List.cons_append] at equal
  rw [← isLast, ← isLast', phrase_unique isMark_equals isPhrase isPhrase' equal]

theorem name?_arrowBinding_iff {line name : String} :
    arrowBinding.name? line previous = some name ↔ BindsArrow name.toList line.toList := by
  rw [name?_eq_some_iff_of_settled settled_arrowBinding]
  constructor
  · rintro ⟨⟨run, rest, takes, split⟩, _⟩
    rcases takes_arrowBinding.mp takes with ⟨_, head, tail, rfl, captured, isBinding, isArrow⟩
    cases captured
    refine ⟨head, tail, rest, ?_, isBinding, isArrow⟩
    rw [split]
  · rintro ⟨head, tail, rest, split, isBinding, isArrow⟩
    refine ⟨⟨head ++ '=' :: tail, rest, ?_, ?_⟩, rfl⟩
    · exact takes_arrowBinding.mpr ⟨_, head, tail, rfl, rfl, isBinding, isArrow⟩
    · rw [split]

/-- No heading holds the equals sign of a bound arrow function. -/
theorem not_hasPlainHeading_of_bindsArrow (bindsArrow : BindsArrow name text) :
    ¬HasPlainHeading text := by
  rintro ⟨_, plain⟩
  rcases bindsArrow with ⟨head, tail, rest, rfl, isBinding, _⟩
  rcases exists_phrase_of_isBinding isBinding with ⟨wordList, isPhrase, _⟩
  have isMember : '=' ∈ heading (head ++ '=' :: tail ++ rest) := by
    rw [heading, List.append_assoc,
      List.takeWhile_append_of_pos (ne_of_mem_phrase isMark_parenthesis isPhrase)]
    simp
  rcases isMark_equals with ⟨noBlank, noWord⟩
  rcases plain _ isMember with blank | word
  · simp [blank] at noBlank
  · simp [word] at noWord

/-! ## All rules -/

theorem endsWord_heading_iff (hasHeading : HasPlainHeading text)
    (hasWords : words (heading text) ≠ []) :
    EndsWord (heading text) ↔ ∃ c ∈ text.head?, isBlank c = true := by
  rcases hasHeading with ⟨_, plain⟩
  cases text with
  | nil => exact absurd rfl hasWords
  | cons c text =>
      by_cases isMark : c = '('
      · subst c
        exact absurd rfl hasWords
      · have startsWith : heading (c :: text) = c :: heading text :=
          List.takeWhile_cons_of_pos (by simpa using isMark)
        rw [startsWith] at plain ⊢
        simp only [EndsWord, List.head?_cons, Option.mem_some, forall_eq', exists_eq_left']
        constructor
        · intro noWord
          simpa [noWord] using plain c List.mem_cons_self
        · exact isWord_eq_false_of_isBlank

theorem hasPlainHeading_of_name? {rule : Rule} (isRule : rule ∈ functionRules)
    (notArrow : rule ≠ arrowBinding) {line name : String}
    (isName : rule.name? line previous = some name) :
    HasPlainHeading line.toList ∧ (words (heading line.toList)).getLast? = some name.toList := by
  simp only [functionRules, List.mem_cons, List.not_mem_nil, or_false] at isRule
  rcases isRule with rfl | rfl | rfl | rfl | rfl | rfl | rfl
  · exact getLast?_heading_of_readsHeading readsHeading_functionDeclaration isName
  · exact absurd rfl notArrow
  · exact getLast?_heading_of_readsHeading readsHeading_methodAfterModifier isName
  · exact getLast?_heading_of_readsHeading (readsHeading_call (isName_keyword (by simp))) isName
  · exact getLast?_heading_of_readsHeading (readsHeading_call (isName_keyword (by simp))) isName
  · exact getLast?_heading_of_readsHeading readsHeading_typedReturn isName
  · exact getLast?_heading_of_readsHeading (readsHeading_call (isName_keyword (by simp))) isName

/-- A rule of a keyword and a name fires on the headings with these two words. -/
theorem isSome_name?_call_iff {rule : Rule} {keyword line : String}
    (isKeyword : IsName keyword.toList) (isLine : rule.line = chain [blanks, call keyword])
    (noPrevious : rule.previous = none) :
    (rule.name? line previous).isSome = true ↔ HasPlainHeading line.toList ∧
      ∃ name, words (heading line.toList) = [keyword.toList, name] := by
  have reads := readsHeading_call isKeyword
  rw [← isLine] at reads
  rw [isSome_name?_iff_of_readsHeading reads]
  constructor
  · rintro ⟨isPlain, _, isCall, _⟩
    exact ⟨isPlain, isCall⟩
  · rintro ⟨isPlain, name, wordsOf⟩
    refine ⟨isPlain, ?_, ⟨name, wordsOf⟩, closes_anything isPlain, ?_⟩
    · simp [wordsOf]
    · simp [follows, noPrevious]

/-- When the rules for functions fire, and on what. All but the one for arrow functions look at the
words of a heading and capture the last of them. -/
theorem functionRules_grammar (line : String) (previous : Option String) :
    (∀ rule ∈ functionRules, rule ≠ arrowBinding → ∀ name, rule.name? line previous = some name →
      HasPlainHeading line.toList ∧
        (words (heading line.toList)).getLast? = some name.toList) ∧
    ((functionDeclaration.name? line previous).isSome = true ↔ HasPlainHeading line.toList ∧
      ∃ name, words (heading line.toList) = ["function".toList, name] ∨
        words (heading line.toList) = ["async".toList, "function".toList, name]) ∧
    ((plainFunction.name? line previous).isSome = true ↔ HasPlainHeading line.toList ∧
      ∃ name, words (heading line.toList) = ["function".toList, name]) ∧
    ((shortKeyword.name? line previous).isSome = true ↔ HasPlainHeading line.toList ∧
      ∃ name, words (heading line.toList) = ["func".toList, name]) ∧
    ((indentedDefinition.name? line previous).isSome = true ↔ HasPlainHeading line.toList ∧
      ∃ name, words (heading line.toList) = ["def".toList, name]) ∧
    ((typedReturn.name? line previous).isSome = true ↔ HasPlainHeading line.toList ∧
      ((words (heading line.toList)).length = 3 ∨
        (words (heading line.toList)).length = 2 ∧ ∃ c ∈ line.toList.head?, isBlank c = true)) ∧
    ((methodAfterModifier.name? line previous).isSome = true ↔ HasPlainHeading line.toList ∧
      (∃ name, words (heading line.toList) = [name] ∨
        words (heading line.toList) = ["async".toList, name]) ∧
      Closes HasBody line.toList ∧ AfterModifier previous) ∧
    ∀ name, arrowBinding.name? line previous = some name ↔
      BindsArrow name.toList line.toList := by
  refine ⟨?_, ?_, ?_, ?_, ?_, ?_, ?_, ?_⟩
  · intro rule isRule notArrow name isName
    exact hasPlainHeading_of_name? isRule notArrow isName
  · rw [isSome_name?_iff_of_readsHeading readsHeading_functionDeclaration]
    constructor
    · rintro ⟨isPlain, _, ⟨name, wordsOf⟩ | ⟨name, wordsOf⟩, _⟩
      · exact ⟨isPlain, name, Or.inl wordsOf⟩
      · exact ⟨isPlain, name, Or.inr wordsOf⟩
    · rintro ⟨isPlain, name, wordsOf | wordsOf⟩
      · exact ⟨isPlain, by simp [wordsOf], Or.inl ⟨name, wordsOf⟩, closes_anything isPlain, rfl⟩
      · exact ⟨isPlain, by simp [wordsOf], Or.inr ⟨name, wordsOf⟩, closes_anything isPlain, rfl⟩
  · exact isSome_name?_call_iff (isName_keyword (by simp)) rfl rfl
  · exact isSome_name?_call_iff (isName_keyword (by simp)) rfl rfl
  · exact isSome_name?_call_iff (isName_keyword (by simp)) rfl rfl
  · rw [isSome_name?_iff_of_readsHeading readsHeading_typedReturn]
    constructor
    · rintro ⟨isPlain, hasWords, hasThree | ⟨hasTwo, ends⟩, _⟩
      · exact ⟨isPlain, Or.inl hasThree⟩
      · exact ⟨isPlain, Or.inr ⟨hasTwo, (endsWord_heading_iff isPlain hasWords).mp ends⟩⟩
    · rintro ⟨isPlain, admitted⟩
      have hasWords : words (heading line.toList) ≠ [] := by
        intro noWords
        simp [noWords] at admitted
      refine ⟨isPlain, hasWords, ?_, closes_anything isPlain, rfl⟩
      rcases admitted with hasThree | ⟨hasTwo, startsBlank⟩
      · exact Or.inl hasThree
      · exact Or.inr ⟨hasTwo, (endsWord_heading_iff isPlain hasWords).mpr startsBlank⟩
  · rw [isSome_name?_iff_of_readsHeading readsHeading_methodAfterModifier,
      follows_methodAfterModifier_iff]
    constructor
    · rintro ⟨isPlain, _, facts⟩
      exact ⟨isPlain, facts⟩
    · rintro ⟨isPlain, ⟨name, wordsOf⟩, facts⟩
      refine ⟨isPlain, ?_, ⟨name, wordsOf⟩, facts⟩
      rcases wordsOf with wordsOf | wordsOf <;> simp [wordsOf]
  · exact fun name => name?_arrowBinding_iff

end DeclIndex.Rule
