import DeclIndex.Proofs.Rule.Functions

/-!
# The grammar of the rules for classes

Behind the blanks at its start, a line that declares a class has the keyword, a gap and the name,
which nothing continues (`Rule.IsClassHead`). The rules differ only in what may open the line before
the keyword (`Rule.IsOpening`), so `Rule.name?_iff_of_readsOpening` says for all of them what they
fire on. `Rule.classRules_grammar` collects the three forms.

The rules end with the captured name, so the order of the ways matters: the longest run of word
characters is captured. It is a word of the line, and the words before it tell which
(`Rule.classWord?`). What they tell does not depend on the rule, so all rules for classes
capture the same.
-/

namespace DeclIndex.Rule

open Pattern Text

variable {text name lead : List Char} {rule : Rule} {line : String} {previous : Option String}
  {before : Pattern} {keywords : List String} {joins : List Char → Prop}

/-! ## Names at the end of a pattern -/

/-- A name that a pattern captures at its end is not continued. -/
theorem exists_takes_of_name? {name : String}
    (isLine : ∀ text, rule.line.read? text = (seq before declared).read? text)
    (isName : rule.name? line previous = some name) :
    ∃ run after early, before.Takes run (name.toList ++ after) early ∧
      line.toList = run ++ (name.toList ++ after) ∧ IsName name.toList ∧ EndsWord after := by
  rcases (name?_eq_some_iff.mp isName).1 with ⟨r, reads, captured⟩
  rw [isLine] at reads
  rcases exists_takes_of_read?_seq_capture reads with
    ⟨run, rest, early, takes, split, nonempty, longest⟩
  rw [longest] at captured
  have isLongest : rest.takeWhile isWord = name.toList := Option.some.inj captured
  refine ⟨run, rest.dropWhile isWord, early, ?_, ?_, ⟨?_, ?_⟩, endsWord_dropWhile rest⟩
  · rw [← isLongest, List.takeWhile_append_dropWhile]
    exact takes
  · rw [← isLongest, List.takeWhile_append_dropWhile]
    exact split
  · rw [← isLongest]
    exact nonempty
  · intro c inName
    rw [← isLongest] at inName
    exact List.mem_takeWhile_imp inName

/-- The keyword of a class, a gap and a name that nothing continues. -/
def IsClassHead (name text : List Char) : Prop :=
  ∃ gap tail, text = "class".toList ++ (gap ++ (name ++ tail)) ∧
    IsGap gap ∧ IsName name ∧ EndsWord tail

/-- A rule that ends with the keyword and the name of a class finds a whole name. -/
theorem exists_isClassHead_of_name? {name : String}
    (isLine : ∀ text, rule.line.read? text = (seq before classHead).read? text)
    (isName : rule.name? line previous = some name) :
    ∃ run text rest early, before.Takes run rest early ∧ line.toList = run ++ text ∧
      IsClassHead name.toList text := by
  have isLine' : ∀ text, rule.line.read? text =
      (seq (seq (seq before (exactly "class")) gap) declared).read? text := by
    intro text
    calc
      rule.line.read? text = (seq before (seq (exactly "class") (seq gap declared))).read? text :=
        isLine text
      _ = (seq (seq before (exactly "class")) (seq gap declared)).read? text :=
        read?_seq_assoc ..
      _ = _ := read?_seq_assoc ..
  rcases exists_takes_of_name? isLine' isName with ⟨_, after, _, takes, split, facts⟩
  rcases takes with ⟨_, gap, _, _, takes, takesGap, rfl, _⟩
  rcases takes with ⟨run, _, early, _, takes, takesKeyword, rfl, _⟩
  rcases takes_gap.mp takesGap with ⟨isGap, _⟩
  rcases (takes_exactly _).mp takesKeyword with ⟨rfl, _⟩
  refine ⟨run, _, _, early, takes, ?_, gap, after, rfl, isGap, facts⟩
  rw [split]
  simp only [List.append_assoc]

theorem takes_classHead {run rest : List Char} {captured : Option (List Char)} :
    classHead.Takes run rest captured ↔ ∃ gap name, run = "class".toList ++ (gap ++ name) ∧
      captured = some name ∧ IsGap gap ∧ IsName name := by
  simp only [classHead, chain, Takes, takes_exactly, takes_gap, takes_declared]
  constructor
  · rintro ⟨_, _, _, _, ⟨rfl, rfl⟩, ⟨gap, name, _, _, ⟨isGap, rfl⟩, ⟨isName, rfl⟩, rfl, rfl⟩,
      rfl, rfl⟩
    exact ⟨gap, name, rfl, rfl, isGap, isName⟩
  · rintro ⟨gap, name, rfl, rfl, isGap, isName⟩
    exact ⟨_, gap ++ name, none, some name, ⟨rfl, rfl⟩,
      ⟨gap, name, none, some name, ⟨isGap, rfl⟩, ⟨isName, rfl⟩, rfl, rfl⟩, rfl, rfl⟩

/-- A rule that ends with the keyword and the name of a class fires where both stand. -/
theorem exists_name?_of_isClassHead {run : List Char} {early : Option (List Char)}
    (isLine : ∀ text, rule.line.read? text = (seq before classHead).read? text)
    (noPrevious : rule.previous = none) (takes : ∀ rest, before.Takes run rest early)
    (isHead : IsClassHead name text) (split : line.toList = run ++ text) :
    ∃ found, rule.name? line previous = some found := by
  rcases isHead with ⟨gap, tail, rfl, isGap, isName, _⟩
  have takesHead : classHead.Takes ("class".toList ++ (gap ++ name)) tail (some name) :=
    takes_classHead.mpr ⟨gap, name, rfl, rfl, isGap, isName⟩
  have takesAll : (seq before classHead).Takes (run ++ ("class".toList ++ (gap ++ name))) tail
      (some name) := ⟨run, _, early, _, takes _, takesHead, rfl, rfl⟩
  have sameText : line.toList = run ++ ("class".toList ++ (gap ++ name)) ++ tail := by
    simp only [split, List.append_assoc]
  rcases exists_read?_of_takes takesAll with ⟨r, reads⟩
  rw [← sameText, ← isLine] at reads
  have isRead := reads
  rw [isLine] at isRead
  rcases exists_takes_of_read? isRead with ⟨_, ⟨_, _, _, _, _, takesHead, _, captured⟩, _⟩
  rcases takes_classHead.mp takesHead with ⟨_, word, _, rfl, _, _⟩
  refine ⟨String.ofList word, name?_eq_some_iff.mpr ⟨⟨r, reads, ?_⟩, ?_⟩⟩
  · rw [captured, String.toList_ofList]
    rfl
  · simp [follows, noPrevious]

/-! ## The word that names a class -/

/-- The words that may stand before the keyword of a class. -/
def classLeads : List (List Char) :=
  ["export", "public", "private", "protected"].map String.toList

/-- The word that names a class, given the words of a line: the second, or the third if the first
is one that may stand before the keyword. -/
def classWord? : List (List Char) → Option (List Char)
  | [] => none
  | first :: others => if first ∈ classLeads then others[1]? else others[0]?

theorem classWord?_of_lead {first keyword name : List Char} {others : List (List Char)}
    (isLead : first ∈ classLeads) :
    classWord? (first :: keyword :: name :: others) = some name := by
  simp [classWord?, isLead]

theorem classWord?_of_keyword {keyword name : List Char} {others : List (List Char)}
    (notLead : keyword ∉ classLeads) : classWord? (keyword :: name :: others) = some name := by
  simp [classWord?, notLead]

theorem isName_class : IsName "class".toList :=
  isName_keyword (by simp)

theorem notLead_class : "class".toList ∉ classLeads := by
  decide

theorem isName_of_mem_classLeads (isLead : lead ∈ classLeads) : IsName lead := by
  rcases List.mem_map.mp isLead with ⟨keyword, isKeyword, rfl⟩
  apply isName_keyword
  simp only [List.mem_cons, List.not_mem_nil, or_false] at isKeyword ⊢
  tauto

/-- A word may be written together with the keyword of a class. Then both are one word. -/
theorem notLead_append_class (isLead : lead ∈ classLeads) :
    IsName (lead ++ "class".toList) ∧ lead ++ "class".toList ∉ classLeads := by
  have allNames : ∀ lead ∈ classLeads,
      (lead ++ "class".toList ≠ [] ∧ (lead ++ "class".toList).all isWord = true) ∧
        lead ++ "class".toList ∉ classLeads := by decide +kernel
  rcases allNames lead isLead with ⟨⟨nonempty, allWord⟩, notLead⟩
  exact ⟨⟨nonempty, List.all_eq_true.mp allWord⟩, notLead⟩

theorem words_keyword {keyword gap tail : List Char} (isKeyword : IsName keyword)
    (isGap : IsGap gap) (isName : IsName name) (endsWord : EndsWord tail) :
    words (keyword ++ (gap ++ (name ++ tail))) = keyword :: name :: words tail := by
  rw [words_append_of_isName isKeyword (endsWord_of_isGap isGap _),
    words_append_of_blanks _ isGap.2, words_append_of_isName isName endsWord]

/-! ## Openings -/

/-- One of some keywords, joined in some way to what follows, or nothing at all. -/
def IsOpening (keywords : List String) (joins : List Char → Prop) (lead : List Char) : Prop :=
  lead = [] ∨ ∃ keyword ∈ keywords, ∃ joint, lead = keyword.toList ++ joint ∧ joins joint

/-- The pattern takes any blanks and then an opening. -/
def ReadsOpening (before : Pattern) (keywords : List String) (joins : List Char → Prop) : Prop :=
  ∀ run rest captured, before.Takes run rest captured ↔
    (∃ start lead, run = start ++ lead ∧ Blanks start ∧ IsOpening keywords joins lead) ∧
      captured = none

/-- An opening may hold a word that stands before the keyword of a class, with blanks behind. -/
def OpensClass (keywords : List String) (joins : List Char → Prop) : Prop :=
  (∀ keyword ∈ keywords, keyword.toList ∈ classLeads) ∧ ∀ joint, joins joint → Blanks joint

theorem classWord?_of_isOpening (opens : OpensClass keywords joins)
    (isOpening : IsOpening keywords joins lead) (isHead : IsClassHead name text) :
    classWord? (words (lead ++ text)) = some name := by
  rcases isHead with ⟨gap, tail, rfl, isGap, isName, ends⟩
  rcases isOpening with rfl | ⟨keyword, isKeyword, joint, rfl, isJoint⟩
  · rw [List.nil_append, words_keyword isName_class isGap isName ends]
    exact classWord?_of_keyword notLead_class
  · have isLead := opens.1 keyword isKeyword
    by_cases together : joint = []
    · rcases notLead_append_class isLead with ⟨isWord, notLead⟩
      rw [together, List.append_nil, ← List.append_assoc, words_keyword isWord isGap isName ends]
      exact classWord?_of_keyword notLead
    · have isJointGap : IsGap joint := ⟨together, opens.2 joint isJoint⟩
      rw [List.append_assoc, words_keyword (isName_of_mem_classLeads isLead) isJointGap isName_class
        (endsWord_of_isGap isGap _), words_append_of_blanks _ isGap.2,
        words_append_of_isName isName ends]
      exact classWord?_of_lead isLead

/-- An opened class does not start with a blank. -/
theorem exists_isName_append_of_isOpening (opens : OpensClass keywords joins)
    (isOpening : IsOpening keywords joins lead) (isHead : IsClassHead name text) :
    ∃ word after, lead ++ text = word ++ after ∧ IsName word := by
  rcases isOpening with rfl | ⟨keyword, isKeyword, joint, rfl, _⟩
  · rcases isHead with ⟨gap, tail, rfl, _⟩
    exact ⟨_, _, List.nil_append _, isName_class⟩
  · exact ⟨_, _, List.append_assoc .., isName_of_mem_classLeads (opens.1 keyword isKeyword)⟩

/-! ## The rules -/

theorem classWord?_of_dropWhile (opens : OpensClass keywords joins)
    (split : line.toList.dropWhile isBlank = lead ++ text)
    (isOpening : IsOpening keywords joins lead) (isHead : IsClassHead name text) :
    classWord? (words line.toList) = some name := by
  rw [← words_dropWhile_isBlank, split]
  exact classWord?_of_isOpening opens isOpening isHead

theorem name?_iff_of_readsOpening
    (isLine : ∀ text, rule.line.read? text = (seq before classHead).read? text)
    (noPrevious : rule.previous = none) (reads : ReadsOpening before keywords joins)
    (opens : OpensClass keywords joins) {name : String} :
    rule.name? line previous = some name ↔ ∃ lead text,
      line.toList.dropWhile isBlank = lead ++ text ∧ IsOpening keywords joins lead ∧
        IsClassHead name.toList text := by
  have found_of_name? {found : String} (isFound : rule.name? line previous = some found) :
      ∃ lead text, line.toList.dropWhile isBlank = lead ++ text ∧ IsOpening keywords joins lead ∧
        IsClassHead found.toList text := by
    rcases exists_isClassHead_of_name? isLine isFound with
      ⟨run, text, rest, early, takes, split, isHead⟩
    rcases ((reads ..).mp takes).1 with ⟨start, lead, rfl, isBlank, isOpening⟩
    rcases exists_isName_append_of_isOpening opens isOpening isHead with ⟨word, after, same, isWord⟩
    refine ⟨lead, text, ?_, isOpening, isHead⟩
    rw [split, List.append_assoc, same]
    exact dropWhile_isBlank_append isBlank isWord after
  constructor
  · exact found_of_name?
  · rintro ⟨lead, text, split, isOpening, isHead⟩
    have whole : line.toList = line.toList.takeWhile isBlank ++ lead ++ text := by
      rw [List.append_assoc, ← split, List.takeWhile_append_dropWhile]
    have takes : ∀ rest, before.Takes (line.toList.takeWhile isBlank ++ lead) rest none := by
      intro rest
      exact (reads ..).mpr ⟨⟨_, lead, rfl, fun c => List.mem_takeWhile_imp, isOpening⟩, rfl⟩
    rcases exists_name?_of_isClassHead isLine noPrevious takes isHead whole with ⟨found, isFound⟩
    -- The rule finds some name, and the words of the line tell that it is the one asked for.
    rcases found_of_name? isFound with ⟨lead', text', split', isOpening', isHead'⟩
    have word := classWord?_of_dropWhile opens split isOpening isHead
    rw [classWord?_of_dropWhile opens split' isOpening' isHead', Option.some.injEq,
      String.toList_inj] at word
    rw [isFound, word]

theorem opensClass_export : OpensClass ["export"] IsGap := by
  refine ⟨?_, fun joint isGap => isGap.2⟩
  simp [classLeads]

theorem opensClass_visibility : OpensClass ["public", "private", "protected"] Blanks := by
  refine ⟨?_, fun joint isBlank => isBlank⟩
  simp [classLeads]

theorem opensClass_nil : OpensClass [] Blanks :=
  ⟨by simp, fun joint isBlank => isBlank⟩

theorem isOpening_nil_iff : IsOpening [] joins lead ↔ lead = [] := by
  simp [IsOpening]

theorem isOpening_single_iff {keyword : String} :
    IsOpening [keyword] IsGap lead ↔ IsLead keyword lead := by
  simp only [IsOpening, IsLead, List.mem_singleton, exists_eq_left, and_comm]

theorem readsOpening_classDeclaration :
    ReadsOpening (seq blanks (leading "export")) ["export"] IsGap := by
  intro run rest captured
  simp only [Takes, takes_blanks, takes_leading, isOpening_single_iff]
  constructor
  · rintro ⟨start, lead, _, _, ⟨isBlank, rfl⟩, ⟨isLead, rfl⟩, rfl, rfl⟩
    exact ⟨⟨start, lead, rfl, isBlank, isLead⟩, rfl⟩
  · rintro ⟨⟨start, lead, rfl, isBlank, isLead⟩, rfl⟩
    exact ⟨start, lead, none, none, ⟨isBlank, rfl⟩, ⟨isLead, rfl⟩, rfl, rfl⟩

theorem readsOpening_visibilityClass :
    ReadsOpening (seq (seq blanks (Pattern.optional (choice (exactly "public")
      [exactly "private", exactly "protected"]))) blanks) ["public", "private", "protected"]
      Blanks := by
  intro run rest captured
  constructor
  · rintro ⟨_, joint, _, _, ⟨start, lead, _, _, ⟨isBlank, rfl⟩, takesLead, rfl, rfl⟩,
      ⟨isBlank', rfl⟩, rfl, rfl⟩
    rcases takesLead with takesLead | ⟨rfl, rfl⟩
    · rcases (takes_keywords "public" ["private", "protected"]).mp takesLead with ⟨isLead, rfl⟩
      rcases List.mem_map.mp isLead with ⟨keyword, isKeyword, rfl⟩
      exact ⟨⟨start, _, List.append_assoc .., isBlank,
        Or.inr ⟨keyword, isKeyword, joint, rfl, isBlank'⟩⟩, rfl⟩
    · refine ⟨⟨start ++ joint, [], by simp, ?_, Or.inl rfl⟩, rfl⟩
      intro c inBoth
      exact (List.mem_append.mp inBoth).elim (isBlank c) (isBlank' c)
  · rintro ⟨⟨start, lead, rfl, isBlank, isOpening⟩, rfl⟩
    rcases isOpening with rfl | ⟨keyword, isKeyword, joint, rfl, isBlank'⟩
    · exact ⟨start, [], none, none, ⟨start, [], none, none, ⟨isBlank, rfl⟩, Or.inr ⟨rfl, rfl⟩,
        by simp, rfl⟩, ⟨blanks_nil, rfl⟩, rfl, rfl⟩
    · have takesLead : (choice (exactly "public") [exactly "private", exactly "protected"]).Takes
          keyword.toList (joint ++ rest) none :=
        (takes_keywords "public" ["private", "protected"]).mpr ⟨List.mem_map_of_mem isKeyword, rfl⟩
      exact ⟨start ++ keyword.toList, joint, none, none, ⟨start, _, none, none, ⟨isBlank, rfl⟩,
        Or.inl takesLead, rfl, rfl⟩, ⟨isBlank', rfl⟩, by simp, rfl⟩

theorem readsOpening_indentedClass : ReadsOpening blanks [] Blanks := by
  intro run rest captured
  simp [takes_blanks, isOpening_nil_iff]

theorem name?_classDeclaration_iff {name : String} :
    classDeclaration.name? line previous = some name ↔ ∃ lead text,
      line.toList.dropWhile isBlank = lead ++ text ∧ IsOpening ["export"] IsGap lead ∧
        IsClassHead name.toList text :=
  name?_iff_of_readsOpening (fun text => read?_seq_assoc blanks (leading "export") _ text) rfl
    readsOpening_classDeclaration opensClass_export

theorem name?_visibilityClass_iff {name : String} :
    visibilityClass.name? line previous = some name ↔ ∃ lead text,
      line.toList.dropWhile isBlank = lead ++ text ∧
        IsOpening ["public", "private", "protected"] Blanks lead ∧ IsClassHead name.toList text :=
  name?_iff_of_readsOpening (fun text => (read?_seq_assoc blanks _ _ text).trans
    (read?_seq_assoc _ blanks _ text)) rfl readsOpening_visibilityClass opensClass_visibility

theorem name?_indentedClass_iff {name : String} :
    indentedClass.name? line previous = some name ↔
      IsClassHead name.toList (line.toList.dropWhile isBlank) := by
  rw [name?_iff_of_readsOpening (fun _ => rfl) rfl readsOpening_indentedClass opensClass_nil]
  simp [isOpening_nil_iff]

theorem classWord?_of_mem_classRules {name : String} (isRule : rule ∈ classRules)
    (isName : rule.name? line previous = some name) :
    classWord? (words line.toList) = some name.toList := by
  simp only [classRules, List.mem_cons, List.not_mem_nil, or_false] at isRule
  rcases isRule with rfl | rfl | rfl
  · rcases name?_classDeclaration_iff.mp isName with ⟨lead, text, split, isOpening, isHead⟩
    exact classWord?_of_dropWhile opensClass_export split isOpening isHead
  · rcases name?_visibilityClass_iff.mp isName with ⟨lead, text, split, isOpening, isHead⟩
    exact classWord?_of_dropWhile opensClass_visibility split isOpening isHead
  · have isHead := name?_indentedClass_iff.mp isName
    exact classWord?_of_dropWhile opensClass_nil (List.nil_append _).symm (Or.inl rfl) isHead

/-- When the rules for classes fire, and with which name. What counts is the line without the blanks
at its start; the line before it does not count. -/
theorem classRules_grammar (line name : String) (previous other : Option String) :
    (classDeclaration.name? line previous = some name ↔ ∃ lead text,
      line.toList.dropWhile isBlank = lead ++ text ∧ IsOpening ["export"] IsGap lead ∧
        IsClassHead name.toList text) ∧
    (visibilityClass.name? line previous = some name ↔ ∃ lead text,
      line.toList.dropWhile isBlank = lead ++ text ∧
        IsOpening ["public", "private", "protected"] Blanks lead ∧
        IsClassHead name.toList text) ∧
    (indentedClass.name? line previous = some name ↔
      IsClassHead name.toList (line.toList.dropWhile isBlank)) ∧
    (classRules.map fun rule => rule.name? line previous) =
      classRules.map fun rule => rule.name? line other :=
  ⟨name?_classDeclaration_iff, name?_visibilityClass_iff, name?_indentedClass_iff, rfl⟩

end DeclIndex.Rule
