import DeclIndex.Declarations
import DeclIndex.Proofs.Rule.Classes

/-!
# One declaration on each line

Several rules may fire on one line, but all rules of a kind that do yield the same name. For the
rules for functions this is the last word of a heading, for the rules for classes the word that
`Rule.classWord?` finds. So a line declares at most one name of a kind, and the records of a text
stand in strictly increasing order of their lines (`Declarations.one_name_on_each_line`).
-/

namespace DeclIndex

/-! ## Agreement of rules -/

/-- Those of the rules that fire on a line yield the same name. -/
def Rule.Agree (rules : List Rule) : Prop :=
  ∀ line previous, ∀ rule ∈ rules, ∀ other ∈ rules, ∀ name otherName,
    rule.name? line previous = some name → other.name? line previous = some otherName →
      name = otherName

namespace Rule

theorem agree_functionRules : Agree functionRules := by
  intro line previous rule isRule other isOther name otherName isName isOtherName
  by_cases isArrow : rule = arrowBinding
  · by_cases isOtherArrow : other = arrowBinding
    · rw [isOtherArrow, ← isArrow, isName] at isOtherName
      exact Option.some.inj isOtherName
    · rw [isArrow] at isName
      have isPlain := hasPlainHeading_of_name? isOther isOtherArrow isOtherName
      exact absurd isPlain.1 (not_hasPlainHeading_of_bindsArrow (name?_arrowBinding_iff.mp isName))
  · have isPlain := hasPlainHeading_of_name? isRule isArrow isName
    by_cases isOtherArrow : other = arrowBinding
    · rw [isOtherArrow] at isOtherName
      exact absurd isPlain.1
        (not_hasPlainHeading_of_bindsArrow (name?_arrowBinding_iff.mp isOtherName))
    · have isOtherPlain := hasPlainHeading_of_name? isOther isOtherArrow isOtherName
      apply String.toList_inj.mp
      apply Option.some.inj
      rw [← isPlain.2, ← isOtherPlain.2]

theorem agree_classRules : Agree classRules := by
  intro line previous rule isRule other isOther name otherName isName isOtherName
  apply String.toList_inj.mp
  apply Option.some.inj
  rw [← classWord?_of_mem_classRules isRule isName,
    ← classWord?_of_mem_classRules isOther isOtherName]

/-- The names that some rules yield on a line, in the order of the rules. -/
def names (rules : List Rule) (line : String) (previous : Option String) : List String :=
  Declarations.names (rules.map name?) line previous

theorem mem_names_iff {rules : List Rule} {line name : String} {previous : Option String} :
    name ∈ names rules line previous ↔ ∃ rule ∈ rules, rule.name? line previous = some name := by
  rw [names, Declarations.names, List.filterMap_map]
  exact List.mem_filterMap

theorem eq_of_mem_names {rules : List Rule} (agree : Agree rules) {line : String}
    {previous : Option String} {name other : String} (isName : name ∈ names rules line previous)
    (isOther : other ∈ names rules line previous) : name = other := by
  rcases mem_names_iff.mp isName with ⟨rule, isRule, yields⟩
  rcases mem_names_iff.mp isOther with ⟨otherRule, isOtherRule, otherYields⟩
  exact agree line previous rule isRule otherRule isOtherRule name other yields otherYields

end Rule

namespace Declarations

/-! ## Fresh names -/

variable {name : String} {names seen : List String}

theorem mem_fresh_iff : name ∈ fresh seen names ↔ name ∈ names ∧ name ∉ seen := by
  induction names generalizing seen with
  | nil => simp [fresh]
  | cons first names inductionHypothesis =>
      simp only [fresh]
      by_cases wasSeen : first ∈ seen
      · rw [if_pos (List.contains_iff_mem.mpr wasSeen), inductionHypothesis, List.mem_cons]
        constructor
        · rintro ⟨isName, notSeen⟩
          exact ⟨Or.inr isName, notSeen⟩
        · rintro ⟨rfl | isName, notSeen⟩
          · exact absurd wasSeen notSeen
          · exact ⟨isName, notSeen⟩
      · rw [if_neg (fun contains => wasSeen (List.contains_iff_mem.mp contains)), List.mem_cons,
          List.mem_cons, inductionHypothesis, List.mem_cons, not_or]
        by_cases isFirst : name = first
        · subst name
          simp [wasSeen]
        · simp [isFirst]

theorem nodup_fresh (seen names : List String) : (fresh seen names).Nodup := by
  induction names generalizing seen with
  | nil => exact List.nodup_nil
  | cons first names inductionHypothesis =>
      simp only [fresh]
      split
      · exact inductionHypothesis seen
      · apply List.nodup_cons.mpr
        refine ⟨?_, inductionHypothesis (first :: seen)⟩
        intro isFresh
        exact (mem_fresh_iff.mp isFresh).2 List.mem_cons_self

/-- Of names that are all the same at most one is fresh. -/
theorem length_fresh_le_one (allSame : ∀ name ∈ names, ∀ other ∈ names, name = other) :
    (fresh seen names).length ≤ 1 := by
  have nodup := nodup_fresh seen names
  cases isFresh : fresh seen names with
  | nil => exact Nat.zero_le 1
  | cons first others =>
      cases others with
      | nil => exact Nat.le_refl 1
      | cons second others =>
          have isFirst : first ∈ fresh seen names := by simp [isFresh]
          have isSecond : second ∈ fresh seen names := by simp [isFresh]
          have same :=
            allSame first (mem_fresh_iff.mp isFirst).1 second (mem_fresh_iff.mp isSecond).1
          simp [isFresh, same] at nodup

/-! ## Lines of records -/

theorem pairwise_of_length_le_one {α : Type} {related : α → α → Prop} {items : List α}
    (atMostOne : items.length ≤ 1) : items.Pairwise related := by
  rcases items with _ | ⟨first, _ | ⟨second, items⟩⟩
  · exact List.Pairwise.nil
  · exact List.pairwise_singleton _ _
  · simp at atMostOne

variable {finders : List Finder} {rules : List Rule} {kind : Kind} {file : String}

theorem number_le_line {record : Record} {lines : List String} {number : Nat}
    {previous : Option String} {seen : List String}
    (isRecord : record ∈ scanFrom finders kind file number previous seen lines) :
    (number : Int) ≤ record.line := by
  induction lines generalizing number previous seen with
  | nil => cases isRecord
  | cons line lines inductionHypothesis =>
      rcases List.mem_append.mp isRecord with isHere | isLater
      · rcases List.mem_map.mp isHere with ⟨name, _, rfl⟩
        exact Int.le_refl _
      · have above := inductionHypothesis isLater
        push_cast at above
        omega

/-- Every line adds at most one record, with a line number above all before it. -/
theorem pairwise_line_scanFrom (agree : Rule.Agree rules) (number : Nat)
    (previous : Option String) (seen lines : List String) :
    (scanFrom (rules.map Rule.name?) kind file number previous seen lines).Pairwise
      fun record later => record.line < later.line := by
  induction lines generalizing number previous seen with
  | nil => exact List.Pairwise.nil
  | cons line lines inductionHypothesis =>
      apply List.pairwise_append.mpr
      refine ⟨?_, inductionHypothesis .., ?_⟩
      · have atMostOne : (fresh seen (Rule.names rules line previous)).length ≤ 1 := by
          apply length_fresh_le_one
          intro name isName other isOther
          exact Rule.eq_of_mem_names agree isName isOther
        apply pairwise_of_length_le_one
        rw [List.length_map]
        exact atMostOne
      · intro record isHere later isLater
        rcases List.mem_map.mp isHere with ⟨name, _, rfl⟩
        have above := number_le_line isLater
        push_cast at above
        simp only
        omega

/-- The rules of a kind agree on every line, so no line declares two names of one kind. -/
theorem one_name_on_each_line :
    Rule.Agree Rule.functionRules ∧ Rule.Agree Rule.classRules ∧
    ∀ kind file lines,
      (scan Rule.functionRules kind file lines).Pairwise (fun record later =>
        record.line < later.line) ∧
      (scan Rule.classRules kind file lines).Pairwise fun record later =>
        record.line < later.line := by
  refine ⟨Rule.agree_functionRules, Rule.agree_classRules, ?_⟩
  intro kind file lines
  constructor
  · exact pairwise_line_scanFrom Rule.agree_functionRules 1 none [] lines
  · exact pairwise_line_scanFrom Rule.agree_classRules 1 none [] lines

end Declarations

end DeclIndex
