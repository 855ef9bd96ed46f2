import DeclIndex.Proofs.Declarations.LineOrder
import DeclIndex.Proofs.Pattern.Appended
import DeclIndex.Proofs.Rule.Captures
import DeclIndex.Proofs.Source.Lines

/-!
# Blanks at the ends of lines

Every pattern of a rule ends with a word, a mark or a keyword, never with blanks, so blanks at the
end of a line change neither what a rule finds on it nor whether the rule may follow it
(`Rule.name?_of_padded`). A scan therefore reports the same of lines with blanks at their ends
(`Declarations.scanFrom_of_padded`). In particular the two usual ways to end a line make no
difference to a file, since a carriage return is a blank at the end of the line before the line
feed (`declarations_ignore_padding`).
-/

namespace DeclIndex

open Text

/-- The second line is the first with blanks behind it. -/
def Padded (line other : String) : Prop :=
  ∃ blanks, Blanks blanks ∧ other.toList = line.toList ++ blanks

theorem padded_refl (line : String) : Padded line line :=
  ⟨[], blanks_nil, (List.append_nil _).symm⟩

/-! ## Rules -/

namespace Rule

open Pattern

variable {rule : Rule} {line lineToo : String} {previous previousToo : Option String}

/-- No pattern of the rule takes blanks at its end. -/
structure Firm (rule : Rule) : Prop where
  line : rule.line.Firm
  previous : ∀ pattern ∈ rule.previous, pattern.Firm

theorem follows_of_padded (firm : rule.Firm) (padded : Option.Rel Padded previous previousToo) :
    rule.follows previousToo = rule.follows previous := by
  cases padded with
  | none => rfl
  | some padded =>
      rcases padded with ⟨blanks, isBlank, isPadded⟩
      cases isPattern : rule.previous with
      | none => simp only [follows, isPattern]
      | some pattern =>
          simp only [follows, isPattern]
          rw [isPadded, read?_append_blanks (firm.previous pattern isPattern) _ isBlank,
            Option.isSome_map]

theorem name?_of_padded (firm : rule.Firm) (padded : Padded line lineToo)
    (paddedPrevious : Option.Rel Padded previous previousToo) :
    rule.name? lineToo previousToo = rule.name? line previous := by
  rcases padded with ⟨blanks, isBlank, isPadded⟩
  rw [name?, name?, isPadded, read?_append_blanks firm.line _ isBlank,
    follows_of_padded firm paddedPrevious]
  cases rule.line.read? line.toList with
  | none => rfl
  | some r => rfl

/-! ## The patterns of the rules -/

theorem firm_keywords (keyword : String) (others : List String)
    (endless : (choice (exactly keyword) (others.map exactly)).Endless)
    (firmly : ∀ word ∈ keyword :: others, endsFirmly word.toList = true) :
    (choice (exactly keyword) (others.map exactly)).Firm where
  endless := endless
  firmly := by
    rintro run rest ⟨captured, takes⟩
    rcases List.mem_map.mp ((takes_keywords keyword others).mp takes).1 with ⟨word, isWord, rfl⟩
    exact firmly word isWord

theorem firm_declared : declared.Firm where
  endless := by decide
  firmly := by
    rintro run rest ⟨captured, takes⟩
    rcases (takes_declared.mp takes).1 with ⟨nonempty, allWord⟩
    rw [endsFirmly, List.getLast?_eq_some_getLast nonempty, Option.any_some,
      isBlank_eq_false_of_isWord (allWord _ (List.getLast_mem nonempty))]
    rfl

theorem firm_parenthesis : (exactly "(").Firm :=
  firm_exactly (by decide +kernel)

theorem firm_call (keyword : String) : (call keyword).Firm :=
  firm_seq (endless_exactly keyword)
    (firm_chain [gap, declared, blanks] (by decide) firm_parenthesis)

theorem firm_classHead : classHead.Firm :=
  firm_chain [exactly "class", gap] (by decide +kernel) firm_declared

theorem firm_of_line (firm : rule.line.Firm) (noPrevious : rule.previous = none) : rule.Firm where
  line := firm
  previous := by simp [noPrevious]

theorem firm_arrowBinding : arrowBinding.Firm :=
  firm_of_line (firm_chain [blanks, _, _, gap, declared, blanks, exactly "=", blanks, _, parameters,
    blanks] (by decide +kernel) (firm_exactly (by decide +kernel))) rfl

theorem firm_methodAfterModifier : methodAfterModifier.Firm where
  line := firm_chain [blanks, _, declared, blanks, parameters, blanks] (by decide +kernel)
    (firm_exactly (by decide +kernel) : (exactly "\x7b").Firm)
  previous := by
    rintro pattern ⟨⟩
    exact firm_seq trivial (firm_keywords "public" ["private", "protected", "static", "*"]
      (by decide +kernel) (by decide +kernel))

-- A pattern is firm if its last piece is. Of the pieces before only the end of the text matters,
-- which none of them asks for.
theorem firm_of_mem_functionRules (isRule : rule ∈ functionRules) : rule.Firm := by
  simp only [functionRules, List.mem_cons, List.not_mem_nil, or_false] at isRule
  rcases isRule with rfl | rfl | rfl | rfl | rfl | rfl | rfl
  · exact firm_of_line (firm_chain [blanks, _] (by decide +kernel) (firm_call "function")) rfl
  · exact firm_arrowBinding
  · exact firm_methodAfterModifier
  · exact firm_of_line (firm_seq trivial (firm_call "func")) rfl
  · exact firm_of_line (firm_seq trivial (firm_call "def")) rfl
  · exact firm_of_line (firm_chain [blanks, _, gap, oneOrMore .word, gap, declared, blanks]
      (by decide +kernel) firm_parenthesis) rfl
  · exact firm_of_line (firm_seq trivial (firm_call "function")) rfl

theorem firm_of_mem_classRules (isRule : rule ∈ classRules) : rule.Firm := by
  simp only [classRules, List.mem_cons, List.not_mem_nil, or_false] at isRule
  rcases isRule with rfl | rfl | rfl
  · exact firm_of_line (firm_chain [blanks, _] (by decide +kernel) firm_classHead) rfl
  · exact firm_of_line (firm_chain [blanks, _, blanks] (by decide +kernel) firm_classHead) rfl
  · exact firm_of_line (firm_seq trivial firm_classHead) rfl

theorem firm_of_rules {kind : Kind} {rules : List Rule} (areRules : kind.rules? = some rules) :
    ∀ rule ∈ rules, rule.Firm := by
  rcases Kind.rules?_eq_some_iff.mp areRules with ⟨_, rfl⟩ | ⟨_, rfl⟩
  · exact fun _ => firm_of_mem_functionRules
  · exact fun _ => firm_of_mem_classRules

end Rule

/-! ## Scans -/

namespace Declarations

variable {rules : List Rule} {kind : Kind} {file : String} {lines linesToo seen : List String}
  {number : Nat} {previous previousToo : Option String}

theorem scanFrom_of_padded (firm : ∀ rule ∈ rules, rule.Firm)
    (padded : List.Forall₂ Padded lines linesToo)
    (paddedPrevious : Option.Rel Padded previous previousToo) :
    scanFrom (rules.map Rule.name?) kind file number previousToo seen linesToo =
      scanFrom (rules.map Rule.name?) kind file number previous seen lines := by
  induction padded generalizing number previous previousToo seen with
  | nil => rfl
  | @cons line lineToo lines linesToo paddedHere _ inductionHypothesis =>
      have sameNames : names (rules.map Rule.name?) lineToo previousToo =
          names (rules.map Rule.name?) line previous := by
        rw [names, names, List.filterMap_map, List.filterMap_map]
        exact List.filterMap_congr fun rule isRule =>
          Rule.name?_of_padded (firm rule isRule) paddedHere paddedPrevious
      rw [scanFrom, scanFrom, sameNames, inductionHypothesis (.some paddedHere)]

theorem scan_of_padded (firm : ∀ rule ∈ rules, rule.Firm)
    (padded : List.Forall₂ Padded lines linesToo) :
    scan rules kind file linesToo = scan rules kind file lines :=
  scanFrom_of_padded firm padded .none

end Declarations

/-! ## Ends of lines -/

namespace Text

/-- The text with a carriage return before every line feed. -/
def withReturns (text : List Char) : List Char :=
  text.flatMap fun c => if c = '\n' then ['\r', '\n'] else [c]

theorem withReturns_feed (text : List Char) :
    withReturns ('\n' :: text) = ['\r'] ++ '\n' :: withReturns text := by
  simp [withReturns]

theorem withReturns_cons {c : Char} (notFeed : c ≠ '\n') (text : List Char) :
    withReturns (c :: text) = c :: withReturns text := by
  simp [withReturns, notFeed]

theorem withoutMark_withReturns (text : List Char) :
    Utf8.withoutMark (withReturns text) = withReturns (Utf8.withoutMark text) := by
  cases text with
  | nil => rfl
  | cons c text =>
      by_cases isFeed : c = '\n'
      · subst c
        rfl
      · by_cases isMark : c = '\uFEFF'
        · subst c
          rfl
        · have keeps (text : List Char) : Utf8.withoutMark (c :: text) = c :: text := by
            unfold Utf8.withoutMark
            split
            next isCons => exact absurd (List.cons.inj isCons).1 isMark
            next => rfl
          rw [withReturns_cons isFeed, keeps, keeps, withReturns_cons isFeed]

open Source in
theorem padded_lines_withReturns (text : List Char) :
    List.Forall₂ Padded (lines text) (lines (withReturns text)) := by
  induction text with
  | nil => exact .cons (padded_refl _) .nil
  | cons c text inductionHypothesis =>
      by_cases isFeed : c = '\n'
      · subst c
        rw [withReturns_feed, lines_append]
        exact .cons ⟨['\r'], List.all_eq_true.mp (by decide +kernel), rfl⟩ inductionHypothesis
      · rw [withReturns_cons isFeed, lines_cons isFeed, lines_cons isFeed]
        generalize lines text = here, lines (withReturns text) = there at inductionHypothesis ⊢
        cases inductionHypothesis with
        | nil => exact .nil
        | cons paddedHere paddedLater =>
            rcases paddedHere with ⟨blanks, isBlank, isPadded⟩
            exact .cons ⟨blanks, isBlank, by simp [isPadded]⟩ paddedLater

end Text

/-- Blanks at the ends of lines are no part of what is declared there. So a file whose lines end in
a carriage return and a line feed declares what it does with line feeds alone. -/
theorem declarations_ignore_padding :
    (∀ (kind : Kind) (file : String) (lines linesToo : List String),
      List.Forall₂ Padded lines linesToo →
        Declarations.scan Rule.functionRules kind file linesToo =
            Declarations.scan Rule.functionRules kind file lines ∧
          Declarations.scan Rule.classRules kind file linesToo =
            Declarations.scan Rule.classRules kind file lines) ∧
    ∀ (fs other : FileSystem) (file base fileToo baseToo : Path) (kind : Kind) (text : List Char),
      (kind = .functions ∨ kind = .classes) →
      fs.read file = .ok (Utf8.encode text) →
      other.read fileToo = .ok (Utf8.encode (withReturns text)) →
      fs.relativePath file base = other.relativePath fileToo baseToo →
        ∃ records, Source.declarations fs file base kind = .ok records ∧
          Source.declarations other fileToo baseToo kind = .ok records := by
  constructor
  · intro kind file lines linesToo padded
    exact ⟨Declarations.scan_of_padded (fun _ => Rule.firm_of_mem_functionRules) padded,
      Declarations.scan_of_padded (fun _ => Rule.firm_of_mem_classRules) padded⟩
  · intro fs other file base fileToo baseToo kind text isKind isRead isReadToo sameLabel
    rcases Kind.exists_rules isKind with ⟨rules, areRules⟩
    have padded := padded_lines_withReturns (Utf8.withoutMark text)
    refine ⟨_, Source.declarations_of_text areRules (Source.text_of_read_encode isRead), ?_⟩
    rw [Source.declarations_of_text areRules (Source.text_of_read_encode isReadToo),
      withoutMark_withReturns, Declarations.scan_of_padded (Rule.firm_of_rules areRules) padded,
      sameLabel]

/-- The carriage returns are neither part of a name nor a hindrance: the modifier on the third line
still allows for the method on the next. -/
theorem declarations_ignore_padding_page :
    List.Forall₂ Padded ["class C"] ["class C \t"] ∧
    Declarations.scan Rule.classRules .classes "page" ["class C \t"] =
      [⟨"C", .classes, 1, "page"⟩] ∧
    withReturns "def f(\n\nstatic\nrun(x) \x7b".toList =
      "def f(\r\n\r\nstatic\r\nrun(x) \x7b".toList ∧
    Source.declarations
        (Source.pageFile (Utf8.encode "def f(\r\n\r\nstatic\r\nrun(x) \x7b".toList))
        ⟨.here, ["page"]⟩ ⟨.here, []⟩ .functions =
      .ok [⟨"f", .functions, 1, "page"⟩, ⟨"run", .functions, 4, "page"⟩] := by
  have isPadded : List.Forall₂ Padded ["class C"] ["class C \t"] :=
    .cons ⟨[' ', '\t'], List.all_eq_true.mp (by decide +kernel), rfl⟩ .nil
  refine ⟨isPadded, ?_, by decide, ?_⟩
  · rw [(declarations_ignore_padding.1 .classes "page" _ _ isPadded).2]
    decide +kernel
  · have isSmall : (Utf8.encode "def f(\n\nstatic\nrun(x) \x7b".toList).length <
        FileSystem.tooLarge := by decide +kernel
    have isSmallToo : (Utf8.encode (withReturns "def f(\n\nstatic\nrun(x) \x7b".toList)).length <
        FileSystem.tooLarge := by decide +kernel
    have isRead := Source.read_pageFile isSmall
    have isReadToo := Source.read_pageFile isSmallToo
    rcases declarations_ignore_padding.2 _ _ _ ⟨.here, []⟩ _ ⟨.here, []⟩ .functions _ (Or.inl rfl)
      isRead isReadToo rfl with ⟨records, areRecords, areRecordsToo⟩
    have isFirst : [⟨"f", .functions, 1, "page"⟩, ⟨"run", .functions, 4, "page"⟩] = records := by
      apply Except.ok.inj (ε := Failure)
      rw [← areRecords]
      decide +kernel
    rw [isFirst]
    exact areRecordsToo

end DeclIndex
