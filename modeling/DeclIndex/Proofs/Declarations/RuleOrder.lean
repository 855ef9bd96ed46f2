import DeclIndex.Proofs.Declarations.LineOrder

/-!
# The order of the rules

A scan tries the rules one after the other and counts a name where it is met first, so in general
both the order of the rules and each single rule may show in its result. Where the rules agree on
every line they do not: of the names that a line yields only the set counts
(`Declarations.scan_congr_rules`). So the rules of a kind may be tried in any order, and a rule may
be left out if another one yields all that it does (`Rule.Redundant`).
-/

namespace DeclIndex

namespace Rule

variable {rules others : List Rule} {rule : Rule}

/-- Two lists of rules yield the same names on every line. -/
def SameNames (rules others : List Rule) : Prop :=
  ∀ line previous name, name ∈ names rules line previous ↔ name ∈ names others line previous

/-- Another rule yields every name that the rule does. -/
def Redundant (rule : Rule) (rules : List Rule) : Prop :=
  ∃ other ∈ rules, other ≠ rule ∧ ∀ line previous name,
    rule.name? line previous = some name → other.name? line previous = some name

theorem sameNames_of_perm (permuted : rules.Perm others) : SameNames rules others := by
  intro line previous name
  exact ((permuted.map name?).filterMap _).mem_iff

theorem SameNames.trans {further : List Rule} (same : SameNames rules others)
    (sameToo : SameNames others further) : SameNames rules further := by
  intro line previous name
  exact (same line previous name).trans (sameToo line previous name)

theorem Redundant.of_perm (redundant : Redundant rule others) (permuted : rules.Perm others) :
    Redundant rule rules := by
  rcases redundant with ⟨other, isRule, isOther, yieldsAll⟩
  exact ⟨other, permuted.mem_iff.mpr isRule, isOther, yieldsAll⟩

theorem Redundant.sameNames_erase (redundant : Redundant rule rules) :
    SameNames (rules.erase rule) rules := by
  rcases redundant with ⟨other, isRule, isOther, yieldsAll⟩
  intro line previous name
  simp only [mem_names_iff]
  constructor
  · rintro ⟨found, isFound, yields⟩
    exact ⟨found, List.mem_of_mem_erase isFound, yields⟩
  · rintro ⟨found, isFound, yields⟩
    by_cases isErased : found = rule
    · subst found
      exact ⟨other, (List.mem_erase_of_ne isOther).mpr isRule, yieldsAll _ _ _ yields⟩
    · exact ⟨found, (List.mem_erase_of_ne isErased).mpr isFound, yields⟩

/-- A function with its keyword may also be asynchronous. -/
theorem redundant_plainFunction : Redundant plainFunction functionRules := by
  refine ⟨functionDeclaration, by simp [functionRules], by decide, ?_⟩
  intro line previous name isName
  have readsPlain : ReadsHeading plainFunction.line (fun wordList _ => IsCall "function" wordList)
      Anything := readsHeading_call (isName_keyword (by simp))
  rcases (name?_iff_of_readsHeading readsPlain).mp isName with
    ⟨isPlain, isLast, isCall, closes, _⟩
  apply (name?_iff_of_readsHeading readsHeading_functionDeclaration).mpr
  exact ⟨isPlain, isLast, Or.inl isCall, closes, rfl⟩

/-- A class with nothing before its keyword may also be exported. -/
theorem redundant_indentedClass : Redundant indentedClass classRules := by
  refine ⟨classDeclaration, by simp [classRules], by decide, ?_⟩
  intro line previous name isName
  apply name?_classDeclaration_iff.mpr
  exact ⟨[], _, (List.nil_append _).symm, Or.inl rfl, name?_indentedClass_iff.mp isName⟩

end Rule

namespace Declarations

variable {rules others : List Rule} {rule : Rule} {kind : Kind} {file : String}
  {seen names namesToo : List String}

/-- Of names that are all the same only the set matters. -/
theorem fresh_congr (allSame : ∀ name ∈ names, ∀ other ∈ names, name = other)
    (same : ∀ name, name ∈ names ↔ name ∈ namesToo) : fresh seen names = fresh seen namesToo := by
  have permuted : (fresh seen names).Perm (fresh seen namesToo) := by
    apply (List.perm_ext_iff_of_nodup (nodup_fresh seen names) (nodup_fresh seen namesToo)).mpr
    intro name
    rw [mem_fresh_iff, mem_fresh_iff, same]
  have atMostOne : (fresh seen names).length ≤ 1 := length_fresh_le_one allSame
  generalize fresh seen names = found at permuted atMostOne
  rcases found with _ | ⟨name, _ | ⟨other, found⟩⟩
  · exact permuted.nil_eq
  · exact List.singleton_perm.mp permuted
  · simp at atMostOne

/-- A scan depends on the set of the names that each line yields. -/
theorem scanFrom_congr_rules (agree : Rule.Agree rules) (same : Rule.SameNames rules others)
    (number : Nat) (previous : Option String) (seen lines : List String) :
    scanFrom (rules.map Rule.name?) kind file number previous seen lines =
      scanFrom (others.map Rule.name?) kind file number previous seen lines := by
  induction lines generalizing number previous seen with
  | nil => rfl
  | cons line lines inductionHypothesis =>
      have sameHere : fresh seen (Rule.names rules line previous) =
          fresh seen (Rule.names others line previous) := by
        apply fresh_congr
        · intro name isName other isOther
          exact Rule.eq_of_mem_names agree isName isOther
        · exact same line previous
      rw [Rule.names, Rule.names] at sameHere
      rw [scanFrom, scanFrom, sameHere, inductionHypothesis]

theorem scan_congr_rules (agree : Rule.Agree others) (same : Rule.SameNames rules others)
    (lines : List String) : scan rules kind file lines = scan others kind file lines := by
  have sameToo : Rule.SameNames others rules := fun line previous name =>
    (same line previous name).symm
  exact (scanFrom_congr_rules agree sameToo 1 none [] lines).symm

/-- Agreeing rules may be tried in another order, and a redundant one may be left out. -/
theorem scan_of_perm (agree : Rule.Agree others) (permuted : rules.Perm others)
    (redundant : Rule.Redundant rule others) (lines : List String) :
    scan rules kind file lines = scan others kind file lines ∧
      scan (rules.erase rule) kind file lines = scan others kind file lines := by
  have same := Rule.sameNames_of_perm permuted
  constructor
  · exact scan_congr_rules agree same lines
  · exact scan_congr_rules agree ((redundant.of_perm permuted).sameNames_erase.trans same) lines

/-- The rules of either kind may be tried in any order, with or without the one for functions with
nothing before their keyword, or the one for classes with nothing before theirs. -/
theorem scan_eq_of_perm_rules (kind : Kind) (file : String) (lines : List String) :
    (∀ rules : List Rule, rules.Perm Rule.functionRules →
      scan rules kind file lines = scan Rule.functionRules kind file lines ∧
      scan (rules.erase Rule.plainFunction) kind file lines =
        scan Rule.functionRules kind file lines) ∧
    ∀ rules : List Rule, rules.Perm Rule.classRules →
      scan rules kind file lines = scan Rule.classRules kind file lines ∧
      scan (rules.erase Rule.indentedClass) kind file lines =
        scan Rule.classRules kind file lines := by
  constructor
  · intro rules permuted
    exact scan_of_perm Rule.agree_functionRules permuted Rule.redundant_plainFunction lines
  · intro rules permuted
    exact scan_of_perm Rule.agree_classRules permuted Rule.redundant_indentedClass lines

/-- Tried from the last rule to the first, and without the redundant rule, a line still declares its
function once, and a later line with the same name still declares nothing. -/
theorem scan_eq_of_perm_rules_reversed :
    Rule.functionRules.reverse.Perm Rule.functionRules ∧
    Rule.classRules.reverse.Perm Rule.classRules ∧
    scan (Rule.functionRules.reverse.erase Rule.plainFunction) .functions "page"
        ["function f(", "", " async function f("] = [⟨"f", .functions, 1, "page"⟩] ∧
    scan (Rule.classRules.reverse.erase Rule.indentedClass) .classes "page"
        ["publicclass C", "\tclass D"] =
      [⟨"C", .classes, 1, "page"⟩, ⟨"D", .classes, 2, "page"⟩] := by
  have reversedFunctions := List.reverse_perm Rule.functionRules
  have reversedClasses := List.reverse_perm Rule.classRules
  refine ⟨reversedFunctions, reversedClasses, ?_, ?_⟩
  · rw [((scan_eq_of_perm_rules ..).1 _ reversedFunctions).2]
    decide +kernel
  · rw [((scan_eq_of_perm_rules ..).2 _ reversedClasses).2]
    decide +kernel

end Declarations

end DeclIndex
