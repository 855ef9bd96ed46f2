import DeclIndex.Proofs.Ignore.Matching

/-!
# A negated pattern in the last place

An exclamation mark before a pattern gives the same rule, which takes paths back
(`Rule.ofLine_mark`). In the last place such a rule has the last word on a path that it matches
itself. A path that only lies in a directory which it matches is left to the earlier rules that
match the path itself, and one that it does not match is left to all earlier rules
(`Matcher.Yields`).

A directory is looked up twice, without and with a slash behind it, and is ignored if either text
is. So it is taken back exactly if the earlier rules yield on both texts
(`Matcher.ignores_negated_last_iff`). A pattern for directories only does not match the text without
the slash, so it takes nothing back that an earlier pattern ignores by name
(`Matcher.ignores_negated_last_directoryOnly`).
-/

namespace DeclIndex.Ignore

open Sequence (bind_eq_ok_iff mapM_eq_ok_iff)

/-! ## Marked lines -/

theorem Rule.significant_mark (text : List Char) :
    significant ('!' :: text) = '!' :: significant text := by
  have sameSuffix : ['\\', ' '].isSuffixOf ('!' :: text) = ['\\', ' '].isSuffixOf text := by
    rw [Bool.eq_iff_iff, List.isSuffixOf_iff_suffix, List.isSuffixOf_iff_suffix,
      List.suffix_cons_iff]
    simp
  rw [significant, significant, sameSuffix]
  split
  · rfl
  · exact Text.dropEndWhile_cons (by decide) text

/-- A mark before a line turns its rule into one that takes back. -/
theorem Rule.ofLine_mark {line : String} {rule : Rule} (notMark : line.toList.head? ≠ some '!')
    (isRule : ofLine line = .ok (some rule)) :
    ofLine ("!" ++ line) = .ok (some { rule with negated := true }) := by
  rcases ofLine_eq_some_iff.mp isRule with ⟨saysSomething, read, isRead, isRule⟩
  rw [splitMark_of_head? (head?_significant notMark)] at isRead isRule
  rcases ofPieces_eq_ok_iff.mp isRule with ⟨noReversed, rfl⟩
  have marked : significant ("!" ++ line).toList = '!' :: significant line.toList := by
    rw [String.toList_append]
    exact significant_mark line.toList
  apply ofLine_eq_some_iff.mpr
  rw [marked]
  refine ⟨?_, read, isRead, ofPieces_eq_ok_iff.mpr ⟨noReversed, rfl⟩⟩
  simp

namespace Matcher

variable {matcher : Matcher} {rule : Rule} {text path : List Char}

/-- A rule is the last one that matches a path itself. -/
def DecidesDirectly (matcher : Matcher) (rule : Rule) (path : List Char) : Prop :=
  ∃ before after, matcher.rules = before ++ rule :: after ∧ rule.match? path = some .direct ∧
    ∀ later ∈ after, later.match? path ≠ some .direct

theorem DecidesDirectly.mem_rules (decides : matcher.DecidesDirectly rule path) :
    rule ∈ matcher.rules := by
  rcases decides with ⟨before, after, split, _⟩
  simp [split]

/-- The rules leave a text to a rule after them that takes back what it matches. -/
inductive Yields (matcher : Matcher) (rule : Rule) (text : List Char) : Prop where
  /-- The rule matches the path itself. -/
  | direct (isMatch : rule.match? (fromRoot text) = some .direct)
  /-- The rule matches a directory on the way, and the last rule that matches the path itself takes
  it back, if there is one. -/
  | directory (isMatch : rule.match? (fromRoot text) = some .directory)
      (takenBack : ∀ other, matcher.DecidesDirectly other (fromRoot text) → other.negated = true)
  /-- The rule does not match, and the others do not ignore the text. -/
  | unmatched (noMatch : rule.match? (fromRoot text) = none)
      (notIgnored : matcher.ignoresText text = false)

theorem find?_hits (matcher : Matcher) (path : List Char) :
    (matcher.hits path).find? (fun hit => hit.2 == .direct) =
      (matcher.rules.reverse.find? fun rule => rule.match? path == some .direct).map
        fun rule => (rule, .direct) := by
  rw [hits]
  induction matcher.rules.reverse with
  | nil => rfl
  | cons rule rules inductionHypothesis =>
      rcases isMatch : rule.match? path with _ | found
      · rw [List.filterMap_cons_none (by simp [isMatch]),
          List.find?_cons_of_neg (by simp [isMatch])]
        exact inductionHypothesis
      · rw [List.filterMap_cons_some (b := (rule, found)) (by simp [isMatch])]
        cases found with
        | direct => simp [isMatch]
        | directory =>
            rw [List.find?_cons_of_neg (by simp), List.find?_cons_of_neg (by simp [isMatch])]
            exact inductionHypothesis

theorem find?_hits_eq_some_iff {found : Rule.Match} :
    (matcher.hits path).find? (fun hit => hit.2 == .direct) = some (rule, found) ↔
      matcher.DecidesDirectly rule path ∧ found = .direct := by
  rw [find?_hits, Option.map_eq_some_iff]
  simp only [List.find?_eq_some_iff_append, Prod.mk.injEq]
  constructor
  · rintro ⟨_, ⟨isMatch, after, before, split, noMatch⟩, rfl, rfl⟩
    refine ⟨⟨before.reverse, after.reverse, ?_, by simpa using isMatch, ?_⟩, rfl⟩
    · rw [← List.reverse_reverse matcher.rules, split]
      simp
    · simpa using noMatch
  · rintro ⟨⟨before, after, split, isMatch, noMatch⟩, rfl⟩
    refine ⟨rule, ⟨by simp [isMatch], after.reverse, before.reverse, ?_, ?_⟩, rfl, rfl⟩
    · rw [split]
      simp
    · simpa using noMatch

theorem hits_concat (matcher : Matcher) (last : Rule) (path : List Char) :
    (Matcher.mk (matcher.rules ++ [last])).hits path =
      ((last.match? path).map fun found => (last, found)).toList ++ matcher.hits path := by
  rw [hits, List.reverse_concat, List.filterMap_cons]
  cases last.match? path with
  | none => rfl
  | some found => rfl

/-- What the rules say of a text if a rule that takes back comes after them. -/
theorem ignoresText_concat_eq_false_iff (negated : rule.negated = true) :
    (Matcher.mk (matcher.rules ++ [rule])).ignoresText text = false ↔ matcher.Yields rule text := by
  have allHits := hits_concat matcher rule (fromRoot text)
  rcases isMatch : rule.match? (fromRoot text) with _ | _ | _
  · have sameVerdict : (Matcher.mk (matcher.rules ++ [rule])).ignoresText text =
        matcher.ignoresText text := by
      rw [ignoresText, winner?, allHits, isMatch]
      rfl
    rw [sameVerdict]
    constructor
    · exact Yields.unmatched isMatch
    · intro yields
      cases yields with
      | direct isOther | directory isOther => simp [isMatch] at isOther
      | unmatched _ notIgnored => exact notIgnored
  · have notIgnored : (Matcher.mk (matcher.rules ++ [rule])).ignoresText text = false := by
      rw [ignoresText, winner?, allHits, isMatch]
      simp [negated]
    exact iff_of_true notIgnored (Yields.direct isMatch)
  · -- A match of the path itself goes before the last rule, if there is one.
    have verdict : (Matcher.mk (matcher.rules ++ [rule])).ignoresText text =
        ((matcher.hits (fromRoot text)).find? fun hit => hit.2 == .direct).any
          fun hit => !hit.1.negated := by
      rw [ignoresText, winner?, allHits, isMatch, Option.map_some, Option.toList_some,
        List.singleton_append, List.find?_cons_of_neg (by simp)]
      cases (matcher.hits (fromRoot text)).find? fun hit => hit.2 == .direct with
      | none => simp [negated]
      | some hit => rfl
    rw [verdict]
    constructor
    · intro noneIgnores
      apply Yields.directory isMatch
      intro other decides
      rw [find?_hits_eq_some_iff.mpr ⟨decides, rfl⟩] at noneIgnores
      simpa using noneIgnores
    · intro yields
      cases yields with
      | direct isOther | unmatched isOther => simp [isMatch] at isOther
      | directory _ takenBack =>
          cases isFirst : (matcher.hits (fromRoot text)).find? fun hit => hit.2 == .direct with
          | none => rfl
          | some hit =>
              have decides := (find?_hits_eq_some_iff.mp isFirst).1
              simp [takenBack hit.1 decides]

/-! ## Directories -/

theorem ofLines_concat {lines : List String} {line : String} (areRead : ofLines lines = .ok matcher)
    (isRule : Rule.ofLine line = .ok (some rule)) :
    ofLines (lines ++ [line]) = .ok ⟨matcher.rules ++ [rule]⟩ := by
  rcases bind_eq_ok_iff.mp areRead with ⟨rules, areRules, isMatcher⟩
  cases isMatcher
  apply bind_eq_ok_iff.mpr
  refine ⟨rules ++ [some rule], ?_, by rw [List.filterMap_append]; rfl⟩
  rw [mapM_eq_ok_iff] at areRules ⊢
  exact List.rel_append areRules (List.Forall₂.cons isRule List.Forall₂.nil)

/-- One component of a path is looked up as it is, and with a slash if it is a directory. -/
theorem ignores_component (matcher : Matcher) {name : String} (nonempty : name ≠ "")
    (noSlash : '/' ∉ name.toList) (isDirectory : Bool) :
    matcher.ignores name isDirectory = (matcher.ignoresText name.toList ||
      isDirectory && matcher.ignoresText (name.toList ++ ['/'])) := by
  have isTrimmed : Text.trim (· == '/') name.toList = name.toList := by
    apply Text.trim_eq_self
    · intro c isFirst
      rw [beq_eq_false_iff_ne]
      rintro rfl
      exact noSlash (List.mem_of_mem_head? isFirst)
    · intro c isLast
      rw [beq_eq_false_iff_ne]
      rintro rfl
      exact noSlash (List.mem_of_mem_getLast? isLast)
  simp [ignores, isTrimmed, nonempty]

theorem exists_rule_of_ignores {line path : String} {isDirectory : Bool} {single : Matcher}
    (isRead : ofLines [line] = .ok single) (isIgnored : single.ignores path isDirectory = true) :
    ∃ rule, Rule.ofLine line = .ok (some rule) ∧ single = ⟨[rule]⟩ := by
  rcases bind_eq_ok_iff.mp isRead with ⟨rules, areRules, isMatcher⟩
  rcases List.forall₂_cons_left_iff.mp (mapM_eq_ok_iff.mp areRules) with
    ⟨rule?, others, isRule, noOthers, rfl⟩
  rw [List.forall₂_nil_left_iff.mp noOthers] at isMatcher
  cases isMatcher
  cases rule? with
  | none =>
      rw [List.filterMap_cons_none rfl, List.filterMap_nil, ignores_of_no_rules] at isIgnored
      cases isIgnored
  | some rule => exact ⟨rule, isRule, rfl⟩

/-- A negated pattern in the last place that matches a directory takes it back exactly if the
patterns before it yield on both texts of the directory. -/
theorem ignores_negated_last_iff {lines : List String} {line name : String} {single : Matcher}
    (areRead : ofLines lines = .ok matcher) (isRead : ofLines [line] = .ok single)
    (notMark : line.toList.head? ≠ some '!') (nonempty : name ≠ "") (noSlash : '/' ∉ name.toList)
    (isIgnored : single.ignores name true = true) :
    ∃ rule whole, single = ⟨[rule]⟩ ∧ ofLines (lines ++ ["!" ++ line]) = .ok whole ∧
      (whole.ignores name true = false ↔
        matcher.Yields { rule with negated := true } name.toList ∧
        matcher.Yields { rule with negated := true } (name.toList ++ ['/'])) := by
  rcases exists_rule_of_ignores isRead isIgnored with ⟨rule, isRule, rfl⟩
  refine ⟨rule, _, rfl, ofLines_concat areRead (Rule.ofLine_mark notMark isRule), ?_⟩
  rw [ignores_component _ nonempty noSlash, Bool.true_and, Bool.or_eq_false_iff,
    ignoresText_concat_eq_false_iff rfl, ignoresText_concat_eq_false_iff rfl]

/-- The rule of the pattern that is the name d. -/
def nameRule : Rule :=
  ⟨false, true, Pattern.chain ([.start, .anyLeading, .literal 'd', .finish].map Piece.pattern)⟩

/-- A pattern that is taken back by its own negation: the text without a slash is matched itself,
and no pattern matches the text with a slash itself. -/
theorem ignores_negated_last_iff_sameName :
    ofLines ["d"] = .ok ⟨[nameRule]⟩ ∧ (Matcher.mk [nameRule]).ignores "d" true = true ∧
    ∃ whole, ofLines ["d", "!d"] = .ok whole ∧ whole.ignores "d" true = false := by
  have areRead : ofLines ["d"] = .ok ⟨[nameRule]⟩ := by decide +kernel
  have isIgnored : (Matcher.mk [nameRule]).ignores "d" true = true := by decide +kernel
  rcases ignores_negated_last_iff areRead areRead (by decide) (by decide) (by decide) isIgnored with
    ⟨rule, whole, isRule, isWhole, takenBack⟩
  cases isRule
  refine ⟨areRead, isIgnored, whole, isWhole, takenBack.mpr ⟨?_, ?_⟩⟩
  · exact Yields.direct (by decide +kernel)
  · apply Yields.directory (by decide +kernel)
    intro other decides
    have isOther : other = nameRule := by simpa using decides.mem_rules
    rcases decides with ⟨_, _, _, isDirect, _⟩
    have notDirect : nameRule.match? (fromRoot ['d', '/']) = some .directory := by decide +kernel
    rw [isOther] at isDirect
    cases notDirect.symm.trans isDirect

/-- A negated pattern for directories matches the directory, and yet does not take it back. -/
theorem ignores_negated_last_directoryOnly :
    (ofLines ["d/"]).map (fun single => single.ignores "d" true) = .ok true ∧
    (ofLines (["d"] ++ ["!" ++ "d/"])).map (fun whole => whole.ignores "d" true) = .ok true := by
  decide +kernel

end Matcher

end DeclIndex.Ignore
