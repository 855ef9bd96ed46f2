import DeclIndex.Ignore.Matcher
import DeclIndex.Proofs.Path.Names
import DeclIndex.Proofs.Sequence
import DeclIndex.Proofs.Text.Trimmed
import Mathlib.Data.List.Basic

/-!
# Rules of lines, and what they say of a path

A line yields a rule if it says something and its pattern can be read (`Rule.ofLine_eq_some_iff`),
and the rules of a matcher are those of its lines (`Matcher.mem_rules_iff`). A path that is made of
names of entries is looked up as it is written, without anything cut off
(`Matcher.ignores_slashed`). The rule that decides is one of those that match the path; so where no
rule takes anything back, any match will do (`Matcher.ignoresText_iff`).
-/

namespace DeclIndex

namespace Ignore

open Sequence (map_eq_ok_iff)

/-! ## Lines -/

variable {read : List Piece} {line : String} {rule : Rule}

theorem Rule.significant_prefix (text : List Char) : significant text <+: text := by
  rw [significant]
  split
  · exact List.prefix_refl _
  · exact Text.dropEndWhile_prefix Text.isBlank text

theorem Rule.head?_significant {text : List Char} (notMark : text.head? ≠ some '!') :
    (significant text).head? ≠ some '!' := by
  intro isMark
  rcases significant_prefix text with ⟨blanks, isText⟩
  apply notMark
  rw [← isText, List.head?_append, isMark]
  rfl

theorem Rule.splitMark_of_head? {text : List Char} (notMark : text.head? ≠ some '!') :
    splitMark text = (false, text) := by
  rw [splitMark.eq_def]
  split
  · exact absurd rfl notMark
  · rfl

theorem Rule.ofPieces_eq_ok_iff {negated : Bool} :
    ofPieces negated read = .ok rule ↔ Piece.reversed? 0 read = none ∧
      rule = ⟨negated, read.head? == some .start, Pattern.chain (read.map Piece.pattern)⟩ := by
  rw [ofPieces]
  cases Piece.reversed? 0 read with
  | none => simp [eq_comm]
  | some range => simp

/-- The pieces of a pattern without its mark. -/
def piecesOf (body : List Char) : Except Stop (List Piece) :=
  pieces ((body.splitOn '/').getLast? == some [])
    (collapse (openEnded (rooted (body.splitOn '/'))))

/-- A line holds a rule if it says something and its pattern can be read. -/
theorem Rule.ofLine_eq_some_iff :
    ofLine line = .ok (some rule) ↔
      ¬(significant line.toList = [] ∨ (significant line.toList).head? = some '#' ∨
        significant line.toList = ['/']) ∧
      ∃ read, piecesOf (splitMark (significant line.toList)).2 = .ok read ∧
        ofPieces (splitMark (significant line.toList)).1 read = .ok rule := by
  rw [ofLine]
  split
  next saysNothing => simp [saysNothing]
  next saysSomething =>
    simp only [saysSomething, not_false_eq_true, true_and]
    cases isRead : piecesOf (splitMark (significant line.toList)).2 with
    | error stop =>
        rw [piecesOf] at isRead
        cases stop with
        | inert => simp [isRead]
        | malformed => simp [isRead]
    | ok read =>
        rw [piecesOf] at isRead
        simp [isRead, map_eq_ok_iff]

namespace Matcher

variable {matcher : Matcher} {path : List Char} {found : Rule.Match} {names : List String}

theorem mem_rules_iff {lines : List String} (areRead : ofLines lines = .ok matcher) :
    rule ∈ matcher.rules ↔ ∃ line ∈ lines, Rule.ofLine line = .ok (some rule) := by
  rcases Sequence.bind_eq_ok_iff.mp areRead with ⟨rules, areRules, isMatcher⟩
  cases isMatcher
  simp [Sequence.mem_iff_of_mapM_eq_ok areRules]

/-! ## Paths of names -/

theorem fromRoot_eq_self {path : List Char} (noSlash : path.head? ≠ some '/')
    (noDot : ¬['.', '/'] <+: path) : fromRoot path = path := by
  rw [fromRoot.eq_def]
  split
  · exact absurd rfl noSlash
  · exact absurd ⟨_, rfl⟩ noDot
  · rfl

/-- A path that starts with the name of an entry stays as it is. -/
theorem fromRoot_of_isName {name : String} (isName : Entry.isName name = true) (more : List Char) :
    fromRoot (name.toList ++ more) = name.toList ++ more := by
  rcases Entry.isName_iff.mp isName with ⟨notSelf, _, noSlash, _⟩
  cases letters : name.toList with
  | nil => simp [String.toList_eq_nil_iff.mp letters, Location.isSelf] at notSelf
  | cons c rest =>
      rw [letters] at noSlash
      apply fromRoot_eq_self
      · rintro isSlash
        cases isSlash
        exact noSlash List.mem_cons_self
      · rintro ⟨others, split⟩
        cases rest with
        | nil =>
            cases split
            have isDot : name = "." := String.toList_inj.mp letters
            simp [isDot, Location.isSelf] at notSelf
        | cons d rest =>
            cases split
            exact noSlash (by simp)

theorem fromRoot_slashed (nonempty : names ≠ [])
    (areNames : ∀ name ∈ names, Entry.isName name = true) (more : List Char) :
    fromRoot ((slashed names).toList ++ more) = (slashed names).toList ++ more := by
  rcases List.exists_cons_of_ne_nil nonempty with ⟨name, others, rfl⟩
  rw [toList_slashed_cons, List.append_assoc]
  exact fromRoot_of_isName (areNames name List.mem_cons_self) _

theorem trim_slashed (areNames : ∀ name ∈ names, Entry.isName name = true) :
    Text.trim (· == '/') (slashed names).toList = (slashed names).toList := by
  have notSlash : ∀ name ∈ names, ∀ c ∈ name.toList, (c == '/') = false := by
    intro name isIn c isLetter
    rw [beq_eq_false_iff_ne]
    rintro rfl
    exact Entry.noSlash_of_isName (areNames name isIn) isLetter
  apply Text.trim_eq_self
  · intro c isFirst
    cases names with
    | nil => cases isFirst
    | cons name others =>
        have nonempty := Entry.ne_empty_of_isName (areNames name List.mem_cons_self)
        rw [toList_slashed_cons, List.head?_append_of_ne_nil _ (by simpa using nonempty)] at isFirst
        exact notSlash name List.mem_cons_self c (List.mem_of_mem_head? isFirst)
  · intro c isLast
    rcases List.eq_nil_or_concat' names with rfl | ⟨init, name, rfl⟩
    · cases isLast
    · have isIn : name ∈ init ++ [name] := by simp
      rw [getLast?_slashed_concat (Entry.ne_empty_of_isName (areNames name isIn))] at isLast
      exact notSlash name isIn c (List.mem_of_mem_getLast? isLast)

/-- A path of entry names is looked up as it is, and with a slash if it is a directory. -/
theorem ignores_slashed (matcher : Matcher) (nonempty : names ≠ [])
    (areNames : ∀ name ∈ names, Entry.isName name = true) (isDirectory : Bool) :
    matcher.ignores (slashed names) isDirectory =
      (matcher.ignoresText (slashed names).toList ||
        isDirectory && matcher.ignoresText ((slashed names).toList ++ ['/'])) := by
  have someText : (slashed names).toList.isEmpty = false := by
    rcases List.exists_cons_of_ne_nil nonempty with ⟨name, others, rfl⟩
    have nonempty := Entry.ne_empty_of_isName (areNames name List.mem_cons_self)
    rw [toList_slashed_cons]
    simp [nonempty]
  simp [ignores, trim_slashed areNames, someText]

/-! ## Winning rules -/

theorem mem_hits_iff :
    (rule, found) ∈ matcher.hits path ↔ rule ∈ matcher.rules ∧ rule.match? path = some found := by
  simp [hits]

theorem exists_mem_hits_of_winner? (isWinner : matcher.winner? path = some rule) :
    ∃ found, (rule, found) ∈ matcher.hits path := by
  rcases Option.map_eq_some_iff.mp isWinner with ⟨⟨_, found⟩, isHit, rfl⟩
  rcases Option.or_eq_some_iff.mp isHit with isDirect | ⟨_, isFirst⟩
  · exact ⟨found, List.mem_of_find?_eq_some isDirect⟩
  · exact ⟨found, List.mem_of_mem_head? isFirst⟩

theorem isSome_winner?_of_mem_hits (isHit : (rule, found) ∈ matcher.hits path) :
    (matcher.winner? path).isSome = true := by
  have someHit : (matcher.hits path).head?.isSome = true :=
    List.isSome_head?.mpr (List.ne_nil_of_mem isHit)
  simp [winner?, someHit]

theorem ignores_of_no_rules (path : String) (isDirectory : Bool) :
    (Matcher.mk []).ignores path isDirectory = false := by
  have ignoresNone : ∀ text, (Matcher.mk []).ignoresText text = false := fun _ => rfl
  simp [ignores, ignoresNone]

/-- Where no rule takes anything back, a path is ignored if any rule matches it. -/
theorem ignoresText_iff (positive : ∀ rule ∈ matcher.rules, rule.negated = false) :
    matcher.ignoresText path = true ↔
      ∃ rule ∈ matcher.rules, (rule.match? (fromRoot path)).isSome = true := by
  rw [ignoresText, Option.any_eq_true]
  constructor
  · rintro ⟨rule, isWinner, _⟩
    rcases exists_mem_hits_of_winner? isWinner with ⟨found, isHit⟩
    rcases mem_hits_iff.mp isHit with ⟨isRule, isFound⟩
    exact ⟨rule, isRule, by simp [isFound]⟩
  · rintro ⟨rule, isRule, isMatch⟩
    rcases Option.isSome_iff_exists.mp isMatch with ⟨found, isFound⟩
    have isHit : (rule, found) ∈ matcher.hits (fromRoot path) := mem_hits_iff.mpr ⟨isRule, isFound⟩
    rcases Option.isSome_iff_exists.mp (isSome_winner?_of_mem_hits isHit) with ⟨winner, isWinner⟩
    rcases exists_mem_hits_of_winner? isWinner with ⟨_, isHit⟩
    have isPositive := positive winner (mem_hits_iff.mp isHit).1
    exact ⟨winner, isWinner, by simp [isPositive]⟩

end Matcher

end Ignore

end DeclIndex
