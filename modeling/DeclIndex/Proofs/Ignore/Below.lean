import DeclIndex.Proofs.Ignore.Closing
import DeclIndex.Proofs.Ignore.Matching
import DeclIndex.Proofs.Path.Names

/-!
# Patterns ignore all that lies below

Without brackets, a slash can only stand between the segments of a pattern. So every segment becomes
pieces that stay within one name, and the pieces of a whole pattern close at a slash
(`closing_of_pieces`), also if the pattern is made of stars or ends with a slash. Rules of such
patterns match whatever lies below a path that they match, and a directory that they ignore has
nothing in it that they do not (`Matcher.ignores_append`).
-/

namespace DeclIndex.Ignore

open Piece (WithinName Closing)
open Sequence (bind_eq_ok_iff map_eq_ok_iff)

/-! ## Segments -/

/-- A segment without slashes and brackets. -/
def Plain (segment : List Char) : Prop :=
  '/' ∉ segment ∧ '[' ∉ segment

variable {segment : List Char} {segments : List (List Char)} {read : List Piece}

theorem plain_anyDirectories : Plain anyDirectories :=
  ⟨by decide, by decide⟩

theorem Plain.tail {c : Char} (isPlain : Plain (c :: segment)) : Plain segment :=
  ⟨fun isIn => isPlain.1 (List.mem_cons_of_mem _ isIn),
    fun isIn => isPlain.2 (List.mem_cons_of_mem _ isIn)⟩

theorem Plain.ne_slash {c : Char} (isPlain : Plain (c :: segment)) : c ≠ '/' := by
  rintro rfl
  exact isPlain.1 List.mem_cons_self

/-- Outside of sets, and without brackets, all pieces stay within a name. -/
theorem withinName_of_glob {place : Place} (outside : place = .plain ∨ place = .escaped)
    (isPlain : Plain segment) (isRead : glob place segment = .ok read) :
    ∀ piece ∈ read, piece.WithinName := by
  fun_induction glob place segment generalizing read with
  | case1 =>
      cases isRead
      simp
  | case2 | case3 | case4 | case5 => cases isRead
  | case6 rest inductionHypothesis => exact inductionHypothesis (Or.inr rfl) isPlain.tail isRead
  | case7 rest => exact absurd List.mem_cons_self isPlain.2
  | case8 rest inductionHypothesis | case9 rest inductionHypothesis =>
      rcases map_eq_ok_iff.mp isRead with ⟨others, areOthers, rfl⟩
      exact List.forall_mem_cons.mpr ⟨trivial,
        inductionHypothesis (Or.inl rfl) isPlain.tail areOthers⟩
  | case10 c rest _ _ _ _ inductionHypothesis =>
      rcases map_eq_ok_iff.mp isRead with ⟨others, areOthers, rfl⟩
      exact List.forall_mem_cons.mpr ⟨isPlain.ne_slash,
        inductionHypothesis (Or.inl rfl) isPlain.tail areOthers⟩
  | case11 c rest inductionHypothesis =>
      rcases map_eq_ok_iff.mp isRead with ⟨others, areOthers, rfl⟩
      exact List.forall_mem_cons.mpr ⟨isPlain.ne_slash,
        inductionHypothesis (Or.inl rfl) isPlain.tail areOthers⟩
  | case12 | case13 | case14 | case15 | case16 => simp at outside

theorem ne_nil_of_map_cons {before : Except Stop (List Piece)} {piece : Piece}
    (isRead : Except.map (piece :: ·) before = .ok read) : read ≠ [] := by
  rcases map_eq_ok_iff.mp isRead with ⟨others, _, rfl⟩
  exact List.cons_ne_nil _ _

theorem ne_nil_of_glob (isPlain : Plain segment) (nonempty : segment ≠ [])
    (isRead : glob .plain segment = .ok read) : read ≠ [] := by
  rcases List.exists_cons_of_ne_nil nonempty with ⟨c, rest, rfl⟩
  simp only [glob] at isRead
  split at isRead
  · cases rest with
    | nil => cases isRead
    | cons d rest => exact ne_nil_of_map_cons isRead
  · exact absurd List.mem_cons_self isPlain.2
  · exact ne_nil_of_map_cons isRead
  · exact ne_nil_of_map_cons isRead
  · exact ne_nil_of_map_cons isRead

theorem withinName_of_segmentPieces (isPlain : Plain segment)
    (isRead : segmentPieces segment = .ok read) : ∀ piece ∈ read, piece.WithinName := by
  rw [segmentPieces] at isRead
  split at isRead
  · cases isRead
    simp [WithinName]
  · exact withinName_of_glob (Or.inl rfl) isPlain isRead

theorem ne_nil_of_segmentPieces (isPlain : Plain segment) (nonempty : segment ≠ [])
    (isRead : segmentPieces segment = .ok read) : read ≠ [] := by
  rw [segmentPieces] at isRead
  split at isRead
  · cases isRead
    exact List.cons_ne_nil _ _
  · exact ne_nil_of_glob isPlain nonempty isRead

/-! ## All segments -/

theorem notMem_finish (within : ∀ piece ∈ read, piece.WithinName) : Piece.finish ∉ read :=
  fun isFinish => within _ isFinish

/-- A slash that is due asks for nothing. -/
theorem notMem_finish_slashDue (slashDue : Bool) :
    Piece.finish ∉ (if slashDue then [Piece.slash] else []) := by
  cases slashDue <;> simp

theorem closing_of_morePieces {directoryOnly slashDue : Bool}
    (arePlain : ∀ segment ∈ segments, Plain segment) (nonempty : segments.getLast? ≠ some [])
    (isRead : morePieces directoryOnly slashDue segments = .ok read) : Closing read := by
  induction segments generalizing slashDue read with
  | nil =>
      cases isRead
      exact Closing.endless (by simp)
  | cons segment rest inductionHypothesis =>
      rcases List.forall_mem_cons.mp arePlain with ⟨isPlain, areOthers⟩
      rw [morePieces] at isRead
      split at isRead
      · cases rest with
        | nil =>
            cases isRead
            apply Closing.endless
            cases directoryOnly <;> simp
        | cons next rest =>
            rw [List.getLast?_cons_cons] at nonempty
            rcases map_eq_ok_iff.mp isRead with ⟨others, areRead, rfl⟩
            exact (inductionHypothesis areOthers nonempty areRead).cons (by simp)
      · rcases bind_eq_ok_iff.mp isRead with ⟨here, isHere, isRead⟩
        have within := withinName_of_segmentPieces isPlain isHere
        cases rest with
        | nil =>
            cases isRead
            have someHere := ne_nil_of_segmentPieces isPlain (by simpa using nonempty) isHere
            rcases List.eq_nil_or_concat' here with isEmpty | ⟨init, last, rfl⟩
            · exact absurd isEmpty someHere
            · have isLast : Closing (init ++ [last, Piece.finish]) :=
                Closing.atEnd (fun isFinish => within _ (List.mem_append_left _ isFinish))
                  (within last (by simp))
              simpa using isLast.append (notMem_finish_slashDue slashDue)
        | cons next rest =>
            rw [List.getLast?_cons_cons] at nonempty
            rcases bind_eq_ok_iff.mp isRead with ⟨more, isMore, isRead⟩
            cases isRead
            have closing := inductionHypothesis areOthers nonempty isMore
            rw [List.append_assoc]
            exact (closing.append (notMem_finish within)).append (notMem_finish_slashDue slashDue)

theorem closing_of_pieces {directoryOnly : Bool}
    (arePlain : ∀ segment ∈ segments, Plain segment) (nonempty : segments.getLast? ≠ some [])
    (isRead : pieces directoryOnly segments = .ok read) : Closing read := by
  rw [pieces.eq_def] at isRead
  split at isRead
  · cases isRead
    apply Closing.endless
    cases directoryOnly <;> simp
  split at isRead
  · cases isRead
    exact Closing.endless (by simp)
  split at isRead
  · cases isRead
    apply Closing.endless
    cases directoryOnly <;> simp
  cases segments with
  | nil => cases isRead
  | cons segment rest =>
      simp only at isRead
      split at isRead
      · rcases map_eq_ok_iff.mp isRead with ⟨more, isMore, rfl⟩
        have nonemptyRest : rest.getLast? ≠ some [] := by
          intro isLast
          rw [List.getLast?_cons, isLast] at nonempty
          exact nonempty rfl
        have areOthers := (List.forall_mem_cons.mp arePlain).2
        exact ((closing_of_morePieces areOthers nonemptyRest isMore).cons (by simp)).cons (by simp)
      · rcases map_eq_ok_iff.mp isRead with ⟨more, isMore, rfl⟩
        exact (closing_of_morePieces arePlain nonempty isMore).cons (by simp)

theorem plain_of_mem_rooted (arePlain : ∀ segment ∈ segments, Plain segment) :
    ∀ segment ∈ rooted segments, Plain segment := by
  intro segment isIn
  have areAllPlain : ∀ segment ∈ anyDirectories :: segments, Plain segment :=
    List.forall_mem_cons.mpr ⟨plain_anyDirectories, arePlain⟩
  rw [rooted.eq_def] at isIn
  split at isIn
  · exact arePlain segment (List.mem_cons_of_mem _ isIn)
  · split at isIn
    · exact arePlain segment isIn
    · exact areAllPlain segment isIn
  · split at isIn
    · exact arePlain segment isIn
    · exact areAllPlain segment isIn
  · exact arePlain segment isIn

theorem plain_of_mem_openEnded (arePlain : ∀ segment ∈ segments, Plain segment) :
    ∀ segment ∈ openEnded segments, Plain segment := by
  intro segment isIn
  rw [openEnded] at isIn
  split at isIn
  · rcases List.mem_append.mp isIn with isIn | isIn
    · exact arePlain segment (List.dropLast_subset _ isIn)
    · rw [List.mem_singleton.mp isIn]
      exact plain_anyDirectories
  · exact arePlain segment isIn

theorem getLast?_openEnded (segments : List (List Char)) :
    (openEnded segments).getLast? ≠ some [] := by
  rw [openEnded]
  split
  · rw [List.getLast?_concat]
    decide
  · assumption

theorem collapse_subset (segments : List (List Char)) : collapse segments ⊆ segments := by
  fun_induction collapse segments with
  | case1 first second rest _ inductionHypothesis =>
      exact List.subset_cons_of_subset _ inductionHypothesis
  | case2 first second rest _ inductionHypothesis =>
      exact List.cons_subset_cons _ inductionHypothesis
  | case3 segments => exact List.Subset.refl _

theorem getLast?_collapse (segments : List (List Char)) :
    (collapse segments).getLast? = segments.getLast? := by
  fun_induction collapse segments with
  | case1 first second rest _ inductionHypothesis =>
      rw [inductionHypothesis, List.getLast?_cons_cons]
  | case2 first second rest _ inductionHypothesis =>
      simp [List.getLast?_cons, inductionHypothesis]
  | case3 segments => rfl

/-! ## Lines -/

theorem closing_of_piecesOf {body : List Char} (noBracket : '[' ∉ body)
    (isRead : piecesOf body = .ok read) : Closing read := by
  have arePlain : ∀ segment ∈ body.splitOn '/', Plain segment := by
    intro segment isSegment
    exact ⟨fun isSlash => (mem_splitOn isSegment isSlash).1 rfl,
      fun isBracket => noBracket (mem_splitOn isSegment isBracket).2⟩
  have areOpenEnded := plain_of_mem_openEnded (plain_of_mem_rooted arePlain)
  apply closing_of_pieces _ _ isRead
  · exact fun segment isIn => areOpenEnded segment (collapse_subset _ isIn)
  · rw [getLast?_collapse]
    exact getLast?_openEnded _

/-- A line that neither takes paths back nor holds a bracket. -/
def IsPlainLine (line : String) : Prop :=
  line.toList.head? ≠ some '!' ∧ '[' ∉ line.toList

theorem exists_closing_of_ofLine {line : String} {rule : Rule} (isPlain : IsPlainLine line)
    (isRule : Rule.ofLine line = .ok (some rule)) :
    ∃ read, Closing read ∧
      rule = ⟨false, read.head? == some .start, Pattern.chain (read.map Piece.pattern)⟩ := by
  rcases Rule.ofLine_eq_some_iff.mp isRule with ⟨saysSomething, read, isRead, isRule⟩
  rw [Rule.splitMark_of_head? (Rule.head?_significant isPlain.1)] at isRead isRule
  have noBracket : '[' ∉ Rule.significant line.toList :=
    fun isBracket => isPlain.2 ((Rule.significant_prefix _).subset isBracket)
  exact ⟨read, closing_of_piecesOf noBracket isRead, (Rule.ofPieces_eq_ok_iff.mp isRule).2⟩

/-! ## Rules and matchers -/

/-- What the rule matches, it matches with anything behind it that starts at a slash. -/
def Rule.Downward (rule : Rule) : Prop :=
  ∀ ⦃text more : List Char⦄, text.getLast? ≠ some '\n' →
    more.head? = some '/' ∨ text.getLast? = some '/' →
    (rule.match? text).isSome = true → (rule.match? (text ++ more)).isSome = true

theorem Piece.Closing.downward (closing : Closing read) (negated anchored : Bool) :
    Rule.Downward ⟨negated, anchored, Pattern.chain (read.map Piece.pattern)⟩ := by
  intro text more noFeed boundary isMatch
  cases anchored with
  | true =>
      simp only [Rule.match?, if_true, Option.isSome_map, Pattern.isSome_read?_iff] at isMatch ⊢
      rcases isMatch with ⟨run, rest, allows, split⟩
      have fromStart : text = [] ++ (run ++ rest) := split
      exact closing.exists_allow_append allows fromStart noFeed boundary
  | false =>
      simp only [Rule.match?, Bool.false_eq_true, if_false, Option.isSome_map,
        Pattern.isSome_find?_iff] at isMatch ⊢
      rcases isMatch with ⟨before, run, rest, allows, split⟩
      exact ⟨before, closing.exists_allow_append allows split noFeed boundary⟩

namespace Matcher

variable {matcher : Matcher} {names more : List String}

theorem ignoresText_append (positive : ∀ rule ∈ matcher.rules, rule.negated = false)
    (downward : ∀ rule ∈ matcher.rules, rule.Downward) {text more : List Char}
    (stays : fromRoot text = text) (staysBelow : fromRoot (text ++ more) = text ++ more)
    (noFeed : text.getLast? ≠ some '\n')
    (boundary : more.head? = some '/' ∨ text.getLast? = some '/')
    (isIgnored : matcher.ignoresText text = true) : matcher.ignoresText (text ++ more) = true := by
  rw [ignoresText_iff positive] at isIgnored ⊢
  rcases isIgnored with ⟨rule, isRule, isMatch⟩
  rw [stays] at isMatch
  refine ⟨rule, isRule, ?_⟩
  rw [staysBelow]
  exact downward rule isRule noFeed boundary isMatch

theorem ignores_append_of_downward (positive : ∀ rule ∈ matcher.rules, rule.negated = false)
    (downward : ∀ rule ∈ matcher.rules, rule.Downward)
    (areNames : ∀ name ∈ names ++ more, Entry.isName name = true)
    (noFeed : ∀ name ∈ names, '\n' ∉ name.toList) (nonempty : more ≠ [])
    (isIgnored : matcher.ignores (slashed names) true = true) (isDirectory : Bool) :
    matcher.ignores (slashed (names ++ more)) isDirectory = true := by
  rcases List.eq_nil_or_concat' names with rfl | ⟨init, last, isNames⟩
  · cases isIgnored
  have someNames : names ≠ [] := by simp [isNames]
  have areNamesAbove : ∀ name ∈ names, Entry.isName name = true :=
    fun name isIn => areNames name (List.mem_append_left _ isIn)
  have noFeedLast : (slashed names).toList.getLast? ≠ some '\n' := by
    have isIn : last ∈ names := by simp [isNames]
    rw [isNames, getLast?_slashed_concat (Entry.ne_empty_of_isName (areNamesAbove last isIn))]
    exact fun isFeed => noFeed last isIn (List.mem_of_getLast? isFeed)
  -- What comes below starts with a slash.
  rcases List.exists_cons_of_ne_nil nonempty with ⟨next, others, rfl⟩
  let below := next.toList ++ others.flatMap fun name => '/' :: name.toList
  have isBelow : (slashed (names ++ next :: others)).toList =
      (slashed names).toList ++ '/' :: below := toList_slashed_append someNames _
  have staysBelow := fromRoot_slashed someNames areNamesAbove ('/' :: below)
  rw [ignores_slashed matcher someNames areNamesAbove, Bool.true_and, Bool.or_eq_true] at isIgnored
  rw [ignores_slashed matcher (by simp) areNames, isBelow, Bool.or_eq_true]
  left
  rcases isIgnored with isIgnored | isIgnored
  · have stays := fromRoot_slashed someNames areNamesAbove []
    rw [List.append_nil] at stays
    exact ignoresText_append positive downward stays staysBelow noFeedLast (Or.inl rfl) isIgnored
  · have stays := fromRoot_slashed someNames areNamesAbove ['/']
    rw [List.append_cons] at staysBelow ⊢
    exact ignoresText_append positive downward stays staysBelow (by simp) (by simp) isIgnored

/-- Lines that take nothing back, and hold no bracket, ignore all that lies in a directory that they
ignore. -/
theorem ignores_append {lines : List String} (areRead : ofLines lines = .ok matcher)
    (arePlain : ∀ line ∈ lines, IsPlainLine line)
    (areNames : ∀ name ∈ names ++ more, Entry.isName name = true)
    (noFeed : ∀ name ∈ names, '\n' ∉ name.toList) (nonempty : more ≠ [])
    (isIgnored : matcher.ignores (slashed names) true = true) (isDirectory : Bool) :
    matcher.ignores (slashed (names ++ more)) isDirectory = true := by
  have ofLine : ∀ rule ∈ matcher.rules, rule.negated = false ∧ rule.Downward := by
    intro rule isRule
    rcases (mem_rules_iff areRead).mp isRule with ⟨line, isLine, isRule⟩
    rcases exists_closing_of_ofLine (arePlain line isLine) isRule with ⟨read, closing, rfl⟩
    exact ⟨rfl, closing.downward _ _⟩
  exact ignores_append_of_downward (fun rule isRule => (ofLine rule isRule).1)
    (fun rule isRule => (ofLine rule isRule).2) areNames noFeed nonempty isIgnored isDirectory

end Matcher

end DeclIndex.Ignore
