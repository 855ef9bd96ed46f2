import DeclIndex.Ignore.File
import DeclIndex.Proofs.Ignore.Matching
import DeclIndex.Proofs.Text.Encoding
import DeclIndex.Source

/-!
# Trimming the lines of an ignore file

An ignore file is trimmed line by line before its rules are read, and lines that hold no pattern are
left out. The reader of rules has its own opinion on both. Leaving lines out changes nothing, since
such a line holds no rule anyway (`Matcher.ofLines_filter`). Trimming changes nothing where a line
neither starts with a blank nor ends with one that a backslash escapes (`Flush`): there the reader
drops the same blanks (`Rule.significant_of_flush`).

On all other lines trimming shows. A blank at the start belongs to the name that a pattern is about,
and a backslash without the blank that it escaped is a mistake (`Matcher.ofDirectory_blanks`).
-/

namespace DeclIndex

open Sequence (bind_eq_ok_iff mapError_eq_ok_iff)

namespace Ignore

open Text (isBlank trim dropEndWhile)

/-! ## Lines -/

/-- The line without the blanks around it. -/
def trimmed (line : String) : String :=
  String.ofList (trim isBlank line.toList)

/-- Trimming a line takes no blank that belongs to its pattern: the line holds none, or it neither
starts with a blank nor ends with one that a backslash escapes. -/
def Flush (line : List Char) : Prop :=
  (∀ c ∈ line, isBlank c = true) ∨ line.head? = some '#' ∨
    (∀ c ∈ line.head?, isBlank c = false) ∧ ¬['\\', ' '] <:+ line

namespace Rule

variable {line other : String} {text : List Char} {rule? : Option Rule}

theorem significant_of_not_suffix (notEscaped : ¬['\\', ' '] <:+ text) :
    significant text = dropEndWhile isBlank text := by
  rw [significant, if_neg]
  rwa [List.isSuffixOf_iff_suffix]

/-- Nothing of a trimmed line is dropped. -/
theorem significant_trim (text : List Char) :
    significant (trim isBlank text) = trim isBlank text := by
  have keepsLast : ∀ c ∈ (trim isBlank text).getLast?, isBlank c = false :=
    Text.getLast?_dropEndWhile isBlank (text.dropWhile isBlank)
  rw [significant_of_not_suffix, Text.dropEndWhile_of_getLast? keepsLast]
  rintro ⟨before, isText⟩
  have isLast : (trim isBlank text).getLast? = some ' ' := by
    rw [← isText, List.getLast?_append]
    rfl
  have notBlank : isBlank ' ' = false := keepsLast ' ' isLast
  cases notBlank

theorem significant_of_flush (startsFlush : ∀ c ∈ text.head?, isBlank c = false)
    (endsFlush : ¬['\\', ' '] <:+ text) : significant text = trim isBlank text := by
  rw [significant_of_not_suffix endsFlush, Text.trim_of_head? startsFlush]

/-- A line is read by its significant text alone; only the wording of a mistake shows the rest. -/
theorem ofLine_congr (same : significant line.toList = significant other.toList) :
    ofLine line = .ok rule? ↔ ofLine other = .ok rule? := by
  unfold ofLine
  rw [same]
  simp only
  split
  · rfl
  · split <;> simp

theorem ofLine_of_blanks (areBlanks : ∀ c ∈ line.toList, isBlank c = true) :
    ofLine line = .ok none := by
  have notEscaped : ¬['\\', ' '] <:+ line.toList := by
    intro isEscaped
    have isBackslashBlank : isBlank '\\' = true := areBlanks _ (isEscaped.subset (by simp))
    cases isBackslashBlank
  have saysNothing : significant line.toList = [] := by
    rw [significant_of_not_suffix notEscaped, Text.dropEndWhile_eq_nil areBlanks]
  rw [ofLine]
  simp [saysNothing]

theorem ofLine_of_comment (isComment : line.toList.head? = some '#') : ofLine line = .ok none := by
  rcases significant_prefix line.toList with ⟨blanks, isText⟩
  rw [ofLine]
  cases isRest : significant line.toList with
  | nil => simp
  | cons c text =>
      rw [← isText, isRest] at isComment
      cases isComment
      simp

theorem ofLine_trimmed_iff (flush : Flush line.toList) :
    ofLine (trimmed line) = .ok rule? ↔ ofLine line = .ok rule? := by
  rcases flush with areBlanks | isComment | ⟨startsFlush, endsFlush⟩
  · have noPattern : trimmed line = "" := by rw [trimmed, Text.trim_eq_nil areBlanks]
    rw [ofLine_of_blanks areBlanks, noPattern, ofLine_of_blanks (by simp)]
  · rcases List.head?_eq_some_iff.mp isComment with ⟨text, isText⟩
    have isCommentToo : (trimmed line).toList.head? = some '#' := by
      have notBlank : isBlank '#' = false := by decide
      rw [trimmed, String.toList_ofList, isText, Text.trim_of_head? (by simp [notBlank]),
        Text.dropEndWhile_cons notBlank]
      rfl
    rw [ofLine_of_comment isComment, ofLine_of_comment isCommentToo]
  · apply ofLine_congr
    rw [trimmed, String.toList_ofList, significant_trim,
      significant_of_flush startsFlush endsFlush]

end Rule

namespace Matcher

variable {line : String} {lines : List String} {matcher : Matcher}

theorem ofLines_cons (line : String) (lines : List String) :
    ofLines (line :: lines) = do
      let rule? ← Rule.ofLine line
      let others ← ofLines lines
      return ⟨rule?.toList ++ others.rules⟩ := by
  simp only [ofLines, List.mapM_cons, bind_assoc, pure_bind]
  congr 1
  funext rule?
  congr 1
  funext rules
  cases rule? <;> rfl

/-- Lines that hold no rule may be left out. -/
theorem ofLines_filter {keeps : String → Bool}
    (silent : ∀ line ∈ lines, keeps line = false → Rule.ofLine line = .ok none) :
    ofLines (lines.filter keeps) = ofLines lines := by
  induction lines with
  | nil => rfl
  | cons line lines inductionHypothesis =>
      rw [List.forall_mem_cons] at silent
      have sameOthers := inductionHypothesis silent.2
      cases isKept : keeps line with
      | true => rw [List.filter_cons_of_pos isKept, ofLines_cons, sameOthers, ofLines_cons]
      | false =>
          rw [List.filter_cons_of_neg (by simp [isKept]), sameOthers, ofLines_cons,
            silent.1 isKept]
          cases ofLines lines with
          | error failure => rfl
          | ok others => rfl

/-- Lines may be trimmed if that takes no blank that belongs to a pattern. -/
theorem ofLines_trimmed_iff (flush : ∀ line ∈ lines, Flush line.toList) :
    ofLines (lines.map trimmed) = .ok matcher ↔ ofLines lines = .ok matcher := by
  induction lines generalizing matcher with
  | nil => rfl
  | cons line lines inductionHypothesis =>
      rw [List.forall_mem_cons] at flush
      simp only [List.map_cons, ofLines_cons, bind_eq_ok_iff, Rule.ofLine_trimmed_iff flush.1,
        inductionHypothesis flush.2]

end Matcher

/-! ## Ignore files -/

variable {fs : FileSystem} {directory : Path} {text : List Char}

theorem unifyLineEnds_eq_self (noReturn : '\r' ∉ text) : unifyLineEnds text = text := by
  induction text with
  | nil => rfl
  | cons c text inductionHypothesis =>
      rw [List.mem_cons, not_or] at noReturn
      rw [unifyLineEnds.eq_4 c text (by grind) (by grind), inductionHypothesis noReturn.2]

/-- The lines that may hold patterns are trimmed lines of the text. -/
theorem map_ofList_patternLines (noReturn : '\r' ∉ text) :
    (patternLines text).map String.ofList =
      ((Source.lines text).map trimmed).filter fun line => isPatternLine line.toList := by
  have sameLines : (Source.lines text).map trimmed =
      ((text.splitOn '\n').map (trim isBlank)).map String.ofList := by
    simp [Source.lines, trimmed, Function.comp_def]
  have sameTest : (fun line => isPatternLine line.toList) ∘ String.ofList = isPatternLine := by
    funext letters
    rw [Function.comp_apply, String.toList_ofList]
  rw [sameLines, List.filter_map, sameTest, patternLines, unifyLineEnds_eq_self noReturn]

theorem ofLine_of_not_isPatternLine {line : String}
    (noPattern : isPatternLine line.toList = false) : Rule.ofLine line = .ok none := by
  by_cases isEmpty : line.toList = []
  · exact Rule.ofLine_of_blanks (by simp [isEmpty])
  · apply Rule.ofLine_of_comment
    simpa [isPatternLine, isEmpty] using noPattern

theorem load_of_read (isFile : fs.isFile (directory.child fileName) = .ok true)
    (isRead : fs.read (directory.child fileName) = .ok (Text.Utf8.encode text)) :
    load fs directory = .ok ((patternLines text).map String.ofList) := by
  have isText : Text.Utf8.decode (Text.Utf8.encode text) = .ok text :=
    Text.Utf8.decode_eq_ok_iff.mpr rfl
  rw [load]
  simp only [isFile, isRead, linesOfBytes, isText]
  rfl

/-- The rules of an ignore file are those of its lines without the blanks around them, be they
comments or not. They are the rules of the lines as they are written if trimming takes no blank that
belongs to a pattern. -/
theorem Matcher.ofDirectory_trims (isFile : fs.isFile (directory.child fileName) = .ok true)
    (isRead : fs.read (directory.child fileName) = .ok (Text.Utf8.encode text))
    (noReturn : '\r' ∉ text) :
    ofDirectory fs directory =
        (ofLines ((Source.lines text).map trimmed)).mapError .ignorePattern ∧
      ((∀ line ∈ Source.lines text, Flush line.toList) → ∀ matcher,
        ofDirectory fs directory = .ok matcher ↔ ofLines (Source.lines text) = .ok matcher) := by
  have areRules : ofDirectory fs directory =
      (ofLines ((Source.lines text).map trimmed)).mapError .ignorePattern := by
    rw [ofDirectory, load_of_read isFile isRead, map_ofList_patternLines noReturn]
    refine congrArg (Except.mapError Failure.ignorePattern) (ofLines_filter ?_)
    intro line _ noPattern
    exact ofLine_of_not_isPatternLine noPattern
  refine ⟨areRules, ?_⟩
  intro flush matcher
  rw [areRules, mapError_eq_ok_iff, ofLines_trimmed_iff flush]

theorem isName_fileName : Entry.isName fileName = true := by
  decide +kernel

/-- A directory with nothing but an ignore file. -/
def onlyIgnoreFile (text : List Char) : FileSystem :=
  ⟨[(⟨fileName, isName_fileName⟩, .node (.file (Text.Utf8.encode text) false) [])], []⟩

theorem isFile_onlyIgnoreFile (text : List Char) :
    (onlyIgnoreFile text).isFile (Path.child ⟨.root, []⟩ fileName) = .ok true := by
  rfl

theorem read_onlyIgnoreFile (isSmall : (Text.Utf8.encode text).length < FileSystem.tooLarge) :
    (onlyIgnoreFile text).read (Path.child ⟨.root, []⟩ fileName) = .ok (Text.Utf8.encode text) :=
  if_pos isSmall

/-- A pattern with blanks behind it, and a comment. -/
theorem Matcher.ofDirectory_trims_onlyIgnoreFile :
    (ofLines ["d ", "#e"]).map (fun matcher => matcher.ignores "d" false) = .ok true ∧
    ∀ matcher, ofDirectory (onlyIgnoreFile "d \n#e".toList) ⟨.root, []⟩ = .ok matcher ↔
      ofLines ["d ", "#e"] = .ok matcher := by
  have areLines : Source.lines "d \n#e".toList = ["d ", "#e"] := by decide +kernel
  rcases ofDirectory_trims (isFile_onlyIgnoreFile _) (read_onlyIgnoreFile (by decide +kernel))
    (by decide : '\r' ∉ "d \n#e".toList) with ⟨_, sameRules⟩
  rw [areLines] at sameRules
  refine ⟨by decide +kernel, sameRules ?_⟩
  intro line isLine
  rcases List.mem_pair.mp isLine with rfl | rfl
  · refine Or.inr (Or.inr ⟨?_, by decide⟩)
    rintro c ⟨⟩
    decide
  · exact Or.inr (Or.inl (by decide))

/-- Trimming shows where a blank belongs to a pattern. Before a name it makes another name, and
without the blank that it escapes a backslash is a mistake. -/
theorem Matcher.ofDirectory_blanks :
    (ofLines (Source.lines " d".toList)).map (fun matcher => matcher.ignores "d" false) =
      .ok false ∧
    (ofDirectory (onlyIgnoreFile " d".toList) ⟨.root, []⟩).map
      (fun matcher => matcher.ignores "d" false) = .ok true ∧
    (ofLines (Source.lines "d\\ ".toList)).map (fun matcher => matcher.ignores "d " false) =
      .ok true ∧
    ofDirectory (onlyIgnoreFile "d\\ ".toList) ⟨.root, []⟩ =
      .error (.ignorePattern (.malformed "d\\")) := by
  decide +kernel

end Ignore

end DeclIndex
