import DeclIndex.Proofs.Ignore.Trimming

/-!
# Writing an ignore file

An ignore file is a page of rows. A row is blank, a comment, or a pattern with blanks around it, and
any of three line ends may stand after it. Every text can be taken for such a page (`exists_page`),
and the lines that are read from a page are the patterns on its rows, whatever stands between them
(`patternLines_text`). So what was read once is read again from every page on which it is written
out (`load_settles`).

Blanks may hold line ends, in which case a row takes up several lines of the file. That a carriage
return and a line feed make one line end does not matter to what is read. If they are taken for two,
an empty line comes in between, and such a line holds no pattern (`patternLines_eq_patternsOn`).
-/

namespace DeclIndex.Ignore

open Text (isBlank trim dropEndWhile)

/-! ## Pages -/

/-- A line ends at this character. -/
def isBreak (c : Char) : Bool :=
  c == '\n' || c == '\r'

/-- The text holds no end of a line. -/
def IsOneLine (text : List Char) : Prop :=
  '\n' ∉ text ∧ '\r' ∉ text

/-- A line as it is read from an ignore file: a pattern, and nothing beside it. -/
structure IsBare (line : List Char) : Prop where
  nonempty : line ≠ []
  startsFirmly : ∀ c ∈ line.head?, isBlank c = false
  endsFirmly : ∀ c ∈ line.getLast?, isBlank c = false
  notComment : line.head? ≠ some '#'
  isOneLine : IsOneLine line

/-- Blank characters, which may be line ends. -/
structure Blanks where
  text : List Char
  allBlank : text.all isBlank = true

theorem Blanks.areBlank (blanks : Blanks) : ∀ c ∈ blanks.text, isBlank c = true :=
  List.all_eq_true.mp blanks.allBlank

/-- How a line may end. -/
inductive LineEnd where
  | lineFeed
  | carriageReturn
  | both

def LineEnd.text : LineEnd → List Char
  | lineFeed => ['\n']
  | carriageReturn => ['\r']
  | both => ['\r', '\n']

/-- What may be written up to a line end. -/
inductive Row where
  | blank (blanks : Blanks)
  | comment (before : Blanks) (remark : List Char) (isOneLine : IsOneLine remark)
  | pattern (before : Blanks) (line : List Char) (after : Blanks)

namespace Row

def text : Row → List Char
  | blank blanks => blanks.text
  | comment before remark _ => before.text ++ '#' :: remark
  | pattern before line after => before.text ++ (line ++ after.text)

def pattern? : Row → Option (List Char)
  | blank _ => none
  | comment _ _ _ => none
  | pattern _ line _ => some line

end Row

/-- What an ignore file may hold. -/
structure Page where
  rows : List (Row × LineEnd)
  /-- What stands after the last line end. -/
  last : Row

namespace Page

def text (page : Page) : List Char :=
  page.rows.flatMap (fun row => row.1.text ++ row.2.text) ++ page.last.text

def patterns (page : Page) : List (List Char) :=
  page.rows.filterMap (fun row => row.1.pattern?) ++ page.last.pattern?.toList

end Page

/-! ## Lines that end at either character -/

/-- The patterns on some lines, without the blanks around them. -/
def patternsOn (lines : List (List Char)) : List (List Char) :=
  (lines.map (trim isBlank)).filter isPatternLine

variable {c : Char} {line text blanks : List Char}

theorem isOneLine_iff : IsOneLine text ↔ ∀ c ∈ text, isBreak c = false := by
  simp only [IsOneLine, isBreak, Bool.or_eq_false_iff, beq_eq_false_iff_ne]
  grind

theorem patternsOn_nil_cons (lines : List (List Char)) :
    patternsOn ([] :: lines) = patternsOn lines := by
  rfl

theorem patternsOn_append (lines more : List (List Char)) :
    patternsOn (lines ++ more) = patternsOn lines ++ patternsOn more := by
  rw [patternsOn, List.map_append, List.filter_append]
  rfl

theorem patternsOn_cons_congr {lines others : List (List Char)}
    (same : patternsOn lines = patternsOn others) (line : List Char) :
    patternsOn (line :: lines) = patternsOn (line :: others) := by
  rw [← List.singleton_append, patternsOn_append, same, ← patternsOn_append,
    List.singleton_append]

theorem splitOnP_break_cons (isEnd : isBreak c = true) (text : List Char) :
    (c :: text).splitOnP isBreak = [] :: text.splitOnP isBreak :=
  List.splitOnP_append_cons [] text isEnd

theorem splitOn_feed_cons (text : List Char) :
    ('\n' :: text).splitOn '\n' = [] :: text.splitOn '\n' :=
  List.splitOn_append_cons_self [] text

/-- Both ways to tell lines apart begin with the same line, and they agree on the patterns after
it. -/
theorem exists_lines (text : List Char) :
    ∃ first unified broken, (unifyLineEnds text).splitOn '\n' = first :: unified ∧
      text.splitOnP isBreak = first :: broken ∧ patternsOn unified = patternsOn broken := by
  fun_induction unifyLineEnds text with
  | case1 => exact ⟨[], [], [], rfl, rfl, rfl⟩
  | case2 rest inductionHypothesis =>
      -- Only here does one of them see a line more. It is empty and yields no pattern.
      rcases inductionHypothesis with ⟨first, unified, broken, areUnified, areBroken, same⟩
      rw [splitOn_feed_cons, splitOnP_break_cons rfl, splitOnP_break_cons rfl, areUnified,
        areBroken]
      have sameAfter : patternsOn (first :: unified) = patternsOn ([] :: first :: broken) := by
        rw [patternsOn_nil_cons, patternsOn_cons_congr same]
      exact ⟨[], _, _, rfl, rfl, sameAfter⟩
  | case3 rest _ inductionHypothesis =>
      rcases inductionHypothesis with ⟨first, unified, broken, areUnified, areBroken, same⟩
      rw [splitOn_feed_cons, splitOnP_break_cons rfl, areUnified, areBroken]
      exact ⟨[], _, _, rfl, rfl, patternsOn_cons_congr same first⟩
  | case4 c rest _ notReturn inductionHypothesis =>
      rcases inductionHypothesis with ⟨first, unified, broken, areUnified, areBroken, same⟩
      by_cases isFeed : c = '\n'
      · rw [isFeed, splitOn_feed_cons, splitOnP_break_cons rfl, areUnified, areBroken]
        exact ⟨[], _, _, rfl, rfl, patternsOn_cons_congr same first⟩
      · have noBreak : isBreak c = false := by
          rw [isBreak, Bool.or_eq_false_iff, beq_eq_false_iff_ne, beq_eq_false_iff_ne]
          exact ⟨isFeed, notReturn⟩
        rw [List.splitOn_cons_eq_if_modifyHead, if_neg (by simpa using isFeed),
          List.splitOnP_cons_eq_if_modifyHead, if_neg (by simp [noBreak]), areUnified, areBroken]
        exact ⟨c :: first, unified, broken, rfl, rfl, same⟩

theorem patternLines_eq_patternsOn (text : List Char) :
    patternLines text = patternsOn (text.splitOnP isBreak) := by
  rcases exists_lines text with ⟨first, unified, broken, areUnified, areBroken, same⟩
  have areLines : patternLines text = patternsOn ((unifyLineEnds text).splitOn '\n') := rfl
  rw [areLines, areUnified, areBroken, patternsOn_cons_congr same]

/-! ## Parts of a text -/

theorem patternLines_append_break (isEnd : isBreak c = true) (text rest : List Char) :
    patternLines (text ++ c :: rest) = patternLines text ++ patternLines rest := by
  rw [patternLines_eq_patternsOn, List.splitOnP_append_cons text rest isEnd, patternsOn_append,
    patternLines_eq_patternsOn, patternLines_eq_patternsOn]

theorem patternLines_of_isOneLine (isOneLine : IsOneLine text) :
    patternLines text = patternsOn [text] := by
  rw [patternLines_eq_patternsOn, List.splitOnP_eq_singleton (isOneLine_iff.mp isOneLine)]

theorem patternLines_blank_cons (blank : isBlank c = true) (text : List Char) :
    patternLines (c :: text) = patternLines text := by
  rw [patternLines_eq_patternsOn, patternLines_eq_patternsOn,
    List.splitOnP_cons_eq_if_modifyHead]
  split
  next => rw [patternsOn_nil_cons]
  next =>
    cases text.splitOnP isBreak with
    | nil => rfl
    | cons line lines =>
        have sameTrimmed : trim isBlank (c :: line) = trim isBlank line := by
          rw [trim, List.dropWhile_cons_of_pos blank]
          rfl
        rw [List.modifyHead_cons, patternsOn, List.map_cons, sameTrimmed]
        rfl

theorem patternLines_blanks_append (areBlank : ∀ c ∈ blanks, isBlank c = true)
    (text : List Char) : patternLines (blanks ++ text) = patternLines text := by
  induction blanks with
  | nil => rfl
  | cons c blanks inductionHypothesis =>
      rw [List.forall_mem_cons] at areBlank
      rw [List.cons_append, patternLines_blank_cons areBlank.1, inductionHypothesis areBlank.2]

theorem patternLines_blanks (areBlank : ∀ c ∈ blanks, isBlank c = true) :
    patternLines blanks = [] := by
  rw [← List.append_nil blanks, patternLines_blanks_append areBlank]
  rfl

/-- Blanks after a line may hold line ends. Those before the first of them belong to the line. -/
theorem patternLines_append_blanks (isOneLine : IsOneLine line)
    (areBlank : ∀ c ∈ blanks, isBlank c = true) :
    patternLines (line ++ blanks) = patternsOn [line] := by
  induction blanks generalizing line with
  | nil => rw [List.append_nil, patternLines_of_isOneLine isOneLine]
  | cons c blanks inductionHypothesis =>
      rw [List.forall_mem_cons] at areBlank
      cases isEnd : isBreak c with
      | true =>
          rw [patternLines_append_break isEnd, patternLines_blanks areBlank.2, List.append_nil,
            patternLines_of_isOneLine isOneLine]
      | false =>
          have isOneLineToo : IsOneLine (line ++ [c]) := by
            rw [isOneLine_iff, List.forall_mem_append, List.forall_mem_singleton]
            exact ⟨isOneLine_iff.mp isOneLine, isEnd⟩
          rw [List.append_cons, inductionHypothesis isOneLineToo areBlank.2, patternsOn,
            List.map_singleton, Text.trim_concat areBlank.1]
          rfl

/-! ## What is read from a page -/

theorem patternsOn_of_isBare (isBare : IsBare line) : patternsOn [line] = [line] := by
  have isPattern : isPatternLine line = true := by
    simp [isPatternLine, isBare.nonempty, isBare.notComment]
  rw [patternsOn, List.map_singleton, Text.trim_eq_self isBare.startsFirmly isBare.endsFirmly,
    List.filter_cons_of_pos isPattern, List.filter_nil]

theorem patternsOn_comment (remark : List Char) : patternsOn ['#' :: remark] = [] := by
  have notBlank : isBlank '#' = false := by decide
  rw [patternsOn, List.map_singleton, Text.trim_of_head? (by simp [notBlank]),
    Text.dropEndWhile_cons notBlank]
  rfl

theorem Row.patternLines_text {row : Row} (areBare : ∀ line ∈ row.pattern?, IsBare line) :
    patternLines row.text = row.pattern?.toList := by
  cases row with
  | blank blanks => exact patternLines_blanks blanks.areBlank
  | comment before remark isOneLine =>
      have isOneLineToo : IsOneLine ('#' :: remark) := by
        simpa [IsOneLine] using isOneLine
      rw [Row.text, patternLines_blanks_append before.areBlank,
        patternLines_of_isOneLine isOneLineToo, patternsOn_comment]
      rfl
  | pattern before line after =>
      have isBare : IsBare line := areBare line rfl
      rw [Row.text, patternLines_blanks_append before.areBlank,
        patternLines_append_blanks isBare.isOneLine after.areBlank, patternsOn_of_isBare isBare]
      rfl

/-- A line end is one character at which a line ends, and blanks. -/
theorem LineEnd.exists_break (ending : LineEnd) :
    ∃ c blanks, ending.text = c :: blanks ∧ isBreak c = true ∧ ∀ c ∈ blanks, isBlank c = true := by
  cases ending with
  | lineFeed => exact ⟨'\n', [], rfl, rfl, List.forall_mem_nil _⟩
  | carriageReturn => exact ⟨'\r', [], rfl, rfl, List.forall_mem_nil _⟩
  | both => exact ⟨'\r', ['\n'], rfl, rfl, List.forall_mem_singleton.mpr rfl⟩

theorem patternLines_append_lineEnd (ending : LineEnd) (text rest : List Char) :
    patternLines (text ++ ending.text ++ rest) = patternLines text ++ patternLines rest := by
  rcases ending.exists_break with ⟨c, blanks, isText, isEnd, areBlank⟩
  rw [isText, List.append_assoc, List.cons_append, patternLines_append_break isEnd,
    patternLines_blanks_append areBlank]

theorem Page.text_cons (row : Row × LineEnd) (rows : List (Row × LineEnd)) (last : Row) :
    Page.text ⟨row :: rows, last⟩ = row.1.text ++ row.2.text ++ Page.text ⟨rows, last⟩ := by
  rw [Page.text, List.flatMap_cons, List.append_assoc]
  rfl

theorem Page.patterns_cons (row : Row × LineEnd) (rows : List (Row × LineEnd)) (last : Row) :
    Page.patterns ⟨row :: rows, last⟩ =
      row.1.pattern?.toList ++ Page.patterns ⟨rows, last⟩ := by
  cases isPattern : row.1.pattern? <;> simp [Page.patterns, isPattern]

/-- What is read from a page are the patterns on it. -/
theorem Page.patternLines_text {page : Page} (areBare : ∀ line ∈ page.patterns, IsBare line) :
    patternLines page.text = page.patterns := by
  rcases page with ⟨rows, last⟩
  induction rows with
  | nil =>
      apply Row.patternLines_text
      intro line isLine
      exact areBare line (by simpa [Page.patterns] using isLine)
  | cons row rows inductionHypothesis =>
      rw [Page.patterns_cons, List.forall_mem_append] at areBare
      have rowIsBare : ∀ line ∈ row.1.pattern?, IsBare line := by
        simpa using areBare.1
      rw [Page.text_cons, patternLines_append_lineEnd, Row.patternLines_text rowIsBare,
        inductionHypothesis areBare.2, Page.patterns_cons]

/-! ## Every text is a page -/

theorem IsOneLine.subset {part : List Char} (isOneLine : IsOneLine text) (isPart : part ⊆ text) :
    IsOneLine part :=
  ⟨fun isFeed => isOneLine.1 (isPart isFeed), fun isReturn => isOneLine.2 (isPart isReturn)⟩

theorem isBare_dropEndWhile (isOneLine : IsOneLine (c :: text)) (notBlank : isBlank c = false)
    (notComment : c ≠ '#') : IsBare (dropEndWhile isBlank (c :: text)) := by
  have isOneLineToo : IsOneLine (dropEndWhile isBlank (c :: text)) :=
    isOneLine.subset (Text.dropEndWhile_prefix isBlank (c :: text)).subset
  have endsFirmly := Text.getLast?_dropEndWhile isBlank (c :: text)
  rw [Text.dropEndWhile_cons notBlank] at isOneLineToo endsFirmly ⊢
  exact ⟨by simp, by simp [notBlank], endsFirmly, by simpa using notComment, isOneLineToo⟩

theorem exists_row (isOneLine : IsOneLine text) :
    ∃ row : Row, row.text = text ∧ ∀ line ∈ row.pattern?, IsBare line := by
  cases isFirst : text.find? fun c => !isBlank c with
  | none =>
      have allBlank : text.all isBlank = true := by
        simpa using List.find?_eq_none.mp isFirst
      exact ⟨.blank ⟨text, allBlank⟩, rfl, by simp [Row.pattern?]⟩
  | some c =>
      rcases List.find?_eq_some_iff_append.mp isFirst with ⟨isKept, before, body, rfl, areBlank⟩
      have notBlank : isBlank c = false := by
        simpa using isKept
      have allBlank : before.all isBlank = true := by
        simpa using areBlank
      have isOneLineToo : IsOneLine (c :: body) :=
        isOneLine.subset (List.subset_append_right _ _)
      by_cases isComment : c = '#'
      · subst isComment
        have isOneLineAfter : IsOneLine body := isOneLineToo.subset (List.subset_cons_self _ _)
        exact ⟨.comment ⟨before, allBlank⟩ body isOneLineAfter, rfl, by simp [Row.pattern?]⟩
      · rcases Text.exists_append_dropEndWhile isBlank (c :: body) with ⟨ending, isText, areBlank⟩
        let after : Blanks := ⟨ending, List.all_eq_true.mpr areBlank⟩
        refine ⟨.pattern ⟨before, allBlank⟩ (dropEndWhile isBlank (c :: body)) after, ?_, ?_⟩
        · rw [Row.text, isText]
        · rintro line ⟨⟩
          exact isBare_dropEndWhile isOneLineToo notBlank isComment

theorem exists_lineEnd (isEnd : isBreak c = true) : ∃ ending : LineEnd, ending.text = [c] := by
  rw [isBreak, Bool.or_eq_true, beq_iff_eq, beq_iff_eq] at isEnd
  rcases isEnd with rfl | rfl
  · exact ⟨.lineFeed, rfl⟩
  · exact ⟨.carriageReturn, rfl⟩

/-- Every text is a page on which the patterns are bare. -/
theorem exists_page (text : List Char) :
    ∃ page : Page, page.text = text ∧ ∀ line ∈ page.patterns, IsBare line := by
  cases isFirst : text.find? isBreak with
  | none =>
      have isOneLine : IsOneLine text := by
        simpa [isOneLine_iff] using List.find?_eq_none.mp isFirst
      rcases exists_row isOneLine with ⟨row, isRow, areBare⟩
      exact ⟨⟨[], row⟩, isRow, by simpa [Page.patterns] using areBare⟩
  | some c =>
      rcases List.find?_eq_some_iff_append.mp isFirst with ⟨isEnd, before, rest, isText, noBreak⟩
      have isOneLine : IsOneLine before := by
        simpa [isOneLine_iff] using noBreak
      have isShorter : rest.length < text.length := by
        rw [isText, List.length_append, List.length_cons]
        omega
      rcases exists_row isOneLine with ⟨row, isRow, isBare⟩
      rcases exists_lineEnd isEnd with ⟨ending, isEnding⟩
      rcases exists_page rest with ⟨page, isPage, areBare⟩
      refine ⟨⟨(row, ending) :: page.rows, page.last⟩, ?_, ?_⟩
      · rw [isText, ← isRow, ← isPage, Page.text_cons, isEnding, List.append_assoc]
        rfl
      · rw [Page.patterns_cons, List.forall_mem_append]
        exact ⟨by simpa using isBare, areBare⟩
termination_by text.length

/-! ## Reading again -/

variable {fs : FileSystem} {directory : Path}

/-- The lines of an ignore file are bare patterns, and all that the file says apart from blanks and
comments. They are read again from every page on which they are written out. -/
theorem load_settles (isFile : fs.isFile (directory.child fileName) = .ok true)
    (isRead : fs.read (directory.child fileName) = .ok (Text.Utf8.encode text)) :
    ∃ lines : List (List Char), load fs directory = .ok (lines.map String.ofList) ∧
      (∀ line ∈ lines, IsBare line) ∧
      (∃ page : Page, page.text = text ∧ page.patterns = lines) ∧
      ∀ (page : Page) (after : FileSystem) (place : Path), page.patterns = lines →
        after.isFile (place.child fileName) = .ok true →
        after.read (place.child fileName) = .ok (Text.Utf8.encode page.text) →
        load after place = .ok (lines.map String.ofList) := by
  rcases exists_page text with ⟨page, rfl, areBare⟩
  have areLines := page.patternLines_text areBare
  refine ⟨page.patterns, ?_, areBare, ⟨page, rfl, rfl⟩, ?_⟩
  · rw [load_of_read isFile isRead, areLines]
  · intro other after place samePatterns isFileAfter isReadAfter
    rw [← samePatterns] at areBare ⊢
    rw [load_of_read isFileAfter isReadAfter, other.patternLines_text areBare]

/-- Two patterns among rows of each kind, with each line end. -/
def mixedPage : Page where
  rows := [(.blank ⟨['\t'], rfl⟩, .both),
    (.comment ⟨['\n', ' '], rfl⟩ ['e', '#'] (by simp [IsOneLine]), .carriageReturn),
    (.pattern ⟨['\u2028'], rfl⟩ ['a'] ⟨[' ', '\r'], rfl⟩, .lineFeed)]
  last := .pattern ⟨[], rfl⟩ ['c', ' ', 'd'] ⟨['\u0085'], rfl⟩

theorem load_settles_mixedPage :
    load (onlyIgnoreFile " a\r\u00a0# b\n\nc d\r\n".toList) ⟨.root, []⟩ = .ok ["a", "c d"] ∧
      load (onlyIgnoreFile mixedPage.text) ⟨.root, []⟩ = .ok ["a", "c d"] := by
  rcases load_settles (isFile_onlyIgnoreFile " a\r\u00a0# b\n\nc d\r\n".toList)
    (read_onlyIgnoreFile (by decide +kernel)) with ⟨lines, isLoaded, _, _, settles⟩
  have areTexts : load (onlyIgnoreFile " a\r\u00a0# b\n\nc d\r\n".toList) ⟨.root, []⟩ =
      .ok ["a", "c d"] := by
    decide +kernel
  have sameTexts : lines.map String.ofList = ["a", "c d"] :=
    Except.ok.inj (isLoaded.symm.trans areTexts)
  have areLines : mixedPage.patterns = lines := by
    rw [← List.map_inj_right fun _ _ => String.ofList_injective, sameTexts]
    decide
  rw [settles mixedPage _ _ areLines (isFile_onlyIgnoreFile _)
    (read_onlyIgnoreFile (by decide +kernel)), sameTexts]
  exact ⟨areTexts, rfl⟩

end DeclIndex.Ignore
