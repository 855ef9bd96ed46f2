import DeclIndex.Proofs.Declarations.FirstHits
import DeclIndex.Proofs.Rule.Captures
import DeclIndex.Proofs.Source.Lines

/-!
# Lines added to a text

Three things cross from one line to the next in a scan: the number of the line, the line before it,
and the names that were seen (`Declarations.scanFrom_append`). None of them lets added lines change
what was found above. The number only moves the records down (`Declarations.scanFrom_add`), and the
names only leave some of them out (`Declarations.scanFrom_eq_filter`), so the added lines can be
scanned on their own. They still need the last line above, since one rule looks at the line before
and only the first line of a file has none.
-/

namespace DeclIndex

/-- The same declaration a number of lines further down. -/
def Record.below (distance : Nat) (record : Record) : Record :=
  { record with line := record.line + distance }

namespace Declarations

/-- What lines declare that follow other lines, of which the last is given. A name that is declared
above does not count. -/
def scanBelow (rules : List Rule) (kind : Kind) (file : String) (above : List String)
    (last : String) (lines : List String) : List Record :=
  ((scanFrom (rules.map Rule.name?) kind file 1 (some last) [] lines).map
    (Record.below above.length)).filter
      fun record => !((scan rules kind file above).map (·.name)).contains record.name

variable {finders : List Finder} {rules : List Rule} {kind : Kind} {file : String} {number : Nat}
  {previous : Option String} {seen others lines more : List String}

theorem scanFrom_eq_filter (seen lines : List String) :
    scanFrom finders kind file number previous seen lines =
      (scanFrom finders kind file number previous [] lines).filter fun record =>
        !seen.contains record.name := by
  have leftOut := firstByName_unseen_append seen [] (hitsFrom finders number previous lines)
  rw [List.append_nil] at leftOut
  rw [scanFrom_eq_firstByName, scanFrom_eq_firstByName, leftOut, unseen, List.filter_map]
  rfl

theorem scanFrom_congr_seen (same : ∀ name, name ∈ seen ↔ name ∈ others) (lines : List String) :
    scanFrom finders kind file number previous seen lines =
      scanFrom finders kind file number previous others lines := by
  simp only [scanFrom_eq_firstByName, unseen_congr same]

theorem scanFrom_add (distance : Nat) (lines : List String) :
    scanFrom finders kind file (number + distance) previous seen lines =
      (scanFrom finders kind file number previous seen lines).map (Record.below distance) := by
  induction lines generalizing number previous seen with
  | nil => rfl
  | cons line lines inductionHypothesis =>
      rw [scanFrom, scanFrom, List.map_append, List.map_map, Nat.add_right_comm,
        inductionHypothesis]
      rfl

theorem scanFrom_append (lines more : List String) :
    scanFrom finders kind file number previous seen (lines ++ more) =
      scanFrom finders kind file number previous seen lines ++
        scanFrom finders kind file (number + lines.length) (lines.getLast?.or previous)
          ((scanFrom finders kind file number previous seen lines).map (·.name) ++ seen) more := by
  induction lines generalizing number previous seen with
  | nil => rfl
  | cons line lines inductionHypothesis =>
      have sameNumber : number + 1 + lines.length = number + (line :: lines).length := by
        rw [List.length_cons]
        omega
      have sameLast : lines.getLast?.or (some line) = (line :: lines).getLast?.or previous := by
        rw [List.getLast?_cons]
        cases lines.getLast? <;> rfl
      rw [List.cons_append, scanFrom, inductionHypothesis, scanFrom, List.append_assoc, sameNumber,
        sameLast]
      congr 2
      apply scanFrom_congr_seen
      intro name
      simp only [List.map_append, List.map_map, List.mem_append, Function.comp_def, List.map_id']
      tauto

/-- Added lines add what they declare on their own below the last line above. -/
theorem scan_append {last : String} (isLast : lines.getLast? = some last) (more : List String) :
    scan rules kind file (lines ++ more) =
      scan rules kind file lines ++ scanBelow rules kind file lines last more := by
  rw [scan, scanWith, scanFrom_append lines more, isLast, scanFrom_eq_filter _ more,
    scanFrom_add lines.length more, List.append_nil]
  rfl

/-- A text with more lines behind it declares what it did, on the same lines, and then what the
added lines declare below its last line, without the names that were there. -/
theorem declarations_append :
    (∀ (rules : List Rule) (kind : Kind) (file : String) (text more : List Char),
      ∃ last, (Source.lines text).getLast? = some last ∧
        scan rules kind file (Source.lines (text ++ '\n' :: more)) =
          scan rules kind file (Source.lines text) ++
            scanBelow rules kind file (Source.lines text) last (Source.lines more)) ∧
    ∀ (fs other : FileSystem) (file base fileToo baseToo : Path) (kind : Kind)
      (text more : List Char),
      (kind = .functions ∨ kind = .classes) →
      Source.text fs file = .ok text → Source.text other fileToo = .ok (text ++ '\n' :: more) →
      fs.relativePath file base = other.relativePath fileToo baseToo →
        ∃ rules records last, kind.rules? = some rules ∧
          (Source.lines text).getLast? = some last ∧
          Source.declarations fs file base kind = .ok records ∧
          Source.declarations other fileToo baseToo kind = .ok (records ++
            scanBelow rules kind (fs.relativePath file base) (Source.lines text) last
              (Source.lines more)) := by
  have hasLast (text : List Char) : ∃ last, (Source.lines text).getLast? = some last :=
    ⟨_, List.getLast?_eq_some_getLast (Source.lines_ne_nil text)⟩
  constructor
  · intro rules kind file text more
    rcases hasLast text with ⟨last, isLast⟩
    refine ⟨last, isLast, ?_⟩
    rw [Source.lines_append]
    exact scan_append isLast _
  · intro fs other file base fileToo baseToo kind text more isKind isText isTextToo sameLabel
    rcases Kind.exists_rules isKind with ⟨rules, areRules⟩
    rcases hasLast text with ⟨last, isLast⟩
    refine ⟨rules, _, last, areRules, isLast, Source.declarations_of_text areRules isText, ?_⟩
    rw [Source.declarations_of_text areRules isTextToo, Source.lines_append, scan_append isLast,
      sameLabel]

/-- On its own the second text would declare a method on its first line and a function on its
second. Below the first text neither counts: the line before is no modifier, and the name is there
already. -/
theorem declarations_append_page :
    Source.text (Source.pageFile (Text.Utf8.encode "function f(\n\x7d".toList)) ⟨.here, ["page"]⟩ =
      .ok "function f(\n\x7d".toList ∧
    scan Rule.functionRules .functions "page"
        (Source.lines "run(x) \x7b\ndef f(\n g h(".toList) =
      [⟨"run", .functions, 1, "page"⟩, ⟨"f", .functions, 2, "page"⟩,
        ⟨"h", .functions, 3, "page"⟩] ∧
    Source.declarations
        (Source.pageFile
          (Text.Utf8.encode "function f(\n\x7d\nrun(x) \x7b\ndef f(\n g h(".toList))
        ⟨.here, ["page"]⟩ ⟨.here, []⟩ .functions =
      .ok [⟨"f", .functions, 1, "page"⟩, ⟨"h", .functions, 5, "page"⟩] := by
  have isSmall : (Text.Utf8.encode "function f(\n\x7d".toList).length < FileSystem.tooLarge := by
    decide +kernel
  have isSmallToo : (Text.Utf8.encode
      "function f(\n\x7d\nrun(x) \x7b\ndef f(\n g h(".toList).length < FileSystem.tooLarge := by
    decide +kernel
  have isText := Source.text_of_read_encode (Source.read_pageFile isSmall)
  have isTextToo := Source.text_of_read_encode (Source.read_pageFile isSmallToo)
  refine ⟨isText, by decide +kernel, ?_⟩
  rcases declarations_append.2 _ _ _ ⟨.here, []⟩ _ ⟨.here, []⟩ .functions
    "function f(\n\x7d".toList "run(x) \x7b\ndef f(\n g h(".toList (Or.inl rfl) isText isTextToo
    rfl with ⟨rules, records, last, areRules, isLast, areRecords, areRecordsToo⟩
  have isRules : Rule.functionRules = rules := Option.some.inj areRules
  have isLine : "\x7d" = last := Option.some.inj isLast
  have isFirst : [⟨"f", .functions, 1, "page"⟩] = records := by
    apply Except.ok.inj (ε := Failure)
    rw [← areRecords]
    decide +kernel
  rw [areRecordsToo, ← isRules, ← isLine, ← isFirst]
  decide +kernel

end Declarations

end DeclIndex
