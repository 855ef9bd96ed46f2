import DeclIndex.Proofs.Json.Reading
import DeclIndex.Proofs.Rule.Captures
import DeclIndex.Proofs.Tool.Writing

/-!
# Answers of tools

A tool answers with a text, whether it succeeds or not: the records of a scan can always be written
(`Tool.answer_of_ok`). The first character tells the two apart: a failure is an object, while
records are a list in JSON, and in plain text they start with a name. A name is what a rule
captures, so it is never empty and consists of word characters (`Tool.isName_of_mem_call`), and a
curly bracket is none.
-/

namespace DeclIndex

open Text (IsName isWord)

variable {scanner : Scanner} {fs : FileSystem} {name : String}
  {arguments : List (String × Argument)} {request : Request} {kind : Kind} {report : Report}
  {record : Record} {records : List Record}

/-! ## First characters -/

namespace Json

theorem head?_spelling_list (items : List Json) :
    (list items).spelling.toList.head? = some '[' := by
  rw [spelling, String.toList_ofList]
  cases items with
  | nil => rfl
  | cons item items => rfl

theorem head?_spelling_object (members : List (String × Json)) :
    (object members).spelling.toList.head? = some '\x7b' := by
  rw [spelling, String.toList_ofList]
  cases members with
  | nil => rfl
  | cons member members => rfl

end Json

namespace Record

/-- Lines of text start with the name of the first record, and so with a word character. -/
theorem exists_head?_spelling_text (isName : IsName record.name.toList) (records : List Record) :
    ∃ c, (spelling .text (record :: records)).toList.head? = some c ∧ isWord c = true := by
  rcases List.exists_cons_of_ne_nil isName.1 with ⟨c, letters, isFirst⟩
  have isWordChar : isWord c = true := by
    apply isName.2
    rw [isFirst]
    exact List.mem_cons_self
  refine ⟨c, ?_, isWordChar⟩
  rw [spelling, List.map_cons, spelledLine]
  simp only [String.append_assoc]
  rw [String.intercalate_cons_append, String.toList_append, isFirst]
  rfl

theorem spelling_text_eq_empty_iff (areNames : ∀ record ∈ records, IsName record.name.toList) :
    spelling .text records = "" ↔ records = [] := by
  cases records with
  | nil => simp [spelling]
  | cons record records =>
      rcases exists_head?_spelling_text (areNames record List.mem_cons_self) records with
        ⟨c, isFirst, _⟩
      constructor
      · intro isEmpty
        rw [isEmpty] at isFirst
        cases isFirst
      · intro noRecords
        cases noRecords

end Record

/-! ## Names of records -/

/-- The name of every record is a run of word characters. -/
theorem Scanner.isName_of_mem_scan (isKind : kind = .functions ∨ kind = .classes)
    (isReport : scanner.scan fs request kind = .ok report) (isRecord : record ∈ report.records) :
    IsName record.name.toList := by
  rcases Kind.exists_rules isKind with ⟨rules, areRules⟩
  rcases exists_text_of_mem_scan areRules isReport isRecord with ⟨_, _, _, _, isRecord⟩
  rcases Declarations.exists_line_of_mem_scan isRecord with
    ⟨_, _, _, _, _, _, _, rule, isRule, isName⟩
  rcases Kind.isWordOf_of_name? areRules isRule isName with ⟨_, _, _, isName, _⟩
  exact isName

namespace Tool

theorem isKind_of_find? {tool : Tool} (isFound : find? name = some tool) :
    tool.kind = .functions ∨ tool.kind = .classes := by
  have isTool : tool ∈ [getFunctions, getClasses] := List.mem_of_find?_eq_some isFound
  rcases List.mem_pair.mp isTool with rfl | rfl
  · exact Or.inl rfl
  · exact Or.inr rfl

/-- A call that returns is a scan of what its arguments ask for, by the tool with its name. -/
theorem call_eq_ok_iff :
    call scanner fs name arguments = .ok records ↔
      ∃ tool request report, find? name = some tool ∧
        Request.ofArguments arguments = .ok request ∧
        scanner.scan fs request tool.kind = .ok report ∧ records = report.records := by
  unfold call
  cases isTool : find? name with
  | none => simp
  | some tool =>
      constructor
      · intro areRecords
        rcases Sequence.bind_eq_ok_iff.mp areRecords with ⟨request, isRequest, areRecords⟩
        rcases Sequence.bind_eq_ok_iff.mp areRecords with ⟨report, isReport, areRecords⟩
        exact ⟨tool, request, report, rfl, isRequest, isReport, (Except.ok.inj areRecords).symm⟩
      · rintro ⟨_, request, report, ⟨⟩, isRequest, isReport, rfl⟩
        refine Sequence.bind_eq_ok_iff.mpr ⟨request, isRequest, ?_⟩
        exact Sequence.bind_eq_ok_iff.mpr ⟨report, isReport, rfl⟩

theorem isName_of_mem_call (areRecords : call scanner fs name arguments = .ok records)
    (isRecord : record ∈ records) : IsName record.name.toList := by
  rcases call_eq_ok_iff.mp areRecords with ⟨tool, request, report, isFound, _, isReport, rfl⟩
  exact Scanner.isName_of_mem_scan (isKind_of_find? isFound) isReport isRecord

theorem isWritable_of_mem_call (areRecords : call scanner fs name arguments = .ok records)
    (isRecord : record ∈ records) : record.IsWritable := by
  rcases call_eq_ok_iff.mp areRecords with ⟨tool, request, report, isFound, _, isReport, rfl⟩
  exact Scanner.isWritable_of_mem_scan (isKind_of_find? isFound) isReport isRecord

/-! ## Answers -/

theorem answer_of_ok (areRecords : call scanner fs name arguments = .ok records)
    (format : OutputFormat) :
    answer scanner fs name arguments format = .ok (Record.spelling format records) := by
  rw [answer, areRecords]
  exact Record.render_of_isWritable format fun _ => isWritable_of_mem_call areRecords

theorem answer_of_error {failure : Failure}
    (fails : call scanner fs name arguments = .error failure) (format : OutputFormat) :
    answer scanner fs name arguments format =
      .ok (Json.object [("error", .text failure.message)]).spelling := by
  rw [answer, fails]
  rfl

theorem head?_spelling_ne (areRecords : call scanner fs name arguments = .ok records)
    (format : OutputFormat) :
    (Record.spelling format records).toList.head? ≠ some '\x7b' := by
  cases format with
  | json =>
      rw [Record.spelling, Json.head?_spelling_list]
      decide
  | text =>
      cases records with
      | nil => decide
      | cons record records =>
          have isName := isName_of_mem_call areRecords List.mem_cons_self
          rcases Record.exists_head?_spelling_text isName records with ⟨c, isFirst, isWordChar⟩
          rw [isFirst]
          -- The bracket would have to be a word character.
          rintro ⟨⟩
          cases isWordChar

/-- A tool always answers with a text. The text starts with an opening curly bracket if and only if
the call fails. The answer to a failed call is an object that spells what went wrong. The answer
with records is a list in JSON; in plain text it starts with a word character, unless there are no
records. -/
theorem answer_distinct (scanner : Scanner) (fs : FileSystem) (name : String)
    (arguments : List (String × Argument)) (format : OutputFormat) :
    ∃ text, answer scanner fs name arguments format = .ok text ∧
      (text.toList.head? = some '\x7b' ↔
        ∃ failure, call scanner fs name arguments = .error failure) ∧
      (∀ failure, call scanner fs name arguments = .error failure →
        Json.read? text = some (.object [("error", .text failure.message)])) ∧
      ∀ records, call scanner fs name arguments = .ok records →
        (format = .json → text.toList.head? = some '[') ∧
        (format = .text → (text = "" ↔ records = []) ∧
          (records ≠ [] → ∃ c, text.toList.head? = some c ∧ isWord c = true)) := by
  cases isCalled : call scanner fs name arguments with
  | error failure =>
      refine ⟨_, answer_of_error isCalled format, ?_, ?_, ?_⟩
      · simp [Json.head?_spelling_object]
      · rintro _ ⟨⟩
        exact Json.read?_spelling _
      · rintro _ ⟨⟩
  | ok records =>
      refine ⟨_, answer_of_ok isCalled format, ?_, ?_, ?_⟩
      · simp [head?_spelling_ne isCalled]
      · rintro _ ⟨⟩
      · rintro _ ⟨⟩
        refine ⟨?_, ?_⟩
        · rintro rfl
          exact Json.head?_spelling_list _
        · rintro rfl
          refine ⟨?_, ?_⟩
          · exact Record.spelling_text_eq_empty_iff fun _ => isName_of_mem_call isCalled
          · intro someRecords
            rcases List.exists_cons_of_ne_nil someRecords with ⟨record, others, rfl⟩
            have isName := isName_of_mem_call isCalled List.mem_cons_self
            exact Record.exists_head?_spelling_text isName others

theorem answer_distinct_linkedFile :
    call .single Scanner.linkedFile "get_functions"
        [("path", .text "/"), ("maxDepth", .integer 0)] =
      .ok [⟨"f", .functions, 1, "c"⟩, ⟨"f", .functions, 1, "k"⟩] ∧
    (∃ text, answer .single Scanner.linkedFile "get_functions"
        [("path", .text "/"), ("maxDepth", .integer 0)] .text = .ok text ∧
      ∃ c, text.toList.head? = some c ∧ isWord c = true) ∧
    ∃ text, answer .single Scanner.linkedFile "\"" [] .text = .ok text ∧
      Json.read? text = some (.object [("error", .text "Unknown tool: \"")]) := by
  have isCalled : call .single Scanner.linkedFile "get_functions"
      [("path", .text "/"), ("maxDepth", .integer 0)] =
        .ok [⟨"f", .functions, 1, "c"⟩, ⟨"f", .functions, 1, "k"⟩] :=
    call_eq_ok_iff.mpr
      ⟨getFunctions, ⟨"/", 0⟩, _, by decide, by decide +kernel, Scanner.scan_linkedFile, rfl⟩
  have fails : call .single Scanner.linkedFile "\"" [] = .error (.unknownTool "\"") := rfl
  rcases answer_distinct .single Scanner.linkedFile "get_functions"
    [("path", .text "/"), ("maxDepth", .integer 0)] .text with ⟨text, isText, _, _, succeeds⟩
  rcases answer_distinct .single Scanner.linkedFile "\"" [] .text with
    ⟨other, isOther, _, explains, _⟩
  refine ⟨isCalled, ⟨text, isText, ?_⟩, other, isOther, explains _ fails⟩
  exact ((succeeds _ isCalled).2 rfl).2 (by simp)

end Tool

end DeclIndex
