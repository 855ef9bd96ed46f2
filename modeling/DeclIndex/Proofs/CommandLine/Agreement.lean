import DeclIndex.Proofs.CommandLine.Failures
import DeclIndex.Proofs.Json.Characters
import DeclIndex.Proofs.Text.Integer
import DeclIndex.Proofs.Tool.Answer

/-!
# The command line and the tools agree

A command and the tool for the same kind are two ways to one scan. The words that spell a path, a
depth and a number of workers are read back (`read?_scanWords`), and a scan is the same for all
workers. So a run succeeds where a call of the tool does, prints the answer of the tool, and is
given up for the same file (`run_agrees`).

The printed records are visible characters, and a colon between them stands before a blank unless a
path holds one (`isPlain_spelling`). This matters to a console that shows names between colons as
pictures.

One path is out of reach for the command. Two hyphens after an equals sign count as no value, so the
run fails where the tool finds a file (`run_hyphenFile`).
-/

namespace DeclIndex

namespace CommandLine

variable {options : List String} {word name value text : String} {rest : List String}
  {given : List (String × Given String)} {path : String} {depth workers : Nat}

/-! ## Words -/

theorem classify_of_head? (options : List String) (notHyphen : word.toList.head? ≠ some '-') :
    classify options word = .plain := by
  unfold classify
  simp only
  split <;> simp_all

theorem classify_toString (options : List String) (number : Nat) :
    classify options (toString number) = .plain := by
  apply classify_of_head?
  intro isHyphen
  have isIn : '-' ∈ Nat.toDigits 10 number := by
    rw [← Text.toList_toString]
    exact List.mem_of_mem_head? isHyphen
  cases Text.isDigit_of_mem_toDigits isIn

/-- The options of a scan. -/
def scanNames : List String := ["--help", "--path", "--max-depth", "--format", "--workers"]

theorem classify_path (path : String) :
    classify scanNames ("--path=" ++ path) = .option "--path" (some path) := by
  have isText : ("--path=" ++ path).toList =
      '-' :: '-' :: 'p' :: 'a' :: 't' :: 'h' :: '=' :: path.toList := by
    rw [String.toList_append]
    rfl
  have isSplit : splitEquals ("--path=" ++ path).toList = ("--path".toList, some path.toList) := by
    rw [isText]
    rfl
  have isKnown : scanNames.contains "--path" = true := by decide
  rw [classify]
  simp only [isSplit]
  rw [isText]
  simp only [Option.map_some, String.ofList_toList]
  rw [if_pos isKnown]

theorem assignments_explicit (isOption : classify options word = .option name (some value)) :
    assignments options (word :: rest) =
      (assignments options rest).map fun given => (name, explicit value) :: given := by
  rw [assignments]
  simp only [isOption]
  cases assignments options rest with
  | none => rfl
  | some given => rfl

theorem assignments_next (isOption : classify options word = .option name none)
    (isPlain : classify options value = .plain) :
    assignments options (word :: value :: rest) =
      (assignments options rest).map fun given => (name, some value) :: given := by
  have isAllowed : (guard (classify options value = .plain) : Option Unit) = some () :=
    if_pos isPlain
  rw [assignments]
  simp only [isOption, isAllowed]
  cases assignments options rest with
  | none => rfl
  | some given => rfl

/-! ## Settings -/

theorem setting_of_filter {α : Type} {read : String → Option α} {default value : α}
    (isOnly : given.filter (fun item => item.1 == name) = [(name, some text)])
    (isRead : read text = some value) : setting read default name given = some (some value) := by
  rw [setting, isOnly]
  simp [isRead]

theorem setting_of_filter_some {default : String} {value : Given String}
    (isOnly : given.filter (fun item => item.1 == name) = [(name, value)]) :
    setting some default name given = some value := by
  rw [setting, isOnly]
  cases value with
  | none => rfl
  | some text => rfl

/-! ## A scan of a path -/

/-- The words that ask for the scan of a path by some workers, and for its records in JSON. -/
def scanWords (command path : String) (depth workers : Nat) : List String :=
  [command, "--path=" ++ path, "--max-depth", toString depth, "--format", "json", "--workers",
    toString workers]

/-- The arguments that ask a tool for the scan of a path. -/
def scanArguments (path : String) (depth : Nat) : List (String × Argument) :=
  [("path", .text path), ("maxDepth", .integer depth)]

/-- What the words for a scan assign to its options. -/
def scanGiven (path : String) (depth workers : Nat) : List (String × Given String) :=
  [("--path", explicit path), ("--max-depth", some (toString depth)), ("--format", some "json"),
    ("--workers", some (toString workers))]

theorem assignments_scanWords (command path : String) (depth workers : Nat) :
    assignments scanNames (scanWords command path depth workers).tail =
      some (scanGiven path depth workers) := by
  have isDepth : classify scanNames "--max-depth" = .option "--max-depth" none := by decide +kernel
  have isFormat : classify scanNames "--format" = .option "--format" none := by decide +kernel
  have isWorkers : classify scanNames "--workers" = .option "--workers" none := by decide +kernel
  have isJson : classify scanNames "json" = .plain := by decide +kernel
  rw [scanWords, List.tail_cons, assignments_explicit (classify_path path),
    assignments_next isDepth (classify_toString scanNames depth), assignments_next isFormat isJson,
    assignments_next isWorkers (classify_toString scanNames workers)]
  rfl

theorem scanOptions_scanWords (command : String)
    (shortDepth : (toString depth).length ≤ Text.Integer.maxDigits)
    (shortWorkers : (toString workers).length ≤ Text.Integer.maxDigits) :
    scanOptions (scanWords command path depth workers).tail =
      some ⟨explicit path, some depth, some .json, some workers⟩ := by
  have areGiven := assignments_scanWords command path depth workers
  have isPath : setting some "" "--path" (scanGiven path depth workers) = some (explicit path) :=
    setting_of_filter_some rfl
  have isDepth : setting Text.integer? Request.defaultDepth "--max-depth"
      (scanGiven path depth workers) = some (some (depth : Int)) :=
    setting_of_filter rfl (Text.integer?_toString shortDepth)
  have isFormat : setting Format.ofName? .text "--format" (scanGiven path depth workers) =
      some (some .json) := setting_of_filter rfl rfl
  have isWorkers : CommandLine.workers (scanGiven path depth workers) =
      some (some (workers : Int)) := setting_of_filter rfl (Text.integer?_toString shortWorkers)
  rw [scanNames] at areGiven
  rw [scanOptions, areGiven]
  simp only [bind, Option.bind, isPath, isDepth, isFormat, isWorkers]
  rfl

/-- The commands that scan, each with the tool that lists the same. -/
def scanCommands : List (String × Tool) :=
  [("functions", .getFunctions), ("classes", .getClasses)]

variable {console : Console} {fs : FileSystem} {command : String} {tool : Tool}
  {scanner : Scanner} {level : LogLevel} {kind : Kind} {request : Request}
  {arguments : List (String × Argument)} {records : List Record} {report : Report}

section

variable (isPair : (command, tool) ∈ scanCommands)
  (shortDepth : (toString depth).length ≤ Text.Integer.maxDigits)
  (shortWorkers : (toString workers).length ≤ Text.Integer.maxDigits)

include isPair shortDepth shortWorkers

theorem read?_scanWords :
    read? (scanWords command path depth workers) = some ⟨some .info,
      .list tool.kind ⟨explicit path, some depth, some .json, some workers⟩⟩ := by
  have areOptions : scanOptions (scanWords command path depth workers).tail =
      some ⟨explicit path, some depth, some .json, some workers⟩ :=
    scanOptions_scanWords command shortDepth shortWorkers
  rw [scanWords, List.tail_cons] at areOptions
  rcases List.mem_pair.mp isPair with isPair | isPair
  · cases isPair
    have isPlain : classify globalOptions "functions" = .plain := by decide +kernel
    rw [read?, scanWords, readFrom]
    simp only [isPlain, CommandLine.command, areOptions]
    rfl
  · cases isPair
    have isPlain : classify globalOptions "classes" = .plain := by decide +kernel
    rw [read?, scanWords, readFrom]
    simp only [isPlain, CommandLine.command, areOptions]
    rfl

theorem asks_scanWords (someWorkers : 0 < workers) (notHyphens : path ≠ "--") :
    Asks (scanWords command path depth workers) .info tool.kind ⟨path, depth⟩ (some .json)
      workers where
  isRead := by
    rw [read?_scanWords isPair shortDepth shortWorkers, explicit, if_neg notHyphens]
  someWorkers := Int.natCast_pos.mpr someWorkers
  notNegative := Int.natCast_nonneg depth

theorem run_of_hyphens (someWorkers : 0 < workers) :
    run fs (scanWords command "--" depth workers) console = .error (.noValue .path) := by
  rcases ofWorkers_of_pos (Int.natCast_pos.mpr someWorkers) with ⟨scanner, isScanner⟩
  have isRead : read? (scanWords command "--" depth workers) = _ :=
    read?_scanWords isPair shortDepth shortWorkers
  have notNegative : ¬(depth : Int) < 0 := by omega
  simp only [run, isRead, require, Command.workers, isScanner, perform, explicit,
    if_neg notNegative, bind, Except.bind]
  rfl

end

/-! ## One scan for both -/

theorem list_json (isKind : kind = .functions ∨ kind = .classes)
    (isReport : scanner.scan fs request kind = .ok report) :
    list console fs level kind request.path request.maxDepth (some .json) scanner =
      .ok ⟨0, console.print (Record.spelling .json report.records),
        String.join (report.errors.map errorLine), some level, none⟩ := by
  apply list_of_display isReport
  have areWritable : ∀ record ∈ report.records, record.IsWritable :=
    fun record => Scanner.isWritable_of_mem_scan isKind isReport
  rw [display, Record.render_of_isWritable .json areWritable]
  rfl

theorem call_scanArguments (isPair : (command, tool) ∈ scanCommands) (somePath : path ≠ "") :
    Tool.call scanner fs tool.name (scanArguments path depth) =
      (scanner.scan fs ⟨path, depth⟩ tool.kind).map (·.records) := by
  have isFound : Tool.find? tool.name = some tool := by
    rcases List.mem_pair.mp isPair with isPair | isPair
    · cases isPair
      decide
    · cases isPair
      decide
  have isRequest : Request.ofArguments (scanArguments path depth) = .ok ⟨path, depth⟩ := by
    have notNegative : ¬(depth : Int) < 0 := by omega
    have isPath : Argument.path (scanArguments path depth) = .ok path := if_neg somePath
    have isDepth : Argument.depth (scanArguments path depth) = .ok (depth : Int) := by
      have isGiven : (scanArguments path depth).lookup "maxDepth" = some (.integer depth) := rfl
      rw [Argument.depth, isGiven]
      simp only [Option.getD_some, Argument.depth?, bind, Except.bind, if_neg notNegative]
      rfl
    rw [Request.ofArguments, isPath, isDepth]
    rfl
  rw [Tool.call, isFound]
  simp only [isRequest]
  rfl

/-! ## What is printed -/

/-- A console prints the text as it is: all that it holds is visible, but for the ends of lines, and
no part of it is a name between colons, which might stand for a picture. -/
structure IsPlain (text : List Char) : Prop where
  visible : Json.Visible text
  noPicture : ¬∃ before name after, text = before ++ ':' :: (name ++ ':' :: after) ∧
    ∀ c ∈ name, Text.isBlank c = false

theorem isPlain_of_colonBlank {text : List Char} (visible : Json.Visible text)
    (colonBlank : Json.ColonBlank text) : IsPlain text where
  visible := visible
  noPicture := by
    rintro ⟨before, name, after, isSplit, noBlank⟩
    have isFirst := colonBlank before _ isSplit
    cases name with
    | nil => cases isFirst
    | cons c name =>
        cases isFirst
        cases noBlank ' ' List.mem_cons_self

theorem mem_texts_toJson {record : Record} (isText : text ∈ record.toJson.texts) :
    text ∈ [record.kind.label, record.name, "line", "file", record.file] :=
  Json.mem_texts_ofMembers isText

theorem isKind_of_mem_call {record : Record}
    (areRecords : Tool.call scanner fs name arguments = .ok records) (isRecord : record ∈ records) :
    record.kind = .functions ∨ record.kind = .classes := by
  rcases Tool.call_eq_ok_iff.mp areRecords with ⟨tool, request, report, isFound, _, isReport, rfl⟩
  have isKind := Tool.isKind_of_find? isFound
  rcases Kind.exists_rules isKind with ⟨rules, areRules⟩
  rcases Scanner.exists_text_of_mem_scan areRules isReport isRecord with ⟨_, _, _, _, isRecord⟩
  rw [(Declarations.exists_line_of_mem_scan isRecord).1]
  exact isKind

/-- Records are printed as they are unless a file has a colon in its path. -/
theorem isPlain_spelling (areRecords : Tool.call scanner fs name arguments = .ok records)
    (noColon : ∀ record ∈ records, ':' ∉ record.file.toList) :
    IsPlain (Record.spelling .json records).toList := by
  rw [Record.spelling, Json.spelling, String.toList_ofList]
  apply isPlain_of_colonBlank (Json.visible_write _ _)
  apply Json.colonBlank_write
  intro text isText
  rw [Json.texts, Json.mem_textsOfItems_iff] at isText
  rcases isText with ⟨item, isItem, isText⟩
  rcases List.mem_map.mp isItem with ⟨record, isRecord, rfl⟩
  have noColonName : ':' ∉ record.name.toList := by
    intro isColon
    have isWordColon : Text.isWord ':' = true :=
      (Tool.isName_of_mem_call areRecords isRecord).2 ':' isColon
    cases isWordColon
  have noColonKind : ':' ∉ record.kind.label.toList := by
    rcases isKind_of_mem_call areRecords isRecord with isKind | isKind
    · rw [isKind]
      decide
    · rw [isKind]
      decide
  have allFree : ∀ text ∈ [record.kind.label, record.name, "line", "file", record.file],
      ':' ∉ text.toList := by
    simpa using ⟨noColonKind, noColonName, noColon record isRecord⟩
  exact allFree text (mem_texts_toJson isText)

/-! ## Agreement -/

/-- The console prints a plain text as it is, on lines of its own. -/
def PrintsPlain (console : Console) : Prop :=
  ∀ text : String, IsPlain text.toList → console.print text = text ++ "\n"

/-- The run ends well. -/
def EndsWell (console : Console) (fs : FileSystem) (words : List String) : Prop :=
  ∃ outcome, run fs words console = .ok outcome ∧ outcome.exitCode = 0

/-- The run is given up, since a file has no text, and repeats what is said of the file. -/
def GivesUp (console : Console) (fs : FileSystem) (words : List String) (message : String) : Prop :=
  ∃ outcome, run fs words console = .ok outcome ∧ outcome.exitCode = 2 ∧
    outcome.errors = "Failed to read file: " ++ message ++ "\n"

/-- A scan returns, or fails for a file without a text, or for another reason. -/
theorem scan_cases (scanner : Scanner) (fs : FileSystem) (request : Request) (kind : Kind) :
    (∃ report, scanner.scan fs request kind = .ok report) ∨
    (∃ file cause, scanner.scan fs request kind = .error (.unreadable file cause)) ∨
    ∃ failure, scanner.scan fs request kind = .error failure ∧
      ∀ file cause, failure ≠ .unreadable file cause := by
  cases isScan : scanner.scan fs request kind with
  | ok report => exact Or.inl ⟨report, rfl⟩
  | error failure =>
      by_cases isRead : ∃ file cause, failure = .unreadable file cause
      · rcases isRead with ⟨file, cause, rfl⟩
        exact Or.inr (Or.inl ⟨file, cause, rfl⟩)
      · exact Or.inr (Or.inr ⟨failure, rfl, fun file cause isSame => isRead ⟨file, cause, isSame⟩⟩)

section

variable {words : List String} {workers : Int} {message : String}
  (asks : Asks words level kind request (some .json) workers)

include asks

theorem run_of_report (isReport : scanner.scan fs request kind = .ok report) :
    run fs words console = .ok ⟨0, console.print (Record.spelling .json report.records),
      String.join (report.errors.map errorLine), some level, none⟩ := by
  rw [run_of_asks console fs scanner asks, list_json asks.isKind isReport]

theorem endsWell_iff (console : Console) (scanner : Scanner) :
    EndsWell console fs words ↔ ∃ report, scanner.scan fs request kind = .ok report := by
  rw [EndsWell, run_of_asks console fs scanner asks]
  rcases scan_cases scanner fs request kind with
    ⟨report, isReport⟩ | ⟨file, cause, fails⟩ | ⟨failure, fails, notRead⟩
  · simp [list_json asks.isKind isReport, isReport]
  · simp [list_of_unreadable fails, fails, Outcome.refused]
  · simp [list_of_other fails notRead, fails]

theorem givesUp_iff (console : Console) (scanner : Scanner) :
    GivesUp console fs words message ↔
      ∃ file cause, scanner.scan fs request kind = .error (.unreadable file cause) ∧
        message = (Failure.unreadable file cause).message := by
  rw [GivesUp, run_of_asks console fs scanner asks]
  rcases scan_cases scanner fs request kind with
    ⟨report, isReport⟩ | ⟨file, cause, fails⟩ | ⟨failure, fails, notRead⟩
  · simp [list_json asks.isKind isReport, isReport]
  · -- The line repeats the message, so it tells which message that is.
    simp [list_of_unreadable fails, fails, Outcome.refused, eq_comm]
  · simp [list_of_other fails notRead, fails, notRead]

end

/-- A command and the tool for the same kind agree on every path but one, whoever scans for the
tool. The run ends well exactly if the call returns records, and then prints the answer of the tool
in JSON, which a console prints as it is if no path has a colon. The run is given up for a file
without a text exactly if that is why the call fails. On two hyphens the run fails where a tool may
well find a file. -/
theorem run_agrees (printsPlain : PrintsPlain console) (fs : FileSystem) (scanner : Scanner)
    (isPair : (command, tool) ∈ scanCommands) (somePath : path ≠ "") (someWorkers : 0 < workers)
    (shortDepth : (toString depth).length ≤ Text.Integer.maxDigits)
    (shortWorkers : (toString workers).length ≤ Text.Integer.maxDigits) :
    (path = "--" →
      run fs (scanWords command path depth workers) console = .error (.noValue .path)) ∧
    (path ≠ "--" →
      (EndsWell console fs (scanWords command path depth workers) ↔
        ∃ records, Tool.call scanner fs tool.name (scanArguments path depth) = .ok records) ∧
      (∀ outcome records, run fs (scanWords command path depth workers) console = .ok outcome →
        Tool.call scanner fs tool.name (scanArguments path depth) = .ok records →
        (∀ record ∈ records, ':' ∉ record.file.toList) →
        ∃ text, Tool.answer scanner fs tool.name (scanArguments path depth) .json = .ok text ∧
          IsPlain text.toList ∧ outcome.output = text ++ "\n") ∧
      ∀ message, GivesUp console fs (scanWords command path depth workers) message ↔
        ∃ file cause, Tool.call scanner fs tool.name (scanArguments path depth) =
          .error (.unreadable file cause) ∧
          message = (Failure.unreadable file cause).message) := by
  constructor
  · rintro rfl
    exact run_of_hyphens isPair shortDepth shortWorkers someWorkers
  intro notHyphens
  have asks := asks_scanWords isPair shortDepth shortWorkers someWorkers notHyphens
  have isCall : Tool.call scanner fs tool.name (scanArguments path depth) =
      (scanner.scan fs ⟨path, depth⟩ tool.kind).map (·.records) :=
    call_scanArguments isPair somePath
  refine ⟨?_, ?_, ?_⟩
  · rw [endsWell_iff asks console scanner, isCall]
    simp only [Sequence.map_eq_ok_iff]
    constructor
    · rintro ⟨report, isReport⟩
      exact ⟨_, report, isReport, rfl⟩
    · rintro ⟨_, report, isReport, _⟩
      exact ⟨report, isReport⟩
  · intro outcome records isOutcome areRecords noColon
    have isPlain := isPlain_spelling areRecords noColon
    refine ⟨_, Tool.answer_of_ok areRecords .json, isPlain, ?_⟩
    rw [isCall] at areRecords
    rcases Sequence.map_eq_ok_iff.mp areRecords with ⟨report, isReport, rfl⟩
    rw [run_of_report asks isReport] at isOutcome
    cases isOutcome
    exact printsPlain _ isPlain
  · intro message
    rw [givesUp_iff asks console scanner, isCall]
    simp only [Sequence.map_eq_error_iff]

theorem printsPlain_standard : PrintsPlain .standard := by
  intro text isPlain
  apply Console.standard_print_of_isShown
  intro c isIn
  rcases isPlain.visible c isIn with rfl | isVisible
  · rfl
  · -- All characters that are not shown come before the blank.
    have before : ∀ code ∈ Console.controls, code < 0x20 := by decide
    rw [Console.isShown, Bool.not_eq_true', ← Bool.not_eq_true, List.contains_iff_mem]
    intro isHidden
    have isBefore := before _ isHidden
    have isAfter := isVisible.1
    omega

/-- A scan that finds records, and one of a locked file. -/
theorem run_agrees_linkedFile :
    PrintsPlain .standard ∧
    EndsWell .standard Scanner.linkedFile (scanWords "functions" "/" 0 2) ∧
    (∀ outcome, run Scanner.linkedFile (scanWords "functions" "/" 0 2) = .ok outcome →
      ∃ text, Tool.answer .single Scanner.linkedFile "get_functions" (scanArguments "/" 0) .json =
          .ok text ∧
        outcome.output = text ++ "\n") ∧
    GivesUp .standard brokenFiles (scanWords "classes" "v" 0 1)
      "/v: [Errno 13] Permission denied: '/v'" := by
  have areRecords : Tool.call .single Scanner.linkedFile "get_functions" (scanArguments "/" 0) =
      .ok [⟨"f", .functions, 1, "c"⟩, ⟨"f", .functions, 1, "k"⟩] :=
    Tool.call_eq_ok_iff.mpr
      ⟨.getFunctions, ⟨"/", 0⟩, _, by decide, by decide +kernel, Scanner.scan_linkedFile, rfl⟩
  have fails : Tool.call .single brokenFiles "get_classes" (scanArguments "v" 0) =
      .error (.unreadable ⟨.root, ["v"]⟩ (.access .denied)) := by decide +kernel
  rcases (run_agrees printsPlain_standard Scanner.linkedFile .single
    (List.mem_cons_self : _ ∈ scanCommands) (by decide : "/" ≠ "") (by decide : 0 < 2)
    (by decide : (toString 0).length ≤ _) (by decide : (toString 2).length ≤ _)).2 (by decide) with
    ⟨endsWell, printsAnswer, _⟩
  rcases (run_agrees printsPlain_standard brokenFiles .single
    (by simp [scanCommands] : ("classes", Tool.getClasses) ∈ scanCommands) (by decide : "v" ≠ "")
    (by decide : 0 < 1) (by decide : (toString 0).length ≤ _)
    (by decide : (toString 1).length ≤ _)).2 (by decide) with ⟨_, _, givesUp⟩
  refine ⟨printsPlain_standard, endsWell.mpr ⟨_, areRecords⟩, ?_,
    (givesUp _).mpr ⟨_, _, fails, rfl⟩⟩
  intro outcome isOutcome
  rcases printsAnswer outcome _ isOutcome areRecords (by decide) with ⟨text, isText, _, isOutput⟩
  exact ⟨text, isText, isOutput⟩

/-- A file whose name reads as no value. -/
def hyphenFile : FileSystem :=
  ⟨[(⟨"--", by decide⟩, .node (.file "def f(".toUTF8.toList false) [])], []⟩

/-- The tool finds the function in the file, and the run of the command fails. -/
theorem run_hyphenFile :
    run hyphenFile (scanWords "functions" "--" 0 1) = .error (.noValue .path) ∧
    Tool.call .single hyphenFile "get_functions" (scanArguments "--" 0) =
      .ok [⟨"f", .functions, 1, "--"⟩] := by
  constructor
  · decide +kernel
  · decide +kernel

end CommandLine

end DeclIndex
