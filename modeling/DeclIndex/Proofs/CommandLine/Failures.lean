import DeclIndex.CommandLine.Run
import DeclIndex.Proofs.Scan.Failures
import DeclIndex.Proofs.Scan.Workers
import DeclIndex.Proofs.Table.Shown
import DeclIndex.Proofs.Tool.Answer

/-!
# Failures of a run

A run should end with the code 0, or with the code 2 and a line that says why. Of all reasons for
which a scan fails, only a scanned file without a text is treated like this. Every other one leaves
the run as a failure of its own (`Escapes`), and so does a setting that was left without a value. A
link loop in the scanned path is enough, and so is a line of an ignore file that is no pattern.

The records of a scan that returned can always be shown as text and in JSON. They can be shown as
tables unless the console refuses the path of one of their files, which then is a failure of the
run, too. Their kinds, names and lines are words, which hold no style tags (`ShowsWords`).
-/

namespace DeclIndex.CommandLine

variable {console : Console} {fs : FileSystem} {words : List String} {level : LogLevel}
  {kind : Kind} {request : Request} {format : Given Format} {workers : Int} {scanner : Scanner}
  {failure : Failure}

/-! ## What is asked for -/

theorem isKind_of_command {name : String} {options : ScanOptions}
    (isCommand : command name words = some (.list kind options)) :
    kind = .functions ∨ kind = .classes := by
  unfold command at isCommand
  split at isCommand
  · rcases Option.map_eq_some_iff.mp isCommand with ⟨_, _, isList⟩
    cases isList
    exact Or.inl rfl
  · rcases Option.map_eq_some_iff.mp isCommand with ⟨_, _, isList⟩
    cases isList
    exact Or.inr rfl
  · rcases Option.map_eq_some_iff.mp isCommand with ⟨_, _, isList⟩
    cases isList
  · cases isCommand

theorem isKind_of_readFrom {start level : Given LogLevel} {options : ScanOptions}
    (isRead : readFrom start words = some ⟨level, .list kind options⟩) :
    kind = .functions ∨ kind = .classes := by
  fun_induction readFrom start words with
  | case1 => cases isRead
  | case2 =>
      rcases Option.map_eq_some_iff.mp isRead with ⟨command, isCommand, isInvocation⟩
      cases isInvocation
      exact isKind_of_command isCommand
  | case3 _ _ _ _ _ _ inductionHypothesis =>
      rcases Option.bind_eq_some_iff.mp isRead with ⟨given, _, isRead⟩
      exact inductionHypothesis given isRead
  | case4 => cases isRead
  | case5 _ _ _ _ _ _ inductionHypothesis =>
      rcases Option.bind_eq_some_iff.mp isRead with ⟨_, _, isRead⟩
      rcases Option.bind_eq_some_iff.mp isRead with ⟨given, _, isRead⟩
      exact inductionHypothesis given isRead
  | case6 => cases isRead

/-- The words ask for a scan, and nothing keeps it from being started. -/
structure Asks (words : List String) (level : LogLevel) (kind : Kind) (request : Request)
    (format : Given Format) (workers : Int) : Prop where
  isRead : read? words =
    some ⟨some level, .list kind ⟨some request.path, some request.maxDepth, format, some workers⟩⟩
  someWorkers : 0 < workers
  notNegative : 0 ≤ request.maxDepth

theorem Asks.isKind (asks : Asks words level kind request format workers) :
    kind = .functions ∨ kind = .classes :=
  isKind_of_readFrom asks.isRead

/-! ## Showing records -/

theorem exists_base {path : Path} {root : Path} {answer : Bool}
    (isRoot : fs.resolve path = .ok root) (isFile : fs.isFile root = .ok answer) :
    ∃ directory, base fs path = .ok directory := by
  simp only [base, isRoot, isFile, FileSystem.ask, Except.mapError, bind, Except.bind]
  exact ⟨_, rfl⟩

/-- A word holds no style tags, so the console shows it as it is. -/
def ShowsWords (console : Console) : Prop :=
  ∀ text : String, (∀ c ∈ text.toList, Text.isWord c = true) → console.markup text = .ok text

theorem isWord_of_mem_label (isKind : kind = .functions ∨ kind = .classes) :
    ∀ c ∈ kind.label.toList, Text.isWord c = true := by
  rcases isKind with rfl | rfl
  · exact List.all_eq_true.mp (by decide +kernel)
  · exact List.all_eq_true.mp (by decide +kernel)

theorem hasRow_of_mem_scan {report : Report} {record : Record} (showsWords : ShowsWords console)
    (isKind : kind = .functions ∨ kind = .classes)
    (isReport : scanner.scan fs request kind = .ok report) (isRecord : record ∈ report.records) :
    Table.HasRow console record := by
  have isWritable := Scanner.isWritable_of_mem_scan isKind isReport isRecord
  have isName := Scanner.isName_of_mem_scan isKind isReport isRecord
  rcases Kind.exists_rules isKind with ⟨rules, areRules⟩
  rcases Scanner.exists_text_of_mem_scan areRules isReport isRecord with ⟨_, _, _, _, isRecord⟩
  rcases Declarations.exists_line_of_mem_scan isRecord with ⟨sameKind, _, index, _, _, _, isLine, _⟩
  refine ⟨isWritable, Table.cells record, ?_, showsWords _ isName.2, ?_⟩
  · apply showsWords
    rw [Table.cells, sameKind]
    exact isWord_of_mem_label isKind
  · apply showsWords
    rw [Table.cells, isLine]
    exact fun c => Text.isWord_of_mem_toString_natCast

/-- The records of a scan that returned can be shown, unless they are shown as tables and one of the
titles is refused. -/
theorem display_eq_error_iff {report : Report} (showsWords : ShowsWords console)
    (isKind : kind = .functions ∨ kind = .classes)
    (isReport : scanner.scan fs request kind = .ok report) :
    display console fs request.path format report.records = .error failure ↔
      format = some .table ∧ ∃ directory message, base fs (.ofText request.path) = .ok directory ∧
        Table.Refused console directory report.records message ∧ failure = .markup message := by
  have areWritable : ∀ record ∈ report.records, record.IsWritable :=
    fun record => Scanner.isWritable_of_mem_scan isKind isReport
  have haveRows : ∀ record ∈ report.records, Table.HasRow console record :=
    fun record => hasRow_of_mem_scan showsWords isKind isReport
  rcases Scanner.scan_eq_ok_iff.mp isReport with ⟨_, root, isRoot, isScan⟩
  have isFile : ∃ answer, fs.isFile root = .ok answer := by
    rcases isScan with ⟨isFile, _⟩ | ⟨notFile, _⟩
    · exact ⟨true, isFile⟩
    · exact ⟨false, notFile⟩
  rcases isFile with ⟨answer, isFile⟩
  rcases exists_base isRoot isFile with ⟨directory, isBase⟩
  by_cases isTable : format = some .table
  · simp only [isTable, display, isBase, bind, Except.bind, Table.render_eq_error_iff haveRows]
    simp
  · have isShown :
        ∃ output, display console fs request.path format report.records = .ok output := by
      unfold display
      split
      · exact absurd rfl isTable
      · rw [Record.render_of_isWritable .json areWritable]
        exact ⟨_, rfl⟩
      · exact ⟨_, rfl⟩
      · rw [Record.render_of_isWritable .text areWritable]
        exact ⟨_, rfl⟩
    rcases isShown with ⟨output, isOutput⟩
    simp [isOutput, isTable]

/-! ## Outcomes -/

/-- The reasons for which a run leaves a failure of its own. -/
inductive Escapes (console : Console) (fs : FileSystem) (words : List String) : Failure → Prop where
  | noLogLevel {command : Command} (isRead : read? words = some ⟨none, command⟩) :
      Escapes console fs words (.noValue .logLevel)
  | noWorkers {level : LogLevel} {command : Command}
      (isRead : read? words = some ⟨some level, command⟩) (isMissing : command.workers = none) :
      Escapes console fs words (.noValue .workers)
  | noDepth {level : LogLevel} {kind : Kind} {path : Given String} {format : Given Format}
      {workers : Int}
      (isRead : read? words = some ⟨some level, .list kind ⟨path, none, format, some workers⟩⟩)
      (someWorkers : 0 < workers) : Escapes console fs words (.noValue .maxDepth)
  | noPath {level : LogLevel} {kind : Kind} {maxDepth : Int} {format : Given Format}
      {workers : Int}
      (isRead : read? words =
        some ⟨some level, .list kind ⟨none, some maxDepth, format, some workers⟩⟩)
      (someWorkers : 0 < workers) (notNegative : 0 ≤ maxDepth) :
      Escapes console fs words (.noValue .path)
  | scan {level : LogLevel} {kind : Kind} {request : Request} {format : Given Format}
      {workers : Int} {failure : Failure} (asks : Asks words level kind request format workers)
      (fails : Scanner.Fails fs request.path failure)
      (notRead : ∀ file cause, failure ≠ .unreadable file cause) : Escapes console fs words failure
  | title {level : LogLevel} {kind : Kind} {request : Request} {workers : Int} {report : Report}
      {directory : Path} {message : String}
      (asks : Asks words level kind request (some .table) workers)
      (isReport : Scanner.single.scan fs request kind = .ok report)
      (isBase : base fs (.ofText request.path) = .ok directory)
      (isRefused : Table.Refused console directory report.records message) :
      Escapes console fs words (.markup message)

/-- The run ended well, or was given up with the code 2. A command line that is not understood is
explained by whoever reads it, everything else by a line of its own. -/
inductive Outcome.Proper : Outcome → Prop where
  | done {outcome : Outcome} (isDone : outcome.exitCode = 0) : Proper outcome
  | misused : Proper .misused
  | refused (level : LogLevel) (message : String) : Proper (.refused level message)

theorem list_of_unreadable {file : Path} {cause : ReadFailure}
    (fails : scanner.scan fs request kind = .error (.unreadable file cause)) :
    list console fs level kind request.path request.maxDepth format scanner =
      .ok (.refused level
        ("Failed to read file: " ++ (Failure.unreadable file cause).message)) := by
  rw [list, fails]

theorem list_of_other (fails : scanner.scan fs request kind = .error failure)
    (notRead : ∀ file cause, failure ≠ .unreadable file cause) :
    list console fs level kind request.path request.maxDepth format scanner = .error failure := by
  rw [list, fails]
  cases failure with
  | unreadable file cause => exact absurd rfl (notRead file cause)
  | _ => rfl

section

variable {report : Report} (isReport : scanner.scan fs request kind = .ok report)

include isReport

theorem list_of_display {output : String}
    (isDisplay : display console fs request.path format report.records = .ok output) :
    list console fs level kind request.path request.maxDepth format scanner =
      .ok ⟨0, output, String.join (report.errors.map errorLine), some level, none⟩ := by
  simp only [list, isReport, isDisplay, bind, Except.bind]
  rfl

theorem list_of_display_error
    (fails : display console fs request.path format report.records = .error failure) :
    list console fs level kind request.path request.maxDepth format scanner = .error failure := by
  simp only [list, isReport, fails, bind, Except.bind]

end

theorem ofWorkers_of_pos (someWorkers : 0 < workers) :
    ∃ scanner, Scanner.ofWorkers workers = .ok scanner := by
  have isPositive : 0 < workers.toNat := by omega
  exact ⟨_, dif_pos isPositive⟩

theorem scan_congr (scanner other : Scanner) :
    scanner.scan fs request kind = other.scan fs request kind := by
  simp only [Scanner.scan, Scanner.scanDirectory_eq_single scanner,
    Scanner.scanDirectory_eq_single other]

/-- Whatever the workers are, the run shows the scan of one of them. -/
theorem run_of_asks (console : Console) (fs : FileSystem) (scanner : Scanner)
    (asks : Asks words level kind request format workers) :
    run fs words console =
      list console fs level kind request.path request.maxDepth format scanner := by
  rcases ofWorkers_of_pos asks.someWorkers with ⟨other, isScanner⟩
  have notNegative : ¬request.maxDepth < 0 := Int.not_lt.mpr asks.notNegative
  simp only [run, asks.isRead, require, Command.workers, isScanner, perform, if_neg notNegative,
    bind, Except.bind]
  rw [list, list, scan_congr other scanner]

theorem scan_eq_error_iff_of_asks (asks : Asks words level kind request format workers) :
    scanner.scan fs request kind = .error failure ↔ Scanner.Fails fs request.path failure := by
  rcases Kind.exists_rules asks.isKind with ⟨rules, areRules⟩
  exact Scanner.scan_eq_error_iff areRules (Int.not_lt.mpr asks.notNegative)

theorem run_of_escapes (showsWords : ShowsWords console)
    (escapes : Escapes console fs words failure) : run fs words console = .error failure := by
  cases escapes with
  | noLogLevel isRead => simp only [run, isRead, require, bind, Except.bind]
  | noWorkers isRead isMissing =>
      simp only [run, isRead, isMissing, require, bind, Except.bind]
  | noDepth isRead someWorkers =>
      rcases ofWorkers_of_pos someWorkers with ⟨scanner, isScanner⟩
      simp only [run, isRead, require, Command.workers, isScanner, perform, bind, Except.bind]
  | noPath isRead someWorkers notNegative =>
      rcases ofWorkers_of_pos someWorkers with ⟨scanner, isScanner⟩
      simp only [run, isRead, require, Command.workers, isScanner, perform, bind, Except.bind,
        if_neg (Int.not_lt.mpr notNegative)]
  | scan asks fails notRead =>
      rw [run_of_asks console fs .single asks]
      exact list_of_other ((scan_eq_error_iff_of_asks asks).mpr fails) notRead
  | title asks isReport isBase isRefused =>
      rw [run_of_asks console fs .single asks]
      apply list_of_display_error isReport
      apply (display_eq_error_iff showsWords asks.isKind isReport).mpr
      exact ⟨rfl, _, _, isBase, isRefused, rfl⟩

/-- A scan that is asked for fails the run, or the run has a proper outcome. -/
theorem run_cases_of_asks (showsWords : ShowsWords console) (fs : FileSystem)
    (asks : Asks words level kind request format workers) :
    (∃ failure, Escapes console fs words failure) ∨
      ∃ outcome, run fs words console = .ok outcome ∧ outcome.Proper := by
  rw [run_of_asks console fs .single asks]
  cases isScan : Scanner.single.scan fs request kind with
  | ok report =>
      cases isDisplay : display console fs request.path format report.records with
      | ok output => exact Or.inr ⟨_, list_of_display isScan isDisplay, .done rfl⟩
      | error failure =>
          rcases (display_eq_error_iff showsWords asks.isKind isScan).mp isDisplay with
            ⟨rfl, directory, message, isBase, isRefused, rfl⟩
          exact Or.inl ⟨_, .title asks isScan isBase isRefused⟩
  | error failure =>
      by_cases isRead : ∃ file cause, failure = .unreadable file cause
      · rcases isRead with ⟨file, cause, rfl⟩
        exact Or.inr ⟨_, list_of_unreadable isScan, .refused _ _⟩
      · have notRead : ∀ file cause, failure ≠ .unreadable file cause :=
          fun file cause isSame => isRead ⟨file, cause, isSame⟩
        have fails := (scan_eq_error_iff_of_asks asks).mp isScan
        exact Or.inl ⟨failure, .scan asks fails notRead⟩

theorem run_cases (showsWords : ShowsWords console) (fs : FileSystem) (words : List String) :
    (∃ failure, Escapes console fs words failure) ∨
      ∃ outcome, run fs words console = .ok outcome ∧ outcome.Proper := by
  cases isRead : read? words with
  | none => exact Or.inr ⟨.misused, by rw [run, isRead], .misused⟩
  | some invocation =>
  rcases invocation with ⟨_ | level, command⟩
  · exact Or.inl ⟨_, .noLogLevel isRead⟩
  cases areWorkers : command.workers with
  | none => exact Or.inl ⟨_, .noWorkers isRead areWorkers⟩
  | some workers =>
  by_cases someWorkers : 0 < workers
  · rcases ofWorkers_of_pos someWorkers with ⟨scanner, isScanner⟩
    rcases command with ⟨kind, path, depth, format, _⟩ | _
    · cases areWorkers
      rcases depth with _ | maxDepth
      · exact Or.inl ⟨_, .noDepth isRead someWorkers⟩
      by_cases isNegative : maxDepth < 0
      · right
        simp only [run, isRead, require, Command.workers, isScanner, perform, if_pos isNegative,
          bind, Except.bind]
        exact ⟨_, rfl, .refused _ _⟩
      have notNegative := Int.not_lt.mp isNegative
      rcases path with _ | path
      · exact Or.inl ⟨_, .noPath isRead someWorkers notNegative⟩
      have asks : Asks words level kind ⟨path, maxDepth⟩ format workers :=
        ⟨isRead, someWorkers, notNegative⟩
      exact run_cases_of_asks showsWords fs asks
    · right
      simp only [run, isRead, areWorkers, require, isScanner, perform, bind, Except.bind]
      exact ⟨_, rfl, .done rfl⟩
  · right
    have noScanner : Scanner.ofWorkers workers = .error .noWorkers :=
      dif_neg (by omega)
    simp only [run, isRead, areWorkers, require, noScanner, bind, Except.bind]
    exact ⟨_, rfl, .refused _ _⟩

/-- The reasons for which a run leaves a failure of its own are all there are, on every console that
shows words as they are. Any other run has a proper outcome, and a scanned file without a text ends
the run with a line that says so. -/
theorem run_escapes_iff (showsWords : ShowsWords console) (fs : FileSystem) (words : List String) :
    (∀ failure, run fs words console = .error failure ↔ Escapes console fs words failure) ∧
    (∀ outcome, run fs words console = .ok outcome → outcome.Proper) ∧
    ∀ level kind request format workers file cause,
      Asks words level kind request format workers →
      Scanner.Fails fs request.path (.unreadable file cause) →
      run fs words console = .ok
        (.refused level ("Failed to read file: " ++ (Failure.unreadable file cause).message)) := by
  refine ⟨?_, ?_, ?_⟩
  · intro failure
    constructor
    · intro isRun
      rcases run_cases showsWords fs words with ⟨other, escapes⟩ | ⟨outcome, isOutcome, _⟩
      · rw [run_of_escapes showsWords escapes] at isRun
        cases isRun
        exact escapes
      · rw [isOutcome] at isRun
        cases isRun
    · exact run_of_escapes showsWords
  · intro outcome isRun
    rcases run_cases showsWords fs words with ⟨other, escapes⟩ | ⟨other, isOutcome, isProper⟩
    · rw [run_of_escapes showsWords escapes] at isRun
      cases isRun
    · rw [isOutcome] at isRun
      cases isRun
      exact isProper
  · intro level kind request format workers file cause asks fails
    rw [run_of_asks console fs .single asks]
    exact list_of_unreadable ((scan_eq_error_iff_of_asks asks).mpr fails)

/-- A link to itself, an ignore file with a range that ends before it begins, a locked file, a
closed directory, and a file with a class in whose path a style seems to end. -/
def brokenFiles : FileSystem :=
  ⟨[(⟨"t", by decide⟩, .node (.link "t") []),
    (⟨"u", by decide⟩, .node (.directory false)
      [(⟨".gitignore", by decide⟩, .node (.file "[z-a]".toUTF8.toList false) [])]),
    (⟨"v", by decide⟩, .node (.file [] true) []),
    (⟨"closed", by decide⟩, .node (.directory true true) []),
    (⟨"open[", by decide⟩, .node (.directory false)
      [(⟨"end].py", by decide⟩, .node (.file "class A:".toUTF8.toList false) [])])], []⟩

/-- The locked file is answered for, the link is not. -/
theorem run_escapes_iff_brokenFiles :
    ShowsWords .standard ∧
    Asks ["functions", "--path", "v"] .info .functions ⟨"v", 4⟩ (some .text) 1 ∧
    Scanner.Fails brokenFiles "v" (.unreadable ⟨.root, ["v"]⟩ (.access .denied)) ∧
    run brokenFiles ["functions", "--path", "v"] =
      .ok (.refused .info "Failed to read file: /v: [Errno 13] Permission denied: '/v'") ∧
    Escapes .standard brokenFiles ["functions", "--path", "t"] (.linkLoop ⟨.root, ["t"]⟩) ∧
    run brokenFiles ["functions", "--path", "t"] = .error (.linkLoop ⟨.root, ["t"]⟩) := by
  have showsWords : ShowsWords .standard := fun _ => Console.standard_markup_of_isWord
  have asks : Asks ["functions", "--path", "v"] .info .functions ⟨"v", 4⟩ (some .text) 1 :=
    ⟨by decide +kernel, by decide, by decide⟩
  have asksToo : Asks ["functions", "--path", "t"] .info .functions ⟨"t", 4⟩ (some .text) 1 :=
    ⟨by decide +kernel, by decide, by decide⟩
  have fails : Scanner.Fails brokenFiles "v" (.unreadable ⟨.root, ["v"]⟩ (.access .denied)) :=
    .unreadable (by decide +kernel) (by decide +kernel) (by decide +kernel)
  have notResolved : brokenFiles.resolve (.ofText "t") = .error (.linkLoop ⟨.root, ["t"]⟩) := by
    decide +kernel
  have escapes : Escapes .standard brokenFiles ["functions", "--path", "t"]
      (.linkLoop ⟨.root, ["t"]⟩) :=
    .scan asksToo (.unresolved notResolved) (by simp)
  have isRefused := (run_escapes_iff showsWords brokenFiles ["functions", "--path", "v"]).2.2
    _ _ _ _ _ _ _ asks fails
  have isFailure :=
    ((run_escapes_iff showsWords brokenFiles ["functions", "--path", "t"]).1 _).mpr escapes
  exact ⟨showsWords, asks, fails, isRefused, escapes, isFailure⟩

/-- Neither a link loop, a mistake in an ignore file, a closed directory nor a title that looks like
the end of a style ends the run with a code. -/
theorem run_brokenFiles :
    run brokenFiles ["functions", "--path", "t"] = .error (.linkLoop ⟨.root, ["t"]⟩) ∧
    run brokenFiles ["functions", "--path", "u"] = .error (.ignorePattern
      (.reversedRange 'z' 'a' 10 "^(?:.+/)?[z-a](?:(?P<ps_d>/)|$)".toList)) ∧
    run brokenFiles ["functions", "--path", "closed"] =
      .error (.access ⟨.root, ["closed", ".gitignore"]⟩ .denied) ∧
    run brokenFiles ["classes", "--path", "open[", "--format", "table"] =
      .error (.markup "closing tag '[/end]' at position 5 doesn't match any open tag") := by
  refine ⟨?_, ?_, ?_, ?_⟩
  · decide +kernel
  · decide +kernel
  · decide +kernel
  · decide +kernel

end DeclIndex.CommandLine
