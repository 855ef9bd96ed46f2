import DeclIndex.Proofs.Scan.Workers

/-!
# Outcomes of a scan

A scan that returns has resolved its path and read either the one file there or the files of a walk.
What it reports of a directory is what each file contributes, in the order of the files: records, or
an error if the file has no text (`Scanner.scan_eq_ok_iff`, `Scanner.collect_of_mapM_readFile`).
-/

namespace DeclIndex

open Sequence (bind_eq_ok_iff)

namespace Source

variable {fs : FileSystem} {file base : Path} {kind : Kind} {rules : List Rule}
  {letters : List Char}

theorem text_eq_ok_iff :
    text fs file = .ok letters ↔
      ∃ bytes, fs.read file = .ok bytes ∧
        Text.Utf8.decode (Text.Utf8.dropMark bytes) = .ok letters := by
  unfold text
  split
  next isNul => simp [isNul]
  next failure _ isFailure => simp [isFailure]
  next bytes isRead =>
    simp only [isRead, Except.ok.injEq, exists_eq_left']
    cases Text.Utf8.decode (Text.Utf8.dropMark bytes) with
    | error failure => simp [Except.mapError]
    | ok decoded => simp [Except.mapError]

theorem declarations_of_rules (areRules : kind.rules? = some rules) :
    declarations fs file base kind = (text fs file).map fun letters =>
      Declarations.scan rules kind (fs.relativePath file base) (lines letters) := by
  unfold declarations Source.rules
  rw [areRules]
  cases text fs file with
  | error failure => rfl
  | ok letters => rfl

theorem declarations_of_text (areRules : kind.rules? = some rules)
    (isText : text fs file = .ok letters) :
    declarations fs file base kind =
      .ok (Declarations.scan rules kind (fs.relativePath file base) (lines letters)) := by
  rw [declarations_of_rules areRules, isText]
  rfl

end Source

namespace Scanner

variable {scanner : Scanner} {fs : FileSystem} {root file path : Path} {kind : Kind}
  {request : Request} {report : Report} {rules : List Rule} {files : List Path}
  {results : List FileReport}

/-! ## What a file contributes -/

/-- The records that a file contributes to the scan of a directory. -/
def recordsOf (fs : FileSystem) (root : Path) (kind : Kind) (file : Path) : List Record :=
  match readFile fs root kind file with
  | .ok result => result.records
  | .error _ => []

/-- The error that a file contributes to the scan of a directory. -/
def errorOf (fs : FileSystem) (root : Path) (kind : Kind) (file : Path) : Option ScanError :=
  match readFile fs root kind file with
  | .ok result => result.error
  | .error _ => none

theorem collect_of_mapM_readFile (areResults : files.mapM (readFile fs root kind) = .ok results) :
    collect results =
      ⟨files.flatMap (recordsOf fs root kind), files.filterMap (errorOf fs root kind)⟩ := by
  have related := Sequence.mapM_eq_ok_iff.mp areResults
  clear areResults
  induction related with
  | nil => rfl
  | @cons file result files results isResult _ inductionHypothesis =>
      have isRecords : recordsOf fs root kind file = result.records := by
        rw [recordsOf, isResult]
      have isError : errorOf fs root kind file = result.error := by
        rw [errorOf, isResult]
      rcases Report.mk.inj inductionHypothesis with ⟨areRecords, areErrors⟩
      rw [collect, List.flatMap_cons, List.filterMap_cons, List.flatMap_cons, List.filterMap_cons,
        isRecords, isError, areRecords, areErrors]

theorem readFile_of_text {letters : List Char} (areRules : kind.rules? = some rules)
    (isText : Source.text fs file = .ok letters) :
    readFile fs root kind file = .ok ⟨Declarations.scan rules kind (fs.relativePath file root)
      (Source.lines letters), none⟩ := by
  rw [readFile, Source.declarations_of_text areRules isText]

theorem readFile_of_unreadable {cause : ReadFailure} (areRules : kind.rules? = some rules)
    (noText : Source.text fs file = .error (.unreadable path cause)) :
    readFile fs root kind file = .ok ⟨[], some ⟨fs.relativePath file root,
      (Failure.unreadable path cause).message⟩⟩ := by
  rw [readFile, Source.declarations_of_rules areRules, noText]
  rfl

theorem exists_text_of_mem_recordsOf {record : Record} (areRules : kind.rules? = some rules)
    (isRecord : record ∈ recordsOf fs root kind file) :
    ∃ letters, Source.text fs file = .ok letters ∧
      recordsOf fs root kind file =
        Declarations.scan rules kind (fs.relativePath file root) (Source.lines letters) := by
  cases isText : Source.text fs file with
  | ok letters =>
      refine ⟨letters, rfl, ?_⟩
      rw [recordsOf, readFile_of_text areRules isText]
  | error failure =>
      rw [recordsOf, readFile, Source.declarations_of_rules areRules, isText] at isRecord
      cases failure <;> cases isRecord

/-! ## Scans that return -/

theorem scanDirectory_eq_ok_iff {maxDepth : Int} :
    scanner.scanDirectory fs root maxDepth kind = .ok report ↔
      ∃ matcher files results, Ignore.Matcher.ofDirectory fs root = .ok matcher ∧
        Walk.enumerate ⟨fs, matcher, root⟩ maxDepth = .ok files ∧
        files.mapM (readFile fs root kind) = .ok results ∧ report = collect results := by
  rw [scanDirectory_eq_single]
  constructor
  · intro isReport
    rcases bind_eq_ok_iff.mp isReport with ⟨matcher, isMatcher, isReport⟩
    rcases bind_eq_ok_iff.mp isReport with ⟨files, areFiles, isReport⟩
    rcases bind_eq_ok_iff.mp isReport with ⟨results, areResults, isReport⟩
    rw [readAll_single] at areResults
    exact ⟨matcher, files, results, isMatcher, areFiles, areResults, (Except.ok.inj isReport).symm⟩
  · rintro ⟨matcher, files, results, isMatcher, areFiles, areResults, rfl⟩
    rw [scanDirectory, isMatcher]
    apply bind_eq_ok_iff.mpr
    refine ⟨matcher, rfl, ?_⟩
    rw [areFiles]
    apply bind_eq_ok_iff.mpr
    refine ⟨files, rfl, ?_⟩
    rw [readAll_single, areResults]
    rfl

/-- A scan that returns has read the one file that its path leads to, or the files of a walk. -/
theorem scan_eq_ok_iff :
    scanner.scan fs request kind = .ok report ↔
      ¬request.maxDepth < 0 ∧ ∃ root, fs.resolve (.ofText request.path) = .ok root ∧
        (fs.isFile root = .ok true ∧ scanFile fs root kind = .ok report ∨
          fs.isFile root = .ok false ∧
            scanner.scanDirectory fs root request.maxDepth kind = .ok report) := by
  unfold scan
  by_cases isNegative : request.maxDepth < 0
  · simp [isNegative]
  · rw [if_neg isNegative]
    cases isResolved : fs.resolve (.ofText request.path) with
    | error failure => simp [Except.mapError, bind, Except.bind]
    | ok root =>
        simp only [Except.mapError, bind, Except.bind, isNegative, not_false_eq_true, true_and,
          Except.ok.injEq, exists_eq_left']
        cases isFile : fs.isFile root with
        | error failure => simp [FileSystem.ask, Except.mapError]
        | ok answer => cases answer <;> simp [FileSystem.ask, Except.mapError]

/-- Every record of a scan is a record of a file's text. -/
theorem exists_text_of_mem_scan {request : Request} {record : Record}
    (areRules : kind.rules? = some rules) (isReport : scanner.scan fs request kind = .ok report)
    (isRecord : record ∈ report.records) :
    ∃ file label letters, Source.text fs file = .ok letters ∧
      record ∈ Declarations.scan rules kind label (Source.lines letters) := by
  rcases scan_eq_ok_iff.mp isReport with ⟨_, root, _, ⟨_, isReport⟩ | ⟨_, isReport⟩⟩
  · rw [scanFile, Source.declarations_of_rules areRules] at isReport
    cases isText : Source.text fs root with
    | error failure =>
        rw [isText] at isReport
        cases isReport
    | ok letters =>
        rw [isText] at isReport
        cases isReport
        exact ⟨root, _, letters, isText, isRecord⟩
  · rcases scanDirectory_eq_ok_iff.mp isReport with ⟨_, files, results, _, _, areResults, rfl⟩
    rw [collect_of_mapM_readFile areResults] at isRecord
    rcases List.mem_flatMap.mp isRecord with ⟨file, _, isRecord⟩
    rcases exists_text_of_mem_recordsOf areRules isRecord with ⟨letters, isText, areRecords⟩
    rw [areRecords] at isRecord
    exact ⟨file, _, letters, isText, isRecord⟩

end Scanner

end DeclIndex
