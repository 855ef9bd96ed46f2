import DeclIndex.Proofs.Labels
import DeclIndex.Proofs.Scan.Records

/-!
# What a file contributes

The report of a directory is what its files contribute, one after the other. A file is told from the
others by the text that it is reported by, so its part of the report can be picked out again: a
choice of items that amounts to a choice of files leaves just what the chosen files contribute
(`Sequence.filter_flatMap_of_forall`). A file with a text contributes the records of that text, any
other file contributes one error.
-/

namespace DeclIndex

/-! ## What files contribute -/

namespace Scanner

variable {fs : FileSystem} {root file : Path} {kind : Kind} {rules : List Rule}
  {request : Request} {files : List Path} {letters : List Char} {cause : ReadFailure}

/-- The errors that a file contributes to the scan of a directory: one or none. -/
def errorsOf (fs : FileSystem) (root : Path) (kind : Kind) (file : Path) : List ScanError :=
  (errorOf fs root kind file).toList

theorem recordsOf_of_text (areRules : kind.rules? = some rules)
    (isText : Source.text fs file = .ok letters) :
    recordsOf fs root kind file =
      Declarations.scan rules kind (fs.relativePath file root) (Source.lines letters) := by
  rw [recordsOf, readFile_of_text areRules isText]

theorem errorsOf_of_text (areRules : kind.rules? = some rules)
    (isText : Source.text fs file = .ok letters) : errorsOf fs root kind file = [] := by
  rw [errorsOf, errorOf, readFile_of_text areRules isText]
  rfl

theorem recordsOf_of_unreadable (areRules : kind.rules? = some rules)
    (noText : Source.text fs file = .error (.unreadable file cause)) :
    recordsOf fs root kind file = [] := by
  rw [recordsOf, readFile_of_unreadable areRules noText]

theorem errorsOf_of_unreadable (areRules : kind.rules? = some rules)
    (noText : Source.text fs file = .error (.unreadable file cause)) :
    errorsOf fs root kind file =
      [⟨fs.relativePath file root, (Failure.unreadable file cause).message⟩] := by
  rw [errorsOf, errorOf, readFile_of_unreadable areRules noText]
  rfl

theorem exists_readFile (areRules : kind.rules? = some rules) (nulFree : file.NulFree) :
    ∃ result, readFile fs root kind file = .ok result := by
  cases isText : Source.text fs file with
  | ok letters => exact ⟨_, readFile_of_text areRules isText⟩
  | error failure =>
      rcases Source.exists_unreadable_of_text nulFree isText with ⟨cause, rfl⟩
      exact ⟨_, readFile_of_unreadable areRules isText⟩

/-- An error names the file that contributes it. -/
theorem file_of_mem_errorsOf (areRules : kind.rules? = some rules) (nulFree : file.NulFree)
    {error : ScanError} (isError : error ∈ errorsOf fs root kind file) :
    error.file = fs.relativePath file root := by
  cases isText : Source.text fs file with
  | ok letters =>
      rw [errorsOf_of_text areRules isText] at isError
      cases isError
  | error failure =>
      rcases Source.exists_unreadable_of_text nulFree isText with ⟨cause, rfl⟩
      rw [errorsOf_of_unreadable areRules isText] at isError
      rw [List.mem_singleton.mp isError]

/-- The scan of a directory reports what its files contribute if its walk returns files. -/
theorem scanDirectory_of_enumerate (scanner : Scanner) {matcher : Ignore.Matcher} {maxDepth : Int}
    (areRules : kind.rules? = some rules)
    (isMatcher : Ignore.Matcher.ofDirectory fs root = .ok matcher)
    (areFiles : Walk.enumerate ⟨fs, matcher, root⟩ maxDepth = .ok files) :
    scanner.scanDirectory fs root maxDepth kind =
      .ok ⟨files.flatMap (recordsOf fs root kind), files.flatMap (errorsOf fs root kind)⟩ := by
  have areRead : ∀ file ∈ files, ∃ result, readFile fs root kind file = .ok result :=
    fun file isFile => exists_readFile areRules
      (Walk.nulFree_of_enumerated ⟨_, _, files, areFiles, isFile⟩)
  rcases Sequence.exists_mapM_eq_ok_iff.mpr areRead with ⟨results, areResults⟩
  have isReport := collect_of_mapM_readFile areResults
  rw [List.filterMap_eq_flatMap_toList] at isReport
  refine Eq.trans ?_ (congrArg Except.ok isReport)
  exact scanDirectory_eq_ok_iff.mpr
    ⟨matcher, files, results, isMatcher, areFiles, areResults, rfl⟩

theorem scan_of_enumerate (scanner : Scanner) {matcher : Ignore.Matcher}
    (areRules : kind.rules? = some rules) (notNegative : ¬request.maxDepth < 0)
    (isRoot : fs.resolve (.ofText request.path) = .ok root)
    (isDirectory : fs.isDirectory root = .ok true)
    (isMatcher : Ignore.Matcher.ofDirectory fs root = .ok matcher)
    (areFiles : Walk.enumerate ⟨fs, matcher, root⟩ request.maxDepth = .ok files) :
    scanner.scan fs request kind =
      .ok ⟨files.flatMap (recordsOf fs root kind), files.flatMap (errorsOf fs root kind)⟩ := by
  have notFile := FileSystem.isFile_eq_false_of_isDirectory isDirectory
  have isReport := scanDirectory_of_enumerate scanner areRules isMatcher areFiles
  exact scan_eq_ok_iff.mpr ⟨notNegative, root, isRoot, Or.inr ⟨notFile, isReport⟩⟩

/-! ## One file of many -/

/-- The records of a report that name a file are those that the file contributes. -/
theorem filter_flatMap_recordsOf (areRules : kind.rules? = some rules)
    (distinct : (files.map fun file => fs.relativePath file root).Nodup) (isFile : file ∈ files) :
    ((files.flatMap (recordsOf fs root kind)).filter fun record =>
      record.file == fs.relativePath file root) = recordsOf fs root kind file :=
  Sequence.filter_label_flatMap distinct isFile
    fun _ _ _ isRecord => file_of_mem_recordsOf areRules isRecord

/-- The errors of a report that name a file are those that the file contributes. -/
theorem filter_flatMap_errorsOf (areRules : kind.rules? = some rules)
    (distinct : (files.map fun file => fs.relativePath file root).Nodup) (isFile : file ∈ files)
    (nulFree : ∀ file ∈ files, file.NulFree) :
    ((files.flatMap (errorsOf fs root kind)).filter fun error =>
      error.file == fs.relativePath file root) = errorsOf fs root kind file :=
  Sequence.filter_label_flatMap distinct isFile
    fun file isFile _ isError => file_of_mem_errorsOf areRules (nulFree file isFile) isError

/-- A report names a file in an error if the file has no text. -/
theorem exists_error_iff (areRules : kind.rules? = some rules)
    (distinct : (files.map fun file => fs.relativePath file root).Nodup) (isFile : file ∈ files)
    (nulFree : ∀ file ∈ files, file.NulFree) :
    (∃ error ∈ files.flatMap (errorsOf fs root kind),
        error.file = fs.relativePath file root) ↔
      ∃ cause, Source.text fs file = .error (.unreadable file cause) := by
  have areErrors := filter_flatMap_errorsOf areRules distinct isFile nulFree
  have isNamed : ∀ error, error ∈ errorsOf fs root kind file ↔
      error ∈ files.flatMap (errorsOf fs root kind) ∧
        error.file = fs.relativePath file root := by
    intro error
    rw [← areErrors, List.mem_filter, beq_iff_eq]
  simp only [← isNamed]
  cases isText : Source.text fs file with
  | ok letters => simp [errorsOf_of_text areRules isText]
  | error failure =>
      rcases Source.exists_unreadable_of_text (nulFree file isFile) isText with ⟨cause, rfl⟩
      simp [errorsOf_of_unreadable areRules isText]

end Scanner

end DeclIndex
