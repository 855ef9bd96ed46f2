import DeclIndex.Proofs.FileSystem.Shape
import DeclIndex.Proofs.Scan.Contributions
import DeclIndex.Proofs.Text.Encoding
import DeclIndex.Proofs.Walk.Scope

/-!
# Files do not disturb each other

If one file below a directory changes its bytes or is locked, a walk does not notice, since it never
reads a file (`Walk.enumerate_congr`), unless it is the ignore file that changes. The report then
says the same of all paths that do not lead to the changed file, because the contribution of a path
depends on nothing but what is read there.

What a report says of a directory is accounted for file by file (`Scanner.Accounts`): a readable
file contributes what it declares on its own, any other file contributes one error.
-/

namespace DeclIndex

variable {fs other : FileSystem} {root file : Path} {kind : Kind} {rules : List Rule}
  {place : Location}

/-! ## Reading -/

/-- A file may be read and holds an encoded text. -/
def Source.Readable (fs : FileSystem) (file : Path) : Prop :=
  ∃ text, fs.read file = .ok (Text.Utf8.encode text)

theorem Source.exists_text_iff_readable :
    (∃ letters, text fs file = .ok letters) ↔ Readable fs file := by
  simp only [text_eq_ok_iff]
  constructor
  · rintro ⟨letters, bytes, isRead, isDecoded⟩
    rcases Text.Utf8.exists_decode_dropMark_iff.mp ⟨letters, isDecoded⟩ with ⟨written, rfl⟩
    exact ⟨written, isRead⟩
  · rintro ⟨written, isRead⟩
    rcases Text.Utf8.exists_decode_dropMark_iff.mpr ⟨written, rfl⟩ with ⟨letters, isDecoded⟩
    exact ⟨letters, _, isRead, isDecoded⟩

theorem Source.text_of_read (sameRead : fs.read file = other.read file) :
    text fs file = text other file := by
  rw [text, sameRead, text]

/-! ## Walks -/

namespace Walk

variable {matcher : Ignore.Matcher}

theorem enumerate_congr (same : fs.SameShape other) (maxDepth : Int) :
    enumerate ⟨fs, matcher, root⟩ maxDepth = enumerate ⟨other, matcher, root⟩ maxDepth := by
  have agree : ∀ directory, Visits ⟨fs, matcher, root⟩ maxDepth directory →
      AgreesAt ⟨fs, matcher, root⟩ other directory := by
    intro directory _
    constructor
    · exact (same.list _).symm
    · intro name _
      exact (same.isDirectory _).symm
    · intro name _
      exact (same.isFile _).symm
  have sameFiles : files ⟨fs, matcher, root⟩ maxDepth = files ⟨other, matcher, root⟩ maxDepth :=
    (files_of_agree agree).symm
  simp only [enumerate, same.holds, same.isFile, sameFiles]

end Walk

theorem Ignore.Matcher.ofDirectory_congr (differs : fs.DiffersAt other place)
    (notIgnoreFile : ¬fs.LeadsTo (root.child fileName) place) :
    ofDirectory fs root = ofDirectory other root := by
  simp only [ofDirectory, load, differs.sameShape.isFile, differs.read notIgnoreFile]

/-! ## Reports -/

namespace Scanner

variable {files : List Path} {request : Request} {report : Report}

/-- A report accounts for the files of a directory one by one, in their order. -/
structure Accounts (fs : FileSystem) (root : Path) (kind : Kind) (files : List Path)
    (report : Report) : Prop where
  distinct : (files.map fun file => fs.relativePath file root).Nodup
  recordsNamed : ∀ record ∈ report.records, ∃ file ∈ files,
    record.file = fs.relativePath file root
  errorsInOrder : (report.errors.map (·.file)).Sublist
    (files.map fun file => fs.relativePath file root)
  readable : ∀ file ∈ files, Source.Readable fs file →
    Source.declarations fs file root kind =
        .ok (report.records.filter fun record => record.file == fs.relativePath file root) ∧
      (report.errors.filter fun error => error.file == fs.relativePath file root) = []
  unreadable : ∀ file ∈ files, ¬Source.Readable fs file →
    (report.records.filter fun record => record.file == fs.relativePath file root) = [] ∧
      ∃ cause, Source.text fs file = .error (.unreadable file cause) ∧
        (report.errors.filter fun error => error.file == fs.relativePath file root) =
          [⟨fs.relativePath file root, (Failure.unreadable file cause).message⟩]

theorem sublist_errorsOf (areRules : kind.rules? = some rules)
    (nulFree : ∀ file ∈ files, file.NulFree) :
    ((files.flatMap (errorsOf fs root kind)).map (·.file)).Sublist
      (files.map fun file => fs.relativePath file root) := by
  induction files with
  | nil => exact List.Sublist.refl []
  | cons file files inductionHypothesis =>
      rcases List.forall_mem_cons.mp nulFree with ⟨nulFreeHere, nulFreeLater⟩
      rw [List.flatMap_cons, List.map_append, List.map_cons, ← List.singleton_append]
      refine List.Sublist.append ?_ (inductionHypothesis nulFreeLater)
      cases isText : Source.text fs file with
      | ok letters =>
          rw [errorsOf_of_text areRules isText]
          exact List.nil_sublist _
      | error failure =>
          rcases Source.exists_unreadable_of_text nulFreeHere isText with ⟨cause, rfl⟩
          rw [errorsOf_of_unreadable areRules isText]
          exact List.Sublist.refl _

theorem accounts_of_distinct (areRules : kind.rules? = some rules)
    (distinct : (files.map fun file => fs.relativePath file root).Nodup)
    (nulFree : ∀ file ∈ files, file.NulFree) :
    Accounts fs root kind files
      ⟨files.flatMap (recordsOf fs root kind), files.flatMap (errorsOf fs root kind)⟩ where
  distinct := distinct
  recordsNamed := by
    intro record isRecord
    rcases List.mem_flatMap.mp isRecord with ⟨file, isFile, isRecord⟩
    exact ⟨file, isFile, file_of_mem_recordsOf areRules isRecord⟩
  errorsInOrder := sublist_errorsOf areRules nulFree
  readable := by
    intro file isFile isReadable
    rcases Source.exists_text_iff_readable.mpr isReadable with ⟨letters, isText⟩
    rw [filter_flatMap_recordsOf areRules distinct isFile, recordsOf_of_text areRules isText,
      filter_flatMap_errorsOf areRules distinct isFile nulFree, errorsOf_of_text areRules isText,
      Source.declarations_of_rules areRules, isText]
    exact ⟨rfl, rfl⟩
  unreadable := by
    intro file isFile notReadable
    cases isText : Source.text fs file with
    | ok letters => exact absurd (Source.exists_text_iff_readable.mp ⟨letters, isText⟩) notReadable
    | error failure =>
        rcases Source.exists_unreadable_of_text (nulFree file isFile) isText with ⟨cause, rfl⟩
        rw [filter_flatMap_recordsOf areRules distinct isFile,
          recordsOf_of_unreadable areRules isText,
          filter_flatMap_errorsOf areRules distinct isFile nulFree,
          errorsOf_of_unreadable areRules isText]
        exact ⟨rfl, cause, rfl, rfl⟩

theorem append_components_relativePath {matcher : Ignore.Matcher} {maxDepth : Int}
    (notFile : fs.isFile root = .ok false)
    (areFiles : Walk.enumerate ⟨fs, matcher, root⟩ maxDepth = .ok files) (isFile : file ∈ files) :
    root.append (components (fs.relativePath file root)) = file := by
  rcases Walk.exists_files_of_enumerate areFiles notFile with ⟨found, rfl, _, areNames⟩
  rcases List.mem_map.mp isFile with ⟨names, isFound, rfl⟩
  rcases areNames names isFound with ⟨nonempty, allNames⟩
  rw [fs.relativePath_append nonempty allNames]
  rw [components_slashed (fun name isName => Entry.noSlash_of_isName (allNames name isName))
    nonempty]

theorem readFile_congr (differs : fs.DiffersAt other place)
    (leadsElsewhere : ¬fs.LeadsTo file place) :
    readFile fs root kind file = readFile other root kind file := by
  have sameText := Source.text_of_read (differs.read leadsElsewhere)
  have sameDeclarations : Source.declarations fs file root kind =
      Source.declarations other file root kind := by
    rw [Source.declarations, sameText, differs.sameShape.relativePath, Source.declarations]
  rw [readFile, sameDeclarations, differs.sameShape.relativePath, readFile]

/-- If two file systems differ in one file other than the ignore file, the scan of a directory finds
the same files in both, and says the same of all paths that do not lead to the file that differs.
In either of them, a readable file contributes its own declarations and no error, and any other file
one error and no declarations. -/
theorem scan_isolated (scanner : Scanner) {matcher : Ignore.Matcher}
    (isKind : kind = .functions ∨ kind = .classes) (notNegative : 0 ≤ request.maxDepth)
    (isRoot : fs.resolve (.ofText request.path) = .ok root)
    (isDirectory : fs.isDirectory root = .ok true)
    (isMatcher : Ignore.Matcher.ofDirectory fs root = .ok matcher)
    (differs : fs.DiffersAt other place)
    (notIgnoreFile : ¬fs.LeadsTo (root.child Ignore.fileName) place) :
    ∃ files report reportToo,
      Walk.enumerate ⟨fs, matcher, root⟩ request.maxDepth = .ok files ∧
      other.resolve (.ofText request.path) = .ok root ∧
      Ignore.Matcher.ofDirectory other root = .ok matcher ∧
      Walk.enumerate ⟨other, matcher, root⟩ request.maxDepth = .ok files ∧
      scanner.scan fs request kind = .ok report ∧
      scanner.scan other request kind = .ok reportToo ∧
      (report.records.filter fun record =>
          ¬fs.LeadsTo (root.append (components record.file)) place) =
        (reportToo.records.filter fun record =>
          ¬fs.LeadsTo (root.append (components record.file)) place) ∧
      (report.errors.filter fun error =>
          ¬fs.LeadsTo (root.append (components error.file)) place) =
        (reportToo.errors.filter fun error =>
          ¬fs.LeadsTo (root.append (components error.file)) place) ∧
      Accounts fs root kind files report ∧ Accounts other root kind files reportToo := by
  have same := differs.sameShape
  rcases Kind.exists_rules isKind with ⟨rules, areRules⟩
  have notFile := FileSystem.isFile_eq_false_of_isDirectory isDirectory
  rcases Walk.exists_enumerate ⟨fs, matcher, root⟩ request.maxDepth notFile with ⟨files, areFiles⟩
  have isRootToo := (same.resolve (.ofText request.path)).symm.trans isRoot
  have isDirectoryToo := (same.isDirectory root).symm.trans isDirectory
  have isMatcherToo := (Ignore.Matcher.ofDirectory_congr differs notIgnoreFile).symm.trans isMatcher
  have areFilesToo := (Walk.enumerate_congr same request.maxDepth).symm.trans areFiles
  have notFileToo := FileSystem.isFile_eq_false_of_isDirectory isDirectoryToo
  have nulFree : ∀ file ∈ files, file.NulFree := fun file isFile =>
    Walk.nulFree_of_enumerated ⟨_, _, files, areFiles, isFile⟩
  have backToFile : ∀ file ∈ files, root.append (components (fs.relativePath file root)) = file :=
    fun _ => append_components_relativePath notFile areFiles
  refine ⟨files, _, _, areFiles, isRootToo, isMatcherToo, areFilesToo,
    scan_of_enumerate scanner areRules (Int.not_lt.mpr notNegative) isRoot isDirectory isMatcher
      areFiles,
    scan_of_enumerate scanner areRules (Int.not_lt.mpr notNegative) isRootToo isDirectoryToo
      isMatcherToo areFilesToo, ?_, ?_,
    accounts_of_distinct areRules (nodup_relativePath notFile areFiles) nulFree,
    accounts_of_distinct areRules (nodup_relativePath notFileToo areFilesToo) nulFree⟩
  -- Both reports are made of the same files, and a record tells which of them it is from.
  · apply Sequence.filter_flatMap_congr
    · intro file isFile record isRecord
      rw [file_of_mem_recordsOf areRules isRecord, backToFile file isFile]
    · intro file isFile record isRecord
      rw [file_of_mem_recordsOf areRules isRecord, ← same.relativePath, backToFile file isFile]
    · intro file _ isElsewhere
      rw [recordsOf, readFile_congr differs (of_decide_eq_true isElsewhere), recordsOf]
  · apply Sequence.filter_flatMap_congr
    · intro file isFile error isError
      rw [file_of_mem_errorsOf areRules (nulFree file isFile) isError, backToFile file isFile]
    · intro file isFile error isError
      rw [file_of_mem_errorsOf areRules (nulFree file isFile) isError, ← same.relativePath,
        backToFile file isFile]
    · intro file _ isElsewhere
      rw [errorsOf, errorOf, readFile_congr differs (of_decide_eq_true isElsewhere), errorsOf,
        errorOf]

/-- A file with some bytes, a link to it, and a file that declares a function. -/
def linkedBytes (bytes : List UInt8) : FileSystem :=
  ⟨[(⟨"p", by decide⟩, .node (.file bytes false) []),
    (⟨"q", by decide⟩, .node (.link "p") []),
    (⟨"r", by decide⟩, .node (.file "def r(".toUTF8.toList false) [])], []⟩

/-- Only the root is a directory. -/
theorem child?_of_mem_linkedBytes {bytes : List UInt8} {child : EntryName × Tree}
    (isChild : child ∈ (linkedBytes bytes).contents) (name : String) :
    child.2.child? name = none := by
  simp only [linkedBytes, List.mem_cons, List.not_mem_nil, or_false] at isChild
  rcases isChild with rfl | rfl | rfl
  · rfl
  · rfl
  · rfl

theorem nil_of_isTrail_linkedBytes {bytes : List UInt8} {name : String} {tree : Tree}
    {trail : Trail} (isTrail : (linkedBytes bytes).IsTrail ((name, tree) :: trail)) :
    trail = [] := by
  induction trail generalizing name tree with
  | nil => rfl
  | cons above trail inductionHypothesis =>
      rcases FileSystem.isTrail_cons_iff.mp isTrail with ⟨isTrailAbove, isChild⟩
      cases inductionHypothesis isTrailAbove
      rcases above with ⟨first, leaf⟩
      have isLeaf := (FileSystem.isTrail_cons_iff.mp isTrailAbove).2
      rcases Option.map_eq_some_iff.mp isLeaf with ⟨child, isFound, rfl⟩
      have noChild := child?_of_mem_linkedBytes (List.mem_of_find?_eq_some isFound) name
      rw [FileSystem.treeAt, noChild] at isChild
      cases isChild

theorem entry?_below_linkedBytes (bytes : List UInt8) (name above : String) (location : Location) :
    FileSystem.entry? (linkedBytes bytes) (name :: above :: location) = none := by
  unfold FileSystem.entry? FileSystem.tree?
  cases isTrail : (linkedBytes bytes).trail? (name :: above :: location) with
  | none => rfl
  | some trail =>
      rcases FileSystem.isTrail_of_trail? isTrail with ⟨isTrail, isLocation⟩
      rcases trail with _ | ⟨⟨first, tree⟩, trail⟩
      · cases isLocation
      · cases nil_of_isTrail_linkedBytes isTrail
        cases isLocation

theorem differsAt_linkedBytes (bytes bytesToo : List UInt8) :
    (linkedBytes bytes).DiffersAt (linkedBytes bytesToo) ["p"] where
  workingDirectory := rfl
  isFile := ⟨bytes, false, rfl⟩
  isFileToo := ⟨bytesToo, false, rfl⟩
  elsewhere := by
    intro location isElsewhere
    rcases location with _ | ⟨name, _ | ⟨above, location⟩⟩
    · rfl
    · have atRoot (fs : FileSystem) : fs.entry? [name] = (fs.root.child? name).map Tree.entry :=
        (FileSystem.isTrail_nil fs).entry?_cons name
      have notFirst : ("p" == name) = false := by
        rw [beq_eq_false_iff_ne]
        rintro rfl
        exact isElsewhere rfl
      rw [atRoot, atRoot]
      simp only [linkedBytes, FileSystem.root, Tree.child?, Tree.children, Entry.isDirectory,
        if_true, List.find?_cons, notFirst]
    · rw [entry?_below_linkedBytes, entry?_below_linkedBytes]

/-- Once the first file is no encoded text any more, both ways to it are reported, and the other
file yields what it did before. -/
theorem scan_isolated_linkedBytes :
    (linkedBytes "def p(".toUTF8.toList).DiffersAt (linkedBytes [0xff]) ["p"] ∧
    ∃ report reportToo,
      single.scan (linkedBytes "def p(".toUTF8.toList) ⟨"/", 0⟩ .functions = .ok report ∧
      single.scan (linkedBytes [0xff]) ⟨"/", 0⟩ .functions = .ok reportToo ∧
      (report.records.filter fun record =>
          ¬(linkedBytes "def p(".toUTF8.toList).LeadsTo
            (Path.append ⟨.root, []⟩ (components record.file)) ["p"]) =
        (reportToo.records.filter fun record =>
          ¬(linkedBytes "def p(".toUTF8.toList).LeadsTo
            (Path.append ⟨.root, []⟩ (components record.file)) ["p"]) := by
  have differs := differsAt_linkedBytes "def p(".toUTF8.toList [0xff]
  have isRoot : (linkedBytes "def p(".toUTF8.toList).resolve (.ofText "/") = .ok ⟨.root, []⟩ := by
    decide +kernel
  have isDirectory : (linkedBytes "def p(".toUTF8.toList).isDirectory ⟨.root, []⟩ = .ok true := by
    decide +kernel
  have isMatcher : Ignore.Matcher.ofDirectory (linkedBytes "def p(".toUTF8.toList) ⟨.root, []⟩ =
      .ok ⟨[]⟩ := by
    decide +kernel
  have notIgnoreFile : ¬(linkedBytes "def p(".toUTF8.toList).LeadsTo
      (Path.child ⟨.root, []⟩ Ignore.fileName) ["p"] := by
    decide +kernel
  have notNegative : 0 ≤ Request.maxDepth ⟨"/", 0⟩ := Int.le_refl 0
  rcases scan_isolated single (Or.inl rfl) notNegative isRoot isDirectory isMatcher differs
    notIgnoreFile with ⟨_, report, reportToo, _, _, _, _, isReport, isReportToo, sameRecords, _⟩
  exact ⟨differs, report, reportToo, isReport, isReportToo, sameRecords⟩

end Scanner

end DeclIndex
