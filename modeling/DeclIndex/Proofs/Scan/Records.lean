import DeclIndex.Proofs.Declarations.Records
import DeclIndex.Proofs.Path.Names
import DeclIndex.Proofs.Rule.Captures
import DeclIndex.Proofs.Scan.Outcome
import DeclIndex.Proofs.Walk.Order

/-!
# The records of a whole scan

The records of one file stand together, in the order of their lines, and declare different names
(`Scanner.Orderly`). Each says where a word stands in a file (`Record.StandsIn`). Both hold of the
records of one text. For a whole scan it remains to see that no two files are reported alike: a walk
finds no path twice, and paths below the root are told apart by what is reported of them.
-/

namespace DeclIndex

/-- The record names a line of the file's text and a whole word on that line. -/
def Record.StandsIn (record : Record) (fs : FileSystem) (file : Path) : Prop :=
  ∃ bytes text line, fs.read file = .ok bytes ∧
    Text.Utf8.decode (Text.Utf8.dropMark bytes) = .ok text ∧
    1 ≤ record.line ∧ record.line ≤ (text.splitOn '\n').length ∧
    (text.splitOn '\n')[(record.line - 1).toNat]? = some line ∧
    Text.IsWordOf record.name.toList line

namespace Scanner

variable {fs : FileSystem} {root file : Path} {kind : Kind} {request : Request} {rules : List Rule}

/-! ## Records in order -/

/-- The records of a file are together, in the order of their lines, and no two of them share a
name or a line. -/
structure Orderly (records : List Record) : Prop where
  distinctNames : records.Pairwise fun record later =>
    ¬(record.file = later.file ∧ record.name = later.name)
  distinctLines : records.Pairwise fun record later =>
    ¬(record.file = later.file ∧ record.line = later.line)
  together : ∀ file, (records.filter fun record => record.file == file) <:+: records
  inOrder : records.Pairwise fun record later =>
    record.file = later.file → record.line < later.line

namespace Orderly

variable {records others : List Record}

theorem nil : Orderly [] where
  distinctNames := List.Pairwise.nil
  distinctLines := List.Pairwise.nil
  together := fun _ => List.nil_infix
  inOrder := List.Pairwise.nil

/-- Records of one file are in order if their lines increase and their names are distinct. -/
theorem of_oneFile (label : String) (isFile : ∀ record ∈ records, record.file = label)
    (distinctNames : (records.map (·.name)).Nodup)
    (increasing : records.Pairwise fun record later => record.line < later.line) :
    Orderly records where
  distinctNames := by
    apply (List.pairwise_map.mp distinctNames).imp
    intro record later different same
    exact different same.2
  distinctLines := by
    apply increasing.imp
    intro record later below same
    exact (Int.ne_of_lt below) same.2
  together := by
    intro file
    by_cases isLabel : label = file
    · have isAll : (records.filter fun record => record.file == file) = records := by
        apply List.filter_eq_self.mpr
        intro record isRecord
        simp [isFile record isRecord, isLabel]
      simp only [isAll, List.infix_refl]
    · have isNone : (records.filter fun record => record.file == file) = [] := by
        apply List.filter_eq_nil_iff.mpr
        intro record isRecord
        simp [isFile record isRecord, isLabel]
      rw [isNone]
      exact List.nil_infix
  inOrder := by
    apply increasing.imp
    intro record later below _
    exact below

/-- Records of other files may follow. -/
theorem append (orderly : Orderly records) (orderly' : Orderly others)
    (apart : ∀ record ∈ records, ∀ other ∈ others, record.file ≠ other.file) :
    Orderly (records ++ others) where
  distinctNames := List.pairwise_append.mpr ⟨orderly.distinctNames, orderly'.distinctNames,
    fun record isRecord other isOther same => apart record isRecord other isOther same.1⟩
  distinctLines := List.pairwise_append.mpr ⟨orderly.distinctLines, orderly'.distinctLines,
    fun record isRecord other isOther same => apart record isRecord other isOther same.1⟩
  together := by
    intro file
    rw [List.filter_append]
    by_cases isHere : ∃ record ∈ records, record.file = file
    · rcases isHere with ⟨record, isRecord, rfl⟩
      have noneLater : (others.filter fun other => other.file == record.file) = [] := by
        apply List.filter_eq_nil_iff.mpr
        intro other isOther
        simpa using Ne.symm (apart record isRecord other isOther)
      rw [noneLater, List.append_nil]
      exact (orderly.together record.file).trans (List.prefix_append records others).isInfix
    · have noneHere : (records.filter fun record => record.file == file) = [] := by
        apply List.filter_eq_nil_iff.mpr
        intro record isRecord
        simpa using fun isFile => isHere ⟨record, isRecord, isFile⟩
      rw [noneHere, List.nil_append]
      exact (orderly'.together file).trans (List.suffix_append records others).isInfix
  inOrder := List.pairwise_append.mpr ⟨orderly.inOrder, orderly'.inOrder,
    fun record isRecord other isOther same => absurd same (apart record isRecord other isOther)⟩

/-- The records of files that are reported differently are in order if those of each file are. -/
theorem flatMap {files : List Path} {label : Path → String} {recordsOf : Path → List Record}
    (distinct : (files.map label).Nodup) (isFile : ∀ file ∈ files, ∀ record ∈ recordsOf file,
      record.file = label file) (each : ∀ file ∈ files, Orderly (recordsOf file)) :
    Orderly (files.flatMap recordsOf) := by
  induction files with
  | nil => exact nil
  | cons file files inductionHypothesis =>
      rw [List.map_cons, List.nodup_cons] at distinct
      rw [List.forall_mem_cons] at isFile each
      rw [List.flatMap_cons]
      apply append each.1 (inductionHypothesis distinct.2 isFile.2 each.2)
      intro record isRecord other isOther same
      rcases List.mem_flatMap.mp isOther with ⟨otherFile, isLater, isOther⟩
      apply distinct.1
      rw [← isFile.1 record isRecord, same, isFile.2 otherFile isLater other isOther]
      exact List.mem_map_of_mem isLater

end Orderly

/-! ## One text -/

theorem agree_of_rules (areRules : kind.rules? = some rules) : Rule.Agree rules := by
  rcases Kind.rules?_eq_some_iff.mp areRules with ⟨_, rfl⟩ | ⟨_, rfl⟩
  · exact Rule.agree_functionRules
  · exact Rule.agree_classRules

theorem orderly_scan (areRules : kind.rules? = some rules) (label : String) (lines : List String) :
    Orderly (Declarations.scan rules kind label lines) := by
  apply Orderly.of_oneFile label
  · intro record isRecord
    exact (Declarations.exists_line_of_mem_scan isRecord).2.1
  · exact Declarations.nodup_name_scanFrom ..
  · exact Declarations.pairwise_line_scanFrom (agree_of_rules areRules) ..

theorem standsIn_of_mem_scan {letters : List Char} {label : String} {record : Record}
    (areRules : kind.rules? = some rules) (isText : Source.text fs file = .ok letters)
    (isRecord : record ∈ Declarations.scan rules kind label (Source.lines letters)) :
    record.StandsIn fs file := by
  rcases Source.text_eq_ok_iff.mp isText with ⟨bytes, isRead, isDecoded⟩
  rcases Declarations.exists_line_of_mem_scan isRecord with
    ⟨_, _, index, line, before, isLine, isNumber, rule, isRule, isName⟩
  rw [Source.lines, List.getElem?_map] at isLine
  rcases Option.map_eq_some_iff.mp isLine with ⟨text, isText, rfl⟩
  have inRange := (List.getElem?_eq_some_iff.mp isText).1
  have isIndex : (record.line - 1).toNat = index := by omega
  refine ⟨bytes, letters, text, isRead, isDecoded, by omega, by omega, ?_, ?_⟩
  · rw [isIndex]
    exact isText
  · have isWord := Kind.isWordOf_of_name? areRules isRule isName
    rwa [String.toList_ofList] at isWord

/-! ## All files of a scan -/

/-- The scan of a request reads a file and reports it by a text. -/
inductive Reads (fs : FileSystem) (request : Request) : Path → String → Prop where
  | single {root : Path} (isRoot : fs.resolve (.ofText request.path) = .ok root)
      (isFile : fs.isFile root = .ok true) :
      Reads fs request root (fs.relativePath root root.parent)
  | below {root file : Path} {matcher : Ignore.Matcher} {files : List Path}
      (isRoot : fs.resolve (.ofText request.path) = .ok root)
      (notFile : fs.isFile root = .ok false)
      (isMatcher : Ignore.Matcher.ofDirectory fs root = .ok matcher)
      (areFiles : Walk.enumerate ⟨fs, matcher, root⟩ request.maxDepth = .ok files)
      (isFile : file ∈ files) : Reads fs request file (fs.relativePath file root)

theorem nodup_relativePath {matcher : Ignore.Matcher} {maxDepth : Int} {files : List Path}
    (notFile : fs.isFile root = .ok false)
    (areFiles : Walk.enumerate ⟨fs, matcher, root⟩ maxDepth = .ok files) :
    (files.map fun file => fs.relativePath file root).Nodup := by
  rcases Walk.exists_files_of_enumerate areFiles notFile with ⟨found, rfl, isSorted, areNames⟩
  rw [List.map_map]
  apply (Walk.nodup_of_pairwise isSorted).map_on
  intro names isFound others isFound' same
  rcases areNames names isFound with ⟨nonempty, allNames⟩
  rcases areNames others isFound' with ⟨nonempty', allNames'⟩
  exact fs.relativePath_append_injective nonempty nonempty' allNames allNames' same

/-- No two files of a scan are reported alike. -/
theorem Reads.unique {other : Path} {label : String} (reads : Reads fs request file label)
    (reads' : Reads fs request other label) : other = file := by
  generalize isLabel : label = otherLabel at reads'
  cases reads with
  | single isRoot isFile =>
      cases reads' with
      | single isRoot' _ => exact Except.ok.inj (isRoot'.symm.trans isRoot)
      | below isRoot' notFile =>
          cases isRoot'.symm.trans isRoot
          cases isFile.symm.trans notFile
  | below isRoot notFile isMatcher areFiles isFile =>
      cases reads' with
      | single isRoot' isFile' =>
          cases isRoot'.symm.trans isRoot
          cases isFile'.symm.trans notFile
      | below isRoot' _ isMatcher' areFiles' isFile' =>
          cases isRoot'.symm.trans isRoot
          cases isMatcher'.symm.trans isMatcher
          cases areFiles'.symm.trans areFiles
          exact List.inj_on_of_nodup_map (nodup_relativePath notFile areFiles) isFile' isFile
            isLabel.symm

/-- What a file contributes is reported by its path from the directory. -/
theorem file_of_mem_recordsOf (areRules : kind.rules? = some rules) {record : Record}
    (isRecord : record ∈ recordsOf fs root kind file) :
    record.file = fs.relativePath file root := by
  rcases exists_text_of_mem_recordsOf areRules isRecord with ⟨letters, _, areRecords⟩
  rw [areRecords] at isRecord
  exact (Declarations.exists_line_of_mem_scan isRecord).2.1

/-- Whatever a scan for functions or classes returns, the records of one file stand together in the
order of their lines, without a name or a line twice, and each stands on a line of the one file that
it names, where the declared name is a whole word. -/
theorem scan_orderly {scanner : Scanner} {report : Report}
    (isKind : kind = .functions ∨ kind = .classes)
    (isReport : scanner.scan fs request kind = .ok report) :
    Orderly report.records ∧ ∀ record ∈ report.records, ∃ file,
      Reads fs request file record.file ∧
      (∀ other, Reads fs request other record.file → other = file) ∧
      record.StandsIn fs file := by
  rcases Kind.exists_rules isKind with ⟨rules, areRules⟩
  rcases scan_eq_ok_iff.mp isReport with ⟨_, root, isRoot, ⟨isFile, isReport⟩ | ⟨notFile, isReport⟩⟩
  · rw [scanFile, Source.declarations_of_rules areRules] at isReport
    cases isText : Source.text fs root with
    | error failure =>
        rw [isText] at isReport
        cases isReport
    | ok letters =>
        rw [isText] at isReport
        cases isReport
        refine ⟨orderly_scan areRules _ _, ?_⟩
        intro record isRecord
        have isLabel := (Declarations.exists_line_of_mem_scan isRecord).2.1
        have reads : Reads fs request root record.file := by
          rw [isLabel]
          exact Reads.single isRoot isFile
        exact ⟨root, reads, fun _ => reads.unique, standsIn_of_mem_scan areRules isText isRecord⟩
  · rcases scanDirectory_eq_ok_iff.mp isReport with
      ⟨matcher, files, results, isMatcher, areFiles, areResults, rfl⟩
    rw [collect_of_mapM_readFile areResults]
    have isLabel : ∀ file ∈ files, ∀ record ∈ recordsOf fs root kind file,
        record.file = fs.relativePath file root := fun _ _ _ => file_of_mem_recordsOf areRules
    constructor
    · apply Orderly.flatMap (nodup_relativePath notFile areFiles) isLabel
      intro file _
      rcases (recordsOf fs root kind file).eq_nil_or_concat' with isEmpty | ⟨_, last, isConcat⟩
      · rw [isEmpty]
        exact Orderly.nil
      · have isLast : last ∈ recordsOf fs root kind file := by simp [isConcat]
        rcases exists_text_of_mem_recordsOf areRules isLast with ⟨letters, _, areRecords⟩
        rw [areRecords]
        exact orderly_scan areRules _ _
    · intro record isRecord
      rcases List.mem_flatMap.mp isRecord with ⟨file, isFile, isRecord⟩
      rcases exists_text_of_mem_recordsOf areRules isRecord with ⟨letters, isText, areRecords⟩
      have reads : Reads fs request file record.file := by
        rw [isLabel file isFile record isRecord]
        exact Reads.below isRoot notFile isMatcher areFiles isFile
      rw [areRecords] at isRecord
      exact ⟨file, reads, fun _ => reads.unique, standsIn_of_mem_scan areRules isText isRecord⟩

/-- A directory with a file that declares a function, and a link to that file. -/
def linkedFile : FileSystem :=
  ⟨[(⟨"c", by decide⟩, .node (.file "def f(".toUTF8.toList false) []),
    (⟨"k", by decide⟩, .node (.link "c") [])], []⟩

theorem enumerate_linkedFile :
    Walk.enumerate ⟨linkedFile, ⟨[]⟩, ⟨.root, []⟩⟩ 0 = .ok [⟨.root, ["c"]⟩, ⟨.root, ["k"]⟩] := by
  have areNames : linkedFile.root.names = ["c", "k"] :=
    List.mergeSort_of_pairwise (l := ["c", "k"]) (by decide)
  have areListed : linkedFile.list ⟨.root, []⟩ = .ok ["c", "k"] := by
    rw [← areNames]
    rfl
  have atRoot : Walk.look ⟨linkedFile, ⟨[]⟩, ⟨.root, []⟩⟩ [] = .ok ⟨[], [["c"], ["k"]], []⟩ :=
    Walk.look_eq_ok_iff.mpr
      ⟨["c", "k"], [(["c"], .keep), (["k"], .keep)], areListed, by decide +kernel, rfl⟩
  exact Walk.enumerate_of_files (by decide +kernel) (Walk.files_of_look_root atRoot)

theorem scan_linkedFile :
    single.scan linkedFile ⟨"/", 0⟩ .functions =
      .ok ⟨[⟨"f", .functions, 1, "c"⟩, ⟨"f", .functions, 1, "k"⟩], []⟩ := by
  have areResults : [⟨.root, ["c"]⟩, ⟨.root, ["k"]⟩].mapM
      (readFile linkedFile ⟨.root, []⟩ .functions) =
        .ok [⟨[⟨"f", .functions, 1, "c"⟩], none⟩, ⟨[⟨"f", .functions, 1, "k"⟩], none⟩] := by
    decide +kernel
  apply scan_eq_ok_iff.mpr
  refine ⟨by decide, ⟨.root, []⟩, by decide +kernel, Or.inr ⟨by decide +kernel, ?_⟩⟩
  exact scanDirectory_eq_ok_iff.mpr
    ⟨⟨[]⟩, _, _, by decide +kernel, enumerate_linkedFile, areResults, rfl⟩

theorem scan_orderly_linkedFile :
    single.scan linkedFile ⟨"/", 0⟩ .functions =
      .ok ⟨[⟨"f", .functions, 1, "c"⟩, ⟨"f", .functions, 1, "k"⟩], []⟩ ∧
    Orderly [⟨"f", .functions, 1, "c"⟩, ⟨"f", .functions, 1, "k"⟩] ∧
    ∃ file, Reads linkedFile ⟨"/", 0⟩ file "k" ∧
      Record.StandsIn ⟨"f", .functions, 1, "k"⟩ linkedFile file := by
  rcases scan_orderly (Or.inl rfl) scan_linkedFile with ⟨orderly, stands⟩
  refine ⟨scan_linkedFile, orderly, ?_⟩
  rcases stands ⟨"f", .functions, 1, "k"⟩ (by simp) with ⟨file, reads, _, standsIn⟩
  exact ⟨file, reads, standsIn⟩

end Scanner

end DeclIndex
