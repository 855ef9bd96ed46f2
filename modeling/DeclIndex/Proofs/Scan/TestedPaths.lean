import DeclIndex.Proofs.Scan.Depth

/-!
# Files are reported by the paths that were tested

A walk knows a file by the names below its root, and puts these names with slashes between them to
its rules. A report names the file by the path that leads to it from the root, both taken by the
letter from the working directory on. The two texts are the same: what a walk finds is the root with
names of entries after it, and no such name stands for a directory itself or for its parent
(`Walk.Tested`, `Walk.tested_of_mem_enumerate`).

The text can be taken apart again, so it leads from the root back to the file.
-/

namespace DeclIndex

open Sequence (bind_eq_ok_iff)

/-! ## By the letter -/

namespace Path

/-- The path that leads to a path from one of those above it, by the letter. -/
def relativeTo? (path base : Path) : Option Path :=
  if path.anchor = base.anchor ∧ base.names <+: path.names then
    some ⟨.here, path.names.drop base.names.length⟩
  else none

theorem relativeTo?_append (base : Path) (names : List String) :
    (base.append names).relativeTo? base = some ⟨.here, names⟩ := by
  rw [relativeTo?, if_pos ⟨rfl, List.prefix_append base.names names⟩]
  simp [append]

variable {names : List String}

theorem text_here (nonempty : names ≠ []) : text ⟨.here, names⟩ = slashed names := by
  cases names with
  | nil => exact absurd rfl nonempty
  | cons name names => rfl

theorem head?_slashed (nonempty : names ≠ [])
    (areNames : ∀ name ∈ names, Entry.isName name = true) :
    (slashed names).toList.head? ≠ some '/' := by
  rcases List.exists_cons_of_ne_nil nonempty with ⟨name, others, rfl⟩
  have isName := areNames name List.mem_cons_self
  have notEmpty : name.toList ≠ [] := by simpa using Entry.ne_empty_of_isName isName
  rcases List.exists_cons_of_ne_nil notEmpty with ⟨c, letters, isFirst⟩
  rw [toList_slashed_cons, isFirst]
  rintro ⟨⟩
  apply Entry.noSlash_of_isName isName
  rw [isFirst]
  exact List.mem_cons_self

/-- Names of entries with slashes between them lead from a base to the path with these names. -/
theorem join_slashed (base : Path) (nonempty : names ≠ [])
    (areNames : ∀ name ∈ names, Entry.isName name = true) :
    base.join (slashed names) = base.append names := by
  have noSlash : ∀ name ∈ names, '/' ∉ name.toList :=
    fun name isName => Entry.noSlash_of_isName (areNames name isName)
  have isHere : (ofText (slashed names)).anchor = .here := by
    have notSlash := head?_slashed nonempty areNames
    rw [ofText]
    simp only
    unfold anchorOf
    split <;> simp_all
  have sameNames : (ofText (slashed names)).names = names := by
    rw [ofText, components_slashed noSlash nonempty, List.filter_eq_self]
    intro name isName
    rw [(Entry.isName_iff.mp (areNames name isName)).1]
    rfl
  rw [join, isHere]
  simp only
  rw [sameNames]

end Path

/-! ## What a walk tests -/

namespace Walk

variable {walk : Walk} {directory names : List String} {file : Path}

/-- Each of some names is listed by the directory before it. -/
def EachListed (walk : Walk) (names : List String) : Prop :=
  ∀ before name after, names = before ++ name :: after → walk.Lists before name

theorem EachListed.concat {last : String} (above : walk.EachListed directory)
    (lists : walk.Lists directory last) : walk.EachListed (directory ++ [last]) := by
  intro before name after split
  rcases List.eq_nil_or_concat' after with rfl | ⟨between, other, rfl⟩
  · rcases List.append_inj' split rfl with ⟨rfl, isLast⟩
    cases isLast
    exact lists
  · rw [← List.cons_append, ← List.append_assoc] at split
    exact above before name between (List.append_inj' split rfl).1

theorem Admitted.eachListed (admitted : walk.Admitted directory) : walk.EachListed directory := by
  induction admitted with
  | root =>
      intro before name after split
      simp at split
  | listed _ lists _ _ inductionHypothesis => exact inductionHypothesis.concat lists

/-- A text leads from the root of a walk to a file, and is what the walk put to its rules before it
kept the file: names with slashes between them, each listed by the directory before it. -/
structure Tested (walk : Walk) (file : Path) (label : String) : Prop where
  isListed : ∃ names, names ≠ [] ∧ label = slashed names ∧ walk.EachListed names ∧
    walk.use names = .ok .keep
  isRelative : ∃ below, file.relativeTo? walk.root = some below ∧ below.text = label
  isProper : ∀ name ∈ components label, name ≠ "" ∧ name ≠ "." ∧ name ≠ ".."
  notSlash : label.toList.head? ≠ some '/'
  notIgnored : walk.matcher.ignores label false = false
  leadsBack : walk.root.join label = file

/-- What a walk of a root that is no file finds is named as it was tested. -/
theorem tested_of_mem_enumerate {maxDepth : Int} {found : List Path}
    (notFile : walk.fs.isFile walk.root = .ok false) (isFound : walk.enumerate maxDepth = .ok found)
    (isFile : file ∈ found) : walk.Tested file (walk.fs.relativePath file walk.root) := by
  rcases (holds_root_of_mem_enumerate isFound isFile).2 with
    ⟨_, isRootFile⟩ | ⟨files, names, areFiles, isNames, rfl⟩
  · cases isRootFile.symm.trans notFile
  · rcases names_of_mem_files areFiles isNames with ⟨nonempty, areNames⟩
    rcases (mem_files_iff areFiles).mp isNames with
      ⟨directory, last, admitted, _, lists, isSplit, isRegular, notIgnored⟩
    have noSlash : ∀ name ∈ names, '/' ∉ name.toList :=
      fun name isName => Entry.noSlash_of_isName (areNames name isName)
    rw [FileSystem.relativePath_append walk.fs nonempty areNames]
    exact {
      isListed := by
        refine ⟨names, nonempty, rfl, ?_, use_eq_keep_iff.mpr ⟨isRegular, notIgnored⟩⟩
        rw [isSplit]
        exact admitted.eachListed.concat lists
      isRelative := ⟨_, Path.relativeTo?_append walk.root names, Path.text_here nonempty⟩
      isProper := by
        rw [components_slashed noSlash nonempty]
        intro name isName
        rcases Entry.isName_iff.mp (areNames name isName) with ⟨notSelf, notParent, _⟩
        refine ⟨?_, ?_, notParent⟩
        · rintro rfl
          cases notSelf
        · rintro rfl
          cases notSelf
      notSlash := Path.head?_slashed nonempty areNames
      notIgnored := notIgnored
      leadsBack := Path.join_slashed walk.root nonempty areNames
    }

end Walk

/-! ## What a file is reported by -/

namespace Scanner

variable {scanner : Scanner} {fs : FileSystem} {root file : Path} {kind : Kind}
  {request : Request} {report : Report}

theorem file_of_readFile {result : FileReport} (isRead : readFile fs root kind file = .ok result) :
    (∀ record ∈ result.records, record.file = fs.relativePath file root) ∧
      ∀ error, result.error = some error → error.file = fs.relativePath file root := by
  unfold readFile at isRead
  split at isRead
  next records areRecords =>
    cases isRead
    rcases bind_eq_ok_iff.mp areRecords with ⟨letters, _, areRecords⟩
    rcases bind_eq_ok_iff.mp areRecords with ⟨rules, _, areRecords⟩
    cases areRecords
    refine ⟨?_, by simp⟩
    intro record isRecord
    exact (Declarations.exists_line_of_mem_scan isRecord).2.1
  next path cause _ =>
    cases isRead
    refine ⟨by simp, ?_⟩
    rintro error ⟨⟩
    rfl
  next => cases isRead

/-- A scan of a directory reports each file, in its records and in its error alike, by the text that
its walk put to the rules of the ignore file before it kept the file. -/
theorem scan_reports_tested (isRoot : fs.resolve (.ofText request.path) = .ok root)
    (notFile : fs.isFile root = .ok false) (isReport : scanner.scan fs request kind = .ok report) :
    ∃ matcher files, Ignore.Matcher.ofDirectory fs root = .ok matcher ∧
      Walk.enumerate ⟨fs, matcher, root⟩ request.maxDepth = .ok files ∧
      report = ⟨files.flatMap (recordsOf fs root kind), files.filterMap (errorOf fs root kind)⟩ ∧
      ∀ file ∈ files, ∃ label, Walk.Tested ⟨fs, matcher, root⟩ file label ∧
        (∀ record ∈ recordsOf fs root kind file, record.file = label) ∧
        ∀ error, errorOf fs root kind file = some error → error.file = label := by
  rcases scan_eq_ok_iff.mp isReport with ⟨_, resolved, isResolved, isScan⟩
  cases isResolved.symm.trans isRoot
  rcases isScan with ⟨isFile, _⟩ | ⟨_, isScan⟩
  · cases isFile.symm.trans notFile
  · rcases scanDirectory_eq_ok_iff.mp isScan with
      ⟨matcher, files, results, isMatcher, areFiles, areResults, rfl⟩
    refine ⟨matcher, files, isMatcher, areFiles, collect_of_mapM_readFile areResults, ?_⟩
    intro file isFile
    refine ⟨fs.relativePath file root, Walk.tested_of_mem_enumerate notFile areFiles isFile, ?_⟩
    rcases Sequence.exists_mapM_eq_ok_iff.mp ⟨results, areResults⟩ file isFile with
      ⟨result, isRead⟩
    rw [recordsOf, errorOf, isRead]
    exact file_of_readFile isRead

/-- The scan of a directory reports one file by a record and another one by an error. -/
theorem scan_layeredFiles :
    single.scan layeredFiles ⟨"/", 1⟩ .functions =
      .ok ⟨[⟨"f", .functions, 1, "e"⟩],
        [⟨"s/x", "/s/x: [Errno 13] Permission denied: " ++ Text.quoted "/s/x"⟩]⟩ := by
  have isDirectory : layeredFiles.isDirectory ⟨.root, []⟩ = .ok true := by decide +kernel
  have areFiles := Walk.enumerate_of_files isDirectory files_layeredFiles
  have areResults : [⟨.root, ["e"]⟩, ⟨.root, ["s", "x"]⟩].mapM
      (readFile layeredFiles ⟨.root, []⟩ .functions) =
        .ok [⟨[⟨"f", .functions, 1, "e"⟩], none⟩,
          ⟨[], some ⟨"s/x", "/s/x: [Errno 13] Permission denied: " ++ Text.quoted "/s/x"⟩⟩] := by
    decide +kernel
  apply scan_eq_ok_iff.mpr
  refine ⟨by decide, ⟨.root, []⟩, by decide +kernel, Or.inr ⟨by decide +kernel, ?_⟩⟩
  exact scanDirectory_eq_ok_iff.mpr
    ⟨⟨[]⟩, _, _, by decide +kernel, areFiles, areResults, rfl⟩

theorem scan_reports_tested_layeredFiles :
    layeredFiles.resolve (.ofText "/") = .ok ⟨.root, []⟩ ∧
    layeredFiles.isFile ⟨.root, []⟩ = .ok false ∧
    (∃ report, single.scan layeredFiles ⟨"/", 1⟩ .functions = .ok report) ∧
    ∃ matcher, Ignore.Matcher.ofDirectory layeredFiles ⟨.root, []⟩ = .ok matcher ∧
      Walk.Tested ⟨layeredFiles, matcher, ⟨.root, []⟩⟩ ⟨.root, ["e"]⟩ "e" ∧
      Walk.Tested ⟨layeredFiles, matcher, ⟨.root, []⟩⟩ ⟨.root, ["s", "x"]⟩ "s/x" := by
  have isRoot : layeredFiles.resolve (.ofText "/") = .ok ⟨.root, []⟩ := by decide +kernel
  have notFile : layeredFiles.isFile ⟨.root, []⟩ = .ok false := by decide +kernel
  refine ⟨isRoot, notFile, ⟨_, scan_layeredFiles⟩, ?_⟩
  rcases scan_reports_tested isRoot notFile scan_layeredFiles with
    ⟨matcher, files, isMatcher, areFiles, _, areTested⟩
  have isDirectory : layeredFiles.isDirectory ⟨.root, []⟩ = .ok true := by decide +kernel
  have noRules : Ignore.Matcher.ofDirectory layeredFiles ⟨.root, []⟩ = .ok ⟨[]⟩ := by
    decide +kernel
  cases noRules.symm.trans isMatcher
  cases (Walk.enumerate_of_files isDirectory files_layeredFiles).symm.trans areFiles
  rcases areTested ⟨.root, ["e"]⟩ (by simp [Path.append]) with ⟨label, isTested, areRecords, _⟩
  rcases areTested ⟨.root, ["s", "x"]⟩ (by simp [Path.append]) with ⟨other, isTested', _, areErrors⟩
  have isLabel : "e" = label := areRecords ⟨"f", .functions, 1, "e"⟩ (by decide +kernel)
  have isOther : "s/x" = other := areErrors
    ⟨"s/x", "/s/x: [Errno 13] Permission denied: " ++ Text.quoted "/s/x"⟩ (by decide +kernel)
  rw [← isLabel] at isTested
  rw [← isOther] at isTested'
  exact ⟨⟨[]⟩, noRules, isTested, isTested'⟩

end Scanner

end DeclIndex
