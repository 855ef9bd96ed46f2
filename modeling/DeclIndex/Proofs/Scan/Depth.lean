import DeclIndex.Proofs.Scan.Contributions
import Mathlib.Data.List.Infix

/-!
# Looking deeper adds to the end

A walk goes level by level, so a walk with a greater limit first sees what a walk with a smaller
limit sees, and the rest afterwards (`Walk.exists_listings_of_deeper`). What is found and what is
reported within a limit is therefore a beginning of what is found and reported within a greater one.

This holds as long as the deeper walk is not disturbed: a walk that fails on a deep directory finds
nothing at all, while the shallow one may find something.
-/

namespace DeclIndex

open Sequence (bind_eq_ok_iff)

/-! ## Walks -/

namespace Walk

variable {walk : Walk} {directories : List (List String)} {found : List Listing}
  {levels more : Nat} {names : List String}

theorem Undisturbed.mono (undisturbed : walk.Undisturbed more) (isLess : levels ≤ more) :
    walk.Undisturbed levels := by
  intro directory admitted atMost
  exact undisturbed directory admitted (Nat.le_trans atMost isLess)

/-- However deep a walk looks, it starts with the listings of its first directories. -/
theorem exists_here_of_listings (areFound : walk.listings levels directories = .ok found) :
    ∃ here below, directories.mapM walk.look = .ok here ∧ found = here ++ below := by
  cases levels with
  | zero =>
      rw [listings_zero] at areFound
      exact ⟨found, [], areFound, (List.append_nil found).symm⟩
  | succ levels =>
      rcases listings_succ_eq_ok_iff.mp areFound with ⟨here, below, areHere, _, isFound⟩
      exact ⟨here, below, areHere, isFound⟩

theorem exists_listings_of_deeper
    (areFound : walk.listings (levels + more) directories = .ok found) :
    ∃ shallow deep, walk.listings levels directories = .ok shallow ∧ found = shallow ++ deep := by
  -- The induction is on the levels that both walks see; what is left of the deeper one stays fixed.
  induction levels generalizing directories found with
  | zero =>
      rcases exists_here_of_listings areFound with ⟨here, below, areHere, isFound⟩
      rw [← listings_zero] at areHere
      exact ⟨here, below, areHere, isFound⟩
  | succ levels inductionHypothesis =>
      rw [Nat.succ_add] at areFound
      rcases listings_succ_eq_ok_iff.mp areFound with ⟨here, below, areHere, areBelow, rfl⟩
      rcases inductionHypothesis areBelow with ⟨shallow, deep, areShallow, rfl⟩
      refine ⟨here ++ shallow, deep, ?_, (List.append_assoc here shallow deep).symm⟩
      apply listings_succ_eq_ok_iff.mpr
      exact ⟨here, shallow, areHere, areShallow, rfl⟩

theorem exists_files_of_deeper {limit deeper : Int} {files : List (List String)}
    (isLess : limit ≤ deeper) (areFiles : walk.files deeper = .ok files) :
    ∃ shallow, walk.files limit = .ok shallow ∧ shallow <+: files := by
  rcases bind_eq_ok_iff.mp areFiles with ⟨found, areFound, isFlat⟩
  cases isFlat
  obtain ⟨more, isMore⟩ := Nat.exists_eq_add_of_le (Int.toNat_le_toNat isLess)
  rw [isMore] at areFound
  rcases exists_listings_of_deeper areFound with ⟨shallow, deep, areShallow, rfl⟩
  refine ⟨shallow.flatMap (·.files), bind_eq_ok_iff.mpr ⟨shallow, areShallow, rfl⟩, ?_⟩
  exact (List.prefix_append shallow deep).flatMap _

/-- Within a limit a walk finds those of the files of a deeper walk that are separated from the root
by no more directories than the limit allows. -/
theorem mem_files_iff_of_deeper {limit deeper : Int} {shallow files : List (List String)}
    (notNegative : 0 ≤ limit) (isLess : limit ≤ deeper)
    (areShallow : walk.files limit = .ok shallow) (areFiles : walk.files deeper = .ok files) :
    names ∈ shallow ↔ names ∈ files ∧ ∃ directories name, names = directories ++ [name] ∧
      (directories.length : Int) ≤ limit := by
  rw [mem_files_iff areShallow, mem_files_iff areFiles]
  constructor
  · rintro ⟨directory, name, admitted, isNear, lists, rfl, kept⟩
    refine ⟨⟨directory, name, admitted, ?_, lists, rfl, kept⟩, directory, name, rfl, ?_⟩
    · exact Nat.le_trans isNear (Int.toNat_le_toNat isLess)
    · omega
  · rintro ⟨⟨directory, name, admitted, _, lists, rfl, kept⟩, directories, last, same, isNear⟩
    rcases List.append_inj' same rfl with ⟨rfl, _⟩
    exact ⟨directory, name, admitted, by omega, lists, rfl, kept⟩

end Walk

/-! ## Scans -/

namespace Scanner

/-- If a walk down to some depth is not disturbed, no walk to a smaller depth is. The files found at
the smaller depth are then the first ones of those found further down, namely those that are
separated from the root by no more directories than that, and what is reported of them comes first
in the report of the deeper scan. -/
theorem scan_isPrefix_of_deeper (scanner : Scanner) {fs : FileSystem} {path : String}
    {shallow deep : Int} {kind : Kind} {root : Path} {matcher : Ignore.Matcher}
    (isKind : kind = .functions ∨ kind = .classes) (notNegative : 0 ≤ shallow)
    (isDeeper : shallow ≤ deep) (isRoot : fs.resolve (.ofText path) = .ok root)
    (isDirectory : fs.isDirectory root = .ok true)
    (isMatcher : Ignore.Matcher.ofDirectory fs root = .ok matcher)
    (undisturbed : Walk.Undisturbed ⟨fs, matcher, root⟩ deep.toNat) :
    Walk.Undisturbed ⟨fs, matcher, root⟩ shallow.toNat ∧
    ∃ files filesBelow report reportBelow,
      Walk.enumerate ⟨fs, matcher, root⟩ shallow = .ok files ∧
      Walk.enumerate ⟨fs, matcher, root⟩ deep = .ok filesBelow ∧
      files <+: filesBelow ∧
      (∀ file, file ∈ files ↔ file ∈ filesBelow ∧ ∃ directories name,
        file = root.append (directories ++ [name]) ∧ (directories.length : Int) ≤ shallow) ∧
      scanner.scan fs ⟨path, shallow⟩ kind = .ok report ∧
      scanner.scan fs ⟨path, deep⟩ kind = .ok reportBelow ∧
      report.records <+: reportBelow.records ∧ report.errors <+: reportBelow.errors := by
  rcases Kind.exists_rules isKind with ⟨rules, areRules⟩
  rcases Walk.exists_files_iff_undisturbed.mpr undisturbed with ⟨namesBelow, areNamesBelow⟩
  rcases Walk.exists_files_of_deeper isDeeper areNamesBelow with ⟨names, areNames, isPrefix⟩
  have areFiles : Walk.enumerate ⟨fs, matcher, root⟩ shallow = .ok (names.map root.append) :=
    Walk.enumerate_of_files isDirectory areNames
  have areFilesBelow : Walk.enumerate ⟨fs, matcher, root⟩ deep = .ok (namesBelow.map root.append) :=
    Walk.enumerate_of_files isDirectory areNamesBelow
  have isNear (found : List String) : found ∈ names ↔ found ∈ namesBelow ∧
      ∃ directories name, found = directories ++ [name] ∧ (directories.length : Int) ≤ shallow :=
    Walk.mem_files_iff_of_deeper notNegative isDeeper areNames areNamesBelow
  have allPrefix := isPrefix.map root.append
  refine ⟨undisturbed.mono (Int.toNat_le_toNat isDeeper), names.map root.append,
    namesBelow.map root.append, _, _, areFiles, areFilesBelow, allPrefix, ?_,
    scan_of_enumerate scanner areRules (Int.not_lt.mpr notNegative) isRoot isDirectory isMatcher
      areFiles,
    scan_of_enumerate scanner areRules (Int.not_lt.mpr (Int.le_trans notNegative isDeeper)) isRoot
      isDirectory isMatcher areFilesBelow,
    allPrefix.flatMap _, allPrefix.flatMap _⟩
  intro file
  simp only [List.mem_map]
  constructor
  · rintro ⟨found, isFound, rfl⟩
    rcases (isNear found).mp isFound with ⟨isBelow, directories, name, rfl, isNear⟩
    exact ⟨⟨_, isBelow, rfl⟩, directories, name, rfl, isNear⟩
  · rintro ⟨⟨found, isBelow, rfl⟩, directories, name, same, isLimited⟩
    have sameNames : found = directories ++ [name] :=
      List.append_cancel_left (congrArg (·.names) same)
    exact ⟨found, (isNear found).mpr ⟨isBelow, directories, name, sameNames, isLimited⟩, rfl⟩

/-- A file that declares a function, and a locked file in a directory. -/
def layeredFiles : FileSystem :=
  ⟨[(⟨"e", by decide⟩, .node (.file "def f(".toUTF8.toList false) []),
    (⟨"s", by decide⟩, .node (.directory false)
      [(⟨"x", by decide⟩, .node (.file [] true) [])])], []⟩

theorem files_layeredFiles :
    Walk.files ⟨layeredFiles, ⟨[]⟩, ⟨.root, []⟩⟩ 1 = .ok [["e"], ["s", "x"]] := by
  have areNames : layeredFiles.root.names = ["e", "s"] :=
    List.mergeSort_of_pairwise (l := ["e", "s"]) (by decide)
  have areListed : layeredFiles.list ⟨.root, []⟩ = .ok ["e", "s"] := by
    rw [← areNames]
    rfl
  have atRoot : Walk.look ⟨layeredFiles, ⟨[]⟩, ⟨.root, []⟩⟩ [] = .ok ⟨[], [["e"]], [["s"]]⟩ :=
    Walk.look_eq_ok_iff.mpr
      ⟨["e", "s"], [(["e"], .keep), (["s"], .enter)], areListed, by decide +kernel, rfl⟩
  have below : Walk.look ⟨layeredFiles, ⟨[]⟩, ⟨.root, []⟩⟩ ["s"] = .ok ⟨["s"], [["s", "x"]], []⟩ :=
    Walk.look_eq_ok_iff.mpr
      ⟨["x"], [(["s", "x"], .keep)], by decide +kernel, by decide +kernel, rfl⟩
  exact Walk.files_of_look atRoot (Sequence.mapM_eq_ok_iff.mpr (.cons below .nil))

/-- The scan of the root alone does not meet the locked file. -/
theorem scan_isPrefix_of_deeper_layeredFiles :
    layeredFiles.isDirectory ⟨.root, []⟩ = .ok true ∧
    Walk.Undisturbed ⟨layeredFiles, ⟨[]⟩, ⟨.root, []⟩⟩ 1 ∧
    ∃ report reportBelow, single.scan layeredFiles ⟨"/", 0⟩ .functions = .ok report ∧
      single.scan layeredFiles ⟨"/", 1⟩ .functions = .ok reportBelow ∧
      report.records <+: reportBelow.records ∧ report.errors <+: reportBelow.errors := by
  have isDirectory : layeredFiles.isDirectory ⟨.root, []⟩ = .ok true := by decide +kernel
  have undisturbed : Walk.Undisturbed ⟨layeredFiles, ⟨[]⟩, ⟨.root, []⟩⟩ 1 :=
    Walk.exists_files_iff_undisturbed.mp ⟨_, files_layeredFiles⟩
  have isRoot : layeredFiles.resolve (.ofText "/") = .ok ⟨.root, []⟩ := by decide +kernel
  have isMatcher : Ignore.Matcher.ofDirectory layeredFiles ⟨.root, []⟩ = .ok ⟨[]⟩ := by
    decide +kernel
  rcases scan_isPrefix_of_deeper single (Or.inl rfl) (Int.le_refl 0) (Int.zero_le_ofNat 1) isRoot
    isDirectory isMatcher undisturbed with
    ⟨_, _, _, report, reportBelow, _, _, _, _, isReport, isReportBelow, recordsFirst, errorsFirst⟩
  exact ⟨isDirectory, undisturbed, report, reportBelow, isReport, isReportBelow, recordsFirst,
    errorsFirst⟩

end Scanner

end DeclIndex
