import DeclIndex.Proofs.Walk.Admitted
import Mathlib.Data.List.Induction

/-!
# A walk finds the admitted files

A walk looks at the admitted directories level by level. The invariant is that the directories of
one round are all admitted directories of one depth (`Walk.IsLevel`): the subdirectories that their
listings hold are then all admitted directories one level further down. So the listings of a walk
are those of all admitted directories within its limit, and the walk fails exactly if one of them
fails (`Walk.exists_listings_iff`).

`Walk.Leads` spells out what it means that names lead from the root through directories that are
listed and not ignored, and `Walk.enumerate_exact` says which paths are found.
-/

namespace DeclIndex.Walk

open Sequence (bind_eq_ok_iff mem_iff_of_mapM_eq_ok exists_mapM_eq_ok_iff)

/-- The directories are the admitted ones of a depth. -/
def IsLevel (walk : Walk) (depth : Nat) (directories : List (List String)) : Prop :=
  ∀ directory, directory ∈ directories ↔ walk.Admitted directory ∧ directory.length = depth

/-- Each beginning of some names, the empty one included, leads to a directory that lists the next
name, and is not ignored unless it is empty. -/
def Leads (walk : Walk) (names : List String) : Prop :=
  ∀ before next after, names = before ++ next :: after →
    walk.IsDirectory before ∧ walk.Lists before next ∧
      (before ≠ [] → walk.matcher.ignores (slashed before) true = false)

variable {walk : Walk} {directory names : List String} {name : String} {listing : Listing}
  {directories : List (List String)} {here found : List Listing} {depth levels : Nat}

/-! ## Levels -/

theorem admitted_concat_iff :
    walk.Admitted (directory ++ [name]) ↔
      walk.Admitted directory ∧ walk.Lists directory name ∧
        walk.IsDirectory (directory ++ [name]) ∧
        walk.matcher.ignores (slashed (directory ++ [name])) true = false := by
  constructor
  · intro admitted
    generalize isPath : directory ++ [name] = path at admitted
    cases admitted with
    | root => simp at isPath
    | listed above lists isDirectory notIgnored =>
        rcases List.append_inj' isPath rfl with ⟨rfl, isLast⟩
        cases isLast
        exact ⟨above, lists, isDirectory, notIgnored⟩
  · rintro ⟨above, lists, isDirectory, notIgnored⟩
    exact Admitted.listed above lists isDirectory notIgnored

theorem isLevel_root : walk.IsLevel 0 [[]] := by
  intro directory
  rw [List.mem_singleton, List.length_eq_zero_iff]
  constructor
  · rintro rfl
    exact ⟨Admitted.root, rfl⟩
  · rintro ⟨_, isEmpty⟩
    exact isEmpty

theorem isLevel_below (isLevel : walk.IsLevel depth directories)
    (areListings : directories.mapM walk.look = .ok here) :
    walk.IsLevel (depth + 1) (here.flatMap (·.subdirectories)) := by
  intro child
  simp only [List.mem_flatMap, mem_iff_of_mapM_eq_ok areListings]
  constructor
  · rintro ⟨listing, ⟨directory, isHere, isListing⟩, isChild⟩
    rcases (isLevel directory).mp isHere with ⟨above, isDepth⟩
    rcases (mem_subdirectories_iff_of_look isListing).mp isChild with ⟨name, lists, rfl, enters⟩
    refine ⟨admitted_concat_iff.mpr ⟨above, lists, enters⟩, ?_⟩
    rw [List.length_append, List.length_singleton, isDepth]
  · rintro ⟨admitted, isDepth⟩
    cases admitted with
    | root => simp at isDepth
    | @listed directory name above lists isDirectory notIgnored =>
        rw [List.length_append, List.length_singleton] at isDepth
        have isHere : directory ∈ directories := (isLevel directory).mpr ⟨above, by omega⟩
        rcases exists_mapM_eq_ok_iff.mp ⟨here, areListings⟩ directory isHere with
          ⟨listing, isListing⟩
        refine ⟨listing, ⟨directory, isHere, isListing⟩, ?_⟩
        exact (mem_subdirectories_iff_of_look isListing).mpr
          ⟨name, lists, rfl, isDirectory, notIgnored⟩

/-! ## Listings -/

theorem listings_nil (levels : Nat) : walk.listings levels [] = .ok [] := by
  cases levels with
  | zero => rfl
  | succ levels => rfl

theorem listings_zero (directories : List (List String)) :
    walk.listings 0 directories = directories.mapM walk.look := by
  cases directories with
  | nil => rfl
  | cons directory others => rfl

theorem listings_succ (levels : Nat) (directories : List (List String)) :
    walk.listings (levels + 1) directories = do
      let here ← directories.mapM walk.look
      let below ← walk.listings levels (here.flatMap (·.subdirectories))
      return here ++ below := by
  cases directories with
  | nil => simp [listings, listings_nil, pure, Except.pure, bind, Except.bind]
  | cons directory others => rfl

theorem listings_succ_eq_ok_iff :
    walk.listings (levels + 1) directories = .ok found ↔
      ∃ here below, directories.mapM walk.look = .ok here ∧
        walk.listings levels (here.flatMap (·.subdirectories)) = .ok below ∧
        found = here ++ below := by
  rw [listings_succ, bind_eq_ok_iff]
  constructor
  · rintro ⟨here, isHere, isFound⟩
    rcases bind_eq_ok_iff.mp isFound with ⟨below, isBelow, isFound⟩
    exact ⟨here, below, isHere, isBelow, (Except.ok.inj isFound).symm⟩
  · rintro ⟨here, below, isHere, isBelow, rfl⟩
    refine ⟨here, isHere, ?_⟩
    rw [bind_eq_ok_iff]
    exact ⟨below, isBelow, rfl⟩

/-- Without further rounds the files are those of the root. -/
theorem files_of_look_root {here : Listing} (atRoot : walk.look [] = .ok here) :
    walk.files 0 = .ok here.files := by
  have areListings : walk.listings 0 [[]] = .ok [here] := by
    rw [listings_zero]
    exact Sequence.mapM_eq_ok_iff.mpr (.cons atRoot .nil)
  refine bind_eq_ok_iff.mpr ⟨[here], areListings, ?_⟩
  exact congrArg Except.ok (List.flatMap_singleton _ _)

/-- With one more round the files of the subdirectories come after those of the root. -/
theorem files_of_look {here : Listing} {below : List Listing} (atRoot : walk.look [] = .ok here)
    (areBelow : here.subdirectories.mapM walk.look = .ok below) :
    walk.files 1 = .ok (here.files ++ below.flatMap (·.files)) := by
  refine bind_eq_ok_iff.mpr ⟨here :: below, ?_, rfl⟩
  apply listings_succ_eq_ok_iff.mpr
  refine ⟨[here], below, Sequence.mapM_eq_ok_iff.mpr (.cons atRoot .nil), ?_, rfl⟩
  rw [List.flatMap_singleton, listings_zero, areBelow]

theorem mem_listings_iff (isLevel : walk.IsLevel depth directories)
    (areFound : walk.listings levels directories = .ok found) :
    listing ∈ found ↔
      ∃ directory, walk.Admitted directory ∧ depth ≤ directory.length ∧
        directory.length ≤ depth + levels ∧ walk.look directory = .ok listing := by
  induction levels generalizing depth directories found with
  | zero =>
      rw [listings_zero] at areFound
      rw [mem_iff_of_mapM_eq_ok areFound]
      constructor
      · rintro ⟨directory, isHere, isListing⟩
        rcases (isLevel directory).mp isHere with ⟨admitted, isDepth⟩
        exact ⟨directory, admitted, by omega, by omega, isListing⟩
      · rintro ⟨directory, admitted, atLeast, atMost, isListing⟩
        exact ⟨directory, (isLevel directory).mpr ⟨admitted, by omega⟩, isListing⟩
  | succ levels inductionHypothesis =>
      rcases listings_succ_eq_ok_iff.mp areFound with ⟨here, below, areHere, areBelow, rfl⟩
      rw [List.mem_append, mem_iff_of_mapM_eq_ok areHere,
        inductionHypothesis (isLevel_below isLevel areHere) areBelow]
      constructor
      · rintro (⟨directory, isHere, isListing⟩ | ⟨directory, admitted, atLeast, atMost, isListing⟩)
        · rcases (isLevel directory).mp isHere with ⟨admitted, isDepth⟩
          exact ⟨directory, admitted, by omega, by omega, isListing⟩
        · exact ⟨directory, admitted, by omega, by omega, isListing⟩
      · rintro ⟨directory, admitted, atLeast, atMost, isListing⟩
        rcases Nat.lt_or_eq_of_le atLeast with isBelow | isDepth
        · exact Or.inr ⟨directory, admitted, by omega, by omega, isListing⟩
        · exact Or.inl ⟨directory, (isLevel directory).mpr ⟨admitted, isDepth.symm⟩, isListing⟩

/-- The walk down from a level succeeds exactly if all questions within its limit are answered. -/
theorem exists_listings_iff (isLevel : walk.IsLevel depth directories) :
    (∃ found, walk.listings levels directories = .ok found) ↔
      ∀ directory, walk.Admitted directory → depth ≤ directory.length →
        directory.length ≤ depth + levels → walk.Answered directory := by
  induction levels generalizing depth directories with
  | zero =>
      simp only [listings_zero, exists_mapM_eq_ok_iff, exists_look_iff_answered]
      constructor
      · intro answers directory admitted atLeast atMost
        exact answers directory ((isLevel directory).mpr ⟨admitted, by omega⟩)
      · intro answers directory isHere
        rcases (isLevel directory).mp isHere with ⟨admitted, isDepth⟩
        exact answers directory admitted (by omega) (by omega)
  | succ levels inductionHypothesis =>
      constructor
      · rintro ⟨found, areFound⟩ directory admitted atLeast atMost
        rcases listings_succ_eq_ok_iff.mp areFound with ⟨here, below, areHere, areBelow, rfl⟩
        rcases Nat.lt_or_eq_of_le atLeast with isBelow | isDepth
        · have answers := (inductionHypothesis (isLevel_below isLevel areHere)).mp ⟨below, areBelow⟩
          exact answers directory admitted isBelow (by omega)
        · have isHere := (isLevel directory).mpr ⟨admitted, isDepth.symm⟩
          have looks := exists_mapM_eq_ok_iff.mp ⟨here, areHere⟩ directory isHere
          exact exists_look_iff_answered.mp looks
      · intro answers
        have looks : ∀ directory ∈ directories, ∃ listing, walk.look directory = .ok listing := by
          intro directory isHere
          rcases (isLevel directory).mp isHere with ⟨admitted, isDepth⟩
          exact exists_look_iff_answered.mpr (answers directory admitted (by omega) (by omega))
        rcases exists_mapM_eq_ok_iff.mpr looks with ⟨here, areHere⟩
        have answersBelow : ∀ directory, walk.Admitted directory → depth + 1 ≤ directory.length →
            directory.length ≤ depth + 1 + levels → walk.Answered directory := by
          intro directory admitted atLeast atMost
          exact answers directory admitted (by omega) (by omega)
        rcases (inductionHypothesis (isLevel_below isLevel areHere)).mpr answersBelow with
          ⟨below, areBelow⟩
        exact ⟨here ++ below, listings_succ_eq_ok_iff.mpr ⟨here, below, areHere, areBelow, rfl⟩⟩

theorem undisturbed_iff :
    walk.Undisturbed levels ↔ ∃ found, walk.listings levels [[]] = .ok found := by
  rw [exists_listings_iff isLevel_root, Nat.zero_add]
  constructor
  · intro undisturbed directory admitted _ atMost
    exact undisturbed directory admitted atMost
  · intro answers directory admitted atMost
    exact answers directory admitted (Nat.zero_le _) atMost

/-! ## Files -/

theorem mem_files_iff {maxDepth : Int} {files : List (List String)}
    (areFiles : walk.files maxDepth = .ok files) :
    names ∈ files ↔
      ∃ directory name, walk.Admitted directory ∧ directory.length ≤ maxDepth.toNat ∧
        walk.Lists directory name ∧ names = directory ++ [name] ∧ walk.IsFile names ∧
        walk.matcher.ignores (slashed names) false = false := by
  rcases bind_eq_ok_iff.mp areFiles with ⟨found, areFound, isFlat⟩
  cases isFlat
  rw [List.mem_flatMap]
  constructor
  · rintro ⟨listing, isFound, isFile⟩
    rcases (mem_listings_iff isLevel_root areFound).mp isFound with
      ⟨directory, admitted, _, atMost, isListing⟩
    rcases (mem_files_iff_of_look isListing).mp isFile with ⟨name, lists, isPath, kept⟩
    exact ⟨directory, name, admitted, by omega, lists, isPath, kept⟩
  · rintro ⟨directory, name, admitted, atMost, lists, isPath, kept⟩
    have answers := undisturbed_iff.mpr ⟨found, areFound⟩ directory admitted atMost
    rcases exists_look_iff_answered.mpr answers with ⟨listing, isListing⟩
    refine ⟨listing, ?_, (mem_files_iff_of_look isListing).mpr ⟨name, lists, isPath, kept⟩⟩
    exact (mem_listings_iff isLevel_root areFound).mpr
      ⟨directory, admitted, Nat.zero_le _, by omega, isListing⟩

/-- The walk finds its files exactly if all its questions are answered. -/
theorem exists_files_iff_undisturbed {maxDepth : Int} :
    (∃ files, walk.files maxDepth = .ok files) ↔ walk.Undisturbed maxDepth.toNat := by
  rw [undisturbed_iff]
  constructor
  · rintro ⟨files, areFiles⟩
    rcases bind_eq_ok_iff.mp areFiles with ⟨found, areFound, _⟩
    exact ⟨found, areFound⟩
  · rintro ⟨found, areFound⟩
    refine ⟨found.flatMap (·.files), ?_⟩
    simp only [files, areFound]
    rfl

theorem names_of_mem_files {maxDepth : Int} {files : List (List String)}
    (areFiles : walk.files maxDepth = .ok files) (isFile : names ∈ files) :
    names ≠ [] ∧ ∀ name ∈ names, Entry.isName name = true := by
  rcases (mem_files_iff areFiles).mp isFile with ⟨directory, last, admitted, _, lists, rfl, _⟩
  refine ⟨by simp, ?_⟩
  intro name isName
  rcases List.mem_append.mp isName with isAbove | isLast
  · exact admitted.isName name isAbove
  · rw [List.mem_singleton.mp isLast]
    exact lists.isName

theorem enumerate_of_files {maxDepth : Int} {files : List (List String)}
    (isRoot : walk.fs.isDirectory walk.root = .ok true)
    (areFiles : walk.files maxDepth = .ok files) :
    walk.enumerate maxDepth = .ok (files.map walk.root.append) := by
  simp only [enumerate, FileSystem.holds_of_isDirectory isRoot,
    FileSystem.isFile_eq_false_of_isDirectory isRoot, areFiles]
  rfl

/-! ## The way to a file -/

theorem leads_concat_iff :
    walk.Leads (directory ++ [name]) ↔
      walk.Leads directory ∧ walk.IsDirectory directory ∧ walk.Lists directory name ∧
        (directory ≠ [] → walk.matcher.ignores (slashed directory) true = false) := by
  constructor
  · intro leads
    refine ⟨?_, leads directory name [] rfl⟩
    rintro before next after rfl
    exact leads before next (after ++ [name]) (by simp)
  · rintro ⟨leads, isLast⟩ before next after split
    rcases List.eq_nil_or_concat' after with rfl | ⟨between, last, rfl⟩
    · rcases List.append_inj' split rfl with ⟨rfl, isNext⟩
      cases isNext
      exact isLast
    · rw [← List.cons_append, ← List.append_assoc] at split
      exact leads before next between (List.append_inj' split rfl).1

theorem admitted_iff (isRoot : walk.fs.isDirectory walk.root = .ok true) :
    walk.Admitted directory ↔
      walk.Leads directory ∧ walk.IsDirectory directory ∧
        (directory ≠ [] → walk.matcher.ignores (slashed directory) true = false) := by
  induction directory using List.reverseRecOn with
  | nil =>
      have isDirectory : walk.IsDirectory [] := by
        simpa [IsDirectory, Path.append] using isRoot
      have leads : walk.Leads [] := by
        intro before next after split
        simp at split
      simp [Admitted.root, isDirectory, leads]
  | append_singleton directory name inductionHypothesis =>
      rw [admitted_concat_iff, inductionHypothesis, leads_concat_iff]
      constructor
      · rintro ⟨⟨leads, isAbove, aboveKept⟩, lists, isDirectory, notIgnored⟩
        exact ⟨⟨leads, isAbove, lists, aboveKept⟩, isDirectory, fun _ => notIgnored⟩
      · rintro ⟨⟨leads, isAbove, lists, aboveKept⟩, isDirectory, kept⟩
        exact ⟨⟨leads, isAbove, aboveKept⟩, lists, isDirectory, kept (by simp)⟩

theorem leads_concat_iff_admitted (isRoot : walk.fs.isDirectory walk.root = .ok true) :
    walk.Leads (directory ++ [name]) ↔ walk.Admitted directory ∧ walk.Lists directory name := by
  rw [leads_concat_iff, admitted_iff isRoot]
  constructor
  · rintro ⟨leads, isDirectory, lists, kept⟩
    exact ⟨⟨leads, isDirectory, kept⟩, lists⟩
  · rintro ⟨⟨leads, isDirectory, kept⟩, lists⟩
    exact ⟨leads, isDirectory, lists, kept⟩

/-- If all questions of a walk are answered, it finds the regular files that names lead to within
its limit. In particular it finds nothing but regular files below the root. -/
theorem enumerate_exact (walk : Walk) (maxDepth : Int)
    (isRoot : walk.fs.isDirectory walk.root = .ok true)
    (undisturbed : walk.Undisturbed maxDepth.toNat) :
    ∃ files, walk.enumerate maxDepth = .ok files ∧
      (∀ path, path ∈ files ↔
        ∃ directories name, path = walk.root.append (directories ++ [name]) ∧
          (directories.length : Int) ≤ max maxDepth 0 ∧ walk.Leads (directories ++ [name]) ∧
          walk.fs.isFile path = .ok true ∧
          walk.matcher.ignores (slashed (directories ++ [name])) false = false) ∧
      ∀ path ∈ files,
        (∃ bytes locked, walk.fs.find? path = .ok (some (.file bytes locked))) ∧
        ∃ names, names ≠ [] ∧ path = walk.root.append names ∧
          ∀ name ∈ names, Entry.isName name = true := by
  rcases exists_files_iff_undisturbed.mpr undisturbed with ⟨files, areFiles⟩
  have isExact : ∀ path, path ∈ files.map walk.root.append ↔
      ∃ directories name, path = walk.root.append (directories ++ [name]) ∧
        (directories.length : Int) ≤ max maxDepth 0 ∧ walk.Leads (directories ++ [name]) ∧
        walk.fs.isFile path = .ok true ∧
        walk.matcher.ignores (slashed (directories ++ [name])) false = false := by
    intro path
    simp only [List.mem_map, mem_files_iff areFiles, leads_concat_iff_admitted isRoot]
    constructor
    · rintro ⟨names, ⟨directory, name, admitted, atMost, lists, rfl, isFile, notIgnored⟩, rfl⟩
      exact ⟨directory, name, rfl, by omega, ⟨admitted, lists⟩, isFile, notIgnored⟩
    · rintro ⟨directory, name, rfl, atMost, ⟨admitted, lists⟩, isFile, notIgnored⟩
      exact ⟨directory ++ [name],
        ⟨directory, name, admitted, by omega, lists, rfl, isFile, notIgnored⟩, rfl⟩
  refine ⟨files.map walk.root.append, enumerate_of_files isRoot areFiles, isExact, ?_⟩
  intro path isFound
  rcases (isExact path).mp isFound with ⟨_, _, _, _, _, isFile, _⟩
  rcases List.mem_map.mp isFound with ⟨names, isNames, rfl⟩
  rcases names_of_mem_files areFiles isNames with ⟨notEmpty, areNames⟩
  exact ⟨FileSystem.isFile_eq_true_iff.mp isFile, names, notEmpty, rfl, areNames⟩

/-- A walk of a directory that holds a file and a link to the directory itself. -/
def loopWalk : Walk where
  fs := ⟨[(⟨"f", by decide⟩, .node (.file [] false) []),
    (⟨"loop", by decide⟩, .node (.link ".") [])], []⟩
  matcher := ⟨[]⟩
  root := ⟨.root, []⟩

theorem list_loopWalk (isHere : directory = [] ∨ directory = ["loop"]) :
    loopWalk.fs.list (loopWalk.root.append directory) = .ok ["f", "loop"] := by
  have areNames : loopWalk.fs.root.names = ["f", "loop"] :=
    List.mergeSort_of_pairwise (l := ["f", "loop"]) (by decide)
  have isFound : loopWalk.fs.find (loopWalk.root.append directory) = .ok loopWalk.fs.root := by
    have isLocation : (loopWalk.fs.locate (loopWalk.root.append directory)).map Trail.location =
        .ok [] := by
      rcases isHere with rfl | rfl
      · decide +kernel
      · decide +kernel
    unfold FileSystem.find
    cases isTrail : loopWalk.fs.locate (loopWalk.root.append directory) with
    | error failure =>
        rw [isTrail] at isLocation
        cases isLocation
    | ok trail =>
        rw [isTrail] at isLocation
        rw [List.map_eq_nil_iff.mp (Except.ok.inj isLocation)]
        rfl
  rw [← areNames]
  simp only [FileSystem.list, isFound]
  rfl

theorem undisturbed_loopWalk : loopWalk.Undisturbed 1 := by
  intro directory admitted atMost
  cases admitted with
  | root => exact ⟨_, list_loopWalk (Or.inl rfl), by decide +kernel⟩
  | @listed directory name above lists isDirectory _ =>
      rw [List.length_append, List.length_singleton] at atMost
      have isRoot : directory = [] := List.eq_nil_of_length_eq_zero (by omega)
      subst isRoot
      rcases lists with ⟨names, isList, isName⟩
      rw [list_loopWalk (Or.inl rfl)] at isList
      cases isList
      rcases List.mem_pair.mp isName with rfl | rfl
      · have notDirectory : loopWalk.fs.isDirectory (loopWalk.root.append ["f"]) = .ok false := by
          decide +kernel
        cases notDirectory.symm.trans isDirectory
      · exact ⟨_, list_loopWalk (Or.inr rfl), by decide +kernel⟩

theorem enumerate_exact_loopWalk :
    loopWalk.fs.isDirectory loopWalk.root = .ok true ∧ loopWalk.Undisturbed 1 ∧
    ∃ files, loopWalk.enumerate 1 = .ok files ∧ loopWalk.root.append ["loop", "f"] ∈ files := by
  have isRoot : loopWalk.fs.isDirectory loopWalk.root = .ok true := rfl
  have admitted : loopWalk.Admitted ["loop"] := by
    refine Admitted.listed Admitted.root ⟨_, list_loopWalk (Or.inl rfl), by decide⟩ ?_ rfl
    unfold IsDirectory
    decide +kernel
  have leads : loopWalk.Leads (["loop"] ++ ["f"]) := by
    rw [leads_concat_iff_admitted isRoot]
    exact ⟨admitted, _, list_loopWalk (Or.inr rfl), by decide⟩
  rcases enumerate_exact loopWalk 1 isRoot undisturbed_loopWalk with ⟨files, areFiles, isExact, _⟩
  refine ⟨isRoot, undisturbed_loopWalk, files, areFiles, ?_⟩
  exact (isExact _).mpr ⟨["loop"], "f", rfl, by decide, leads, by decide +kernel, rfl⟩

/-! ## Enumerated files -/

/-- Some walk of some file system finds the file. -/
def Enumerated (file : Path) : Prop :=
  ∃ (walk : Walk) (maxDepth : Int) (files : List Path),
    walk.enumerate maxDepth = .ok files ∧ file ∈ files

theorem ask_eq_ok_iff {α : Type} {path : Path} {answer : Except AccessFailure α} {value : α} :
    FileSystem.ask path answer = .ok value ↔ answer = .ok value := by
  unfold FileSystem.ask
  cases answer <;> simp [Except.mapError]

/-- The walk of a root that is no file always returns files, if only none. -/
theorem exists_enumerate (walk : Walk) (maxDepth : Int)
    (notFile : walk.fs.isFile walk.root = .ok false) :
    ∃ found, walk.enumerate maxDepth = .ok found := by
  rcases FileSystem.exists_holds_of_isFile notFile with ⟨isThere, holds, _⟩
  unfold enumerate
  simp only [holds, notFile, FileSystem.ask, Except.mapError, bind, Except.bind]
  cases isThere with
  | false => exact ⟨[], rfl⟩
  | true =>
      cases walk.files maxDepth with
      | ok found => exact ⟨found.map walk.root.append, rfl⟩
      | error failure => exact ⟨[], rfl⟩

/-- What a walk finds is its root, if that is a file, or lies below it, and the root is there. -/
theorem holds_root_of_mem_enumerate {walk : Walk} {maxDepth : Int} {found : List Path} {file : Path}
    (isFound : walk.enumerate maxDepth = .ok found) (isFile : file ∈ found) :
    walk.fs.holds walk.root = .ok true ∧
      (file = walk.root ∧ walk.fs.isFile walk.root = .ok true ∨
        ∃ files names, walk.files maxDepth = .ok files ∧ names ∈ files ∧
          file = walk.root.append names) := by
  rcases bind_eq_ok_iff.mp isFound with ⟨isThere, isAnswer, isFound⟩
  rw [ask_eq_ok_iff] at isAnswer
  cases isThere with
  | false =>
      cases isFound
      cases isFile
  | true =>
      refine ⟨isAnswer, ?_⟩
      rcases bind_eq_ok_iff.mp isFound with ⟨isRootFile, isAnswer, isFound⟩
      rw [ask_eq_ok_iff] at isAnswer
      cases isRootFile with
      | true =>
          cases isFound
          exact Or.inl ⟨List.mem_singleton.mp isFile, isAnswer⟩
      | false =>
          cases areFiles : walk.files maxDepth with
          | error failure =>
              simp only [areFiles] at isFound
              cases isFound
              cases isFile
          | ok files =>
              simp only [areFiles] at isFound
              cases isFound
              rcases List.mem_map.mp isFile with ⟨names, isNames, isPath⟩
              exact Or.inr ⟨files, names, rfl, isNames, isPath.symm⟩

theorem isFile_of_mem_enumerate {walk : Walk} {maxDepth : Int} {found : List Path} {file : Path}
    (isFound : walk.enumerate maxDepth = .ok found) (isFile : file ∈ found) :
    walk.fs.isFile file = .ok true := by
  rcases (holds_root_of_mem_enumerate isFound isFile).2 with
    ⟨rfl, isRootFile⟩ | ⟨files, names, areFiles, isNames, rfl⟩
  · exact isRootFile
  · rcases (mem_files_iff areFiles).mp isNames with ⟨_, _, _, _, _, _, isBelowFile, _⟩
    exact isBelowFile

theorem nulFree_of_enumerated {file : Path} (enumerated : Enumerated file) : file.NulFree := by
  rcases enumerated with ⟨walk, maxDepth, found, isFound, isFile⟩
  rcases holds_root_of_mem_enumerate isFound isFile with ⟨holds, isPath⟩
  rcases FileSystem.exists_find_of_holds holds with ⟨tree, isTree⟩
  have rootFree := FileSystem.nulFree_of_find isTree
  rcases isPath with ⟨rfl, _⟩ | ⟨files, names, areFiles, isNames, rfl⟩
  · exact rootFree
  · intro name isName
    rcases List.mem_append.mp isName with isAbove | isBelow
    · exact rootFree name isAbove
    · exact Entry.nulByte_notMem_of_isName ((names_of_mem_files areFiles isNames).2 name isBelow)

end DeclIndex.Walk
