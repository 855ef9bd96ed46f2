import DeclIndex.Walk
import DeclIndex.Proofs.FileSystem.Queries

/-!
# Admitted directories

Which directories a walk may look at is said here without the walk: the root, and every directory
that an admitted directory lists and that is not ignored. Links are followed to tell whether a name
stands for a directory, so a loop of links admits directories of any depth.

`Walk.look` is then read as what it sees of one directory. It succeeds exactly if its questions
about the directory are answered (`Walk.exists_look_iff_answered`).
-/

namespace DeclIndex.Walk

open Sequence (bind_eq_ok_iff mem_iff_of_mapM_eq_ok exists_mapM_eq_ok_iff)

/-- A directory below the root lists a name. -/
def Lists (walk : Walk) (directory : List String) (name : String) : Prop :=
  ∃ names, walk.fs.list (walk.root.append directory) = .ok names ∧ name ∈ names

/-- A path below the root leads to a directory, links followed. -/
def IsDirectory (walk : Walk) (names : List String) : Prop :=
  walk.fs.isDirectory (walk.root.append names) = .ok true

/-- A path below the root leads to a regular file, links followed. -/
def IsFile (walk : Walk) (names : List String) : Prop :=
  walk.fs.isFile (walk.root.append names) = .ok true

/-- A directory that the walk may enter: the root, or what an admitted directory lists. -/
inductive Admitted (walk : Walk) : List String → Prop where
  | root : Admitted walk []
  | listed {directory : List String} {name : String} (above : Admitted walk directory)
      (lists : walk.Lists directory name) (isDirectory : walk.IsDirectory (directory ++ [name]))
      (notIgnored : walk.matcher.ignores (slashed (directory ++ [name])) true = false) :
      Admitted walk (directory ++ [name])

/-- All questions about a directory are answered: which names it lists, whether each of them stands
for a directory, and for one that does not and is not ignored whether it stands for a file. -/
def Answered (walk : Walk) (directory : List String) : Prop :=
  ∃ names, walk.fs.list (walk.root.append directory) = .ok names ∧
    ∀ name ∈ names, ∃ isDirectory,
      walk.fs.isDirectory (walk.root.append (directory ++ [name])) = .ok isDirectory ∧
      (isDirectory = false → walk.matcher.ignores (slashed (directory ++ [name])) false = false →
        ∃ isFile, walk.fs.isFile (walk.root.append (directory ++ [name])) = .ok isFile)

/-- No question about an admitted directory fails, down to a number of levels. -/
def Undisturbed (walk : Walk) (levels : Nat) : Prop :=
  ∀ directory, walk.Admitted directory → directory.length ≤ levels → walk.Answered directory

variable {walk : Walk} {directory names : List String} {name : String} {listing : Listing}

theorem Lists.isName (lists : walk.Lists directory name) : Entry.isName name = true := by
  rcases lists with ⟨found, isList, isFound⟩
  exact FileSystem.isName_of_mem_list isList isFound

theorem Admitted.isName (admitted : walk.Admitted directory) :
    ∀ name ∈ directory, Entry.isName name = true := by
  induction admitted with
  | root => simp
  | listed above lists _ _ inductionHypothesis =>
      intro name isName
      rcases List.mem_append.mp isName with isAbove | isLast
      · exact inductionHypothesis name isAbove
      · rw [List.mem_singleton.mp isLast]
        exact lists.isName

/-! ## What the walk does with a path -/

theorem use_of_error {failure : AccessFailure}
    (fails : walk.fs.isDirectory (walk.root.append names) = .error failure) :
    walk.use names = .error failure := by
  simp only [use, fails]
  rfl

theorem use_of_isDirectory (isDirectory : walk.IsDirectory names) :
    walk.use names =
      .ok (if walk.matcher.ignores (slashed names) true then .passOver else .enter) := by
  unfold IsDirectory at isDirectory
  simp only [use, isDirectory, bind, Except.bind]
  split
  · rfl
  · rfl

theorem use_of_not_isDirectory
    (notDirectory : walk.fs.isDirectory (walk.root.append names) = .ok false) :
    walk.use names =
      if walk.matcher.ignores (slashed names) false then .ok .passOver
      else (walk.fs.isFile (walk.root.append names)).map fun isFile =>
        if isFile then .keep else .passOver := by
  simp only [use, notDirectory, bind, Except.bind]
  split
  · rfl
  · rfl

theorem use_eq_enter_iff :
    walk.use names = .ok .enter ↔
      walk.IsDirectory names ∧ walk.matcher.ignores (slashed names) true = false := by
  unfold IsDirectory
  rcases isDirectory : walk.fs.isDirectory (walk.root.append names) with failure | _ | _
  · simp [use_of_error isDirectory]
  · rw [use_of_not_isDirectory isDirectory]
    rcases walk.matcher.ignores (slashed names) false <;>
      rcases walk.fs.isFile (walk.root.append names) with _ | _ | _ <;>
      simp [Except.map]
  · rw [use_of_isDirectory isDirectory]
    rcases walk.matcher.ignores (slashed names) true <;> simp

theorem use_eq_keep_iff :
    walk.use names = .ok .keep ↔
      walk.IsFile names ∧ walk.matcher.ignores (slashed names) false = false := by
  constructor
  · rcases isDirectory : walk.fs.isDirectory (walk.root.append names) with failure | _ | _
    · simp [use_of_error isDirectory]
    · rw [use_of_not_isDirectory isDirectory]
      unfold IsFile
      rcases walk.matcher.ignores (slashed names) false <;>
        rcases walk.fs.isFile (walk.root.append names) with _ | _ | _ <;>
        simp [Except.map]
    · rw [use_of_isDirectory isDirectory]
      rcases walk.matcher.ignores (slashed names) true <;> simp
  · rintro ⟨isFile, notIgnored⟩
    rw [use_of_not_isDirectory (FileSystem.isDirectory_eq_false_of_isFile isFile)]
    unfold IsFile at isFile
    simp [notIgnored, isFile, Except.map]

theorem exists_use_iff :
    (∃ use, walk.use names = .ok use) ↔
      ∃ isDirectory, walk.fs.isDirectory (walk.root.append names) = .ok isDirectory ∧
        (isDirectory = false → walk.matcher.ignores (slashed names) false = false →
          ∃ isFile, walk.fs.isFile (walk.root.append names) = .ok isFile) := by
  rcases isDirectory : walk.fs.isDirectory (walk.root.append names) with failure | _ | _
  · simp [use_of_error isDirectory]
  · rw [use_of_not_isDirectory isDirectory]
    rcases walk.matcher.ignores (slashed names) false <;>
      rcases walk.fs.isFile (walk.root.append names) with _ | _ <;>
      simp [Except.map]
  · simp [use_of_isDirectory isDirectory]

/-! ## What the walk sees of a directory -/

/-- What the walk does with a name in a directory. -/
def childUse (walk : Walk) (directory : List String) (name : String) :
    Except AccessFailure (List String × Use) := do
  let child := directory ++ [name]
  return (child, ← walk.use child)

theorem childUse_eq_ok_iff {child : List String × Use} :
    walk.childUse directory name = .ok child ↔
      child.1 = directory ++ [name] ∧ walk.use (directory ++ [name]) = .ok child.2 := by
  unfold childUse
  rw [bind_eq_ok_iff]
  constructor
  · rintro ⟨use, isUse, isChild⟩
    cases isChild
    exact ⟨rfl, isUse⟩
  · rintro ⟨isPath, isUse⟩
    refine ⟨child.2, isUse, ?_⟩
    rw [← isPath]
    rfl

theorem exists_childUse_iff :
    (∃ child, walk.childUse directory name = .ok child) ↔
      ∃ use, walk.use (directory ++ [name]) = .ok use := by
  constructor
  · rintro ⟨child, isChild⟩
    exact ⟨child.2, (childUse_eq_ok_iff.mp isChild).2⟩
  · rintro ⟨use, isUse⟩
    exact ⟨(directory ++ [name], use), childUse_eq_ok_iff.mpr ⟨rfl, isUse⟩⟩

theorem look_eq_ok_iff :
    walk.look directory = .ok listing ↔
      ∃ found children, walk.fs.list (walk.root.append directory) = .ok found ∧
        found.mapM (walk.childUse directory) = .ok children ∧
        listing = ⟨directory, (children.filter fun child => child.2 == .keep).map (·.1),
          (children.filter fun child => child.2 == .enter).map (·.1)⟩ := by
  unfold look
  rw [bind_eq_ok_iff]
  constructor
  · rintro ⟨found, isList, isListing⟩
    rcases bind_eq_ok_iff.mp isListing with ⟨children, areChildren, isListing⟩
    exact ⟨found, children, isList, areChildren, (Except.ok.inj isListing).symm⟩
  · rintro ⟨found, children, isList, areChildren, rfl⟩
    refine ⟨found, isList, ?_⟩
    rw [bind_eq_ok_iff]
    exact ⟨children, areChildren, rfl⟩

theorem directory_of_look (isListing : walk.look directory = .ok listing) :
    listing.directory = directory := by
  rcases look_eq_ok_iff.mp isListing with ⟨_, _, _, _, rfl⟩
  rfl

theorem exists_look_iff_answered :
    (∃ listing, walk.look directory = .ok listing) ↔ walk.Answered directory := by
  constructor
  · rintro ⟨listing, isListing⟩
    rcases look_eq_ok_iff.mp isListing with ⟨found, children, isList, areChildren, _⟩
    refine ⟨found, isList, ?_⟩
    intro name isFound
    have answered := exists_mapM_eq_ok_iff.mp ⟨children, areChildren⟩ name isFound
    exact exists_use_iff.mp (exists_childUse_iff.mp answered)
  · rintro ⟨found, isList, answers⟩
    have allAnswered : ∀ name ∈ found, ∃ child, walk.childUse directory name = .ok child := by
      intro name isFound
      exact exists_childUse_iff.mpr (exists_use_iff.mpr (answers name isFound))
    rcases exists_mapM_eq_ok_iff.mpr allAnswered with ⟨children, areChildren⟩
    exact ⟨_, look_eq_ok_iff.mpr ⟨found, children, isList, areChildren, rfl⟩⟩

theorem mem_used_iff {found : List String} {children : List (List String × Use)} {kind : Use}
    (areChildren : found.mapM (walk.childUse directory) = .ok children) :
    names ∈ (children.filter fun child => child.2 == kind).map (·.1) ↔
      ∃ name ∈ found, names = directory ++ [name] ∧ walk.use names = .ok kind := by
  simp only [List.mem_map, List.mem_filter, mem_iff_of_mapM_eq_ok areChildren, childUse_eq_ok_iff,
    beq_iff_eq]
  constructor
  · rintro ⟨⟨path, use⟩, ⟨⟨name, isFound, isPath, isUse⟩, isKind⟩, rfl⟩
    simp only at isPath isUse isKind ⊢
    rw [← isKind, isPath]
    exact ⟨name, isFound, rfl, isUse⟩
  · rintro ⟨name, isFound, rfl, isUse⟩
    exact ⟨(directory ++ [name], kind), ⟨⟨name, isFound, rfl, isUse⟩, rfl⟩, rfl⟩

theorem mem_files_iff_of_look (isListing : walk.look directory = .ok listing) :
    names ∈ listing.files ↔
      ∃ name, walk.Lists directory name ∧ names = directory ++ [name] ∧ walk.IsFile names ∧
        walk.matcher.ignores (slashed names) false = false := by
  rcases look_eq_ok_iff.mp isListing with ⟨found, children, isList, areChildren, rfl⟩
  simp only [mem_used_iff areChildren, use_eq_keep_iff, Lists, isList, Except.ok.injEq,
    exists_eq_left']

theorem mem_subdirectories_iff_of_look (isListing : walk.look directory = .ok listing) :
    names ∈ listing.subdirectories ↔
      ∃ name, walk.Lists directory name ∧ names = directory ++ [name] ∧ walk.IsDirectory names ∧
        walk.matcher.ignores (slashed names) true = false := by
  rcases look_eq_ok_iff.mp isListing with ⟨found, children, isList, areChildren, rfl⟩
  simp only [mem_used_iff areChildren, use_eq_enter_iff, Lists, isList, Except.ok.injEq,
    exists_eq_left']

end DeclIndex.Walk
