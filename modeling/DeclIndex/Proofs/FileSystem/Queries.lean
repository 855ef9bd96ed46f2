import DeclIndex.FileSystem.Lookup
import DeclIndex.Proofs.Labels
import DeclIndex.Proofs.Sequence

/-!
# Answers about paths

All queries follow a path first, so an answer says what was found there. The names in a directory
are names of entries.

A path is followed in vain for few reasons (`AccessFailure.IsLost`). A null byte is none of them
unless a name of the path holds one: links are followed by name, and what has no name in the tree is
just missing. Whether anything is there can be told in any case, unless the path or one of its names
is too long or the way leads through a closed directory (`FileSystem.find?_eq_error_iff`).
-/

namespace DeclIndex

open Sequence (bind_eq_ok_iff bind_eq_error_iff)

/-! ## What is found -/

namespace FileSystem

variable {fs : FileSystem} {path : Path}

theorem isFile_eq_true_iff :
    fs.isFile path = .ok true ↔
      ∃ bytes locked, fs.find? path = .ok (some (.file bytes locked)) := by
  unfold isFile
  rcases fs.find? path with failure | _ | entry
  · simp [Except.map]
  · simp [Except.map]
  · cases entry <;> simp [Except.map, Entry.isFile]

theorem isDirectory_eq_true_iff :
    fs.isDirectory path = .ok true ↔
      ∃ locked closed, fs.find? path = .ok (some (.directory locked closed)) := by
  unfold isDirectory
  rcases fs.find? path with failure | _ | entry
  · simp [Except.map]
  · simp [Except.map]
  · cases entry <;> simp [Except.map, Entry.isDirectory]

theorem isFile_eq_false_of_isDirectory (isDirectory : fs.isDirectory path = .ok true) :
    fs.isFile path = .ok false := by
  rcases isDirectory_eq_true_iff.mp isDirectory with ⟨locked, closed, isFound⟩
  simp [isFile, isFound, Except.map, Entry.isFile]

theorem isDirectory_eq_false_of_isFile (isFile : fs.isFile path = .ok true) :
    fs.isDirectory path = .ok false := by
  rcases isFile_eq_true_iff.mp isFile with ⟨bytes, locked, isFound⟩
  simp [isDirectory, isFound, Except.map, Entry.isDirectory]

theorem holds_of_isDirectory (isDirectory : fs.isDirectory path = .ok true) :
    fs.holds path = .ok true := by
  rcases isDirectory_eq_true_iff.mp isDirectory with ⟨locked, closed, isFound⟩
  simp [holds, isFound, Except.map]

theorem exists_holds_of_isFile {answer : Bool} (isFile : fs.isFile path = .ok answer) :
    ∃ isThere, fs.holds path = .ok isThere ∧ (answer = true → isThere = true) := by
  rcases Sequence.map_eq_ok_iff.mp isFile with ⟨found, isFound, rfl⟩
  refine ⟨found.isSome, Sequence.map_eq_ok_iff.mpr ⟨found, isFound, rfl⟩, ?_⟩
  intro isFile
  cases found with
  | none => cases isFile
  | some entry => rfl

/-- A query says that something is there only if following the path succeeds. -/
theorem exists_find_of_holds (holds : fs.holds path = .ok true) :
    ∃ tree, fs.find path = .ok tree := by
  cases isFound : fs.find path with
  | ok tree => exact ⟨tree, rfl⟩
  | error failure =>
      simp only [FileSystem.holds, find?, isFound] at holds
      split at holds
      · simp [Except.map] at holds
      · cases holds

end FileSystem

/-! ## Names in a directory -/

theorem Tree.nodup_names (tree : Tree) : tree.names.Nodup := by
  apply (List.mergeSort_perm _ _).nodup_iff.mpr
  exact Sequence.nodup_eraseDups _

theorem Tree.pairwise_names (tree : Tree) : tree.names.Pairwise (· ≤ ·) :=
  Sequence.ordered_mergeSort id _

theorem Tree.mem_names_iff {tree : Tree} {name : String} :
    name ∈ tree.names ↔ (tree.child? name).isSome = true := by
  unfold Tree.names Tree.child?
  rw [List.mem_mergeSort, List.mem_eraseDups, Option.isSome_map, List.find?_isSome, List.mem_map]
  simp only [beq_iff_eq]

/-- The names below a tree are known from what they stand for. -/
theorem Tree.names_congr {tree other : Tree}
    (same : ∀ name, (tree.child? name).isSome = (other.child? name).isSome) :
    tree.names = other.names := by
  apply List.Perm.eq_of_pairwise (fun _ _ _ _ => String.le_antisymm) tree.pairwise_names
    other.pairwise_names
  apply (List.perm_ext_iff_of_nodup tree.nodup_names other.nodup_names).mpr
  intro name
  rw [mem_names_iff, mem_names_iff, same]

theorem Tree.isName_of_mem_names {tree : Tree} {name : String} (isName : name ∈ tree.names) :
    Entry.isName name = true := by
  unfold Tree.names at isName
  rw [List.mem_mergeSort, List.mem_eraseDups, List.mem_map] at isName
  rcases isName with ⟨child, _, rfl⟩
  exact child.1.isName

theorem Tree.isName_of_child? {tree child : Tree} {name : String}
    (isChild : tree.child? name = some child) : Entry.isName name = true := by
  rcases Option.map_eq_some_iff.mp isChild with ⟨⟨entryName, _⟩, isFound, _⟩
  have isText := List.find?_some isFound
  rw [← beq_iff_eq.mp isText]
  exact entryName.isName

theorem Entry.nulByte_notMem_of_isName {name : String} (isName : Entry.isName name = true) :
    '\x00' ∉ name.toList := by
  intro isIn
  simp [Entry.isName, isIn] at isName

namespace FileSystem

variable {fs : FileSystem} {path : Path} {names : List String}

theorem isName_of_mem_list (isList : fs.list path = .ok names) {name : String}
    (isName : name ∈ names) : Entry.isName name = true := by
  rcases bind_eq_ok_iff.mp isList with ⟨tree, _, isNames⟩
  split at isNames
  · cases isNames
    exact Tree.isName_of_mem_names isName
  · cases isNames
  · cases isNames

theorem nodup_of_list (isList : fs.list path = .ok names) : names.Nodup := by
  rcases bind_eq_ok_iff.mp isList with ⟨tree, _, isNames⟩
  split at isNames
  · cases isNames
    exact tree.nodup_names
  · cases isNames
  · cases isNames

end FileSystem

/-! ## Failures -/

/-- No name of the path holds a null byte. -/
def Path.NulFree (path : Path) : Prop :=
  ∀ name ∈ path.names, '\x00' ∉ name.toList

/-- The failures of following names. -/
inductive AccessFailure.IsLost : AccessFailure → Prop where
  | missing : IsLost .missing
  | denied : IsLost .denied
  | notDirectory : IsLost .notDirectory
  | nameTooLong : IsLost .nameTooLong
  | tooManyLinks : IsLost .tooManyLinks

namespace FileSystem

variable {fs : FileSystem} {path : Path}

theorem advance_fails {trail : Trail} {names : List String} {failure : AccessFailure}
    (fails : fs.advance trail names = .error failure) : failure.IsLost := by
  fun_induction advance fs trail names with
  | case1 => cases fails
  | case2 _ _ _ _ _ _ inductionHypothesis => exact inductionHypothesis fails
  | case3 => cases fails; exact AccessFailure.IsLost.denied
  | case4 _ _ _ _ _ _ _ _ inductionHypothesis => exact inductionHypothesis fails
  | case5 _ _ _ _ _ _ _ _ _ inductionHypothesis => exact inductionHypothesis fails
  | case6 => cases fails; exact AccessFailure.IsLost.nameTooLong
  | case7 => cases fails; exact AccessFailure.IsLost.missing
  | case8 => cases fails
  | case9 _ _ _ _ _ _ _ _ _ _ _ _ _ inductionHypothesis => exact inductionHypothesis fails
  | case10 => cases fails; exact AccessFailure.IsLost.notDirectory

theorem follow_fails {links : Nat} {trail : Trail} {names : List String} {failure : AccessFailure}
    (fails : fs.follow links trail names = .error failure) : failure.IsLost := by
  induction links generalizing trail names with
  | zero =>
      rcases bind_eq_error_iff.mp fails with fails | ⟨progress, _, fails⟩
      · exact advance_fails fails
      · cases progress with
        | arrived reached => cases fails
        | link directory target rest =>
            cases fails
            exact AccessFailure.IsLost.tooManyLinks
  | succ links inductionHypothesis =>
      rcases bind_eq_error_iff.mp fails with fails | ⟨progress, _, fails⟩
      · exact advance_fails fails
      · cases progress with
        | arrived reached => cases fails
        | link directory target rest => exact inductionHypothesis fails

theorem locate_fails {failure : AccessFailure} (fails : fs.locate path = .error failure) :
    failure.IsLost ∨ failure = .nulByte ∧ ¬path.NulFree := by
  unfold locate at fails
  split at fails
  next hasNul =>
    cases fails
    exact Or.inr ⟨rfl, by simpa [Path.NulFree] using hasNul⟩
  next =>
    left
    split at fails
    · cases fails
      exact AccessFailure.IsLost.nameTooLong
    · unfold trailFrom at fails
      split at fails
      · exact follow_fails fails
      · cases fails
        exact AccessFailure.IsLost.missing

theorem locate_eq_nulByte_iff : fs.locate path = .error .nulByte ↔ ¬ path.NulFree := by
  constructor
  · intro isNul
    rcases locate_fails isNul with isLost | ⟨_, notFree⟩
    · cases isLost
    · exact notFree
  · intro notFree
    have hasNul : (path.names.any fun name => name.toList.contains '\x00') = true := by
      simpa [Path.NulFree] using notFree
    rw [locate, if_pos hasNul]

theorem find_eq_nulByte_iff : fs.find path = .error .nulByte ↔ ¬ path.NulFree := by
  have isLocated : fs.locate path = .error .nulByte ↔ ¬ path.NulFree := locate_eq_nulByte_iff
  rw [← isLocated]
  unfold find
  cases fs.locate path with
  | error failure => simp [Except.map]
  | ok trail => simp [Except.map]

/-- Why a question about a path is refused: a name or the whole path is too long, or a directory on
the way is closed. -/
inductive Refuses : AccessFailure → Prop where
  | nameTooLong : Refuses .nameTooLong
  | denied : Refuses .denied

theorem refuses_iff {failure : AccessFailure} (fails : fs.find path = .error failure) :
    Refuses failure ↔ failure.isAbsence = false := by
  have isLocated : fs.locate path = .error failure := by
    unfold find at fails
    cases isLocated : fs.locate path with
    | ok trail =>
        rw [isLocated] at fails
        cases fails
    | error cause =>
        rw [isLocated] at fails
        cases fails
        rfl
  constructor
  · rintro (_ | _)
    · rfl
    · rfl
  · intro notAbsence
    rcases locate_fails isLocated with isLost | ⟨rfl, _⟩
    · cases isLost with
      | nameTooLong => exact Refuses.nameTooLong
      | denied => exact Refuses.denied
      | missing | notDirectory | tooManyLinks => cases notAbsence
    · cases notAbsence

theorem find?_eq_error_iff {failure : AccessFailure} :
    fs.find? path = .error failure ↔ Refuses failure ∧ fs.find path = .error failure := by
  unfold find?
  cases isFound : fs.find path with
  | ok tree => simp
  | error cause =>
      have refuses := refuses_iff isFound
      cases isAbsence : cause.isAbsence with
      | true =>
          simp only [isAbsence, if_true, reduceCtorEq, Except.error.injEq, false_iff, not_and]
          rintro isRefused rfl
          cases (refuses.mp isRefused).symm.trans isAbsence
      | false =>
          simp only [isAbsence, Bool.false_eq_true, if_false, Except.error.injEq]
          constructor
          · rintro rfl
            exact ⟨refuses.mpr isAbsence, rfl⟩
          · rintro ⟨_, rfl⟩
            rfl

theorem nulFree_of_find {tree : Tree} (isFound : fs.find path = .ok tree) : path.NulFree := by
  by_contra notFree
  rw [find_eq_nulByte_iff.mpr notFree] at isFound
  cases isFound

theorem nulFree_of_isFile (isFile : fs.isFile path = .ok true) : path.NulFree := by
  rcases exists_holds_of_isFile isFile with ⟨isThere, isHeld, isSome⟩
  rcases exists_find_of_holds (isHeld.trans (congrArg Except.ok (isSome rfl))) with ⟨tree, isFound⟩
  exact nulFree_of_find isFound

theorem isFile_eq_error_iff {failure : AccessFailure} :
    fs.isFile path = .error failure ↔ Refuses failure ∧ fs.find path = .error failure := by
  rw [← find?_eq_error_iff, isFile]
  cases fs.find? path with
  | ok found => simp [Except.map]
  | error cause => simp [Except.map]

theorem read_ne_nulByte (nulFree : path.NulFree) : fs.read path ≠ .error .nulByte := by
  intro isNul
  rcases bind_eq_error_iff.mp isNul with isNul | ⟨tree, _, isNul⟩
  · exact find_eq_nulByte_iff.mp isNul nulFree
  · split at isNul
    · split at isNul <;> cases isNul
    all_goals cases isNul

end FileSystem

end DeclIndex
