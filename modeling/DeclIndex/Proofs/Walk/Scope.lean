import DeclIndex.Proofs.Walk.Exact

/-!
# What a walk depends on

A walk comes to look at the admitted directories within its limit (`Walk.Visits`). If one question
about any of them is refused, nothing at all is found. Otherwise the answers to these questions
decide what is found: two file systems that agree on them yield the same files, whatever else they
hold (`Walk.enumerate_scoped`).

The region of directories on which two file systems have to agree is closed under going down, and
each round of a walk stays within it. So the walk of the other file system needs no invariant of its
own (`Walk.listings_of_agree`). A directory that is ignored, that lies below an ignored one, or that
is too deep, is outside of the region, and may be locked for all the walk cares.
-/

namespace DeclIndex

open Sequence (bind_eq_ok_iff)

theorem FileSystem.isDirectory_of_list {fs : FileSystem} {path : Path} {names : List String}
    (isList : fs.list path = .ok names) : fs.isDirectory path = .ok true := by
  rcases bind_eq_ok_iff.mp isList with ⟨tree, isTree, areNames⟩
  apply isDirectory_eq_true_iff.mpr
  unfold find?
  cases isEntry : tree.entry with
  | directory locked closed => exact ⟨locked, closed, by simp only [isTree, isEntry]⟩
  | file bytes locked => simp [isEntry, throw, throwThe, MonadExceptOf.throw] at areNames
  | link target => simp [isEntry, throw, throwThe, MonadExceptOf.throw] at areNames
  | fifo => simp [isEntry, throw, throwThe, MonadExceptOf.throw] at areNames

namespace Walk

/-- The walk comes to look at a directory: it is admitted, and the limit allows for it. -/
def Visits (walk : Walk) (maxDepth : Int) (directory : List String) : Prop :=
  walk.Admitted directory ∧ (directory.length : Int) ≤ max maxDepth 0

/-- A question about a directory is refused: the one for its names, or one of those for what such a
name stands for. -/
inductive Refused (walk : Walk) (directory : List String) : Prop where
  | names {failure : AccessFailure}
      (fails : walk.fs.list (walk.root.append directory) = .error failure)
  | isDirectory {name : String} {failure : AccessFailure} (lists : walk.Lists directory name)
      (fails : walk.fs.isDirectory (walk.root.append (directory ++ [name])) = .error failure)
  | isFile {name : String} {failure : AccessFailure} (lists : walk.Lists directory name)
      (fails : walk.fs.isFile (walk.root.append (directory ++ [name])) = .error failure)

/-- Another file system answers all questions about a directory as that of the walk does. -/
structure AgreesAt (walk : Walk) (other : FileSystem) (directory : List String) : Prop where
  names : other.list (walk.root.append directory) = walk.fs.list (walk.root.append directory)
  isDirectory : ∀ name, walk.Lists directory name →
    other.isDirectory (walk.root.append (directory ++ [name])) =
      walk.fs.isDirectory (walk.root.append (directory ++ [name]))
  isFile : ∀ name, walk.Lists directory name →
    other.isFile (walk.root.append (directory ++ [name])) =
      walk.fs.isFile (walk.root.append (directory ++ [name]))

/-- The limit or the rules keep the walk from a directory: it is too deep, or it is ignored, or it
lies below a directory that is ignored. -/
def Excluded (walk : Walk) (maxDepth : Int) (directory : List String) : Prop :=
  max maxDepth 0 < (directory.length : Int) ∨
    ∃ above below, directory = above ++ below ∧ above ≠ [] ∧
      walk.matcher.ignores (slashed above) true = true

variable {walk : Walk} {other : FileSystem} {directory : List String} {maxDepth : Int}
  {directories : List (List String)} {found : List Listing} {depth levels : Nat}

/-! ## Refused questions -/

/-- What stands for a path is found or not, so both questions about it are refused together. -/
theorem isDirectory_eq_error_of_isFile {fs : FileSystem} {path : Path} {failure : AccessFailure}
    (fails : fs.isFile path = .error failure) : fs.isDirectory path = .error failure := by
  apply Sequence.map_eq_error_iff.mpr
  exact Sequence.map_eq_error_iff.mp fails

theorem answered_iff_not_refused : walk.Answered directory ↔ ¬walk.Refused directory := by
  constructor
  · rintro ⟨names, areNames, answers⟩ refused
    have answered : ∀ name, walk.Lists directory name → ∀ failure,
        walk.fs.isDirectory (walk.root.append (directory ++ [name])) ≠ .error failure := by
      rintro name ⟨listed, areListed, isListed⟩ failure fails
      cases areNames.symm.trans areListed
      rcases answers name isListed with ⟨isDirectory, isAnswer, _⟩
      cases isAnswer.symm.trans fails
    cases refused with
    | names fails => cases areNames.symm.trans fails
    | isDirectory lists fails => exact answered _ lists _ fails
    | isFile lists fails => exact answered _ lists _ (isDirectory_eq_error_of_isFile fails)
  · intro notRefused
    cases areNames : walk.fs.list (walk.root.append directory) with
    | error failure => exact absurd (Refused.names areNames) notRefused
    | ok names =>
        refine ⟨names, areNames, ?_⟩
        intro name isListed
        have lists : walk.Lists directory name := ⟨names, areNames, isListed⟩
        cases isDirectory : walk.fs.isDirectory (walk.root.append (directory ++ [name])) with
        | error failure => exact absurd (Refused.isDirectory lists isDirectory) notRefused
        | ok answer =>
            refine ⟨answer, rfl, ?_⟩
            intro _ _
            cases isFile : walk.fs.isFile (walk.root.append (directory ++ [name])) with
            | error failure => exact absurd (Refused.isFile lists isFile) notRefused
            | ok answer => exact ⟨answer, rfl⟩

theorem undisturbed_iff_not_refused :
    walk.Undisturbed maxDepth.toNat ↔
      ∀ directory, walk.Visits maxDepth directory → ¬walk.Refused directory := by
  constructor
  · rintro undisturbed directory ⟨admitted, isWithin⟩
    apply answered_iff_not_refused.mp
    exact undisturbed directory admitted (by omega)
  · intro notRefused directory admitted isWithin
    apply answered_iff_not_refused.mpr
    exact notRefused directory ⟨admitted, by omega⟩

theorem exists_files_iff_not_refused :
    (∃ files, walk.files maxDepth = .ok files) ↔
      ∀ directory, walk.Visits maxDepth directory → ¬walk.Refused directory :=
  exists_files_iff_undisturbed.trans undisturbed_iff_not_refused

/-- A refused question ends the walk, and what was found until then is lost. -/
theorem enumerate_of_refused (isThere : walk.fs.holds walk.root = .ok true)
    (notFile : walk.fs.isFile walk.root = .ok false)
    (refused : ∃ directory, walk.Visits maxDepth directory ∧ walk.Refused directory) :
    walk.enumerate maxDepth = .ok [] := by
  cases areFiles : walk.files maxDepth with
  | ok files =>
      rcases refused with ⟨directory, visits, isRefused⟩
      exact absurd isRefused (exists_files_iff_not_refused.mp ⟨files, areFiles⟩ directory visits)
  | error failure =>
      simp only [enumerate, isThere, notFile, areFiles]
      rfl

/-! ## Agreeing file systems -/

theorem use_of_agree (agrees : walk.AgreesAt other directory) {name : String}
    (lists : walk.Lists directory name) :
    use ⟨other, walk.matcher, walk.root⟩ (directory ++ [name]) =
      walk.use (directory ++ [name]) := by
  simp only [use, agrees.isDirectory name lists, agrees.isFile name lists]

theorem look_eq (walk : Walk) (directory : List String) :
    walk.look directory = do
      let names ← walk.fs.list (walk.root.append directory)
      let children ← names.mapM (walk.childUse directory)
      return ⟨directory, (children.filter fun child => child.2 == .keep).map (·.1),
        (children.filter fun child => child.2 == .enter).map (·.1)⟩ := rfl

theorem look_of_agree (agrees : walk.AgreesAt other directory) :
    look ⟨other, walk.matcher, walk.root⟩ directory = walk.look directory := by
  rw [look_eq, look_eq, agrees.names]
  apply Sequence.bind_congr
  intro names areNames
  have sameChildren : names.mapM (childUse ⟨other, walk.matcher, walk.root⟩ directory) =
      names.mapM (walk.childUse directory) := by
    apply Sequence.mapM_congr
    intro name isListed
    simp only [childUse, use_of_agree agrees ⟨names, areNames, isListed⟩]
  rw [sameChildren]

theorem mapM_look_of_agree (isLevel : walk.IsLevel depth directories)
    (agree : ∀ directory, walk.Admitted directory → directory.length ≤ depth →
      walk.AgreesAt other directory) :
    directories.mapM (look ⟨other, walk.matcher, walk.root⟩) = directories.mapM walk.look := by
  apply Sequence.mapM_congr
  intro directory isHere
  rcases (isLevel directory).mp isHere with ⟨admitted, isDepth⟩
  apply look_of_agree
  exact agree directory admitted (Nat.le_of_eq isDepth)

/-- All rounds of a walk stay where the file systems agree. -/
theorem listings_of_agree (isLevel : walk.IsLevel depth directories)
    (agree : ∀ directory, walk.Admitted directory → directory.length ≤ depth + levels →
      walk.AgreesAt other directory) :
    listings ⟨other, walk.matcher, walk.root⟩ levels directories =
      walk.listings levels directories := by
  induction levels generalizing depth directories with
  | zero =>
      rw [listings_zero, listings_zero]
      exact mapM_look_of_agree isLevel agree
  | succ levels inductionHypothesis =>
      have agreeHere : ∀ directory, walk.Admitted directory → directory.length ≤ depth →
          walk.AgreesAt other directory := by
        intro directory admitted atMost
        exact agree directory admitted (by omega)
      have agreeBelow : ∀ directory, walk.Admitted directory →
          directory.length ≤ depth + 1 + levels → walk.AgreesAt other directory := by
        intro directory admitted atMost
        exact agree directory admitted (by omega)
      rw [listings_succ, listings_succ, mapM_look_of_agree isLevel agreeHere]
      apply Sequence.bind_congr
      intro here areHere
      rw [inductionHypothesis (isLevel_below isLevel areHere) agreeBelow]

theorem files_of_agree
    (agree : ∀ directory, walk.Visits maxDepth directory → walk.AgreesAt other directory) :
    files ⟨other, walk.matcher, walk.root⟩ maxDepth = walk.files maxDepth := by
  have agreeWithin : ∀ directory, walk.Admitted directory →
      directory.length ≤ 0 + maxDepth.toNat → walk.AgreesAt other directory := by
    intro directory admitted atMost
    exact agree directory ⟨admitted, by omega⟩
  rw [files, files, listings_of_agree isLevel_root agreeWithin]

theorem visits_root (walk : Walk) (maxDepth : Int) : walk.Visits maxDepth [] :=
  ⟨Admitted.root, Int.le_max_right maxDepth 0⟩

/-- A walk that goes down one level visits the root and the directories in it. -/
theorem Visits.root_or_below (visits : walk.Visits 1 directory) :
    directory = [] ∨ ∃ name, directory = [name] ∧ walk.Lists [] name ∧
      walk.IsDirectory [name] ∧ walk.matcher.ignores (slashed [name]) true = false := by
  rcases visits with ⟨admitted, isWithin⟩
  cases admitted with
  | root => exact Or.inl rfl
  | @listed directory name above lists isDirectory notIgnored =>
      rw [List.length_append, List.length_singleton] at isWithin
      have isRoot : directory = [] := List.eq_nil_of_length_eq_zero (by omega)
      subst isRoot
      exact Or.inr ⟨name, rfl, lists, isDirectory, notIgnored⟩

/-! ## What the walk stays away from -/

theorem Admitted.above {names : List String} (admitted : walk.Admitted (directory ++ names)) :
    walk.Admitted directory := by
  induction names using List.reverseRecOn with
  | nil => simpa using admitted
  | append_singleton names name inductionHypothesis =>
      rw [← List.append_assoc] at admitted
      apply inductionHypothesis
      exact (admitted_concat_iff.mp admitted).1

theorem Admitted.notIgnored (admitted : walk.Admitted directory) (notRoot : directory ≠ []) :
    walk.matcher.ignores (slashed directory) true = false := by
  cases admitted with
  | root => exact absurd rfl notRoot
  | listed _ _ _ notIgnored => exact notIgnored

theorem Excluded.not_visits (excluded : walk.Excluded maxDepth directory) :
    ¬walk.Visits maxDepth directory := by
  rintro ⟨admitted, isWithin⟩
  rcases excluded with isDeep | ⟨above, below, rfl, notRoot, isIgnored⟩
  · omega
  · cases isIgnored.symm.trans (admitted.above.notIgnored notRoot)

/-- A walk with a refused question finds nothing. Any other walk finds what the answers to its
questions decide, and it asks none about a directory that the limit or the rules exclude. -/
theorem enumerate_scoped (walk : Walk) (maxDepth : Int)
    (isThere : walk.fs.holds walk.root = .ok true)
    (notFile : walk.fs.isFile walk.root = .ok false) :
    ((∃ directory, walk.Visits maxDepth directory ∧ walk.Refused directory) →
      walk.enumerate maxDepth = .ok []) ∧
    ((∀ directory, walk.Visits maxDepth directory → ¬walk.Refused directory) →
      ∃ files, walk.files maxDepth = .ok files ∧
        walk.enumerate maxDepth = .ok (files.map walk.root.append) ∧
        ∀ other, (∀ directory, walk.Visits maxDepth directory → walk.AgreesAt other directory) →
          enumerate ⟨other, walk.matcher, walk.root⟩ maxDepth = walk.enumerate maxDepth) ∧
    ∀ directory, walk.Excluded maxDepth directory → ¬walk.Visits maxDepth directory := by
  refine ⟨enumerate_of_refused isThere notFile, ?_, fun _ excluded => excluded.not_visits⟩
  intro notRefused
  rcases exists_files_iff_not_refused.mpr notRefused with ⟨files, areFiles⟩
  have answered := answered_iff_not_refused.mpr (notRefused [] (visits_root walk maxDepth))
  rcases answered with ⟨names, areNames, _⟩
  have appendNil : walk.root.append [] = walk.root := by simp [Path.append]
  rw [appendNil] at areNames
  have areFound : walk.enumerate maxDepth = .ok (files.map walk.root.append) :=
    enumerate_of_files (FileSystem.isDirectory_of_list areNames) areFiles
  refine ⟨files, areFiles, areFound, ?_⟩
  intro other agree
  have sameNames := (agree [] (visits_root walk maxDepth)).names
  rw [appendNil, areNames] at sameNames
  rw [areFound]
  apply enumerate_of_files
  · exact FileSystem.isDirectory_of_list sameNames
  · rw [files_of_agree agree, areFiles]

/-- A file, and a directory with a file in it, which may be locked. -/
def sealedFiles (locked : Bool) : FileSystem :=
  ⟨[(⟨"w", by decide⟩, .node (.file [] false) []),
    (⟨"y", by decide⟩, .node (.directory locked)
      [(⟨"j", by decide⟩, .node (.file [] false) [])])], []⟩

def sealedWalk (patterns : List String) (locked : Bool) : Walk :=
  ⟨sealedFiles locked, (Ignore.Matcher.ofLines patterns).toOption.getD ⟨[]⟩, ⟨.root, []⟩⟩

theorem list_sealedWalk (patterns : List String) (locked : Bool) :
    (sealedWalk patterns locked).fs.list ((sealedWalk patterns locked).root.append []) =
      .ok ["w", "y"] := by
  have atRoot : (sealedFiles locked).root.names = ["w", "y"] :=
    List.mergeSort_of_pairwise (l := ["w", "y"]) (by decide)
  rw [← atRoot]
  rfl

/-- The walk that ignores the directory looks at the root alone. -/
theorem eq_nil_of_visits_sealedWalk {locked : Bool}
    (visits : (sealedWalk ["y"] locked).Visits 1 directory) : directory = [] := by
  rcases visits.root_or_below with isRoot | ⟨name, rfl, lists, isDirectory, notIgnored⟩
  · exact isRoot
  · rcases lists with ⟨names, areNames, isListed⟩
    cases (list_sealedWalk ["y"] locked).symm.trans areNames
    rcases List.mem_pair.mp isListed with rfl | rfl
    · have notDirectory : (sealedWalk ["y"] locked).fs.isDirectory ⟨.root, ["w"]⟩ = .ok false := by
        cases locked <;> decide +kernel
      cases notDirectory.symm.trans isDirectory
    · have isIgnored : (sealedWalk ["y"] locked).matcher.ignores (slashed ["y"]) true = true := by
        cases locked <;> decide +kernel
      cases isIgnored.symm.trans notIgnored

theorem files_sealedWalk (locked : Bool) : (sealedWalk ["y"] locked).files 1 = .ok [["w"]] := by
  have atRoot : (sealedWalk ["y"] locked).look [] = .ok ⟨[], [["w"]], []⟩ :=
    look_eq_ok_iff.mpr ⟨["w", "y"], [(["w"], .keep), (["y"], .passOver)],
      list_sealedWalk ["y"] locked, by cases locked <;> decide +kernel, rfl⟩
  exact files_of_look atRoot rfl

theorem agreesAt_sealedWalk (locked other : Bool) :
    (sealedWalk ["y"] locked).AgreesAt (sealedFiles other) [] := by
  have sameNames : (sealedFiles other).list ((sealedWalk ["y"] locked).root.append []) =
      (sealedWalk ["y"] locked).fs.list ((sealedWalk ["y"] locked).root.append []) :=
    (list_sealedWalk ["y"] other).trans (list_sealedWalk ["y"] locked).symm
  constructor
  · exact sameNames
  · rintro name ⟨names, areNames, isListed⟩
    cases (list_sealedWalk ["y"] locked).symm.trans areNames
    rcases List.mem_pair.mp isListed with rfl | rfl <;> cases locked <;> cases other <;> rfl
  · rintro name ⟨names, areNames, isListed⟩
    cases (list_sealedWalk ["y"] locked).symm.trans areNames
    rcases List.mem_pair.mp isListed with rfl | rfl <;> cases locked <;> cases other <;> rfl

/-- The locked directory is an obstacle only to the walk that does not ignore it. -/
theorem enumerate_scoped_sealedWalk :
    (sealedWalk [] true).enumerate 1 = .ok [] ∧
    (sealedWalk ["y"] true).enumerate 1 = .ok [⟨.root, ["w"]⟩] ∧
    (sealedWalk ["y"] false).enumerate 1 = .ok [⟨.root, ["w"]⟩] ∧
    ¬(sealedWalk ["y"] true).Visits 1 ["y"] := by
  have isThere (patterns : List String) (locked : Bool) :
      (sealedWalk patterns locked).fs.holds (sealedWalk patterns locked).root = .ok true := rfl
  have notFile (patterns : List String) (locked : Bool) :
      (sealedWalk patterns locked).fs.isFile (sealedWalk patterns locked).root = .ok false := rfl
  refine ⟨?_, ?_⟩
  · apply (enumerate_scoped (sealedWalk [] true) 1 (isThere [] true) (notFile [] true)).1
    have listed : (sealedWalk [] true).Admitted ["y"] :=
      Admitted.listed Admitted.root ⟨_, list_sealedWalk [] true, by decide⟩ rfl rfl
    have isLocked : (sealedWalk [] true).fs.list ⟨.root, ["y"]⟩ = .error .denied := rfl
    exact ⟨["y"], ⟨listed, by decide⟩, Refused.names isLocked⟩
  · rcases enumerate_scoped (sealedWalk ["y"] true) 1 (isThere ["y"] true) (notFile ["y"] true)
      with ⟨_, isScoped, isExcluded⟩
    have notRefused : ∀ directory, (sealedWalk ["y"] true).Visits 1 directory →
        ¬(sealedWalk ["y"] true).Refused directory :=
      exists_files_iff_not_refused.mp ⟨_, files_sealedWalk true⟩
    rcases isScoped notRefused with ⟨files, areFiles, areFound, isSame⟩
    cases (files_sealedWalk true).symm.trans areFiles
    have agree : ∀ directory, (sealedWalk ["y"] true).Visits 1 directory →
        (sealedWalk ["y"] true).AgreesAt (sealedFiles false) directory := by
      intro directory visits
      rw [eq_nil_of_visits_sealedWalk visits]
      exact agreesAt_sealedWalk true false
    refine ⟨areFound, (isSame _ agree).trans areFound, isExcluded ["y"] ?_⟩
    exact Or.inr ⟨["y"], [], rfl, by decide, by decide +kernel⟩

end Walk

end DeclIndex
