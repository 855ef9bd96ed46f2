import DeclIndex.Proofs.Walk.Exact
import Mathlib.Data.List.Nodup
import Mathlib.Data.List.Shortlex

/-!
# The order in which a walk finds its files

A walk finds files with fewer names first, and files with equally many in the order of their names,
the outermost name first (`Walk.Precedes`). Three things carry this. The names in a directory are
listed in order, so the paths of one listing are. Paths of two listings of one round are ordered as
the directories that they lie in. And what a later round finds has more names.

The order is strict, so no path is found twice. That two paths may lead to the same file through
different links does not matter here.
-/

namespace DeclIndex

open Sequence (bind_eq_ok_iff)

/-- The names in a directory are listed in the order of their code points. -/
theorem FileSystem.pairwise_of_list {fs : FileSystem} {path : Path} {names : List String}
    (isList : fs.list path = .ok names) : names.Pairwise (· < ·) := by
  have distinct := nodup_of_list isList
  rcases bind_eq_ok_iff.mp isList with ⟨tree, _, areNames⟩
  split at areNames
  · cases areNames
    exact Sequence.pairwise_lt_of_nodup tree.pairwise_names distinct
  · cases areNames
  · cases areNames

namespace Walk

/-- Fewer names come before more, and equally many are compared from the outermost name on. Two
names are compared by the code points of their characters. -/
def Precedes : List String → List String → Prop :=
  List.Shortlex (· < ·)

variable {walk : Walk} {directory names others more : List String} {listing other : Listing}
  {directories : List (List String)} {found : List Listing} {depth levels : Nat}

/-! ## The order of paths -/

theorem Precedes.ne (precedes : Precedes names others) : names ≠ others := by
  rintro rfl
  exact irrefl_of (List.Shortlex (· < ·)) names precedes

theorem nodup_of_pairwise {files : List (List String)} (isSorted : files.Pairwise Precedes) :
    files.Nodup := by
  apply isSorted.imp
  intro names others precedes
  exact precedes.ne

theorem Precedes.of_length_lt (isShorter : names.length < others.length) : Precedes names others :=
  List.Shortlex.of_length_lt isShorter

theorem precedes_concat_iff {name last : String} :
    Precedes (directory ++ [name]) (directory ++ [last]) ↔ name < last := by
  have sameLength : (directory ++ [name]).length = (directory ++ [last]).length := by simp
  unfold Precedes
  rw [List.shortlex_iff_lex sameLength]
  induction directory with
  | nil => exact List.lex_singleton_iff name last
  | cons first directory inductionHypothesis =>
      rw [List.cons_append, List.cons_append, List.lex_cons_iff]
      apply inductionHypothesis
      simp

/-- What lies in directories is ordered as these are. -/
theorem Precedes.concat (precedes : Precedes names others) (name last : String) :
    Precedes (names ++ [name]) (others ++ [last]) := by
  rcases List.shortlex_def.mp precedes with isShorter | ⟨sameLength, isLess⟩
  · apply Precedes.of_length_lt
    simpa using isShorter
  · apply List.Shortlex.of_lex
    · simpa using sameLength
    · clear precedes
      induction isLess with
      | nil => cases sameLength
      | rel isLess => exact List.Lex.rel isLess
      | cons _ inductionHypothesis =>
          apply List.Lex.cons
          exact inductionHypothesis (Nat.succ.inj sameLength)

/-! ## One listing -/

/-- The paths that a listing may hold are those of the names in its directory, each once. -/
theorem map_fst_of_mapM_childUse {children : List (List String × Use)}
    (areChildren : names.mapM (walk.childUse directory) = .ok children) :
    children.map (·.1) = names.map fun name => directory ++ [name] := by
  have related := Sequence.mapM_eq_ok_iff.mp areChildren
  clear areChildren
  induction related with
  | nil => rfl
  | cons isChild _ inductionHypothesis =>
      rw [List.map_cons, List.map_cons, inductionHypothesis, (childUse_eq_ok_iff.mp isChild).1]

theorem pairwise_used {children : List (List String × Use)} {kind : Use}
    (isSorted : names.Pairwise (· < ·))
    (areChildren : names.mapM (walk.childUse directory) = .ok children) :
    ((children.filter fun child => child.2 == kind).map (·.1)).Pairwise Precedes := by
  have isSublist := (List.filter_sublist (l := children)
    (p := fun child => child.2 == kind)).map (·.1)
  apply List.Pairwise.sublist isSublist
  rw [map_fst_of_mapM_childUse areChildren, List.pairwise_map]
  apply isSorted.imp
  intro name last isLess
  exact precedes_concat_iff.mpr isLess

theorem pairwise_files_of_look (isListing : walk.look directory = .ok listing) :
    listing.files.Pairwise Precedes := by
  rcases look_eq_ok_iff.mp isListing with ⟨_, _, isList, areChildren, rfl⟩
  exact pairwise_used (FileSystem.pairwise_of_list isList) areChildren

theorem pairwise_subdirectories_of_look (isListing : walk.look directory = .ok listing) :
    listing.subdirectories.Pairwise Precedes := by
  rcases look_eq_ok_iff.mp isListing with ⟨_, _, isList, areChildren, rfl⟩
  exact pairwise_used (FileSystem.pairwise_of_list isList) areChildren

theorem exists_concat_of_mem_files (isListing : walk.look directory = .ok listing)
    (isFile : names ∈ listing.files) : ∃ name, names = directory ++ [name] := by
  rcases (mem_files_iff_of_look isListing).mp isFile with ⟨name, _, isPath, _⟩
  exact ⟨name, isPath⟩

theorem exists_concat_of_mem_subdirectories (isListing : walk.look directory = .ok listing)
    (isSubdirectory : names ∈ listing.subdirectories) : ∃ name, names = directory ++ [name] := by
  rcases (mem_subdirectories_iff_of_look isListing).mp isSubdirectory with ⟨name, _, isPath, _⟩
  exact ⟨name, isPath⟩

/-! ## All listings -/

theorem map_directory_of_mapM_look (areListings : directories.mapM walk.look = .ok found) :
    found.map (·.directory) = directories := by
  have related := Sequence.mapM_eq_ok_iff.mp areListings
  clear areListings
  induction related with
  | nil => rfl
  | cons isListing _ inductionHypothesis =>
      rw [List.map_cons, inductionHypothesis, directory_of_look isListing]

/-- Paths that lie each in the directory of their listing are in order if the directories are. -/
theorem pairwise_flatMap_of_look {paths : Listing → List (List String)}
    (areLooks : ∀ listing ∈ found, ∃ directory, walk.look directory = .ok listing)
    (isSorted : (found.map (·.directory)).Pairwise Precedes)
    (isSortedEach : ∀ directory listing, walk.look directory = .ok listing →
      (paths listing).Pairwise Precedes)
    (liesIn : ∀ directory listing, walk.look directory = .ok listing →
      ∀ path ∈ paths listing, ∃ name, path = directory ++ [name]) :
    (found.flatMap paths).Pairwise Precedes := by
  apply List.pairwise_flatMap.mpr
  constructor
  · intro listing isFound
    rcases areLooks listing isFound with ⟨directory, isListing⟩
    exact isSortedEach directory listing isListing
  · apply List.Pairwise.imp_of_mem _ (List.pairwise_map.mp isSorted)
    intro listing other isFound isFoundToo precedes path isPath path' isPath'
    rcases areLooks listing isFound with ⟨directory, isListing⟩
    rcases areLooks other isFoundToo with ⟨directory', isListing'⟩
    rw [directory_of_look isListing, directory_of_look isListing'] at precedes
    rcases liesIn directory listing isListing path isPath with ⟨name, rfl⟩
    rcases liesIn directory' other isListing' path' isPath' with ⟨last, rfl⟩
    exact precedes.concat name last

theorem pairwise_subdirectories (isSorted : directories.Pairwise Precedes)
    (areListings : directories.mapM walk.look = .ok found) :
    (found.flatMap (·.subdirectories)).Pairwise Precedes := by
  apply pairwise_flatMap_of_look
  · intro listing isFound
    rcases (Sequence.mem_iff_of_mapM_eq_ok areListings).mp isFound with ⟨directory, _, isListing⟩
    exact ⟨directory, isListing⟩
  · rw [map_directory_of_mapM_look areListings]
    exact isSorted
  · intro directory listing isListing
    exact pairwise_subdirectories_of_look isListing
  · intro directory listing isListing path isPath
    exact exists_concat_of_mem_subdirectories isListing isPath

/-- Directories are looked at in order: those of one round are, and all later ones lie deeper. -/
theorem pairwise_directories (isLevel : walk.IsLevel depth directories)
    (isSorted : directories.Pairwise Precedes)
    (areFound : walk.listings levels directories = .ok found) :
    (found.map (·.directory)).Pairwise Precedes := by
  induction levels generalizing depth directories found with
  | zero =>
      rw [listings_zero] at areFound
      rw [map_directory_of_mapM_look areFound]
      exact isSorted
  | succ levels inductionHypothesis =>
      rcases listings_succ_eq_ok_iff.mp areFound with ⟨here, below, areHere, areBelow, rfl⟩
      have isLevelBelow := isLevel_below isLevel areHere
      have isSortedBelow := pairwise_subdirectories isSorted areHere
      rw [List.map_append, map_directory_of_mapM_look areHere, List.pairwise_append]
      refine ⟨isSorted, inductionHypothesis isLevelBelow isSortedBelow areBelow, ?_⟩
      intro directory isHere later isLater
      rcases List.mem_map.mp isLater with ⟨listing, isListed, rfl⟩
      rcases (mem_listings_iff isLevelBelow areBelow).mp isListed with
        ⟨looked, _, atLeast, _, isListing⟩
      rw [directory_of_look isListing]
      apply Precedes.of_length_lt
      rw [((isLevel directory).mp isHere).2]
      exact atLeast

theorem pairwise_files {maxDepth : Int} {files : List (List String)}
    (areFiles : walk.files maxDepth = .ok files) : files.Pairwise Precedes := by
  rcases bind_eq_ok_iff.mp areFiles with ⟨found, areFound, isFlat⟩
  cases isFlat
  apply pairwise_flatMap_of_look
  · intro listing isFound
    rcases (mem_listings_iff isLevel_root areFound).mp isFound with ⟨directory, _, _, _, isListing⟩
    exact ⟨directory, isListing⟩
  · exact pairwise_directories isLevel_root (List.pairwise_singleton _ _) areFound
  · intro directory listing isListing
    exact pairwise_files_of_look isListing
  · intro directory listing isListing path isPath
    exact exists_concat_of_mem_files isListing isPath

theorem append_injective (root : Path) : Function.Injective root.append := by
  intro names others same
  exact List.append_cancel_left (congrArg Path.names same)

/-- Below a root that is no file, a walk finds paths made of names of entries, in order. -/
theorem exists_files_of_enumerate {maxDepth : Int} {enumerated : List Path}
    (areFound : walk.enumerate maxDepth = .ok enumerated)
    (notFile : walk.fs.isFile walk.root = .ok false) :
    ∃ files : List (List String), enumerated = files.map walk.root.append ∧
      files.Pairwise Precedes ∧
      ∀ names ∈ files, names ≠ [] ∧ ∀ name ∈ names, Entry.isName name = true := by
  rcases bind_eq_ok_iff.mp areFound with ⟨isThere, _, areFound⟩
  cases isThere with
  | false =>
      cases areFound
      exact ⟨[], rfl, List.Pairwise.nil, by simp⟩
  | true =>
      simp only [notFile, FileSystem.ask, Except.mapError, bind, Except.bind] at areFound
      cases areFiles : walk.files maxDepth with
      | error failure =>
          simp only [areFiles] at areFound
          cases areFound
          exact ⟨[], rfl, List.Pairwise.nil, by simp⟩
      | ok files =>
          simp only [areFiles] at areFound
          cases areFound
          exact ⟨files, rfl, pairwise_files areFiles, fun names => names_of_mem_files areFiles⟩

/-- The walk of a directory finds its paths in order, and hence no path twice. -/
theorem enumerate_ordered (walk : Walk) (maxDepth : Int)
    (isRoot : walk.fs.isDirectory walk.root = .ok true) :
    ∃ files : List (List String), walk.enumerate maxDepth = .ok (files.map walk.root.append) ∧
      files.Pairwise Precedes ∧ (files.map walk.root.append).Nodup := by
  have notFile := FileSystem.isFile_eq_false_of_isDirectory isRoot
  rcases exists_enumerate walk maxDepth notFile with ⟨found, areFound⟩
  rcases exists_files_of_enumerate areFound notFile with ⟨files, rfl, isSorted, _⟩
  refine ⟨files, areFound, isSorted, ?_⟩
  apply (nodup_of_pairwise isSorted).map
  exact append_injective walk.root

/-- A directory with a file in it, and a file. -/
def shelfWalk : Walk where
  fs := ⟨[(⟨"m", by decide⟩, .node (.directory false)
      [(⟨"o", by decide⟩, .node (.file [] false) [])]),
    (⟨"n", by decide⟩, .node (.file [] false) [])], []⟩
  matcher := ⟨[]⟩
  root := ⟨.root, []⟩

theorem list_shelfWalk :
    shelfWalk.fs.list (shelfWalk.root.append []) = .ok ["m", "n"] ∧
      shelfWalk.fs.list (shelfWalk.root.append ["m"]) = .ok ["o"] := by
  have atRoot : shelfWalk.fs.root.names = ["m", "n"] :=
    List.mergeSort_of_pairwise (l := ["m", "n"]) (by decide)
  constructor
  · rw [← atRoot]
    rfl
  · decide +kernel

theorem files_shelfWalk : shelfWalk.files 1 = .ok [["n"], ["m", "o"]] := by
  have atRoot : shelfWalk.look [] = .ok ⟨[], [["n"]], [["m"]]⟩ :=
    look_eq_ok_iff.mpr ⟨["m", "n"], [(["m"], .enter), (["n"], .keep)], list_shelfWalk.1,
      by decide +kernel, rfl⟩
  have below : shelfWalk.look ["m"] = .ok ⟨["m"], [["m", "o"]], []⟩ :=
    look_eq_ok_iff.mpr ⟨["o"], [(["m", "o"], .keep)], list_shelfWalk.2, by decide +kernel, rfl⟩
  exact files_of_look atRoot (Sequence.mapM_eq_ok_iff.mpr (.cons below .nil))

/-- The directory comes first by its name, and yet what is in it comes last. -/
theorem enumerate_ordered_shelfWalk :
    shelfWalk.fs.isDirectory shelfWalk.root = .ok true ∧
    shelfWalk.enumerate 1 = .ok ([["n"], ["m", "o"]].map shelfWalk.root.append) ∧
    [["n"], ["m", "o"]].Pairwise Precedes := by
  have isRoot : shelfWalk.fs.isDirectory shelfWalk.root = .ok true := rfl
  have areFound := enumerate_of_files isRoot files_shelfWalk
  rcases enumerate_ordered shelfWalk 1 isRoot with ⟨files, areFiles, isSorted, _⟩
  rw [areFound, Except.ok.injEq] at areFiles
  refine ⟨isRoot, areFound, ?_⟩
  rwa [(append_injective shelfWalk.root).list_map areFiles]

end Walk

end DeclIndex
