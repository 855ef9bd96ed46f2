import DeclIndex.Proofs.FileSystem.Steps
import DeclIndex.Proofs.Ignore.Below
import DeclIndex.Proofs.Walk.Exact

/-!
# Passing over directories loses nothing

A walk does not enter a directory that is ignored. The unpruned walk enters all directories and
keeps all files. What the pruned walk sees of a directory is what the unpruned walk sees of it,
without what is ignored (`Walk.look_of_unpruned`). The directories of each round differ by the
ignored ones, and all that lies in those is ignored too (`Walk.Closed`), so the two walks agree on
what is not ignored, in the same order (`Walk.listings_of_unpruned`).

Patterns without an exclamation mark at the start and without brackets are closed in this sense, if
no name holds a line feed.
-/

namespace DeclIndex

/-- Nowhere in the tree does a name hold a line feed. -/
def FileSystem.FeedFree (fs : FileSystem) : Prop :=
  ∀ location tree, fs.tree? location = some tree → ∀ name ∈ tree.names, '\n' ∉ name.toList

theorem Tree.exists_child_of_mem_names {tree : Tree} {name : String} (isName : name ∈ tree.names) :
    ∃ child ∈ tree.children, child.1.text = name := by
  rw [Tree.names, List.mem_mergeSort, List.mem_eraseDups] at isName
  exact List.mem_map.mp isName

/-- It is enough to look at some trees that hold the root and what is below each of them. -/
theorem FileSystem.feedFree_of_children {fs : FileSystem} (trees : List Tree)
    (isRoot : fs.root ∈ trees)
    (areChildren : ∀ tree ∈ trees, ∀ child ∈ tree.children,
      child.2 ∈ trees ∧ '\n' ∉ child.1.text.toList) : fs.FeedFree := by
  have isOneOf : ∀ location trail, fs.trail? location = some trail → fs.treeAt trail ∈ trees := by
    intro location
    induction location with
    | nil =>
        rintro _ ⟨⟩
        exact isRoot
    | cons name location inductionHypothesis =>
        intro trail isTrail
        simp only [trail?, bind, Option.bind_eq_some_iff, pure, Option.some.injEq] at isTrail
        rcases isTrail with ⟨above, isAbove, tree, isChild, rfl⟩
        rcases Option.map_eq_some_iff.mp isChild with ⟨child, isFound, rfl⟩
        exact (areChildren _ (inductionHypothesis above isAbove) child
          (List.mem_of_find?_eq_some isFound)).1
  intro location tree isHere name isName
  rcases Option.map_eq_some_iff.mp isHere with ⟨trail, isTrail, rfl⟩
  rcases Tree.exists_child_of_mem_names isName with ⟨child, isChild, rfl⟩
  exact (areChildren _ (isOneOf location trail isTrail) child isChild).2

namespace Walk

open Sequence (bind_eq_ok_iff mapM_eq_ok_iff mem_iff_of_mapM_eq_ok)

/-- The walk without rules. -/
def unpruned (walk : Walk) : Walk :=
  { walk with matcher := ⟨[]⟩ }

/-- A file is not ignored. -/
def keepsFile (walk : Walk) (names : List String) : Bool :=
  !walk.matcher.ignores (slashed names) false

/-- A directory is not ignored. -/
def keepsDirectory (walk : Walk) (names : List String) : Bool :=
  !walk.matcher.ignores (slashed names) true

variable {walk : Walk} {directory names : List String} {name : String} {listing : Listing}
  {directories : List (List String)} {found : List Listing} {depth levels : Nat}

/-! ## One directory -/

/-- What the rules leave of the use of a path. -/
def restrict (walk : Walk) (names : List String) : Use → Use
  | .keep => if walk.keepsFile names then .keep else .passOver
  | .enter => if walk.keepsDirectory names then .enter else .passOver
  | .passOver => .passOver

theorem use_of_unpruned {use : Use} (isUse : walk.unpruned.use names = .ok use) :
    walk.use names = .ok (walk.restrict names use) := by
  have ignoresNone : ∀ isDirectory,
      walk.unpruned.matcher.ignores (slashed names) isDirectory = false :=
    Ignore.Matcher.ignores_of_no_rules _
  rcases isDirectory : walk.fs.isDirectory (walk.root.append names) with failure | _ | _
  · have fails : walk.unpruned.use names = .error failure := use_of_error isDirectory
    rw [fails] at isUse
    cases isUse
  · have unprunedUse : walk.unpruned.use names = _ := use_of_not_isDirectory isDirectory
    rw [isUse, ignoresNone] at unprunedUse
    rcases Sequence.map_eq_ok_iff.mp unprunedUse.symm with ⟨isFile, isAnswer, rfl⟩
    have isAnswer : walk.fs.isFile (walk.root.append names) = .ok isFile := isAnswer
    rw [use_of_not_isDirectory isDirectory]
    cases isFile <;> cases kept : walk.matcher.ignores (slashed names) false <;>
      simp [isAnswer, restrict, keepsFile, kept, Except.map]
  · have unprunedUse : walk.unpruned.use names = _ := use_of_isDirectory isDirectory
    rw [isUse, ignoresNone] at unprunedUse
    cases unprunedUse
    rw [use_of_isDirectory isDirectory]
    cases kept : walk.matcher.ignores (slashed names) true <;>
      simp [restrict, keepsDirectory, kept]

/-- A listing without what is ignored. -/
def prune (walk : Walk) (listing : Listing) : Listing :=
  ⟨listing.directory, listing.files.filter walk.keepsFile,
    listing.subdirectories.filter walk.keepsDirectory⟩

theorem restrict_eq_keep (walk : Walk) (names : List String) (use : Use) :
    (walk.restrict names use == .keep) = (walk.keepsFile names && use == .keep) := by
  rw [Bool.eq_iff_iff, Bool.and_eq_true, beq_iff_eq, beq_iff_eq]
  cases use with
  | keep | passOver => simp [restrict]
  | enter => simp only [restrict]; split <;> simp

theorem restrict_eq_enter (walk : Walk) (names : List String) (use : Use) :
    (walk.restrict names use == .enter) = (walk.keepsDirectory names && use == .enter) := by
  rw [Bool.eq_iff_iff, Bool.and_eq_true, beq_iff_eq, beq_iff_eq]
  cases use with
  | enter | passOver => simp [restrict]
  | keep => simp only [restrict]; split <;> simp

theorem used_restrict (children : List (List String × Use)) {kind : Use}
    {keeps : List String → Bool}
    (restricts : ∀ names use, (walk.restrict names use == kind) = (keeps names && use == kind)) :
    ((children.map fun child => (child.1, walk.restrict child.1 child.2)).filter
        fun child => child.2 == kind).map (·.1) =
      ((children.filter fun child => child.2 == kind).map (·.1)).filter keeps := by
  rw [List.filter_map, List.map_map, List.filter_map, List.filter_filter]
  congr 1
  exact List.filter_congr fun child _ => restricts child.1 child.2

theorem look_of_unpruned (isListing : walk.unpruned.look directory = .ok listing) :
    walk.look directory = .ok (walk.prune listing) := by
  rcases look_eq_ok_iff.mp isListing with ⟨found, children, isList, areChildren, rfl⟩
  apply look_eq_ok_iff.mpr
  refine ⟨found, children.map fun child => (child.1, walk.restrict child.1 child.2), isList, ?_, ?_⟩
  · apply mapM_eq_ok_iff.mpr
    apply List.forall₂_map_right_iff.mpr
    apply (mapM_eq_ok_iff.mp areChildren).imp
    intro name child isChild
    rcases childUse_eq_ok_iff.mp isChild with ⟨isPath, isUse⟩
    rw [isPath]
    exact childUse_eq_ok_iff.mpr ⟨rfl, use_of_unpruned isUse⟩
  · have isFiles := used_restrict children walk.restrict_eq_keep
    have isDirectories := used_restrict children walk.restrict_eq_enter
    rw [isFiles, isDirectories]
    rfl

/-! ## All directories -/

/-- All that lies in an ignored directory is ignored, as far as the tree has names for it. -/
def Closed (walk : Walk) : Prop :=
  ∀ directory name, walk.unpruned.Admitted directory → walk.Lists directory name →
    walk.keepsDirectory directory = false →
      walk.keepsFile (directory ++ [name]) = false ∧
      walk.keepsDirectory (directory ++ [name]) = false

theorem prune_eq_nil_of_ignored (closed : walk.Closed) (admitted : walk.unpruned.Admitted directory)
    (isListing : walk.unpruned.look directory = .ok listing)
    (isIgnored : walk.keepsDirectory directory = false) :
    (walk.prune listing).files = [] ∧ (walk.prune listing).subdirectories = [] := by
  constructor
  · apply List.filter_eq_nil_iff.mpr
    intro path isPath
    rcases (mem_files_iff_of_look isListing).mp isPath with ⟨name, lists, rfl, _⟩
    simpa using (closed directory name admitted lists isIgnored).1
  · apply List.filter_eq_nil_iff.mpr
    intro path isPath
    rcases (mem_subdirectories_iff_of_look isListing).mp isPath with ⟨name, lists, rfl, _⟩
    simpa using (closed directory name admitted lists isIgnored).2

/-- The listings of directories that are not ignored, without what is ignored. -/
def pruneAll (walk : Walk) (found : List Listing) : List Listing :=
  (found.filter fun listing => walk.keepsDirectory listing.directory).map walk.prune

theorem mapM_look_of_unpruned (areFound : directories.mapM walk.unpruned.look = .ok found) :
    (directories.filter walk.keepsDirectory).mapM walk.look = .ok (walk.pruneAll found) := by
  rw [mapM_eq_ok_iff] at areFound ⊢
  induction areFound with
  | nil => exact List.Forall₂.nil
  | @cons directory listing directories found isListing _ inductionHypothesis =>
      have isDirectory := directory_of_look isListing
      cases kept : walk.keepsDirectory directory with
      | false => simpa [pruneAll, isDirectory, kept] using inductionHypothesis
      | true =>
          have isPruned := look_of_unpruned isListing
          simpa [pruneAll, isDirectory, kept] using And.intro isPruned inductionHypothesis

theorem flatMap_pruneAll {paths : Listing → List (List String)} {keeps : List String → Bool}
    (prunes : ∀ listing, paths (walk.prune listing) = (paths listing).filter keeps)
    (nothingIgnored : ∀ listing ∈ found, walk.keepsDirectory listing.directory = false →
      paths (walk.prune listing) = []) :
    (walk.pruneAll found).flatMap paths = (found.flatMap paths).filter keeps := by
  induction found with
  | nil => rfl
  | cons listing found inductionHypothesis =>
      rcases List.forall_mem_cons.mp nothingIgnored with ⟨isEmpty, areEmpty⟩
      have further := inductionHypothesis areEmpty
      rw [List.flatMap_cons, List.filter_append, ← further, ← prunes]
      cases kept : walk.keepsDirectory listing.directory with
      | false => simp [pruneAll, kept, isEmpty kept]
      | true => simp [pruneAll, kept]

/-- The walk sees what the unpruned walk sees, without what is ignored. -/
theorem listings_of_unpruned (closed : walk.Closed)
    (isLevel : walk.unpruned.IsLevel depth directories)
    (areFound : walk.unpruned.listings levels directories = .ok found) :
    walk.listings levels (directories.filter walk.keepsDirectory) = .ok (walk.pruneAll found) := by
  induction levels generalizing depth directories found with
  | zero =>
      rw [listings_zero] at areFound ⊢
      exact mapM_look_of_unpruned areFound
  | succ levels inductionHypothesis =>
      rcases listings_succ_eq_ok_iff.mp areFound with ⟨here, below, areHere, areBelow, rfl⟩
      have areBelow := inductionHypothesis (isLevel_below isLevel areHere) areBelow
      apply listings_succ_eq_ok_iff.mpr
      refine ⟨walk.pruneAll here, walk.pruneAll below, mapM_look_of_unpruned areHere, ?_, ?_⟩
      · -- What the next round looks at lies in directories that are not ignored, for all that lies
        -- in the others is ignored itself.
        rw [flatMap_pruneAll (fun _ => rfl)]
        · exact areBelow
        · intro listing isHere isIgnored
          rcases (mem_iff_of_mapM_eq_ok areHere).mp isHere with ⟨directory, isListed, isListing⟩
          have admitted := ((isLevel directory).mp isListed).1
          rw [directory_of_look isListing] at isIgnored
          exact (prune_eq_nil_of_ignored closed admitted isListing isIgnored).2
      · simp [pruneAll]

theorem keepsDirectory_root (walk : Walk) : walk.keepsDirectory [] = true := rfl

theorem files_of_unpruned {maxDepth : Int} {files : List (List String)} (closed : walk.Closed)
    (areFiles : walk.unpruned.files maxDepth = .ok files) :
    walk.files maxDepth = .ok (files.filter walk.keepsFile) := by
  rcases bind_eq_ok_iff.mp areFiles with ⟨found, areFound, isFlat⟩
  cases isFlat
  have arePruned := listings_of_unpruned closed isLevel_root areFound
  rw [List.filter_singleton, keepsDirectory_root, cond_true] at arePruned
  apply bind_eq_ok_iff.mpr
  refine ⟨_, arePruned, ?_⟩
  rw [flatMap_pruneAll (fun _ => rfl)]
  · rfl
  · intro listing isFound isIgnored
    rcases (mem_listings_iff isLevel_root areFound).mp isFound with
      ⟨directory, admitted, _, _, isListing⟩
    rw [directory_of_look isListing] at isIgnored
    exact (prune_eq_nil_of_ignored closed admitted isListing isIgnored).1

/-! ## Plain patterns -/

theorem Lists.noFeed (feedFree : walk.fs.FeedFree) (lists : walk.Lists directory name) :
    '\n' ∉ name.toList := by
  rcases lists with ⟨found, isList, isFound⟩
  rcases bind_eq_ok_iff.mp isList with ⟨tree, isTree, areNames⟩
  rcases FileSystem.exists_tree?_of_find isTree with ⟨location, isHere⟩
  split at areNames
  · cases areNames
    exact feedFree location tree isHere name isFound
  · cases areNames
  · cases areNames

theorem Admitted.noFeed (admitted : walk.Admitted directory) (feedFree : walk.fs.FeedFree) :
    ∀ name ∈ directory, '\n' ∉ name.toList := by
  induction admitted with
  | root => simp
  | listed above lists _ _ inductionHypothesis =>
      intro name isName
      rcases List.mem_append.mp isName with isAbove | isLast
      · exact inductionHypothesis name isAbove
      · rw [List.mem_singleton.mp isLast]
        exact lists.noFeed feedFree

theorem closed_of_plainLines {patterns : List String}
    (areRead : Ignore.Matcher.ofLines patterns = .ok walk.matcher)
    (arePlain : ∀ line ∈ patterns, Ignore.IsPlainLine line) (feedFree : walk.fs.FeedFree) :
    walk.Closed := by
  intro directory name admitted lists isIgnored
  have areNames : ∀ other ∈ directory ++ [name], Entry.isName other = true := by
    intro other isIn
    rcases List.mem_append.mp isIn with isAbove | isLast
    · exact admitted.isName other isAbove
    · rw [List.mem_singleton.mp isLast]
      exact lists.isName
  have below := Ignore.Matcher.ignores_append areRead arePlain areNames
    (admitted.noFeed feedFree) (List.cons_ne_nil name [])
    (by simpa [keepsDirectory] using isIgnored)
  exact ⟨by simp [keepsFile, below], by simp [keepsDirectory, below]⟩

/-- If no question of the unpruned walk fails, the walk finds the files that the unpruned walk finds
and that the rules do not ignore, in the same order. -/
theorem enumerate_eq_filter (walk : Walk) (maxDepth : Int) (patterns : List String)
    (areRead : Ignore.Matcher.ofLines patterns = .ok walk.matcher)
    (arePlain : ∀ line ∈ patterns, Ignore.IsPlainLine line) (feedFree : walk.fs.FeedFree)
    (isRoot : walk.fs.isDirectory walk.root = .ok true)
    (undisturbed : walk.unpruned.Undisturbed maxDepth.toNat) :
    ∃ found, walk.unpruned.enumerate maxDepth = .ok found ∧
      walk.enumerate maxDepth = .ok (found.filter fun file =>
        !walk.matcher.ignores (walk.fs.relativePath file walk.root) false) := by
  rcases exists_files_iff_undisturbed.mpr undisturbed with ⟨files, areFiles⟩
  have areKept := files_of_unpruned (closed_of_plainLines areRead arePlain feedFree) areFiles
  have unpruned : walk.unpruned.enumerate maxDepth = .ok (files.map walk.root.append) :=
    enumerate_of_files isRoot areFiles
  refine ⟨files.map walk.root.append, unpruned, ?_⟩
  rw [enumerate_of_files isRoot areKept, List.filter_map]
  congr 2
  apply List.filter_congr
  intro names isFile
  rcases names_of_mem_files areFiles isFile with ⟨nonempty, areNames⟩
  have isPath : walk.fs.relativePath (walk.root.append names) walk.root = slashed names :=
    FileSystem.relativePath_append walk.fs nonempty areNames
  simp only [Function.comp_apply, isPath, keepsFile]

/-- A file, and a directory with a file in it. -/
def nestedFiles : FileSystem :=
  ⟨[(⟨"d", by decide⟩, .node (.directory false) [(⟨"h", by decide⟩, .node (.file [] false) [])]),
    (⟨"g", by decide⟩, .node (.file [] false) [])], []⟩

/-- A walk that ignores the directory. -/
def prunedWalk : Walk :=
  ⟨nestedFiles, (Ignore.Matcher.ofLines ["d/"]).toOption.getD ⟨[]⟩, ⟨.root, []⟩⟩

theorem feedFree_nestedFiles : nestedFiles.FeedFree := by
  apply FileSystem.feedFree_of_children
    [nestedFiles.root, .node (.directory false) [(⟨"h", by decide⟩, .node (.file [] false) [])],
      .node (.file [] false) []]
  · exact List.mem_cons_self
  · simp only [nestedFiles, FileSystem.root, List.forall_mem_cons, Tree.children, Entry.isDirectory]
    simp

theorem files_nestedFiles :
    Walk.files ⟨nestedFiles, ⟨[]⟩, ⟨.root, []⟩⟩ 1 = .ok [["g"], ["d", "h"]] := by
  have areNames : nestedFiles.root.names = ["d", "g"] :=
    List.mergeSort_of_pairwise (l := ["d", "g"]) (by decide)
  have areListed : nestedFiles.list ⟨.root, []⟩ = .ok ["d", "g"] := by
    rw [← areNames]
    rfl
  have atRoot : look ⟨nestedFiles, ⟨[]⟩, ⟨.root, []⟩⟩ [] = .ok ⟨[], [["g"]], [["d"]]⟩ :=
    look_eq_ok_iff.mpr
      ⟨["d", "g"], [(["d"], .enter), (["g"], .keep)], areListed, by decide +kernel, rfl⟩
  have below : look ⟨nestedFiles, ⟨[]⟩, ⟨.root, []⟩⟩ ["d"] = .ok ⟨["d"], [["d", "h"]], []⟩ :=
    look_eq_ok_iff.mpr
      ⟨["h"], [(["d", "h"], .keep)], by decide +kernel, by decide +kernel, rfl⟩
  exact files_of_look atRoot (Sequence.mapM_eq_ok_iff.mpr (.cons below .nil))

theorem enumerate_eq_filter_prunedWalk :
    Ignore.Matcher.ofLines ["d/"] = .ok prunedWalk.matcher ∧ Ignore.IsPlainLine "d/" ∧
    nestedFiles.FeedFree ∧ prunedWalk.unpruned.Undisturbed 1 ∧
    prunedWalk.unpruned.enumerate 1 = .ok [⟨.root, ["g"]⟩, ⟨.root, ["d", "h"]⟩] ∧
    prunedWalk.enumerate 1 = .ok [⟨.root, ["g"]⟩] := by
  have areRead : Ignore.Matcher.ofLines ["d/"] = .ok prunedWalk.matcher := by decide +kernel
  have isPlain : Ignore.IsPlainLine "d/" := ⟨by decide, by decide⟩
  have areFiles : prunedWalk.unpruned.files 1 = .ok [["g"], ["d", "h"]] := files_nestedFiles
  have undisturbed : prunedWalk.unpruned.Undisturbed 1 :=
    exists_files_iff_undisturbed.mp ⟨_, areFiles⟩
  have areFound : prunedWalk.unpruned.enumerate 1 = .ok [⟨.root, ["g"]⟩, ⟨.root, ["d", "h"]⟩] :=
    enumerate_of_files rfl areFiles
  rcases enumerate_eq_filter prunedWalk 1 ["d/"] areRead (by simpa using isPlain)
    feedFree_nestedFiles rfl undisturbed with ⟨found, isFound, areKept⟩
  rw [areFound] at isFound
  cases isFound
  refine ⟨areRead, isPlain, feedFree_nestedFiles, undisturbed, areFound, ?_⟩
  rw [areKept]
  decide +kernel

end Walk

end DeclIndex
