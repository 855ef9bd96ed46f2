import DeclIndex.Proofs.Ignore.Forms
import DeclIndex.Proofs.Walk.Order
import DeclIndex.Proofs.Walk.Pruning

/-!
# What a walk with one pattern finds

A walk with a pattern made of one word finds what the walk without patterns finds, less the files
whose names the pattern covers (`Walk.enumerate_selects`). Nothing is said of the directories that
the walk does not enter: such a pattern ignores whatever lies in a directory that it ignores, so it
is enough to look at the files.
-/

namespace DeclIndex.Walk

open Ignore (Form IsWord Matcher)

variable {walk : Walk} {maxDepth : Int} {files : List (List String)} {names : List String}

theorem noFeed_of_mem_files (feedFree : walk.fs.FeedFree)
    (areFiles : walk.files maxDepth = .ok files) (isFile : names ∈ files) :
    ∀ name ∈ names, '\n' ∉ name.toList := by
  rcases (mem_files_iff areFiles).mp isFile with ⟨directory, last, admitted, _, lists, rfl, _⟩
  intro name isName
  rcases List.mem_append.mp isName with isAbove | isLast
  · exact admitted.noFeed feedFree name isAbove
  · rw [List.mem_singleton.mp isLast]
    exact lists.noFeed feedFree

/-- If no name holds a line feed, and no question of the walk without patterns fails, then the walk
with one pattern made of a word finds the same files in the same order, less those that the pattern
covers. -/
theorem enumerate_selects (fs : FileSystem) (root : Path) (maxDepth : Int) (form : Form)
    (word : String) (isWord : IsWord word) (feedFree : fs.FeedFree)
    (isRoot : fs.isDirectory root = .ok true)
    (undisturbed : Undisturbed ⟨fs, ⟨[]⟩, root⟩ maxDepth.toNat) :
    ∃ (matcher : Matcher) (files : List (List String)),
      Matcher.ofLines [form.line word] = .ok matcher ∧
      enumerate ⟨fs, ⟨[]⟩, root⟩ maxDepth = .ok (files.map root.append) ∧
      enumerate ⟨fs, matcher, root⟩ maxDepth =
        .ok ((files.filter fun names => !form.covers word names).map root.append) ∧
      ∀ names ∈ files, components (fs.relativePath (root.append names) root) = names := by
  rcases form.exists_ignores isWord with ⟨matcher, areRead, isIgnored⟩
  rcases exists_files_iff_undisturbed.mpr undisturbed with ⟨files, areFiles⟩
  have isPlain : ∀ line ∈ [form.line word], Ignore.IsPlainLine line := by
    intro line isLine
    rw [List.mem_singleton.mp isLine]
    exact form.isPlainLine isWord
  have closed : Closed ⟨fs, matcher, root⟩ := closed_of_plainLines areRead isPlain feedFree
  have areKept : Walk.files ⟨fs, matcher, root⟩ maxDepth =
      .ok (files.filter fun names => !form.covers word names) := by
    rw [files_of_unpruned closed areFiles]
    congr 1
    apply List.filter_congr
    intro names isFile
    rcases names_of_mem_files areFiles isFile with ⟨nonempty, areNames⟩
    have noFeed : ∀ name ∈ names, '\n' ∉ name.toList :=
      noFeed_of_mem_files feedFree areFiles isFile
    rw [keepsFile, isIgnored names nonempty areNames noFeed]
  refine ⟨matcher, files, areRead, enumerate_of_files isRoot areFiles,
    enumerate_of_files isRoot areKept, ?_⟩
  intro names isFile
  rcases names_of_mem_files areFiles isFile with ⟨nonempty, areNames⟩
  rw [FileSystem.relativePath_append fs nonempty areNames]
  apply components_slashed _ nonempty
  intro name isName
  exact Entry.noSlash_of_isName (areNames name isName)

theorem feedFree_shelfWalk : shelfWalk.fs.FeedFree := by
  apply FileSystem.feedFree_of_children [shelfWalk.fs.root,
    .node (.directory false) [(⟨"o", by decide⟩, .node (.file [] false) [])],
    .node (.file [] false) []]
  · exact List.mem_cons_self
  · simp only [shelfWalk, FileSystem.root, List.forall_mem_cons, Tree.children, Entry.isDirectory]
    simp

theorem isWord_of_letter {word : String} {c : Char} (isLetter : word.toList = [c])
    (notBlank : Text.isBlank c = false) (notMark : c ∉ Ignore.marks) : IsWord word := by
  constructor
  · rintro rfl
    cases isLetter
  · rw [isLetter, List.forall_mem_singleton]
    exact notBlank
  · rw [isLetter, List.forall_mem_singleton]
    exact notMark

/-- The one pattern is for a file at the root, the other for what lies in a directory. -/
theorem enumerate_selects_shelfWalk :
    IsWord "n" ∧ IsWord "m" ∧ shelfWalk.fs.FeedFree ∧ shelfWalk.Undisturbed 1 ∧
    (∃ matcher, Matcher.ofLines ["/n"] = .ok matcher ∧
      enumerate ⟨shelfWalk.fs, matcher, ⟨.root, []⟩⟩ 1 = .ok [⟨.root, ["m", "o"]⟩]) ∧
    ∃ matcher, Matcher.ofLines ["m/"] = .ok matcher ∧
      enumerate ⟨shelfWalk.fs, matcher, ⟨.root, []⟩⟩ 1 = .ok [⟨.root, ["n"]⟩] := by
  have isWord : IsWord "n" := isWord_of_letter (c := 'n') (by decide) (by decide) (by decide)
  have isWord' : IsWord "m" := isWord_of_letter (c := 'm') (by decide) (by decide) (by decide)
  have isRoot : shelfWalk.fs.isDirectory ⟨.root, []⟩ = .ok true := rfl
  have undisturbed : shelfWalk.Undisturbed 1 := exists_files_iff_undisturbed.mp ⟨_, files_shelfWalk⟩
  have areFound : shelfWalk.enumerate 1 = .ok ([["n"], ["m", "o"]].map shelfWalk.root.append) :=
    enumerate_of_files isRoot files_shelfWalk
  have selects (form : Form) (word : String) (isWord : IsWord word) :
      ∃ matcher, Matcher.ofLines [form.line word] = .ok matcher ∧
        enumerate ⟨shelfWalk.fs, matcher, ⟨.root, []⟩⟩ 1 =
          .ok (([["n"], ["m", "o"]].filter fun names => !form.covers word names).map
            shelfWalk.root.append) := by
    rcases enumerate_selects shelfWalk.fs ⟨.root, []⟩ 1 form word isWord feedFree_shelfWalk isRoot
      undisturbed with ⟨matcher, files, areRead, areFiles, areKept, _⟩
    have sameFiles := Except.ok.inj (areFound.symm.trans areFiles)
    have areThese : [["n"], ["m", "o"]] = files :=
      (append_injective shelfWalk.root).list_map sameFiles
    rw [areThese]
    exact ⟨matcher, areRead, areKept⟩
  refine ⟨isWord, isWord', feedFree_shelfWalk, undisturbed, ?_, ?_⟩
  · exact selects .atRoot "n" isWord
  · exact selects .directory "m" isWord'

end DeclIndex.Walk
