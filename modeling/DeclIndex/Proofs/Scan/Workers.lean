import DeclIndex.Scan
import DeclIndex.Proofs.Walk.Exact

/-!
# Workers make no difference

Several workers fill the places of the files in the order in which they finish, a single one goes
through the files in their order. Each file is read once whatever the order, and no place is filled
twice. So the results are the same if no task fails (`Scanner.foldlM_fill_of_mapM_eq_ok`). If one
fails, it may be another one that fails first; the outcome is still the same as long as all failures
are (`Scanner.foldlM_fill_eq_error`).

Reading a file fails with anything else than a report only for a kind without rules, unless its path
holds a null byte (`Scanner.eq_unknownKind_of_readFile`). A walk finds no such path, because what it
follows is there.
-/

namespace DeclIndex

open Sequence (bind_eq_error_iff)

namespace Scanner

variable {task : Path → Except Failure FileReport} {files : List Path}
  {results places : List FileReport} {order : List Nat} {failure : Failure}

/-! ## Filling the places -/

/-- One task that succeeds fills its place and no other. -/
theorem exists_fill_eq_ok (areResults : files.mapM task = .ok results)
    (samePlaces : places.length = results.length) (index : Nat) :
    ∃ next, fill task files places index = .ok next ∧ next.length = results.length ∧
      ∀ other : Nat, next[other]? = if other = index then results[other]? else places[other]? := by
  have atIndex := Sequence.map_getElem?_of_mapM_eq_ok areResults index
  unfold fill
  cases isResult : results[index]? with
  | none =>
      have noFile : files[index]? = none := by
        simpa [isResult] using atIndex
      rw [noFile]
      refine ⟨places, rfl, samePlaces, ?_⟩
      intro other
      split
      · subst other
        rw [isResult, List.getElem?_eq_none_iff, samePlaces]
        exact List.getElem?_eq_none_iff.mp isResult
      · rfl
  | some result =>
      rw [isResult] at atIndex
      rcases Option.map_eq_some_iff.mp atIndex with ⟨file, isFile, isTask⟩
      have inRange : index < places.length := by
        rw [samePlaces]
        exact (List.getElem?_eq_some_iff.mp isResult).1
      refine ⟨places.set index result, by simp [isFile, isTask], by simpa using samePlaces, ?_⟩
      intro other
      by_cases isSame : other = index
      · subst other
        simp [isResult, inRange]
      · simp [isSame, Ne.symm isSame]

/-- The places that were filled hold the results, whatever the order. -/
theorem exists_foldlM_fill_eq_ok (areResults : files.mapM task = .ok results)
    (samePlaces : places.length = results.length) :
    ∃ filled, order.foldlM (fill task files) places = .ok filled ∧
      ∀ index : Nat,
        filled[index]? = if index ∈ order then results[index]? else places[index]? := by
  induction order generalizing places with
  | nil => exact ⟨places, rfl, by simp⟩
  | cons first order inductionHypothesis =>
      rcases exists_fill_eq_ok areResults samePlaces first with ⟨next, isNext, sameNext, atNext⟩
      rcases inductionHypothesis sameNext with ⟨filled, isFilled, atFilled⟩
      refine ⟨filled, ?_, ?_⟩
      · rw [List.foldlM_cons, isNext]
        exact isFilled
      · intro index
        rw [atFilled, atNext]
        by_cases isLater : index ∈ order
        · simp [isLater]
        · simp [isLater]

theorem foldlM_fill_of_mapM_eq_ok (areResults : files.mapM task = .ok results)
    (samePlaces : places.length = results.length)
    (isComplete : ∀ index < results.length, index ∈ order) :
    order.foldlM (fill task files) places = .ok results := by
  rcases exists_foldlM_fill_eq_ok areResults samePlaces with ⟨filled, isFilled, atFilled⟩
  have isResults : filled = results := by
    apply List.ext_getElem?
    intro index
    rw [atFilled]
    split
    · rfl
    · have outside : results.length ≤ index := by
        by_contra inside
        exact absurd (isComplete index (Nat.lt_of_not_le inside)) ‹index ∉ order›
      rw [List.getElem?_eq_none_iff.mpr outside, List.getElem?_eq_none_iff]
      exact Nat.le_trans (Nat.le_of_eq samePlaces) outside
  rw [isFilled, isResults]

theorem fill_eq_error_iff {index : Nat} :
    fill task files places index = .error failure ↔
      ∃ file, files[index]? = some file ∧ task file = .error failure := by
  unfold fill
  cases files[index]? with
  | none => simp
  | some file => cases isTask : task file <;> simp [isTask, bind, Except.bind, pure, Except.pure]

/-- If all failures are the same, it does not matter which of them is met first. -/
theorem foldlM_fill_eq_error {index : Nat} {file : Path} (isNext : index ∈ order)
    (isFile : files[index]? = some file) (fails : task file = .error failure)
    (same : ∀ file ∈ files, ∀ other, task file = .error other → other = failure) :
    order.foldlM (fill task files) places = .error failure := by
  induction order generalizing places with
  | nil => cases isNext
  | cons first order inductionHypothesis =>
      rw [List.foldlM_cons]
      cases isFilled : fill task files places first with
      | error other =>
          rcases fill_eq_error_iff.mp isFilled with ⟨culprit, isCulprit, isOther⟩
          rw [same culprit (List.mem_of_getElem? isCulprit) other isOther]
          rfl
      | ok next =>
          rcases List.mem_cons.mp isNext with rfl | isLater
          · rw [fill_eq_error_iff.mpr ⟨file, isFile, fails⟩] at isFilled
            cases isFilled
          · exact inductionHypothesis isLater

/-- Whatever the number of workers and the order in which they finish, the outcome is that of one
task after the other. -/
theorem readAll_eq_mapM (scanner : Scanner)
    (same : ∀ file ∈ files, ∀ other, task file = .error other → other = failure) :
    scanner.readAll task files = files.mapM task := by
  unfold readAll
  split
  · rfl
  · have isPerm := scanner.schedule.perm files.length
    cases isAll : files.mapM task with
    | ok results =>
        have sameLength := Sequence.length_of_mapM_eq_ok isAll
        apply foldlM_fill_of_mapM_eq_ok isAll
        · rw [List.length_replicate, sameLength]
        · intro index inRange
          rw [isPerm.mem_iff, List.mem_range, ← sameLength]
          exact inRange
    | error other =>
        rcases Sequence.exists_mem_of_mapM_eq_error isAll with ⟨file, isFile, fails⟩
        rcases List.mem_iff_getElem?.mp isFile with ⟨index, isIndex⟩
        have isSame := same file isFile other fails
        subst isSame
        have inRange : index < files.length := (List.getElem?_eq_some_iff.mp isIndex).1
        exact foldlM_fill_eq_error (isPerm.mem_iff.mpr (List.mem_range.mpr inRange)) isIndex fails
          same

end Scanner

/-! ## Reading files -/

namespace Source

variable {fs : FileSystem} {file base : Path} {kind : Kind} {failure : Failure}

theorem exists_unreadable_of_text (nulFree : file.NulFree)
    (fails : text fs file = .error failure) : ∃ cause, failure = .unreadable file cause := by
  unfold text at fails
  split at fails
  next isNul => exact absurd isNul (FileSystem.read_ne_nulByte nulFree)
  next cause _ _ => exact ⟨.access cause, (Except.error.inj fails).symm⟩
  next bytes _ =>
    cases isText : Text.Utf8.decode (Text.Utf8.dropMark bytes) with
    | error cause =>
        rw [isText] at fails
        exact ⟨.encoding cause, (Except.error.inj fails).symm⟩
    | ok text =>
        rw [isText] at fails
        cases fails

theorem eq_unknownKind_of_rules (fails : rules kind = .error failure) :
    failure = .unknownKind kind := by
  unfold rules at fails
  split at fails
  · cases fails
  · exact (Except.error.inj fails).symm

theorem unreadable_or_unknownKind_of_declarations (nulFree : file.NulFree)
    (fails : declarations fs file base kind = .error failure) :
    (∃ cause, failure = .unreadable file cause) ∨ failure = .unknownKind kind := by
  rcases bind_eq_error_iff.mp fails with isText | ⟨text, _, fails⟩
  · exact Or.inl (exists_unreadable_of_text nulFree isText)
  · rcases bind_eq_error_iff.mp fails with isRules | ⟨rules, _, fails⟩
    · exact Or.inr (eq_unknownKind_of_rules isRules)
    · cases fails

end Source

namespace Scanner

variable {fs : FileSystem} {root file : Path} {kind : Kind} {failure : Failure} {files : List Path}

theorem eq_unknownKind_of_readFile (nulFree : file.NulFree)
    (fails : readFile fs root kind file = .error failure) : failure = .unknownKind kind := by
  unfold readFile at fails
  cases isDeclared : Source.declarations fs file root kind with
  | ok records =>
      rw [isDeclared] at fails
      cases fails
  | error other =>
      rw [isDeclared] at fails
      rcases Source.unreadable_or_unknownKind_of_declarations nulFree isDeclared with
        ⟨cause, rfl⟩ | rfl
      · cases fails
      · exact (Except.error.inj fails).symm

theorem readAll_single (task : Path → Except Failure FileReport) (files : List Path) :
    single.readAll task files = files.mapM task :=
  if_pos (Or.inl rfl)

theorem readAll_readFile_eq_single (scanner : Scanner)
    (enumerated : ∀ file ∈ files, Walk.Enumerated file) :
    scanner.readAll (readFile fs root kind) files =
      single.readAll (readFile fs root kind) files := by
  have same : ∀ file ∈ files, ∀ failure, readFile fs root kind file = .error failure →
      failure = .unknownKind kind := by
    intro file isFile failure fails
    exact eq_unknownKind_of_readFile (Walk.nulFree_of_enumerated (enumerated file isFile)) fails
  rw [readAll_single]
  exact readAll_eq_mapM scanner same

theorem eq_unknownKind_of_readAll_single (enumerated : ∀ file ∈ files, Walk.Enumerated file)
    (fails : single.readAll (readFile fs root kind) files = .error failure) :
    failure = .unknownKind kind := by
  rw [readAll_single] at fails
  rcases Sequence.exists_mem_of_mapM_eq_error fails with ⟨file, isFile, fails⟩
  exact eq_unknownKind_of_readFile (Walk.nulFree_of_enumerated (enumerated file isFile)) fails

theorem scanDirectory_eq_single (scanner : Scanner) (fs : FileSystem) (root : Path)
    (maxDepth : Int) (kind : Kind) :
    scanner.scanDirectory fs root maxDepth kind = single.scanDirectory fs root maxDepth kind := by
  unfold scanDirectory
  cases Ignore.Matcher.ofDirectory fs root with
  | error failure => rfl
  | ok matcher =>
      cases isFound : Walk.enumerate ⟨fs, matcher, root⟩ maxDepth with
      | error failure => simp only [isFound, bind, Except.bind]
      | ok files =>
          have enumerated : ∀ file ∈ files, Walk.Enumerated file := by
            intro file isFile
            exact ⟨⟨fs, matcher, root⟩, maxDepth, files, isFound, isFile⟩
          simp only [isFound, bind, Except.bind, readAll_readFile_eq_single scanner enumerated]

/-- Any number of workers, finishing in any order, reads enumerated files as a single worker does,
and so they scan alike. A single worker fails only for a kind without rules. -/
theorem scan_eq_single (scanner : Scanner) :
    (∀ fs root kind files, (∀ file ∈ files, Walk.Enumerated file) →
      scanner.readAll (readFile fs root kind) files = single.readAll (readFile fs root kind) files ∧
      ∀ failure, single.readAll (readFile fs root kind) files = .error failure →
        failure = .unknownKind kind) ∧
    ∀ fs request kind, scanner.scan fs request kind = single.scan fs request kind := by
  constructor
  · intro fs root kind files enumerated
    refine ⟨readAll_readFile_eq_single scanner enumerated, ?_⟩
    intro failure fails
    exact eq_unknownKind_of_readAll_single enumerated fails
  · intro fs request kind
    simp only [scan, scanDirectory_eq_single scanner]

/-- Two workers that finish in reverse order. -/
def reversed : Scanner :=
  ⟨2, by decide, ⟨fun count => (List.range count).reverse, fun _ => List.reverse_perm _⟩⟩

/-- A directory with an empty file and a locked file. -/
def lockedPair : FileSystem :=
  ⟨[(⟨"a", by decide⟩, .node (.file [] false) []),
    (⟨"b", by decide⟩, .node (.file [] true) [])], []⟩

theorem scan_eq_single_reversed :
    (∀ file ∈ [(⟨.root, ["a"]⟩ : Path), ⟨.root, ["b"]⟩], Walk.Enumerated file) ∧
    reversed.readAll (readFile lockedPair ⟨.root, []⟩ .functions) [⟨.root, ["a"]⟩, ⟨.root, ["b"]⟩] =
      .ok [⟨[], none⟩, ⟨[], some ⟨"b", "/b: [Errno 13] Permission denied: '/b'"⟩⟩] := by
  have enumerated : ∀ file ∈ [(⟨.root, ["a"]⟩ : Path), ⟨.root, ["b"]⟩], Walk.Enumerated file := by
    intro file isFile
    refine ⟨⟨lockedPair, ⟨[]⟩, file⟩, 0, [file], ?_, List.mem_singleton_self file⟩
    rcases List.mem_pair.mp isFile with rfl | rfl
    · rfl
    · rfl
  refine ⟨enumerated, ?_⟩
  rw [((scan_eq_single reversed).1 lockedPair ⟨.root, []⟩ .functions _ enumerated).1]
  decide +kernel

end Scanner

end DeclIndex
