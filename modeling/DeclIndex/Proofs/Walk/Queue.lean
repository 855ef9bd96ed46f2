import DeclIndex.Proofs.FileSystem.Resolution
import DeclIndex.Proofs.Path.Names
import DeclIndex.Proofs.Walk.Order
import DeclIndex.Proofs.Walk.Scope
import Mathlib.Logic.Hydra

/-!
# Walking with a queue

A walk can also be done with a queue (`Walk.Queue`), in which every directory waits with its depth.
The first directory is taken out and looked at, and those in it are put at the end unless they are
too deep. Such a run does the rounds of `Walk.listings` one after the other, so both come to the
same (`Walk.exists_ends`).

What one step does to the length of the queue depends on the listing. But it replaces one depth by
finitely many that are closer to the limit. So every run ends (`Walk.wellFounded_step`), whatever
the links of the file system and whatever the limit, although links may let names lead down forever.

A refused question ends a run early. It may be one about a name in a directory, so it is not enough
that all directories can be listed (`Walk.distantWalk`).
-/

namespace DeclIndex.Walk

open Relation (CutExpand ReflTransGen)

/-- The directories that wait, each with its depth, and what was seen of those looked at. -/
structure Queue where
  waiting : List (List String × Nat)
  seen : List Listing

namespace Queue

/-- The root waits, and nothing was seen. -/
def start : Queue := ⟨[([], 0)], []⟩

/-- The directories that are put into the queue when one of some depth was looked at. -/
def deeper (maxDepth : Int) (depth : Nat) (listing : Listing) : List (List String × Nat) :=
  if (depth : Int) < maxDepth then listing.subdirectories.map fun child => (child, depth + 1)
  else []

/-- The first directory that waits is looked at. -/
inductive Step (walk : Walk) (maxDepth : Int) : Queue → Queue → Prop where
  | look {directory : List String} {depth : Nat} {waiting : List (List String × Nat)}
      {seen : List Listing} {listing : Listing} (isListing : walk.look directory = .ok listing) :
      Step walk maxDepth ⟨(directory, depth) :: waiting, seen⟩
        ⟨waiting ++ deeper maxDepth depth listing, seen ++ [listing]⟩

/-- One queue becomes another in some number of steps. -/
def Reaches (walk : Walk) (maxDepth : Int) : Queue → Queue → Prop :=
  ReflTransGen (Step walk maxDepth)

/-- There is nothing more to do: no directory waits, or looking at the first one fails. -/
inductive Ends (walk : Walk) : Queue → Except AccessFailure (List Listing) → Prop where
  | empty (seen : List Listing) : Ends walk ⟨[], seen⟩ (.ok seen)
  | failed {directory : List String} {depth : Nat} {waiting : List (List String × Nat)}
      {seen : List Listing} {failure : AccessFailure}
      (fails : walk.look directory = .error failure) :
      Ends walk ⟨(directory, depth) :: waiting, seen⟩ (.error failure)

/-- How far the directories that wait are from the limit. -/
def distances (maxDepth : Int) (queue : Queue) : Multiset Nat :=
  queue.waiting.map fun place => (maxDepth - place.2).toNat

end Queue

open Queue (start deeper Step Reaches Ends)

variable {walk : Walk} {maxDepth : Int} {queue next last : Queue} {depth levels : Nat}
  {directories : List (List String)} {waiting : List (List String × Nat)}
  {seen here : List Listing} {failure : AccessFailure}

/-! ## Steps -/

theorem lt_of_mem_deeper {listing : Listing} {place : List String × Nat}
    (isDeeper : place ∈ deeper maxDepth depth listing) :
    (maxDepth - place.2).toNat < (maxDepth - depth).toNat := by
  unfold deeper at isDeeper
  split at isDeeper
  · rcases List.mem_map.mp isDeeper with ⟨child, _, rfl⟩
    simp only
    omega
  · cases isDeeper

/-- A step replaces one distance by smaller ones. -/
theorem Queue.Step.cutExpand (step : queue.Step walk maxDepth next) :
    CutExpand (· < ·) (next.distances maxDepth) (queue.distances maxDepth) := by
  cases step with
  | @look directory depth waiting seen listing isListing =>
      refine ⟨(deeper maxDepth depth listing).map fun place => (maxDepth - place.2).toNat,
        (maxDepth - depth).toNat, ?_, ?_⟩
      · intro distance isDistance
        rcases List.mem_map.mp (Multiset.mem_coe.mp isDistance) with ⟨place, isDeeper, rfl⟩
        exact lt_of_mem_deeper isDeeper
      · simp only [Queue.distances, List.map_append, List.map_cons, ← Multiset.coe_add,
          ← Multiset.cons_coe, ← Multiset.singleton_add]
        rw [add_comm]
        exact (add_assoc _ _ _).symm

/-- Every run ends. -/
theorem wellFounded_step (walk : Walk) (maxDepth : Int) :
    WellFounded fun next queue => Step walk maxDepth queue next := by
  apply Subrelation.wf (r := InvImage (CutExpand (· < ·)) (Queue.distances maxDepth))
  · intro next queue step
    exact step.cutExpand
  · exact InvImage.wf _ (WellFounded.cutExpand wellFounded_lt)

theorem step_unique {other : Queue} (step : queue.Step walk maxDepth next)
    (step' : queue.Step walk maxDepth other) : next = other := by
  cases step with
  | look isListing =>
      cases step' with
      | look isListing' =>
          cases isListing.symm.trans isListing'
          rfl

theorem Queue.Ends.not_step {outcome : Except AccessFailure (List Listing)}
    (ends : queue.Ends walk outcome) : ¬queue.Step walk maxDepth next := by
  intro step
  cases step with
  | look isListing =>
      cases ends with
      | failed fails => cases isListing.symm.trans fails

/-- There is one run only, and whatever is reached lies on the way to its end. -/
theorem reaches_of_ends {outcome : Except AccessFailure (List Listing)}
    (reaches : start.Reaches walk maxDepth last) (ends : last.Ends walk outcome)
    (reaches' : start.Reaches walk maxDepth queue) : queue.Reaches walk maxDepth last := by
  have isUnique : Relator.RightUnique (Step walk maxDepth) := fun _ _ _ => step_unique
  rcases ReflTransGen.total_of_right_unique isUnique reaches reaches' with further | before
  · rcases ReflTransGen.cases_head further with rfl | ⟨next, step, _⟩
    · exact ReflTransGen.refl
    · exact absurd step ends.not_step
  · exact before

/-! ## Rounds -/

theorem cons_look_reaches {directory : List String} {listing : Listing}
    (isListing : walk.look directory = .ok listing)
    (further : Reaches walk maxDepth
      ⟨waiting ++ deeper maxDepth depth listing, seen ++ [listing]⟩ last) :
    Reaches walk maxDepth ⟨(directory, depth) :: waiting, seen⟩ last :=
  ReflTransGen.head (Step.look isListing) further

/-- The directories of a round are looked at before those that wait behind them. -/
theorem reaches_round (maxDepth : Int) (depth : Nat) (waiting : List (List String × Nat))
    (seen : List Listing) (areHere : directories.mapM walk.look = .ok here) :
    Reaches walk maxDepth ⟨directories.map (·, depth) ++ waiting, seen⟩
      ⟨waiting ++ here.flatMap (deeper maxDepth depth), seen ++ here⟩ := by
  have related := Sequence.mapM_eq_ok_iff.mp areHere
  clear areHere
  induction related generalizing waiting seen with
  | nil =>
      simp only [List.map_nil, List.nil_append, List.flatMap_nil, List.append_nil]
      exact ReflTransGen.refl
  | @cons directory listing directories here isListing _ inductionHypothesis =>
      rw [List.map_cons, List.cons_append]
      apply cons_look_reaches isListing
      rw [List.append_assoc, List.flatMap_cons, ← List.append_assoc waiting,
        List.append_cons seen listing here]
      exact inductionHypothesis _ _

theorem exists_failed_of_round (maxDepth : Int) (depth : Nat) (waiting : List (List String × Nat))
    (seen : List Listing) (fails : directories.mapM walk.look = .error failure) :
    ∃ last, Reaches walk maxDepth ⟨directories.map (·, depth) ++ waiting, seen⟩ last ∧
      last.Ends walk (.error failure) := by
  induction directories generalizing waiting seen with
  | nil => cases fails
  | cons directory directories inductionHypothesis =>
      rw [List.mapM_cons] at fails
      rcases Sequence.bind_eq_error_iff.mp fails with isHere | ⟨listing, isListing, isLater⟩
      · exact ⟨_, ReflTransGen.refl, Ends.failed isHere⟩
      · rcases Sequence.bind_eq_error_iff.mp isLater with isLater | ⟨_, _, isPure⟩
        · rcases inductionHypothesis (waiting ++ deeper maxDepth depth listing) (seen ++ [listing])
            isLater with ⟨last, reaches, ends⟩
          rw [← List.append_assoc] at reaches
          exact ⟨last, cons_look_reaches isListing reaches, ends⟩
        · cases isPure

theorem flatMap_deeper_of_limit (isLimit : maxDepth ≤ depth) (here : List Listing) :
    here.flatMap (deeper maxDepth depth) = [] := by
  apply List.flatMap_eq_nil_iff.mpr
  intro listing _
  exact if_neg (Int.not_lt.mpr isLimit)

theorem flatMap_deeper_of_within (isWithin : depth < maxDepth) (here : List Listing) :
    here.flatMap (deeper maxDepth depth) =
      (here.flatMap (·.subdirectories)).map (·, depth + 1) := by
  rw [List.map_flatMap]
  apply List.flatMap_congr
  intro listing _
  exact if_pos isWithin

/-- The first round from some depth on: it fails, or the next directories to look at are those
that it found. -/
theorem level_cases (walk : Walk) (maxDepth : Int) (depth : Nat) (directories : List (List String))
    (seen : List Listing) :
    (∃ here, directories.mapM walk.look = .ok here ∧
      Reaches walk maxDepth ⟨directories.map (·, depth), seen⟩
        ⟨here.flatMap (deeper maxDepth depth), seen ++ here⟩) ∨
    ∃ failure last, directories.mapM walk.look = .error failure ∧
      Reaches walk maxDepth ⟨directories.map (·, depth), seen⟩ last ∧
      last.Ends walk (.error failure) := by
  cases areHere : directories.mapM walk.look with
  | ok here =>
      left
      refine ⟨here, rfl, ?_⟩
      simpa using reaches_round maxDepth depth [] seen areHere
  | error failure =>
      right
      rcases exists_failed_of_round maxDepth depth [] seen areHere with ⟨last, reaches, ends⟩
      rw [List.append_nil] at reaches
      exact ⟨failure, last, rfl, reaches, ends⟩

theorem map_listings_succ (areHere : directories.mapM walk.look = .ok here) :
    (walk.listings (levels + 1) directories).map (seen ++ ·) =
      (walk.listings levels (here.flatMap (·.subdirectories))).map (seen ++ here ++ ·) := by
  rw [listings_succ, areHere]
  simp only [bind, Except.bind]
  cases walk.listings levels (here.flatMap (·.subdirectories)) with
  | error failure => rfl
  | ok below => exact congrArg Except.ok (List.append_assoc seen here below).symm

/-- The rounds from some depth on, done with a queue, end as the listings do. -/
theorem exists_ends_of_level (depth : Nat) (directories : List (List String)) (seen : List Listing)
    (isLevels : (maxDepth - depth).toNat = levels) :
    ∃ last, Reaches walk maxDepth ⟨directories.map (·, depth), seen⟩ last ∧
      last.Ends walk ((walk.listings levels directories).map (seen ++ ·)) := by
  induction levels generalizing depth directories seen with
  | zero =>
      rw [listings_zero]
      rcases level_cases walk maxDepth depth directories seen with
        ⟨here, areHere, reaches⟩ | ⟨failure, last, fails, reaches, ends⟩
      · rw [flatMap_deeper_of_limit (by omega)] at reaches
        rw [areHere]
        exact ⟨_, reaches, Ends.empty _⟩
      · rw [fails]
        exact ⟨last, reaches, ends⟩
  | succ levels inductionHypothesis =>
      rcases level_cases walk maxDepth depth directories seen with
        ⟨here, areHere, reaches⟩ | ⟨failure, last, fails, reaches, ends⟩
      · rw [flatMap_deeper_of_within (by omega)] at reaches
        rcases inductionHypothesis (depth + 1) (here.flatMap (·.subdirectories)) (seen ++ here)
          (by omega) with ⟨last, further, ends⟩
        refine ⟨last, reaches.trans further, ?_⟩
        rwa [map_listings_succ areHere]
      · rw [listings_succ, fails]
        exact ⟨last, reaches, ends⟩

/-- A walk with a queue ends as the listings do. -/
theorem exists_ends (walk : Walk) (maxDepth : Int) :
    ∃ last, start.Reaches walk maxDepth last ∧
      last.Ends walk (walk.listings maxDepth.toNat [[]]) := by
  have isLevels : (maxDepth - (0 : Nat)).toNat = maxDepth.toNat := by omega
  rcases exists_ends_of_level 0 [[]] [] isLevels with ⟨last, reaches, ends⟩
  refine ⟨last, reaches, ?_⟩
  cases areFound : walk.listings maxDepth.toNat [[]] with
  | error failure | ok found =>
      rw [areFound] at ends
      exact ends

theorem mem_directories_iff {found : List Listing} {directory : List String}
    (areFound : walk.listings maxDepth.toNat [[]] = .ok found) :
    directory ∈ found.map (·.directory) ↔ walk.Visits maxDepth directory := by
  rw [List.mem_map]
  constructor
  · rintro ⟨listing, isFound, rfl⟩
    rcases (mem_listings_iff isLevel_root areFound).mp isFound with
      ⟨directory, admitted, _, atMost, isListing⟩
    rw [directory_of_look isListing]
    exact ⟨admitted, by omega⟩
  · rintro ⟨admitted, isWithin⟩
    have undisturbed := undisturbed_iff.mpr ⟨found, areFound⟩
    rcases exists_look_iff_answered.mpr (undisturbed directory admitted (by omega)) with
      ⟨listing, isListing⟩
    refine ⟨listing, ?_, directory_of_look isListing⟩
    apply (mem_listings_iff isLevel_root areFound).mpr
    exact ⟨directory, admitted, Nat.zero_le _, by omega, isListing⟩

/-- Every walk with a queue ends, and it ends as the listings do. If no question is refused, all
queues lead to the empty one, and what was looked at by then are the admitted directories within
the limit, each once. -/
theorem queue_runs_empty (walk : Walk) (maxDepth : Int) :
    (WellFounded fun next queue => Step walk maxDepth queue next) ∧
    (∃ last, start.Reaches walk maxDepth last ∧
      last.Ends walk (walk.listings maxDepth.toNat [[]])) ∧
    ((∀ directory, walk.Visits maxDepth directory → ¬walk.Refused directory) →
      ∃ seen, walk.listings maxDepth.toNat [[]] = .ok seen ∧
        (∀ queue, start.Reaches walk maxDepth queue → queue.Reaches walk maxDepth ⟨[], seen⟩) ∧
        (seen.map (·.directory)).Nodup ∧
        ∀ directory, directory ∈ seen.map (·.directory) ↔ walk.Visits maxDepth directory) := by
  refine ⟨wellFounded_step walk maxDepth, exists_ends walk maxDepth, ?_⟩
  intro notRefused
  rcases undisturbed_iff.mp (undisturbed_iff_not_refused.mpr notRefused) with ⟨seen, areSeen⟩
  refine ⟨seen, areSeen, ?_, ?_, fun _ => mem_directories_iff areSeen⟩
  · rcases exists_ends walk maxDepth with ⟨last, reaches, ends⟩
    intro queue reaches'
    have further := reaches_of_ends reaches ends reaches'
    rw [areSeen] at ends
    cases ends with
    | empty _ => exact further
  · apply nodup_of_pairwise
    exact pairwise_directories isLevel_root (List.pairwise_singleton _ _) areSeen

/-- The link leads back to the root, and yet only two directories are looked at. -/
theorem queue_runs_empty_loopWalk :
    ∃ seen, start.Reaches loopWalk 1 ⟨[], seen⟩ ∧ (seen.map (·.directory)).Nodup ∧
      ∀ directory, directory ∈ seen.map (·.directory) ↔ directory = [] ∨ directory = ["loop"] := by
  have notRefused : ∀ directory, loopWalk.Visits 1 directory → ¬loopWalk.Refused directory :=
    undisturbed_iff_not_refused.mp undisturbed_loopWalk
  rcases (queue_runs_empty loopWalk 1).2.2 notRefused with ⟨seen, _, reaches, isNodup, isVisited⟩
  refine ⟨seen, reaches start ReflTransGen.refl, isNodup, ?_⟩
  intro directory
  rw [isVisited]
  constructor
  · intro visits
    rcases visits.root_or_below with isRoot | ⟨name, rfl, lists, isDirectory, _⟩
    · exact Or.inl isRoot
    · rcases lists with ⟨names, areNames, isListed⟩
      cases (list_loopWalk (Or.inl rfl)).symm.trans areNames
      rcases List.mem_pair.mp isListed with rfl | rfl
      · have notDirectory : loopWalk.fs.isDirectory (loopWalk.root.append ["f"]) = .ok false := by
          decide +kernel
        cases notDirectory.symm.trans isDirectory
      · exact Or.inr rfl
  · rintro (rfl | rfl)
    · exact visits_root loopWalk 1
    · have isDirectory : loopWalk.IsDirectory ["loop"] := by
        unfold IsDirectory
        decide +kernel
      have lists : loopWalk.Lists [] "loop" := ⟨_, list_loopWalk (Or.inl rfl), by decide⟩
      exact ⟨Admitted.listed Admitted.root lists isDirectory rfl, by decide⟩

/-! ## A walk that is given up -/

theorem advance_parents (fs : FileSystem) (count : Nat) (names : List String) :
    fs.advance [] (List.replicate count ".." ++ names) = fs.advance [] names := by
  induction count with
  | zero => rfl
  | succ count inductionHypothesis =>
      rw [List.replicate_succ, List.cons_append, FileSystem.advance]
      exact inductionHypothesis

theorem utf8ByteSize_text_root (names : List String) :
    (Path.text ⟨.root, names⟩).utf8ByteSize = (slashed names).utf8ByteSize + 1 := by
  have isText : Path.text ⟨.root, names⟩ = "/" ++ slashed names := rfl
  have isSlash : "/".utf8ByteSize = 1 := by decide
  rw [isText, String.utf8ByteSize_append, isSlash, Nat.add_comm]

theorem utf8ByteSize_parents (count : Nat) :
    (Path.text ⟨.root, List.replicate (count + 1) ".."⟩).utf8ByteSize = 3 * (count + 1) := by
  have areDots : "..".utf8ByteSize = 2 := by decide
  rw [utf8ByteSize_text_root, utf8ByteSize_slashed_replicate, areDots, Nat.mul_comm]

theorem utf8ByteSize_parents_concat (count : Nat) (name : String) :
    (Path.text ⟨.root, List.replicate (count + 1) ".." ++ [name]⟩).utf8ByteSize =
      3 * (count + 1) + 1 + name.utf8ByteSize := by
  have isSlash : "/".utf8ByteSize = 1 := by decide
  have isSize := utf8ByteSize_parents count
  rw [utf8ByteSize_text_root] at isSize ⊢
  rw [slashed_concat (by simp), String.utf8ByteSize_append, String.utf8ByteSize_append, isSlash]
  omega

/-- Names for the parent of the root only make a path longer. -/
theorem find_parents {fs : FileSystem} {count : Nat} {names : List String}
    (isShort : (Path.text ⟨.root, List.replicate count ".." ++ names⟩).utf8ByteSize <
      FileSystem.tooLong)
    (isShorter : (Path.text ⟨.root, names⟩).utf8ByteSize < FileSystem.tooLong) :
    fs.find ⟨.root, List.replicate count ".." ++ names⟩ = fs.find ⟨.root, names⟩ := by
  have sameNul : ((List.replicate count ".." ++ names).any
      fun name => name.toList.contains '\x00') =
        names.any fun name => name.toList.contains '\x00' := by
    simp
  have sameTrail : fs.trailFrom [] (List.replicate count ".." ++ names) =
      fs.trailFrom [] names :=
    FileSystem.follow_congr (advance_parents fs count names)
  simp only [FileSystem.find, FileSystem.locate, sameNul, Nat.not_le.mpr isShort,
    Nat.not_le.mpr isShorter, FileSystem.start, sameTrail]

theorem list_congr {fs : FileSystem} {path other : Path} (same : fs.find path = fs.find other) :
    fs.list path = fs.list other := by
  simp only [FileSystem.list, same]

theorem isDirectory_congr {fs : FileSystem} {path other : Path}
    (same : fs.find path = fs.find other) : fs.isDirectory path = fs.isDirectory other := by
  simp only [FileSystem.isDirectory, FileSystem.find?, same]

/-- A directory with a file in it, and a pipe with a longer name. -/
def distantFiles : FileSystem :=
  ⟨[(⟨"i", by decide⟩, .node (.directory false) [(⟨"z", by decide⟩, .node (.file [] false) [])]),
    (⟨"zigzag", by decide⟩, .node .fifo [])], []⟩

/-- A walk whose root is spelled so long that the path of the pipe is too long. -/
def distantWalk : Walk :=
  ⟨distantFiles, ⟨[]⟩, ⟨.root, List.replicate 1363 ".."⟩⟩

theorem find_distantWalk {name : String} (isShort : name.utf8ByteSize < 6) :
    distantFiles.find (distantWalk.root.append [name]) = distantFiles.find ⟨.root, [name]⟩ := by
  have isShorter : (Path.text ⟨.root, [name]⟩).utf8ByteSize < FileSystem.tooLong := by
    rw [utf8ByteSize_text_root, slashed_singleton, FileSystem.tooLong]
    omega
  apply find_parents _ isShorter
  rw [utf8ByteSize_parents_concat 1362 name, FileSystem.tooLong]
  omega

theorem find_root_distantWalk :
    distantFiles.find (distantWalk.root.append []) = distantFiles.find ⟨.root, []⟩ := by
  apply find_parents
  · rw [List.append_nil, utf8ByteSize_parents 1362, FileSystem.tooLong]
    omega
  · decide

theorem isDirectory_pipe_distantWalk :
    distantFiles.isDirectory (distantWalk.root.append ["zigzag"]) = .error .nameTooLong := by
  have isTooLong : FileSystem.tooLong ≤ (distantWalk.root.append ["zigzag"]).text.utf8ByteSize := by
    have isSize := utf8ByteSize_parents_concat 1362 "zigzag"
    have isName : "zigzag".utf8ByteSize = 6 := by decide
    rw [isName] at isSize
    exact Nat.le_of_eq isSize.symm
  have nulFree : (distantWalk.root.append ["zigzag"]).NulFree := by
    intro name isName
    rcases List.mem_append.mp isName with isParent | isLast
    · rw [List.eq_of_mem_replicate isParent]
      decide
    · rw [List.mem_singleton.mp isLast]
      decide
  have isFound : distantFiles.find (distantWalk.root.append ["zigzag"]) = .error .nameTooLong := by
    rw [FileSystem.find, FileSystem.locate_of_tooLong nulFree isTooLong]
    rfl
  apply Sequence.map_eq_error_iff.mpr
  exact FileSystem.find?_eq_error_iff.mpr ⟨.nameTooLong, isFound⟩

theorem list_distantWalk :
    distantWalk.fs.list (distantWalk.root.append []) = .ok ["i", "zigzag"] ∧
      distantWalk.fs.list (distantWalk.root.append ["i"]) = .ok ["z"] := by
  have atRoot : distantFiles.root.names = ["i", "zigzag"] :=
    List.mergeSort_of_pairwise (l := ["i", "zigzag"]) (by decide)
  have listRoot : distantFiles.list ⟨.root, []⟩ = .ok ["i", "zigzag"] := by
    rw [← atRoot]
    rfl
  have listBelow : distantFiles.list ⟨.root, ["i"]⟩ = .ok ["z"] := by
    decide +kernel
  constructor
  · exact (list_congr find_root_distantWalk).trans listRoot
  · exact (list_congr (find_distantWalk (by decide))).trans listBelow

theorem admitted_distantWalk : distantWalk.Admitted ["i"] := by
  have isDirectory : distantFiles.isDirectory ⟨.root, ["i"]⟩ = .ok true := by
    decide +kernel
  refine Admitted.listed Admitted.root ⟨_, list_distantWalk.1, by decide⟩ ?_ rfl
  exact (isDirectory_congr (find_distantWalk (by decide))).trans isDirectory

/-- The question for the pipe is refused, so nothing is looked at. -/
theorem look_distantWalk (listing : Listing) : distantWalk.look [] ≠ .ok listing := by
  intro isListing
  rcases exists_look_iff_answered.mp ⟨listing, isListing⟩ with ⟨names, areNames, answers⟩
  cases list_distantWalk.1.symm.trans areNames
  rcases answers "zigzag" (by decide) with ⟨isDirectory, isAnswer, _⟩
  cases isDirectory_pipe_distantWalk.symm.trans isAnswer

/-- Each directory that the walk admits can be listed, and yet the one below the root is never taken
out of the queue. -/
theorem queue_stays_full_distantWalk :
    (∀ directory, distantWalk.Visits 1 directory →
      ∃ names, distantWalk.fs.list (distantWalk.root.append directory) = .ok names) ∧
    distantWalk.Visits 1 ["i"] ∧
    ∀ queue, start.Reaches distantWalk 1 queue →
      queue.waiting ≠ [] ∧ ["i"] ∉ queue.seen.map (·.directory) := by
  refine ⟨?_, ⟨admitted_distantWalk, by decide⟩, ?_⟩
  · intro directory visits
    rcases visits.root_or_below with rfl | ⟨name, rfl, ⟨names, areNames, isListed⟩, isDirectory, _⟩
    · exact ⟨_, list_distantWalk.1⟩
    · cases list_distantWalk.1.symm.trans areNames
      rcases List.mem_pair.mp isListed with rfl | rfl
      · exact ⟨_, list_distantWalk.2⟩
      · cases isDirectory_pipe_distantWalk.symm.trans isDirectory
  · intro queue reaches
    rcases ReflTransGen.cases_head reaches with rfl | ⟨next, step, _⟩
    · exact ⟨by simp [start], by simp [start]⟩
    · cases step with
      | look isListing => exact absurd isListing (look_distantWalk _)

end DeclIndex.Walk
