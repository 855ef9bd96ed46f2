import DeclIndex.FileSystem.Resolve
import DeclIndex.Proofs.FileSystem.Steps
import DeclIndex.Proofs.Path.Names

/-!
# Resolving leads where following leads

Names that are followed to the end of a trail are resolved to the location of the trail, spelled
from the root (`FileSystem.resolveWithin_of_steps`). The proof goes along the steps and keeps two
facts about the links that were met. A finished link is kept with the place where it leads
(`FileSystem.Finished`). A link under way leads through at least as many links as are still to come
(`FileSystem.Pending`), so none of those is the link itself, and no loop is reported.

A link whose spelling is too long is not seen while resolving. So all links on the way must be short
enough, and the place itself too, or else the resolved path cannot be looked at.
-/

namespace DeclIndex.FileSystem

/-- The spot of a location that is spelled from the root. -/
def Spot.ofLocation (location : Location) : Spot :=
  ⟨.root false, location⟩

/-- The path of a location that is spelled from the root. -/
def pathOf (location : Location) : Path :=
  ⟨.root, location.reverse⟩

/-- The path of a location is short enough to be looked at. -/
def IsShort (location : Location) : Prop :=
  (pathOf location).text.utf8ByteSize < tooLong

instance (location : Location) : Decidable (IsShort location) :=
  inferInstanceAs (Decidable (_ < _))

variable {fs : FileSystem} {trail reached other : Trail} {names rest : List String}
  {met inner : List Location} {links : Links} {depth : Nat} {name target : String} {tree : Tree}
  {spot : Spot} {location : Location}

theorem Spot.spelling_ofLocation (location : Location) :
    (ofLocation location).spelling = pathOf location := rfl

theorem Spot.child_ofLocation (location : Location) (name : String) :
    (ofLocation location).child name = .ofLocation (name :: location) := rfl

theorem Spot.path_ofLocation (workingDirectory location : Location) :
    (ofLocation location).path workingDirectory [] = pathOf location := rfl

/-! ## Trails without links -/

/-- A trail that the names of its location lead along: it holds no link and leaves no closed
directory. -/
inductive Direct (fs : FileSystem) : Trail → Prop where
  | root : Direct fs []
  | child {trail : Trail} {name : String} {tree : Tree} (enters : fs.Enters trail name tree)
      (notLink : ∀ target, tree.entry ≠ .link target) (above : Direct fs trail) :
      Direct fs ((name, tree) :: trail)

theorem Direct.isTrail (direct : fs.Direct trail) : fs.IsTrail trail := by
  induction direct with
  | root => exact isTrail_nil fs
  | child enters _ _ inductionHypothesis =>
      exact isTrail_cons_iff.mpr ⟨inductionHypothesis, enters.isChild⟩

theorem Direct.tail (direct : fs.Direct trail) : fs.Direct trail.tail := by
  cases direct with
  | root => exact Direct.root
  | child _ _ above => exact above

theorem Direct.targetStart (direct : fs.Direct trail) (target : String) :
    fs.Direct (targetStart trail target) := by
  rw [FileSystem.targetStart]
  split
  · exact Direct.root
  · exact direct

/-- Following names replaces all links and leaves no closed directory. -/
theorem Steps.direct (steps : fs.Steps trail names reached met) (direct : fs.Direct trail) :
    fs.Direct reached := by
  induction steps with
  | done => exact direct
  | self _ _ _ _ inductionHypothesis => exact inductionHypothesis direct
  | parent _ _ _ inductionHypothesis => exact inductionHypothesis direct.tail
  | child enters notLink _ inductionHypothesis =>
      exact inductionHypothesis (direct.child enters notLink)
  | link _ _ _ _ insideHypothesis furtherHypothesis =>
      exact furtherHypothesis (insideHypothesis (direct.targetStart _))

theorem isDirectory_of_child? (isChild : (fs.treeAt trail).child? name = some tree) :
    (fs.treeAt trail).entry.isDirectory = true := by
  rcases Option.map_eq_some_iff.mp isChild with ⟨child, isFound, _⟩
  have isMember := List.mem_of_find?_eq_some isFound
  cases isTree : fs.treeAt trail with
  | node entry below =>
      rw [isTree, Tree.children] at isMember
      split at isMember
      · assumption
      · cases isMember

theorem enters_of_child? (isOpen : (fs.treeAt trail).entry.isClosed = false)
    (isChild : (fs.treeAt trail).child? name = some tree) : fs.Enters trail name tree := by
  rcases Entry.isName_iff.mp (Tree.isName_of_child? isChild) with
    ⟨notSelf, notParent, _, _, isShort⟩
  exact ⟨isDirectory_of_child? isChild, isOpen, notSelf, notParent, isShort, isChild⟩

/-- The names of a direct trail lead along the trail. -/
theorem Direct.advance (direct : fs.Direct trail) (rest : List String) :
    fs.advance [] (trail.location.reverse ++ rest) = fs.advance trail rest := by
  induction direct generalizing rest with
  | root => rfl
  | @child trail name tree enters notLink _ inductionHypothesis =>
      have alongTrail := inductionHypothesis (name :: rest)
      rw [enters.advance_child notLink] at alongTrail
      simpa [Trail.location] using alongTrail

/-! ## Links in the tree -/

theorem linkTarget?_eq (direct : fs.Direct trail) (isShort : IsShort (name :: trail.location)) :
    fs.linkTarget? (.ofLocation (name :: trail.location)) =
      match fs.advance trail [name] with
      | .ok (.link _ target []) => some target
      | _ => none := by
  have isStart : fs.trail? (fs.start (pathOf (name :: trail.location))) = some [] := rfl
  have areNames : (pathOf (name :: trail.location)).names = trail.location.reverse ++ [name] :=
    List.reverse_cons
  rw [linkTarget?, Spot.spelling_ofLocation, if_neg (Nat.not_le_of_lt isShort), isStart,
    Option.map_some, areNames, direct.advance]
  rcases fs.advance trail [name] with failure | progress
  · rfl
  · rcases progress with _ | ⟨_, _, _ | ⟨_, _⟩⟩ <;> rfl

/-- A link whose place is too long is not seen. -/
theorem linkTarget?_of_tooLong (isLong : ¬IsShort location) :
    fs.linkTarget? (.ofLocation location) = none := by
  rw [linkTarget?, Spot.spelling_ofLocation, if_pos (Nat.le_of_not_lt isLong)]

theorem linkTarget?_of_notLink (direct : fs.Direct trail) (enters : fs.Enters trail name tree)
    (notLink : ∀ target, tree.entry ≠ .link target) :
    fs.linkTarget? (.ofLocation (name :: trail.location)) = none := by
  by_cases isShort : IsShort (name :: trail.location)
  · rw [linkTarget?_eq direct isShort, enters.advance_child notLink]
    rfl
  · exact linkTarget?_of_tooLong isShort

theorem linkTarget?_of_isLink (direct : fs.Direct trail) (enters : fs.Enters trail name tree)
    (isLink : tree.entry = .link target) (isShort : IsShort (name :: trail.location)) :
    fs.linkTarget? (.ofLocation (name :: trail.location)) = some target := by
  rw [linkTarget?_eq direct isShort, enters.advance_link isLink]

theorem Enters.noNul (enters : fs.Enters trail name tree) : '\x00' ∉ name.toList :=
  Entry.nulByte_notMem_of_isName (Tree.isName_of_child? enters.isChild)

/-- The link at a location leads to the end of a trail, through some further links. -/
inductive LinkLeads (fs : FileSystem) : Location → Trail → List Location → Prop where
  | intro {trail reached : Trail} {name target : String} {tree : Tree} {inner : List Location}
      (direct : fs.Direct trail) (enters : fs.Enters trail name tree)
      (isLink : tree.entry = .link target)
      (inside : fs.Steps (targetStart trail target) (components target) reached inner) :
      LinkLeads fs (name :: trail.location) reached inner

theorem LinkLeads.unique {inner' : List Location} (leads : fs.LinkLeads location reached inner)
    (leads' : fs.LinkLeads location other inner') : reached = other ∧ inner = inner' := by
  cases leads with
  | @intro trail _ name _ _ _ direct enters isLink inside =>
      -- The location says which trail the link lies at, so both ways go through the same link.
      generalize isPlace : name :: trail.location = place at leads'
      cases leads' with
      | intro direct' enters' isLink' inside' =>
          rcases List.cons.inj isPlace with ⟨rfl, sameLocation⟩
          have sameTrail :=
            direct.isTrail.symm.trans ((congrArg fs.trail? sameLocation).trans direct'.isTrail)
          cases sameTrail
          cases enters.unique enters'
          cases isLink.symm.trans isLink'
          exact inside.unique inside'

/-! ## One name -/

theorem targetSpot_ofLocation (trail : Trail) (target : String) :
    targetSpot (.ofLocation trail.location) target =
      .ofLocation (targetStart trail target).location := by
  rw [targetSpot, targetStart]
  split
  · rfl
  · rfl

theorem resolveWithin_nil (depth : Nat) (links : Links) (spot : Spot) :
    fs.resolveWithin depth links spot [] = .resolved spot links := by
  cases depth <;> rfl

theorem resolveWithin_self (depth : Nat) (links : Links) (spot : Spot)
    (isSelf : Location.isSelf name = true) :
    fs.resolveWithin depth links spot (name :: rest) = fs.resolveWithin depth links spot rest := by
  cases depth <;> simp [resolveWithin, resolveNames, isSelf]

theorem resolveWithin_parent (depth : Nat) (links : Links) (trail : Trail) :
    fs.resolveWithin depth links (.ofLocation trail.location) (".." :: rest) =
      fs.resolveWithin depth links (.ofLocation (Trail.location trail.tail)) rest := by
  have isParent : (Spot.ofLocation trail.location).parent =
      .ofLocation (Trail.location trail.tail) := by
    cases trail <;> rfl
  have notSelf : Location.isSelf ".." = false := rfl
  cases depth <;> simp [resolveWithin, resolveNames, isParent, notSelf]

/-- A name that is not taken for a link is kept. -/
theorem resolveWithin_kept (depth : Nat) (links : Links) (isName : Entry.isName name = true)
    (noTarget : fs.linkTarget? (.ofLocation (name :: location)) = none) :
    fs.resolveWithin depth links (.ofLocation location) (name :: rest) =
      fs.resolveWithin depth links (.ofLocation (name :: location)) rest := by
  rcases Entry.isName_iff.mp isName with ⟨notSelf, notParent, _, noNul, _⟩
  cases depth <;>
    simp [resolveWithin, resolveNames, notSelf, notParent, noNul, Spot.child_ofLocation, noTarget]

theorem resolveWithin_child (depth : Nat) (links : Links) (direct : fs.Direct trail)
    (enters : fs.Enters trail name tree) (notLink : ∀ target, tree.entry ≠ .link target) :
    fs.resolveWithin depth links (.ofLocation trail.location) (name :: rest) =
      fs.resolveWithin depth links (.ofLocation (name :: trail.location)) rest :=
  resolveWithin_kept depth links (Tree.isName_of_child? enters.isChild)
    (linkTarget?_of_notLink direct enters notLink)

theorem resolveWithin_known (depth : Nat) (direct : fs.Direct trail)
    (enters : fs.Enters trail name tree) (isLink : tree.entry = .link target)
    (isShort : IsShort (name :: trail.location))
    (isKnown : links.lookup (.ofLocation (name :: trail.location)) = some (some spot)) :
    fs.resolveWithin depth links (.ofLocation trail.location) (name :: rest) =
      fs.resolveWithin depth links spot rest := by
  have isTarget := linkTarget?_of_isLink direct enters isLink isShort
  cases depth <;>
    simp [resolveWithin, resolveNames, enters.notSelf, enters.notParent, enters.noNul,
      Spot.child_ofLocation, isTarget, isKnown]

theorem resolveWithin_new {links' : Links} (direct : fs.Direct trail)
    (enters : fs.Enters trail name tree) (isLink : tree.entry = .link target)
    (isShort : IsShort (name :: trail.location))
    (isNew : links.lookup (.ofLocation (name :: trail.location)) = none)
    (inside : fs.resolveWithin depth ((.ofLocation (name :: trail.location), none) :: links)
      (.ofLocation (targetStart trail target).location) (components target) =
        .resolved spot links') :
    fs.resolveWithin (depth + 1) links (.ofLocation trail.location) (name :: rest) =
      fs.resolveWithin (depth + 1)
        ((.ofLocation (name :: trail.location), some spot) :: links') spot rest := by
  have isTarget := linkTarget?_of_isLink direct enters isLink isShort
  rw [← targetSpot_ofLocation] at inside
  simp [resolveWithin, resolveNames, enters.notSelf, enters.notParent, enters.noNul,
    Spot.child_ofLocation, isTarget, isNew, inside]

/-! ## The links that were met -/

/-- Finished links are kept with the places where they lead. -/
def Finished (fs : FileSystem) (links : Links) : Prop :=
  ∀ ⦃location reached inner⦄, fs.LinkLeads location reached inner → ∀ ⦃spot⦄,
    links.lookup (.ofLocation location) = some (some spot) → spot = .ofLocation reached.location

/-- Links under way lead through at least as many links as are still to come. -/
def Pending (fs : FileSystem) (links : Links) (left : Nat) : Prop :=
  ∀ ⦃location reached inner⦄, fs.LinkLeads location reached inner →
    links.lookup (.ofLocation location) = some none → left ≤ inner.length

/-- Links that are under way afterwards were under way before. -/
def Settles (links links' : Links) : Prop :=
  ∀ ⦃spot⦄, links'.lookup spot = some none → links.lookup spot = some none

theorem lookup_cons_of_ne {next : Spot} (entry : Option Spot) (links : Links)
    (isOther : spot ≠ next) : List.lookup spot ((next, entry) :: links) = links.lookup spot := by
  rw [List.lookup_cons, beq_eq_false_iff_ne.mpr isOther]

theorem Pending.mono {left left' : Nat} (pending : fs.Pending links left) (isLess : left' ≤ left) :
    fs.Pending links left' := fun _ _ _ leads isPending =>
  Nat.le_trans isLess (pending leads isPending)

/-- A link is entered. -/
theorem Finished.enter (finished : fs.Finished links) (next : Spot) :
    fs.Finished ((next, none) :: links) := by
  intro location reached inner leads spot isFinished
  by_cases isNext : Spot.ofLocation location = next
  · rw [isNext, List.lookup_cons_self] at isFinished
    cases isFinished
  · rw [lookup_cons_of_ne none links isNext] at isFinished
    exact finished leads isFinished

theorem Pending.enter (pending : fs.Pending links inner.length)
    (leads : fs.LinkLeads location reached inner) :
    fs.Pending ((.ofLocation location, none) :: links) inner.length := by
  intro location' reached' inner' leads' isPending
  by_cases isNext : Spot.ofLocation location' = .ofLocation location
  · -- The link itself leads through just the links that are still to come.
    cases isNext
    rcases leads.unique leads' with ⟨_, rfl⟩
    exact Nat.le_refl _
  · rw [lookup_cons_of_ne none links isNext] at isPending
    exact pending leads' isPending

/-- A link is finished. -/
theorem Finished.leave (finished : fs.Finished links)
    (leads : fs.LinkLeads location reached inner) :
    fs.Finished ((.ofLocation location, some (.ofLocation reached.location)) :: links) := by
  intro location' reached' inner' leads' spot isFinished
  by_cases isNext : Spot.ofLocation location' = .ofLocation location
  · cases isNext
    rcases leads.unique leads' with ⟨rfl, _⟩
    rw [List.lookup_cons_self] at isFinished
    cases isFinished
    rfl
  · rw [lookup_cons_of_ne _ links isNext] at isFinished
    exact finished leads' isFinished

theorem Settles.leave {links' : Links} {next reached : Spot}
    (settles : Settles ((next, none) :: links) links') :
    Settles links ((next, some reached) :: links') := by
  intro spot isPending
  by_cases isNext : spot = next
  · rw [isNext, List.lookup_cons_self] at isPending
    cases isPending
  · rw [lookup_cons_of_ne _ links' isNext] at isPending
    have wasPending := settles isPending
    rwa [lookup_cons_of_ne none links isNext] at wasPending

theorem Pending.settle {links' : Links} {left : Nat} (pending : fs.Pending links left)
    (settles : Settles links links') : fs.Pending links' left := fun _ _ _ leads isPending =>
  pending leads (settles isPending)

/-! ## All names -/

/-- Names that lead to the end of a trail are resolved to its location. -/
theorem resolveWithin_of_steps (steps : fs.Steps trail names reached met)
    (direct : fs.Direct trail) (areShort : ∀ location ∈ met, IsShort location)
    (isDeep : met.length ≤ depth) (finished : fs.Finished links)
    (pending : fs.Pending links met.length) :
    ∃ links', fs.resolveWithin depth links (.ofLocation trail.location) names =
        .resolved (.ofLocation reached.location) links' ∧
      fs.Finished links' ∧ Settles links links' := by
  induction steps generalizing depth links with
  | done => exact ⟨links, resolveWithin_nil depth links _, finished, fun _ isPending => isPending⟩
  | self _ _ isSelf _ inductionHypothesis =>
      rw [resolveWithin_self depth links _ isSelf]
      exact inductionHypothesis direct areShort isDeep finished pending
  | parent _ _ _ inductionHypothesis =>
      rw [resolveWithin_parent]
      exact inductionHypothesis direct.tail areShort isDeep finished pending
  | child enters notLink _ inductionHypothesis =>
      rw [resolveWithin_child depth links direct enters notLink]
      exact inductionHypothesis (direct.child enters notLink) areShort isDeep finished pending
  | @link trail between reached name target tree rest inner met enters isLink inside further
      insideHypothesis furtherHypothesis =>
      have leads : fs.LinkLeads (name :: trail.location) between inner :=
        LinkLeads.intro direct enters isLink inside
      have directBetween : fs.Direct between := inside.direct (direct.targetStart target)
      rcases List.forall_mem_cons.mp areShort with ⟨isShort, areShort⟩
      rcases List.forall_mem_append.mp areShort with ⟨areShortInside, areShortFurther⟩
      rw [List.length_cons, List.length_append] at isDeep pending
      cases isEntry : links.lookup (.ofLocation (name :: trail.location)) with
      | none =>
          obtain ⟨depth, rfl⟩ : ∃ less, depth = less + 1 := ⟨depth - 1, by omega⟩
          have isDeepInside : inner.length ≤ depth := by omega
          have isDeepFurther : met.length ≤ depth + 1 := by omega
          have pendingInside : fs.Pending links inner.length := pending.mono (by omega)
          have pendingFurther : fs.Pending links met.length := pending.mono (by omega)
          rcases insideHypothesis (direct.targetStart target) areShortInside isDeepInside
            (finished.enter _) (pendingInside.enter leads) with
            ⟨linksInside, isInside, finished', settles⟩
          have settlesHere : Settles links
              ((.ofLocation (name :: trail.location), some (.ofLocation between.location)) ::
                linksInside) := settles.leave
          rcases furtherHypothesis directBetween areShortFurther isDeepFurther
            (finished'.leave leads) (pendingFurther.settle settlesHere) with
            ⟨links', isFurther, finished'', settles'⟩
          rw [resolveWithin_new direct enters isLink isShort isEntry isInside]
          exact ⟨links', isFurther, finished'',
            fun _ isPending => settlesHere (settles' isPending)⟩
      | some entry =>
          cases entry with
          | none =>
              -- A link under way leads through more links than there are.
              have isLeft := pending leads isEntry
              omega
          | some spot =>
              rw [resolveWithin_known depth direct enters isLink isShort isEntry,
                finished leads isEntry]
              exact furtherHypothesis directBetween areShortFurther (by omega) finished
                (pending.mono (by omega))

/-! ## Paths without links -/

/-- The names of a direct trail are resolved along the trail. -/
theorem Direct.resolveWithin (direct : fs.Direct trail) (depth : Nat) (links : Links)
    (rest : List String) :
    fs.resolveWithin depth links (.ofLocation []) (trail.location.reverse ++ rest) =
      fs.resolveWithin depth links (.ofLocation trail.location) rest := by
  induction direct generalizing rest with
  | root => rfl
  | @child trail name tree enters notLink above inductionHypothesis =>
      have alongTrail := inductionHypothesis (name :: rest)
      rw [resolveWithin_child depth links above enters notLink] at alongTrail
      simpa [Trail.location] using alongTrail

theorem isName_of_isTrail (isTrail : fs.IsTrail trail) :
    ∀ name ∈ trail.location, Entry.isName name = true := by
  induction trail with
  | nil => simp [Trail.location]
  | cons place trail inductionHypothesis =>
      rcases isTrail_cons_iff.mp isTrail with ⟨isTrail, isChild⟩
      exact List.forall_mem_cons.mpr ⟨Tree.isName_of_child? isChild, inductionHypothesis isTrail⟩

theorem nulFree_pathOf (isTrail : fs.IsTrail trail) : (pathOf trail.location).NulFree := by
  intro name isName
  exact Entry.nulByte_notMem_of_isName
    (isName_of_isTrail isTrail name (List.mem_reverse.mp isName))

theorem locate_of_tooLong {path : Path} (nulFree : path.NulFree)
    (isLong : tooLong ≤ path.text.utf8ByteSize) : fs.locate path = .error .nameTooLong := by
  have noNul : ¬(path.names.any fun name => name.toList.contains '\x00') = true := by
    simpa [Path.NulFree] using nulFree
  rw [locate, if_neg noNul, if_pos isLong]

theorem locate_pathOf (direct : fs.Direct trail) :
    fs.locate (pathOf trail.location) =
      if IsShort trail.location then .ok trail else .error .nameTooLong := by
  have nulFree := nulFree_pathOf direct.isTrail
  have arrives : fs.advance [] (pathOf trail.location).names = .ok (.arrived trail) := by
    have alongTrail := direct.advance []
    rwa [List.append_nil] at alongTrail
  have noNul : ¬((pathOf trail.location).names.any fun name =>
      name.toList.contains '\x00') = true := by
    simpa [Path.NulFree] using nulFree
  by_cases isShort : IsShort trail.location
  · rw [if_pos isShort, locate, if_neg noNul, if_neg (Nat.not_le_of_lt isShort)]
    exact follow_of_arrived arrives
  · rw [if_neg isShort]
    exact locate_of_tooLong nulFree (Nat.le_of_not_lt isShort)

theorem settle_ofLocation (direct : fs.Direct trail) :
    fs.settle (.ofLocation trail.location) [] = .ok (pathOf trail.location) := by
  have isRooted : (Spot.ofLocation trail.location).isRooted = true := rfl
  rw [settle, isRooted, Bool.true_or, if_pos rfl, Spot.path_ofLocation, checkLoop,
    locate_pathOf direct]
  by_cases isShort : IsShort trail.location
  · rw [if_pos isShort]
  · rw [if_neg isShort]

/-! ## Texts of paths -/

/-- Names for the directory itself may be left out. -/
theorem Steps.filter (steps : fs.Steps trail names reached met) :
    fs.Steps trail (names.filter fun name => !Location.isSelf name) reached met := by
  induction steps with
  | done trail => exact Steps.done trail
  | self _ _ isSelf _ inductionHypothesis =>
      rw [List.filter_cons_of_neg (by simp [isSelf])]
      exact inductionHypothesis
  | parent isDirectory isOpen _ inductionHypothesis =>
      rw [List.filter_cons_of_pos (by decide)]
      exact Steps.parent isDirectory isOpen inductionHypothesis
  | child enters notLink _ inductionHypothesis =>
      rw [List.filter_cons_of_pos (by simp [enters.notSelf])]
      exact Steps.child enters notLink inductionHypothesis
  | link enters isLink inside _ _ inductionHypothesis =>
      rw [List.filter_cons_of_pos (by simp [enters.notSelf])]
      exact Steps.link enters isLink inside inductionHypothesis

theorem Steps.noSlash (steps : fs.Steps trail names reached met) :
    ∀ name ∈ names, '/' ∉ name.toList := by
  induction steps with
  | done => simp
  | @self _ _ name _ _ _ _ isSelf _ inductionHypothesis =>
      have noSlash : '/' ∉ name.toList := by
        rcases Bool.or_eq_true_iff.mp isSelf with isEmpty | isDot
        · rw [beq_iff_eq.mp isEmpty]
          decide
        · rw [beq_iff_eq.mp isDot]
          decide
      exact List.forall_mem_cons.mpr ⟨noSlash, inductionHypothesis⟩
  | parent _ _ _ inductionHypothesis =>
      exact List.forall_mem_cons.mpr ⟨by decide, inductionHypothesis⟩
  | child enters _ _ inductionHypothesis =>
      exact List.forall_mem_cons.mpr
        ⟨Entry.noSlash_of_isName (Tree.isName_of_child? enters.isChild), inductionHypothesis⟩
  | link enters _ _ _ _ inductionHypothesis =>
      exact List.forall_mem_cons.mpr
        ⟨Entry.noSlash_of_isName (Tree.isName_of_child? enters.isChild), inductionHypothesis⟩

theorem resolve_of_steps {path : Path} (rooted : path.anchor ≠ .here)
    (steps : fs.Steps [] path.names reached met) (areShort : ∀ location ∈ met, IsShort location)
    (isLimited : met.length ≤ maxLinks) : fs.resolve path = .ok (pathOf reached.location) := by
  have isDeep : met.length ≤ maxNesting := Nat.le_trans isLimited (by decide)
  have noneFinished : fs.Finished [] := fun _ _ _ _ _ isFinished => by cases isFinished
  have nonePending : fs.Pending [] met.length := fun _ _ _ _ isPending => by cases isPending
  rcases resolveWithin_of_steps steps Direct.root areShort isDeep noneFinished nonePending with
    ⟨links, resolves, _⟩
  have isStart : startSpot path = .ofLocation (Trail.location []) := by
    cases isAnchor : path.anchor with
    | here => exact absurd isAnchor rooted
    | root | doubleRoot => simp only [startSpot, isAnchor]; rfl
  rw [resolve, isStart, resolves]
  exact settle_ofLocation (steps.direct Direct.root)

theorem exists_steps_of_rooted {path : Path} (rooted : path.anchor ≠ .here)
    (locates : fs.locate path = .ok reached) :
    ∃ met, fs.Steps [] path.names reached met ∧ met.length ≤ maxLinks := by
  rcases exists_steps_of_locate locates with ⟨trail, met, isStart, steps, isLimited⟩
  cases isAnchor : path.anchor with
  | here => exact absurd isAnchor rooted
  | root | doubleRoot =>
      simp only [start, isAnchor] at isStart
      cases isStart
      exact ⟨met, steps, isLimited⟩

/-- The text of a path from the root that leads somewhere is resolved to the place where it leads,
if no link on the way is too long to be seen. -/
theorem resolve_ofText_text {path : Path} (rooted : path.anchor ≠ .here)
    (steps : fs.Steps [] path.names reached met) (areShort : ∀ location ∈ met, IsShort location)
    (isLimited : met.length ≤ maxLinks) :
    fs.resolve (.ofText path.text) = .ok (pathOf reached.location) := by
  rcases Path.ofText_text rooted steps.noSlash with ⟨stillRooted, sameNames⟩
  have stepsOfText : fs.Steps [] (Path.ofText path.text).names reached met := by
    rw [sameNames]
    exact steps.filter
  exact resolve_of_steps stillRooted stepsOfText areShort isLimited

theorem anchor_of_resolve {path resolved : Path} (resolves : fs.resolve path = .ok resolved) :
    resolved.anchor ≠ .here := by
  have ofSettle : ∀ (spot : Spot) (rest : List String),
      fs.settle spot rest = .ok resolved → resolved.anchor ≠ .here := by
    intro spot rest settles
    have isPath : spot.path fs.workingDirectory rest = resolved := by
      rw [settle] at settles
      split at settles
      · rw [checkLoop] at settles
        split at settles
        · cases settles
        · cases settles
        · exact Except.ok.inj settles
      · cases settles
    rw [← isPath, Spot.path]
    split <;> simp
  rw [resolve] at resolves
  split at resolves
  · exact ofSettle _ _ resolves
  · exact ofSettle _ _ resolves
  · cases resolves
  · cases resolves

end DeclIndex.FileSystem
