import DeclIndex.Proofs.FileSystem.Queries

/-!
# Following names step by step

`FileSystem.follow` stops at each link and goes on with the names of its target before all others.
`FileSystem.Steps` describes the same way without a limit: the names of a target are followed to
their own end, then the other names from there. It keeps the places of the links that are met. A
path that is followed within some limit meets at most that many links
(`FileSystem.exists_steps_of_follow`), and there is one way only (`FileSystem.Steps.unique`).

A trail that is reached is the trail to its location, so what is found there depends on the location
alone (`FileSystem.exists_tree?_of_find`).
-/

namespace DeclIndex.FileSystem

open Sequence (bind_eq_ok_iff)

variable {fs : FileSystem} {trail reached other : Trail} {names others : List String}
  {met met' : List Location} {links cost : Nat} {name : String} {tree : Tree}

/-- A name other than those for the directory itself and its parent stands for a tree at the end
of a trail. -/
structure Enters (fs : FileSystem) (trail : Trail) (name : String) (tree : Tree) : Prop where
  isDirectory : (fs.treeAt trail).entry.isDirectory = true
  isOpen : (fs.treeAt trail).entry.isClosed = false
  notSelf : Location.isSelf name = false
  notParent : name ≠ ".."
  isShort : name.utf8ByteSize ≤ Entry.maxNameLength
  isChild : (fs.treeAt trail).child? name = some tree

/-- Names lead from the end of one trail to the end of another. The links at some locations are met
on the way. -/
inductive Steps (fs : FileSystem) : Trail → List String → Trail → List Location → Prop where
  | done (trail : Trail) : Steps fs trail [] trail []
  | self {trail reached : Trail} {name : String} {rest : List String} {met : List Location}
      (isDirectory : (fs.treeAt trail).entry.isDirectory = true)
      (isOpen : name ≠ "" → (fs.treeAt trail).entry.isClosed = false)
      (isSelf : Location.isSelf name = true) (further : Steps fs trail rest reached met) :
      Steps fs trail (name :: rest) reached met
  | parent {trail reached : Trail} {rest : List String} {met : List Location}
      (isDirectory : (fs.treeAt trail).entry.isDirectory = true)
      (isOpen : (fs.treeAt trail).entry.isClosed = false)
      (further : Steps fs trail.tail rest reached met) :
      Steps fs trail (".." :: rest) reached met
  | child {trail reached : Trail} {name : String} {tree : Tree} {rest : List String}
      {met : List Location} (enters : fs.Enters trail name tree)
      (notLink : ∀ target, tree.entry ≠ .link target)
      (further : Steps fs ((name, tree) :: trail) rest reached met) :
      Steps fs trail (name :: rest) reached met
  | link {trail between reached : Trail} {name target : String} {tree : Tree} {rest : List String}
      {inner met : List Location} (enters : fs.Enters trail name tree)
      (isLink : tree.entry = .link target)
      (inside : Steps fs (targetStart trail target) (components target) between inner)
      (further : Steps fs between rest reached met) :
      Steps fs trail (name :: rest) reached ((name :: trail.location) :: (inner ++ met))

theorem Enters.notEmpty (enters : fs.Enters trail name tree) : name ≠ "" := by
  rintro rfl
  cases enters.notSelf

theorem Enters.advance_child (enters : fs.Enters trail name tree)
    (notLink : ∀ target, tree.entry ≠ .link target) (rest : List String) :
    fs.advance trail (name :: rest) = fs.advance ((name, tree) :: trail) rest := by
  rw [advance]
  simp only [enters.isDirectory, if_true, enters.notEmpty, enters.isOpen, enters.notSelf,
    Bool.false_eq_true, if_false, beq_iff_eq, enters.notParent, Nat.not_lt.mpr enters.isShort,
    enters.isChild]

theorem Enters.advance_link {target : String} (enters : fs.Enters trail name tree)
    (isLink : tree.entry = .link target) (rest : List String) :
    fs.advance trail (name :: rest) = .ok (.link trail target rest) := by
  rw [advance]
  simp only [enters.isDirectory, if_true, enters.notEmpty, enters.isOpen, enters.notSelf,
    Bool.false_eq_true, if_false, beq_iff_eq, enters.notParent, Nat.not_lt.mpr enters.isShort,
    enters.isChild, isLink]

theorem follow_of_arrived (arrives : fs.advance trail names = .ok (.arrived reached)) :
    fs.follow links trail names = .ok reached := by
  cases links with
  | zero | succ _ =>
      rw [follow, arrives]
      rfl

theorem follow_of_link {directory : Trail} {target : String} {rest : List String}
    (advances : fs.advance trail names = .ok (.link directory target rest)) :
    fs.follow (links + 1) trail names =
      fs.follow links (targetStart directory target) (components target ++ rest) := by
  rw [follow, advances]
  rfl

theorem follow_congr {start : Trail} (same : fs.advance start others = fs.advance trail names) :
    fs.follow links start others = fs.follow links trail names := by
  cases links with
  | zero | succ _ => rw [follow, follow, same]

/-! ## The steps of a path -/

theorem Steps.of_append (steps : fs.Steps trail (names ++ others) reached met) :
    ∃ between first second, fs.Steps trail names between first ∧
      fs.Steps between others reached second ∧ met = first ++ second := by
  induction names generalizing trail met with
  | nil => exact ⟨trail, [], met, Steps.done trail, steps, rfl⟩
  | cons name names inductionHypothesis =>
      cases steps with
      | self isDirectory isOpen isSelf further =>
          rcases inductionHypothesis further with ⟨between, first, second, early, late, rfl⟩
          exact ⟨between, first, second, Steps.self isDirectory isOpen isSelf early, late, rfl⟩
      | parent isDirectory isOpen further =>
          rcases inductionHypothesis further with ⟨between, first, second, early, late, rfl⟩
          exact ⟨between, first, second, Steps.parent isDirectory isOpen early, late, rfl⟩
      | child enters notLink further =>
          rcases inductionHypothesis further with ⟨between, first, second, early, late, rfl⟩
          exact ⟨between, first, second, Steps.child enters notLink early, late, rfl⟩
      | link enters isLink inside further =>
          rcases inductionHypothesis further with ⟨between, first, second, early, late, rfl⟩
          exact ⟨between, _, second, Steps.link enters isLink inside early, late, by simp⟩

/-- What is still to be followed leads to the end of a trail, through so many links. -/
def Progress.Reaches (fs : FileSystem) : Progress → Trail → Nat → Prop
  | .arrived trail, reached, cost => trail = reached ∧ cost = 0
  | .link directory target rest, reached, cost =>
    ∃ met, fs.Steps (targetStart directory target) (components target ++ rest) reached met ∧
      cost = met.length + 1

theorem enters_of_advance (isDirectory : (fs.treeAt trail).entry.isDirectory = true)
    (isOpen : ¬(fs.treeAt trail).entry.isClosed = true) (notSelf : ¬Location.isSelf name = true)
    (notParent : ¬(name == "..") = true) (isShort : ¬Entry.maxNameLength < name.utf8ByteSize)
    (isChild : (fs.treeAt trail).child? name = some tree) : fs.Enters trail name tree :=
  ⟨isDirectory, by simpa using isOpen, by simpa using notSelf, by simpa using notParent,
    Nat.le_of_not_lt isShort, isChild⟩

theorem exists_steps_of_advance {progress : Progress}
    (advances : fs.advance trail names = .ok progress)
    (reaches : progress.Reaches fs reached cost) :
    ∃ met, fs.Steps trail names reached met ∧ met.length = cost := by
  fun_induction advance fs trail names with
  | case1 trail =>
      cases advances
      rcases reaches with ⟨rfl, rfl⟩
      exact ⟨[], Steps.done _, rfl⟩
  | case2 trail name rest here isDirectory isEmpty inductionHypothesis =>
      rw [beq_iff_eq] at isEmpty
      subst isEmpty
      rcases inductionHypothesis advances with ⟨met, steps, isCost⟩
      exact ⟨met, Steps.self isDirectory (absurd rfl) rfl steps, isCost⟩
  | case4 trail name rest here isDirectory _ isOpen isSelf inductionHypothesis =>
      rw [Bool.not_eq_true] at isOpen
      rcases inductionHypothesis advances with ⟨met, steps, isCost⟩
      exact ⟨met, Steps.self isDirectory (fun _ => isOpen) isSelf steps, isCost⟩
  | case5 trail name rest here isDirectory _ isOpen notSelf isParent inductionHypothesis =>
      rw [Bool.not_eq_true] at isOpen
      rw [beq_iff_eq] at isParent
      subst isParent
      rcases inductionHypothesis advances with ⟨met, steps, isCost⟩
      exact ⟨met, Steps.parent isDirectory isOpen steps, isCost⟩
  | case3 | case6 | case7 | case10 => cases advances
  | case8 trail name rest here isDirectory _ isOpen notSelf notParent isShort tree isChild target
      isLink =>
      cases advances
      have enters := enters_of_advance isDirectory isOpen notSelf notParent isShort isChild
      rcases reaches with ⟨more, steps, rfl⟩
      rcases steps.of_append with ⟨between, inner, met, inside, further, rfl⟩
      exact ⟨_, Steps.link enters isLink inside further, rfl⟩
  | case9 trail name rest here isDirectory _ isOpen notSelf notParent isShort tree isChild notLink
      inductionHypothesis =>
      have enters := enters_of_advance isDirectory isOpen notSelf notParent isShort isChild
      rcases inductionHypothesis advances with ⟨met, steps, isCost⟩
      exact ⟨met, Steps.child enters notLink steps, isCost⟩

/-- Names that are followed within a limit meet no more links than that. -/
theorem exists_steps_of_follow (follows : fs.follow links trail names = .ok reached) :
    ∃ met, fs.Steps trail names reached met ∧ met.length ≤ links := by
  induction links generalizing trail names with
  | zero =>
      rcases bind_eq_ok_iff.mp follows with ⟨progress, advances, isReached⟩
      cases progress with
      | arrived trail =>
          cases isReached
          rcases exists_steps_of_advance advances ⟨rfl, rfl⟩ with ⟨met, steps, isCost⟩
          exact ⟨met, steps, Nat.le_of_eq isCost⟩
      | link directory target rest => cases isReached
  | succ links inductionHypothesis =>
      rcases bind_eq_ok_iff.mp follows with ⟨progress, advances, isReached⟩
      cases progress with
      | arrived trail =>
          cases isReached
          rcases exists_steps_of_advance advances ⟨rfl, rfl⟩ with ⟨met, steps, isCost⟩
          exact ⟨met, steps, by omega⟩
      | link directory target rest =>
          rcases inductionHypothesis isReached with ⟨more, further, isLimited⟩
          rcases exists_steps_of_advance advances ⟨more, further, rfl⟩ with ⟨met, steps, isCost⟩
          exact ⟨met, steps, by omega⟩

theorem Enters.unique {tree' : Tree} (enters : fs.Enters trail name tree)
    (enters' : fs.Enters trail name tree') : tree = tree' :=
  Option.some.inj (enters.isChild.symm.trans enters'.isChild)

/-- There is one way only. -/
theorem Steps.unique (steps : fs.Steps trail names reached met)
    (steps' : fs.Steps trail names other met') : reached = other ∧ met = met' := by
  induction steps generalizing other met' with
  | done =>
      cases steps'
      exact ⟨rfl, rfl⟩
  | self _ _ isSelf _ inductionHypothesis =>
      cases steps' with
      | self _ _ _ further' => exact inductionHypothesis further'
      | parent _ _ _ => cases isSelf
      | child enters' _ _ | link enters' _ _ _ => cases isSelf.symm.trans enters'.notSelf
  | parent _ _ _ inductionHypothesis =>
      cases steps' with
      | self _ _ isSelf' _ => cases isSelf'
      | parent _ _ further' => exact inductionHypothesis further'
      | child enters' _ _ | link enters' _ _ _ => exact absurd rfl enters'.notParent
  | child enters notLink _ inductionHypothesis =>
      cases steps' with
      | self _ _ isSelf' _ => cases isSelf'.symm.trans enters.notSelf
      | parent _ _ _ => exact absurd rfl enters.notParent
      | child enters' _ further' =>
          cases enters.unique enters'
          exact inductionHypothesis further'
      | link enters' isLink' _ _ =>
          cases enters.unique enters'
          exact absurd isLink' (notLink _)
  | link enters isLink _ _ insideHypothesis furtherHypothesis =>
      cases steps' with
      | self _ _ isSelf' _ => cases isSelf'.symm.trans enters.notSelf
      | parent _ _ _ => exact absurd rfl enters.notParent
      | child enters' notLink' _ =>
          cases enters.unique enters'
          exact absurd isLink (notLink' _)
      | link enters' isLink' inside' further' =>
          cases enters.unique enters'
          cases isLink.symm.trans isLink'
          rcases insideHypothesis inside' with ⟨rfl, rfl⟩
          rcases furtherHypothesis further' with ⟨rfl, rfl⟩
          exact ⟨rfl, rfl⟩

/-! ## Trails to locations -/

/-- The trail goes along the trees that stand at its locations. -/
def IsTrail (fs : FileSystem) (trail : Trail) : Prop :=
  fs.trail? trail.location = some trail

theorem isTrail_nil (fs : FileSystem) : fs.IsTrail [] := rfl

theorem isTrail_cons_iff :
    fs.IsTrail ((name, tree) :: trail) ↔
      fs.IsTrail trail ∧ (fs.treeAt trail).child? name = some tree := by
  simp only [IsTrail, Trail.location, List.map_cons, trail?, bind, Option.bind_eq_some_iff, pure,
    Option.some.injEq, List.cons.injEq, Prod.mk.injEq, true_and]
  constructor
  · rintro ⟨_, isTrail, _, isChild, rfl, rfl⟩
    exact ⟨isTrail, isChild⟩
  · rintro ⟨isTrail, isChild⟩
    exact ⟨trail, isTrail, tree, isChild, rfl, rfl⟩

theorem IsTrail.tail (isTrail : fs.IsTrail trail) : fs.IsTrail trail.tail := by
  cases trail with
  | nil => exact isTrail
  | cons place trail => exact (isTrail_cons_iff.mp isTrail).1

theorem isTrail_of_trail? {location : Location} (isTrail : fs.trail? location = some trail) :
    fs.IsTrail trail ∧ trail.location = location := by
  induction location generalizing trail with
  | nil =>
      cases isTrail
      exact ⟨isTrail_nil fs, rfl⟩
  | cons name location inductionHypothesis =>
      simp only [trail?, bind, Option.bind_eq_some_iff, pure, Option.some.injEq] at isTrail
      rcases isTrail with ⟨above, isAbove, tree, isChild, rfl⟩
      rcases inductionHypothesis isAbove with ⟨isTrail, rfl⟩
      exact ⟨isTrail_cons_iff.mpr ⟨isTrail, isChild⟩, rfl⟩

/-- At the place that a trail leads to stands the tree at its end. -/
theorem IsTrail.entry?_location (isTrail : fs.IsTrail trail) :
    fs.entry? trail.location = some (fs.treeAt trail).entry := by
  unfold entry? tree?
  rw [isTrail]
  rfl

theorem IsTrail.entry?_cons (isTrail : fs.IsTrail trail) (name : String) :
    fs.entry? (name :: trail.location) = ((fs.treeAt trail).child? name).map Tree.entry := by
  cases isChild : (fs.treeAt trail).child? name with
  | none =>
      unfold entry? tree?
      rw [trail?, isTrail]
      simp [isChild]
  | some tree => exact (isTrail_cons_iff.mpr ⟨isTrail, isChild⟩).entry?_location

theorem IsTrail.targetStart (isTrail : fs.IsTrail trail) (target : String) :
    fs.IsTrail (targetStart trail target) := by
  rw [FileSystem.targetStart]
  split
  · exact isTrail_nil fs
  · exact isTrail

theorem Steps.isTrail (steps : fs.Steps trail names reached met) (isTrail : fs.IsTrail trail) :
    fs.IsTrail reached := by
  induction steps with
  | done => exact isTrail
  | self _ _ _ _ inductionHypothesis => exact inductionHypothesis isTrail
  | parent _ _ _ inductionHypothesis => exact inductionHypothesis isTrail.tail
  | child enters _ _ inductionHypothesis =>
      exact inductionHypothesis (isTrail_cons_iff.mpr ⟨isTrail, enters.isChild⟩)
  | link _ _ _ _ insideHypothesis furtherHypothesis =>
      exact furtherHypothesis (insideHypothesis (isTrail.targetStart _))

theorem exists_steps_of_locate {path : Path} (locates : fs.locate path = .ok reached) :
    ∃ trail met, fs.trail? (fs.start path) = some trail ∧
      fs.Steps trail path.names reached met ∧ met.length ≤ maxLinks := by
  rw [locate] at locates
  split at locates
  · cases locates
  split at locates
  · cases locates
  rw [trailFrom] at locates
  split at locates
  next trail isStart =>
    rcases exists_steps_of_follow locates with ⟨met, steps, isLimited⟩
    exact ⟨trail, met, isStart, steps, isLimited⟩
  next => cases locates

/-- What a path leads to stands at some location. -/
theorem exists_tree?_of_find {path : Path} {tree : Tree} (isFound : fs.find path = .ok tree) :
    ∃ location, fs.tree? location = some tree := by
  rcases Sequence.map_eq_ok_iff.mp isFound with ⟨reached, locates, rfl⟩
  rcases exists_steps_of_locate locates with ⟨trail, met, isStart, steps, _⟩
  have isTrail := steps.isTrail (isTrail_of_trail? isStart).1
  exact ⟨reached.location, congrArg (Option.map fs.treeAt) isTrail⟩

end DeclIndex.FileSystem
