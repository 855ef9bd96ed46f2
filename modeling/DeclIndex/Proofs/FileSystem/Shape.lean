import DeclIndex.Proofs.FileSystem.Resolution

/-!
# What does not depend on the contents of files

Two file systems have the same shape if their entries differ at most in the bytes and the locks of
files. A path leads to the same place in both (`FileSystem.SameShape.locate`), so all answers are
the same but for those that a file is read for, and a path is resolved alike.

Trails hold trees, and these may differ wherever a changed file lies below. So two trails are
compared by their locations, and two trees by what can be seen of them without reading a file.
-/

namespace DeclIndex

/-! ## Outcomes that agree -/

/-- Both outcomes are the same failure, or both are results and these are related. -/
inductive Agree {ε α β : Type} (related : α → β → Prop) : Except ε α → Except ε β → Prop where
  | ok {result : α} {other : β} (areRelated : related result other) :
      Agree related (.ok result) (.ok other)
  | error (failure : ε) : Agree related (.error failure) (.error failure)

theorem Agree.bind {ε α β α' β' : Type} {related : α → β → Prop} {related' : α' → β' → Prop}
    {first : Except ε α} {second : Except ε β} {next : α → Except ε α'} {next' : β → Except ε β'}
    (agree : Agree related first second)
    (further : ∀ result other, related result other → Agree related' (next result) (next' other)) :
    Agree related' (first >>= next) (second >>= next') := by
  cases agree with
  | ok areRelated => exact further _ _ areRelated
  | error failure => exact Agree.error failure

/-! ## Shapes -/

/-- An entry but for the contents of a file. -/
def Entry.shape : Entry → Entry
  | file _ _ => file [] false
  | directory locked closed => directory locked closed
  | link target => link target
  | fifo => fifo

theorem Entry.isDirectory_shape (entry : Entry) : entry.shape.isDirectory = entry.isDirectory := by
  cases entry <;> rfl

theorem Entry.isClosed_shape (entry : Entry) : entry.shape.isClosed = entry.isClosed := by
  cases entry <;> rfl

theorem Entry.isFile_shape (entry : Entry) : entry.shape.isFile = entry.isFile := by
  cases entry <;> rfl

theorem Entry.shape_eq_link_iff {entry : Entry} {target : String} :
    entry.shape = .link target ↔ entry = .link target := by
  cases entry <;> simp [shape]

namespace FileSystem

/-- What is at a location, but for the contents of a file. -/
def shape? (fs : FileSystem) (location : Location) : Option Entry :=
  fs.entry? location |>.map Entry.shape

/-- Two file systems differ at most in the bytes and the locks of files. -/
structure SameShape (fs other : FileSystem) : Prop where
  workingDirectory : fs.workingDirectory = other.workingDirectory
  entries : ∀ location, fs.shape? location = other.shape? location

/-- Trails in two file systems lead to the same place. -/
structure SamePlace (fs other : FileSystem) (trail twin : Trail) : Prop where
  isTrail : fs.IsTrail trail
  isTrailToo : other.IsTrail twin
  sameLocation : trail.location = twin.location

/-- Two trees look the same as long as no file is read. -/
structure SameLook (tree twin : Tree) : Prop where
  entry : tree.entry.shape = twin.entry.shape
  names : tree.names = twin.names

variable {fs other : FileSystem} {trail twin : Trail} {names : List String} {name : String}
  {tree twinTree : Tree} {path : Path}

namespace SamePlace

variable (same : fs.SameShape other) (samePlace : SamePlace fs other trail twin)

include same samePlace in
theorem entry : (fs.treeAt trail).entry.shape = (other.treeAt twin).entry.shape := by
  have sameEntry := same.entries trail.location
  rw [shape?, shape?, samePlace.isTrail.entry?_location, samePlace.sameLocation,
    samePlace.isTrailToo.entry?_location] at sameEntry
  exact Option.some.inj sameEntry

include same samePlace in
theorem child (name : String) :
    ((fs.treeAt trail).child? name).map (fun tree => tree.entry.shape) =
      ((other.treeAt twin).child? name).map fun tree => tree.entry.shape := by
  have sameEntry := same.entries (name :: trail.location)
  rw [shape?, shape?, samePlace.isTrail.entry?_cons, samePlace.sameLocation,
    samePlace.isTrailToo.entry?_cons, Option.map_map, Option.map_map] at sameEntry
  exact sameEntry

include same samePlace in
theorem look : SameLook (fs.treeAt trail) (other.treeAt twin) where
  entry := samePlace.entry same
  names := by
    apply Tree.names_congr
    intro name
    have sameChild := congrArg Option.isSome (samePlace.child same name)
    rwa [Option.isSome_map, Option.isSome_map] at sameChild

include samePlace in
theorem cons (isChild : (fs.treeAt trail).child? name = some tree)
    (isChildToo : (other.treeAt twin).child? name = some twinTree) :
    SamePlace fs other ((name, tree) :: trail) ((name, twinTree) :: twin) where
  isTrail := isTrail_cons_iff.mpr ⟨samePlace.isTrail, isChild⟩
  isTrailToo := isTrail_cons_iff.mpr ⟨samePlace.isTrailToo, isChildToo⟩
  sameLocation := congrArg (name :: ·) samePlace.sameLocation

include samePlace in
theorem tail : SamePlace fs other trail.tail twin.tail where
  isTrail := samePlace.isTrail.tail
  isTrailToo := samePlace.isTrailToo.tail
  sameLocation := by
    have sameTail := congrArg List.tail samePlace.sameLocation
    simpa [Trail.location] using sameTail

include samePlace in
theorem targetStart (target : String) :
    SamePlace fs other (targetStart trail target) (FileSystem.targetStart twin target) := by
  unfold FileSystem.targetStart
  split
  · exact ⟨isTrail_nil fs, isTrail_nil other, rfl⟩
  · exact samePlace

end SamePlace

/-! ## Following names -/

/-- What is still to be followed is the same. -/
inductive SameProgress (fs other : FileSystem) : Progress → Progress → Prop where
  | arrived {trail twin : Trail} (samePlace : SamePlace fs other trail twin) :
      SameProgress fs other (.arrived trail) (.arrived twin)
  | link {trail twin : Trail} (samePlace : SamePlace fs other trail twin) (target : String)
      (rest : List String) :
      SameProgress fs other (.link trail target rest) (.link twin target rest)

theorem SameShape.advance (same : fs.SameShape other) (samePlace : SamePlace fs other trail twin)
    (names : List String) :
    Agree (SameProgress fs other) (fs.advance trail names) (other.advance twin names) := by
  induction names generalizing trail twin with
  | nil => exact Agree.ok (SameProgress.arrived samePlace)
  | cons name rest inductionHypothesis =>
      have sameShape := samePlace.entry same
      have sameDirectory : (other.treeAt twin).entry.isDirectory =
          (fs.treeAt trail).entry.isDirectory := by
        rw [← Entry.isDirectory_shape, ← sameShape, Entry.isDirectory_shape]
      have sameClosed : (other.treeAt twin).entry.isClosed =
          (fs.treeAt trail).entry.isClosed := by
        rw [← Entry.isClosed_shape, ← sameShape, Entry.isClosed_shape]
      have sameChild := samePlace.child same name
      by_cases passes : (fs.treeAt trail).entry.isClosed = false ∧
          ((fs.treeAt trail).child? name).isSome = true
      · rcases passes with ⟨isOpen, isSome⟩
        rcases Option.isSome_iff_exists.mp isSome with ⟨tree, isChild⟩
        rw [isChild] at sameChild
        rcases Option.map_eq_some_iff.mp sameChild.symm with ⟨twinTree, isChildToo, sameEntry⟩
        have sameEntry : twinTree.entry.shape = tree.entry.shape := sameEntry
        have enters := enters_of_child? isOpen isChild
        have entersToo := enters_of_child? (sameClosed.trans isOpen) isChildToo
        by_cases isLink : ∃ target, tree.entry = .link target
        · rcases isLink with ⟨target, isLink⟩
          have isLinkToo : twinTree.entry = .link target := by
            rwa [← Entry.shape_eq_link_iff, sameEntry, Entry.shape_eq_link_iff]
          rw [enters.advance_link isLink, entersToo.advance_link isLinkToo]
          exact Agree.ok (SameProgress.link samePlace target rest)
        · have notLink : ∀ target, tree.entry ≠ .link target := not_exists.mp isLink
          have notLinkToo : ∀ target, twinTree.entry ≠ .link target := by
            intro target isLinkToo
            apply notLink target
            rwa [← Entry.shape_eq_link_iff, ← sameEntry, Entry.shape_eq_link_iff]
          rw [enters.advance_child notLink, entersToo.advance_child notLinkToo]
          exact inductionHypothesis (samePlace.cons isChild isChildToo)
      · -- The step stays in place, goes to the parent, or fails.
        simp only [FileSystem.advance, sameDirectory, sameClosed]
        split
        · split
          · exact inductionHypothesis samePlace
          split
          · exact Agree.error _
          next notClosed =>
            split
            · exact inductionHypothesis samePlace
            split
            · exact inductionHypothesis samePlace.tail
            split
            · exact Agree.error _
            have isOpen : (fs.treeAt trail).entry.isClosed = false := by simpa using notClosed
            have noChild : (fs.treeAt trail).child? name = none :=
              Option.not_isSome_iff_eq_none.mp fun isSome => passes ⟨isOpen, isSome⟩
            rw [noChild] at sameChild ⊢
            rw [Option.map_eq_none_iff.mp sameChild.symm]
            exact Agree.error _
        · exact Agree.error _

theorem SameShape.follow (same : fs.SameShape other) (samePlace : SamePlace fs other trail twin)
    (links : Nat) (names : List String) :
    Agree (SamePlace fs other) (fs.follow links trail names) (other.follow links twin names) := by
  induction links generalizing trail twin names with
  | zero =>
      rw [FileSystem.follow, FileSystem.follow]
      apply (same.advance samePlace names).bind
      rintro _ _ (samePlace | ⟨_, _, _⟩)
      · exact Agree.ok samePlace
      · exact Agree.error _
  | succ links inductionHypothesis =>
      rw [FileSystem.follow, FileSystem.follow]
      apply (same.advance samePlace names).bind
      rintro _ _ (samePlace | ⟨samePlace, target, rest⟩)
      · exact Agree.ok samePlace
      · exact inductionHypothesis (samePlace.targetStart target) _

/-- Trails to one location lead to the same place, or there is none. -/
theorem SameShape.trailAt (same : fs.SameShape other) (location : Location) :
    fs.trail? location = none ∧ other.trail? location = none ∨
      ∃ trail twin, fs.trail? location = some trail ∧ other.trail? location = some twin ∧
        SamePlace fs other trail twin := by
  have sameEntry := congrArg Option.isSome (same.entries location)
  simp only [shape?, FileSystem.entry?, tree?, Option.isSome_map] at sameEntry
  cases isTrail : fs.trail? location with
  | none =>
      rw [isTrail] at sameEntry
      have noTrail := Option.isSome_eq_false_iff.mp sameEntry.symm
      exact Or.inl ⟨rfl, Option.isNone_iff_eq_none.mp noTrail⟩
  | some trail =>
      rw [isTrail] at sameEntry
      rcases Option.isSome_iff_exists.mp sameEntry.symm with ⟨twin, isTrailToo⟩
      rcases isTrail_of_trail? isTrail with ⟨goesAlong, isPlace⟩
      rcases isTrail_of_trail? isTrailToo with ⟨goesAlongToo, isPlaceToo⟩
      exact Or.inr ⟨trail, twin, rfl, isTrailToo, goesAlong, goesAlongToo,
        isPlace.trans isPlaceToo.symm⟩

theorem SameShape.start (same : fs.SameShape other) (path : Path) :
    fs.start path = other.start path := by
  unfold FileSystem.start
  rw [same.workingDirectory]

/-- A path leads to the same place, or fails alike. -/
theorem SameShape.locate (same : fs.SameShape other) (path : Path) :
    Agree (SamePlace fs other) (fs.locate path) (other.locate path) := by
  unfold FileSystem.locate
  split
  · exact Agree.error _
  split
  · exact Agree.error _
  rw [same.start, trailFrom, trailFrom]
  rcases same.trailAt (other.start path) with ⟨noTrail, noTrailToo⟩ |
    ⟨trail, twin, isTrail, isTrailToo, samePlace⟩
  · rw [noTrail, noTrailToo]
    exact Agree.error _
  · rw [isTrail, isTrailToo]
    exact same.follow samePlace maxLinks path.names

/-! ## Queries -/

theorem SameShape.find (same : fs.SameShape other) (path : Path) :
    Agree SameLook (fs.find path) (other.find path) := by
  have agree := same.locate path
  unfold FileSystem.find
  generalize fs.locate path = located, other.locate path = locatedToo at agree
  cases agree with
  | ok samePlace => exact Agree.ok (samePlace.look same)
  | error failure => exact Agree.error failure

/-- Whatever is asked of an entry without reading it has the same answer. -/
theorem SameShape.map_find? (same : fs.SameShape other) (path : Path) {answer : Option Entry → Bool}
    (fromShape : ∀ found, answer (found.map Entry.shape) = answer found) :
    (fs.find? path).map answer = (other.find? path).map answer := by
  have agree := same.find path
  unfold FileSystem.find?
  generalize fs.find path = found, other.find path = foundToo at agree
  cases agree with
  | @ok tree twinTree sameLook =>
      have sameEntry : (some tree.entry).map Entry.shape = (some twinTree.entry).map Entry.shape :=
        congrArg some sameLook.entry
      have sameAnswer : answer (some tree.entry) = answer (some twinTree.entry) := by
        rw [← fromShape, sameEntry, fromShape]
      simp only [Except.map, sameAnswer]
  | error failure => rfl

theorem SameShape.holds (same : fs.SameShape other) (path : Path) :
    fs.holds path = other.holds path := by
  apply same.map_find? path
  intro found
  cases found <;> rfl

theorem SameShape.isDirectory (same : fs.SameShape other) (path : Path) :
    fs.isDirectory path = other.isDirectory path := by
  apply same.map_find? path
  intro found
  cases found with
  | none => rfl
  | some entry => exact entry.isDirectory_shape

theorem SameShape.isFile (same : fs.SameShape other) (path : Path) :
    fs.isFile path = other.isFile path := by
  apply same.map_find? path
  intro found
  cases found with
  | none => rfl
  | some entry => exact entry.isFile_shape

theorem SameShape.list (same : fs.SameShape other) (path : Path) :
    fs.list path = other.list path := by
  have agree := same.find path
  unfold FileSystem.list
  generalize fs.find path = found, other.find path = foundToo at agree
  cases agree with
  | @ok tree twinTree sameLook =>
      have sameEntry := sameLook.entry
      simp only [bind, Except.bind, sameLook.names]
      cases isEntry : tree.entry <;> cases isEntryToo : twinTree.entry <;>
        simp_all [Entry.shape]
  | error failure => rfl

/-! ## Resolving -/

theorem SameShape.linkTarget? (same : fs.SameShape other) (spot : Spot) :
    fs.linkTarget? spot = other.linkTarget? spot := by
  unfold FileSystem.linkTarget?
  rw [same.start]
  rcases same.trailAt (other.start spot.spelling) with ⟨noTrail, noTrailToo⟩ |
    ⟨trail, twin, isTrail, isTrailToo, samePlace⟩
  · rw [noTrail, noTrailToo]
    rfl
  · rw [isTrail, isTrailToo, Option.map_some, Option.map_some]
    have agree := same.advance samePlace spot.spelling.names
    generalize fs.advance trail _ = progress, other.advance twin _ = progressToo at agree
    cases agree with
    | ok sameProgress =>
        cases sameProgress with
        | arrived samePlace => rfl
        | link samePlace target rest => cases rest <;> rfl
    | error failure => rfl

theorem resolveNames_congr (same : ∀ spot, fs.linkTarget? spot = other.linkTarget? spot)
    (enter : Links → Spot → String → Resolution) (links : Links) (spot : Spot)
    (names : List String) :
    fs.resolveNames enter links spot names = other.resolveNames enter links spot names := by
  induction names generalizing links spot with
  | nil => rfl
  | cons name rest inductionHypothesis =>
      simp only [resolveNames, same, inductionHypothesis]

theorem SameShape.resolveWithin (same : fs.SameShape other) (depth : Nat) :
    fs.resolveWithin depth = other.resolveWithin depth := by
  induction depth with
  | zero =>
      funext links spot names
      exact resolveNames_congr same.linkTarget? _ links spot names
  | succ depth inductionHypothesis =>
      funext links spot names
      simp only [FileSystem.resolveWithin, inductionHypothesis]
      exact resolveNames_congr same.linkTarget? _ links spot names

theorem SameShape.checkLoop (same : fs.SameShape other) (path : Path) :
    fs.checkLoop path = other.checkLoop path := by
  have agree := same.locate path
  unfold FileSystem.checkLoop
  generalize fs.locate path = located, other.locate path = locatedToo at agree
  cases agree with
  | ok samePlace => rfl
  | error failure => rfl

theorem SameShape.hasWorkingDirectory (same : fs.SameShape other) :
    fs.hasWorkingDirectory = other.hasWorkingDirectory := by
  have sameEntry := same.entries other.workingDirectory
  have fromShape : ∀ found : Option Entry,
      (found.map Entry.shape).any (·.isDirectory) = found.any (·.isDirectory) := by
    rintro (_ | entry)
    · rfl
    · exact entry.isDirectory_shape
  unfold FileSystem.hasWorkingDirectory
  rw [same.workingDirectory, ← fromShape, ← fromShape (other.entry? _)]
  exact congrArg (Option.any (·.isDirectory)) sameEntry

theorem SameShape.settle (same : fs.SameShape other) (spot : Spot) (rest : List String) :
    fs.settle spot rest = other.settle spot rest := by
  simp only [FileSystem.settle, same.hasWorkingDirectory, same.checkLoop, same.workingDirectory]

theorem SameShape.resolve (same : fs.SameShape other) (path : Path) :
    fs.resolve path = other.resolve path := by
  simp only [FileSystem.resolve, same.resolveWithin, same.settle]

theorem SameShape.relativePath (same : fs.SameShape other) (file base : Path) :
    fs.relativePath file base = other.relativePath file base := by
  unfold FileSystem.relativePath absolute
  rw [same.start, same.start]

/-! ## One changed file -/

/-- Two file systems differ at most in the bytes and the lock of the file at a place. -/
structure DiffersAt (fs other : FileSystem) (place : Location) : Prop where
  workingDirectory : fs.workingDirectory = other.workingDirectory
  isFile : ∃ bytes locked, fs.entry? place = some (.file bytes locked)
  isFileToo : ∃ bytes locked, other.entry? place = some (.file bytes locked)
  elsewhere : ∀ location, location ≠ place → fs.entry? location = other.entry? location

/-- A path leads to a place. -/
def LeadsTo (fs : FileSystem) (path : Path) (place : Location) : Prop :=
  (fs.locate path).map Trail.location = .ok place

instance (fs : FileSystem) (path : Path) (place : Location) : Decidable (fs.LeadsTo path place) :=
  inferInstanceAs (Decidable (_ = _))

variable {place : Location}

theorem DiffersAt.sameShape (differs : fs.DiffersAt other place) : fs.SameShape other where
  workingDirectory := differs.workingDirectory
  entries := by
    intro location
    by_cases isHere : location = place
    · rcases differs.isFile with ⟨bytes, locked, isEntry⟩
      rcases differs.isFileToo with ⟨bytesToo, lockedToo, isEntryToo⟩
      rw [isHere, shape?, isEntry, shape?, isEntryToo]
      rfl
    · rw [shape?, differs.elsewhere location isHere, shape?]

/-- A path that leads elsewhere is read alike. -/
theorem DiffersAt.read (differs : fs.DiffersAt other place) {path : Path}
    (leadsElsewhere : ¬fs.LeadsTo path place) : fs.read path = other.read path := by
  have agree := differs.sameShape.locate path
  unfold LeadsTo at leadsElsewhere
  unfold FileSystem.read FileSystem.find
  generalize fs.locate path = located, other.locate path = locatedToo at agree leadsElsewhere
  cases agree with
  | @ok trail twin samePlace =>
      have isElsewhere : trail.location ≠ place := by
        intro isPlace
        exact leadsElsewhere (congrArg Except.ok isPlace)
      have sameEntry := differs.elsewhere trail.location isElsewhere
      rw [samePlace.isTrail.entry?_location, samePlace.sameLocation,
        samePlace.isTrailToo.entry?_location, Option.some.injEq] at sameEntry
      simp only [Except.map, bind, Except.bind, sameEntry]
  | error failure => rfl

end FileSystem

end DeclIndex
