import DeclIndex.Proofs.FileSystem.Resolution
import DeclIndex.Proofs.Ignore.Matching
import DeclIndex.Proofs.Scan.Contributions

/-!
# A file of a directory, scanned alone

What a file contributes to the scan of a directory is what a scan of the file alone returns, but for
the text by which the file is reported: there the path from the directory, here the last name of the
place where the file really is. A file that the directory's scan passes over makes its own scan fail
(`Scanner.scan_of_enumerated`).

A scan of the file alone first resolves its path. The resolved path may be much longer than the path
through links that the walk took. It must not be too long, and neither may the places of the links
on the way (`FileSystem.ShortWay`): a file that a directory's scan reads through a link cannot be
scanned alone if its own place or the place of another link has too long a path
(`Scanner.scan_of_enumerated_deepFile`).
-/

namespace DeclIndex

open Sequence (bind_eq_ok_iff)

/-! ## The label of a file -/

theorem Declarations.scanFrom_label (finders : List Finder) (kind : Kind) (label other : String)
    (number : Nat) (previous : Option String) (seen lines : List String) :
    scanFrom finders kind label number previous seen lines =
      (scanFrom finders kind other number previous seen lines).map fun record =>
        { record with file := label } := by
  induction lines generalizing number previous seen with
  | nil => rfl
  | cons line lines inductionHypothesis =>
      rw [scanFrom, scanFrom, List.map_append, ← inductionHypothesis, List.map_map]
      rfl

theorem Declarations.scan_label (rules : List Rule) (kind : Kind) (label other : String)
    (lines : List String) :
    scan rules kind label lines =
      (scan rules kind other lines).map fun record => { record with file := label } :=
  scanFrom_label _ kind label other 1 none [] lines

/-! ## Places -/

namespace FileSystem

variable {fs : FileSystem} {path : Path} {reached : Trail}

/-- The way along a path meets links at short places only, and leads to a short place. -/
def ShortWay (fs : FileSystem) (path : Path) : Prop :=
  ∀ reached met, fs.Steps [] path.names reached met →
    (∀ location ∈ met, IsShort location) ∧ IsShort reached.location

theorem exists_locate_of_isFile (isFile : fs.isFile path = .ok true) :
    ∃ reached bytes locked, fs.locate path = .ok reached ∧
      (fs.treeAt reached).entry = .file bytes locked := by
  rcases isFile_eq_true_iff.mp isFile with ⟨bytes, locked, isFound⟩
  rw [find?, find] at isFound
  cases locates : fs.locate path with
  | error failure =>
      simp only [locates, Except.map] at isFound
      split at isFound
      · cases isFound
      · cases isFound
  | ok reached =>
      rw [locates] at isFound
      exact ⟨reached, bytes, locked, rfl, Option.some.inj (Except.ok.inj isFound)⟩

/-! Queries see no more of a path than the trail that it leads along. -/

theorem isFile_congr {other : Path} (same : fs.locate path = fs.locate other) :
    fs.isFile path = fs.isFile other := by
  rw [isFile, isFile, find?, find?, find, find, same]

theorem read_congr {other : Path} (same : fs.locate path = fs.locate other) :
    fs.read path = fs.read other := by
  rw [read, read, find, find, same]

theorem relativePath_pathOf (fs : FileSystem) {name : String} (isName : Entry.isName name = true)
    (location : Location) :
    fs.relativePath (pathOf (name :: location)) (pathOf (name :: location)).parent = name := by
  have isChild : pathOf (name :: location) = (pathOf (name :: location)).parent.append [name] := by
    simp [pathOf, Path.parent, Path.append]
  have isRelative : fs.relativePath ((pathOf (name :: location)).parent.append [name])
      (pathOf (name :: location)).parent = slashed [name] :=
    fs.relativePath_append (List.cons_ne_nil name []) (by simpa using isName)
  rwa [← isChild, slashed_singleton] at isRelative

/-- A regular file from the root stands at a place other than the root, and its text is resolved to
that place. -/
theorem exists_place_of_isFile (rooted : path.anchor ≠ .here) (isFile : fs.isFile path = .ok true)
    (shortWay : fs.ShortWay path) :
    ∃ name location, Entry.isName name = true ∧
      fs.resolve (.ofText path.text) = .ok (pathOf (name :: location)) ∧
      fs.locate (pathOf (name :: location)) = fs.locate path := by
  rcases exists_locate_of_isFile isFile with ⟨reached, bytes, locked, locates, isEntry⟩
  rcases exists_steps_of_rooted rooted locates with ⟨met, steps, isLimited⟩
  rcases shortWay reached met steps with ⟨areShort, isShort⟩
  have direct := steps.direct Direct.root
  have resolves := resolve_ofText_text rooted steps areShort isLimited
  have locatesAgain := locate_pathOf direct
  rw [if_pos isShort] at locatesAgain
  cases reached with
  | nil => cases isEntry
  | cons place trail =>
      have isName := isName_of_isTrail direct.isTrail place.1 List.mem_cons_self
      exact ⟨place.1, Trail.location trail, isName, resolves, locatesAgain.trans locates.symm⟩

end FileSystem

/-! ## The text of a file -/

namespace Source

variable {fs : FileSystem} {file other : Path} {letters : List Char} {cause : ReadFailure}

theorem text_congr (same : fs.read file = fs.read other) (isText : text fs file = .ok letters) :
    text fs other = .ok letters := by
  rw [text_eq_ok_iff] at isText ⊢
  rwa [← same]

theorem exists_unreadable_congr (same : fs.read file = fs.read other) (nulFree : other.NulFree)
    (fails : text fs file = .error (.unreadable file cause)) :
    ∃ cause, text fs other = .error (.unreadable other cause) := by
  cases isText : text fs other with
  | ok letters =>
      rw [text_congr same.symm isText] at fails
      cases fails
  | error failure =>
      rcases exists_unreadable_of_text nulFree isText with ⟨cause, rfl⟩
      exact ⟨cause, rfl⟩

end Source

/-! ## One file -/

namespace Scanner

variable {scanner : Scanner} {fs : FileSystem} {root file : Path} {kind : Kind} {rules : List Rule}
  {request : Request} {files : List Path} {letters : List Char} {maxDepth : Int}

theorem scan_of_resolve {resolved : Path} {path : String} (notNegative : ¬maxDepth < 0)
    (resolves : fs.resolve (.ofText path) = .ok resolved) (isFile : fs.isFile resolved = .ok true) :
    scanner.scan fs ⟨path, maxDepth⟩ kind = scanFile fs resolved kind := by
  rw [scan, if_neg notNegative, resolves]
  simp only [Except.mapError, bind, Except.bind, isFile, FileSystem.ask, if_true]

theorem scan_of_tooLong {resolved : Path} {path : String} (notNegative : ¬maxDepth < 0)
    (resolves : fs.resolve (.ofText path) = .ok resolved) (nulFree : resolved.NulFree)
    (isLong : FileSystem.tooLong ≤ resolved.text.utf8ByteSize) :
    scanner.scan fs ⟨path, maxDepth⟩ kind = .error (.access resolved .nameTooLong) := by
  have fails : fs.isFile resolved = .error .nameTooLong := by
    rw [FileSystem.isFile, FileSystem.find?, FileSystem.find,
      FileSystem.locate_of_tooLong nulFree isLong]
    rfl
  rw [scan, if_neg notNegative, resolves]
  simp only [Except.mapError, bind, Except.bind, fails, FileSystem.ask]

/-- A file with a text yields the same when it is scanned alone, reported by its own name. -/
theorem scanFile_of_text (areRules : kind.rules? = some rules) {name : String}
    (isName : Entry.isName name = true) (location : Location)
    (isText : Source.text fs (FileSystem.pathOf (name :: location)) = .ok letters)
    (label : String) :
    scanFile fs (FileSystem.pathOf (name :: location)) kind =
      .ok ⟨(Declarations.scan rules kind label (Source.lines letters)).map fun record =>
        { record with file := name }, []⟩ := by
  rw [scanFile, Source.declarations_of_rules areRules, isText,
    FileSystem.relativePath_pathOf fs isName, ← Declarations.scan_label]
  rfl

theorem scanFile_of_unreadable (areRules : kind.rules? = some rules) {cause : ReadFailure}
    (noText : Source.text fs file = .error (.unreadable file cause)) :
    scanFile fs file kind = .error (.unreadable file cause) := by
  rw [scanFile, Source.declarations_of_rules areRules, noText]
  rfl

/-! ## One file of many -/

/-- A scan of a directory for functions or classes reports of a file what a scan of that file alone
returns, reported by the last name of the place where it leads, and it reports an error exactly if
that scan fails. -/
theorem scan_of_enumerated {scanner alone : Scanner} {fs : FileSystem} {request : Request}
    {depth : Int} {kind : Kind} {root file : Path} {matcher : Ignore.Matcher} {files : List Path}
    (isKind : kind = .functions ∨ kind = .classes) (notNegative : ¬request.maxDepth < 0)
    (isRoot : fs.resolve (.ofText request.path) = .ok root)
    (isDirectory : fs.isDirectory root = .ok true)
    (isMatcher : Ignore.Matcher.ofDirectory fs root = .ok matcher)
    (areFiles : Walk.enumerate ⟨fs, matcher, root⟩ request.maxDepth = .ok files)
    (isFile : file ∈ files) (shortWay : fs.ShortWay file) (notNegativeAlone : ¬depth < 0) :
    ∃ report resolved name, scanner.scan fs request kind = .ok report ∧
      fs.resolve (.ofText file.text) = .ok resolved ∧ resolved.names.getLast? = some name ∧
      ((∀ error ∈ report.errors, error.file ≠ fs.relativePath file root) →
        alone.scan fs ⟨file.text, depth⟩ kind =
          .ok ⟨(report.records.filter fun record =>
            record.file == fs.relativePath file root).map fun record =>
              { record with file := name }, []⟩) ∧
      ((∃ error ∈ report.errors, error.file = fs.relativePath file root) →
        ∃ cause, alone.scan fs ⟨file.text, depth⟩ kind = .error (.unreadable resolved cause)) := by
  rcases Kind.exists_rules isKind with ⟨rules, areRules⟩
  have isReport :=
    scan_of_enumerate scanner areRules notNegative isRoot isDirectory isMatcher areFiles
  have nodup := nodup_relativePath (FileSystem.isFile_eq_false_of_isDirectory isDirectory) areFiles
  have nulFree : ∀ file ∈ files, file.NulFree := fun file isFile =>
    Walk.nulFree_of_enumerated ⟨_, _, files, areFiles, isFile⟩
  have rooted : file.anchor ≠ .here := by
    have isRooted := FileSystem.anchor_of_resolve isRoot
    rcases (Walk.holds_root_of_mem_enumerate areFiles isFile).2 with
      ⟨rfl, _⟩ | ⟨_, names, _, _, rfl⟩
    · exact isRooted
    · exact isRooted
  have isFoundFile := Walk.isFile_of_mem_enumerate areFiles isFile
  -- The resolved path leads along the same trail as the path that the walk found, so both scans
  -- read the same bytes, or fail to read them for the same reason.
  rcases FileSystem.exists_place_of_isFile rooted isFoundFile shortWay with
    ⟨name, location, isName, resolves, samePlace⟩
  have isPlaceFile := (FileSystem.isFile_congr samePlace).trans isFoundFile
  have sameBytes := FileSystem.read_congr samePlace
  have isScan : alone.scan fs ⟨file.text, depth⟩ kind = _ :=
    scan_of_resolve notNegativeAlone resolves isPlaceFile
  refine ⟨_, _, name, isReport, resolves, by simp [FileSystem.pathOf], ?_, ?_⟩
  · intro noError
    cases isText : Source.text fs file with
    | ok letters =>
        have sameText := Source.text_congr sameBytes.symm isText
        rw [isScan, scanFile_of_text areRules isName location sameText (fs.relativePath file root),
          filter_flatMap_recordsOf areRules nodup isFile, recordsOf,
          readFile_of_text areRules isText]
    | error failure =>
        rcases Source.exists_unreadable_of_text (nulFree file isFile) isText with ⟨cause, rfl⟩
        rcases (exists_error_iff areRules nodup isFile nulFree).mpr ⟨cause, isText⟩ with
          ⟨error, isError, isLabel⟩
        exact absurd isLabel (noError error isError)
  · intro hasError
    rcases (exists_error_iff areRules nodup isFile nulFree).mp hasError with ⟨cause, noText⟩
    have placeFree := FileSystem.nulFree_of_isFile isPlaceFile
    rcases Source.exists_unreadable_congr sameBytes.symm placeFree noText with ⟨cause', noText'⟩
    exact ⟨cause', isScan.trans (scanFile_of_unreadable areRules noText')⟩

/-- The link leads to the file next to it. -/
theorem shortWay_linkedFile : linkedFile.ShortWay ⟨.root, ["k"]⟩ := by
  have toFile : linkedFile.Enters [] "c" (.node (.file "def f(".toUTF8.toList false) []) :=
    ⟨by decide, by decide, by decide, by decide, by decide, rfl⟩
  have toLink : linkedFile.Enters [] "k" (.node (.link "c") []) :=
    ⟨by decide, by decide, by decide, by decide, by decide, rfl⟩
  have isStart : FileSystem.targetStart [] "c" = [] := if_neg (by decide +kernel)
  have areComponents : components "c" = ["c"] := by decide +kernel
  have inside : linkedFile.Steps (FileSystem.targetStart [] "c") (components "c")
      [("c", .node (.file "def f(".toUTF8.toList false) [])] [] := by
    rw [isStart, areComponents]
    exact FileSystem.Steps.child toFile (by simp [Tree.entry]) (FileSystem.Steps.done _)
  have steps := FileSystem.Steps.link toLink rfl inside (FileSystem.Steps.done _)
  intro reached met others
  rcases others.unique steps with ⟨rfl, rfl⟩
  decide +kernel

/-- A link is scanned like the file that it leads to, whose name is reported. -/
theorem scan_of_enumerated_linkedFile :
    linkedFile.isDirectory ⟨.root, []⟩ = .ok true ∧ linkedFile.ShortWay ⟨.root, ["k"]⟩ ∧
      single.scan linkedFile ⟨"/k", 0⟩ .functions = .ok ⟨[⟨"f", .functions, 1, "c"⟩], []⟩ := by
  have isDirectory : linkedFile.isDirectory ⟨.root, []⟩ = .ok true := by decide +kernel
  have isMatcher : Ignore.Matcher.ofDirectory linkedFile ⟨.root, []⟩ = .ok ⟨[]⟩ := by
    decide +kernel
  have isReal : linkedFile.resolve (.ofText "/k") = .ok ⟨.root, ["c"]⟩ := by decide +kernel
  rcases @scan_of_enumerated single single linkedFile ⟨"/", 0⟩ 0 .functions _ _ _ _ (Or.inl rfl)
    (by decide) (by decide +kernel) isDirectory isMatcher enumerate_linkedFile (by simp)
    shortWay_linkedFile (by decide) with
    ⟨report, resolved, name, isReport, resolves, isName, agrees, _⟩
  cases scan_linkedFile.symm.trans isReport
  cases isReal.symm.trans resolves
  cases isName
  refine ⟨isDirectory, shortWay_linkedFile, ?_⟩
  exact agrees (by simp)

/-! ## Files behind long paths -/

/-- A file that declares a function. -/
def functionFile : Tree :=
  .node (.file "def g(".toUTF8.toList false) []

/-- Directories of one name, one in another, and what is in the innermost. -/
def nested (name : EntryName) (bottom : List (EntryName × Tree)) : Nat → Tree
  | 0 => .node (.directory false) bottom
  | levels + 1 => .node (.directory false) [(name, nested name bottom levels)]

/-- The path to what has the same name as the fifteen directories above it. -/
def deepTarget (name : EntryName) : String :=
  slashed (List.replicate 16 name.text)

/-- A link in the root directory to what is below the directories. -/
def deepFile (name : EntryName) (bottom : List (EntryName × Tree)) : FileSystem :=
  ⟨[(⟨"l", by decide⟩, .node (.link (deepTarget name)) []), (name, nested name bottom 14)], []⟩

/-- The trail along some of the directories. -/
def deepTrail (name : EntryName) (bottom : List (EntryName × Tree)) : Nat → Trail
  | 0 => []
  | count + 1 => (name.text, nested name bottom (14 - count)) :: deepTrail name bottom count

section

variable {name : EntryName} {bottom : List (EntryName × Tree)} {count : Nat} {reached : Trail}

theorem location_deepTrail (count : Nat) :
    (deepTrail name bottom count).location = List.replicate count name.text := by
  induction count with
  | zero => rfl
  | succ count inductionHypothesis =>
      rw [List.replicate_succ, ← inductionHypothesis]
      rfl

/-- No short text is the name of the directories. -/
theorem ne_of_isLong (isLong : name.text.utf8ByteSize = Entry.maxNameLength) {text : String}
    (isShort : text.utf8ByteSize < Entry.maxNameLength) : text ≠ name.text := by
  rintro rfl
  omega

theorem enters_deepTrail (isLong : name.text.utf8ByteSize = Entry.maxNameLength)
    (inside : count < 15) : (deepFile name bottom).Enters (deepTrail name bottom count) name.text
      (nested name bottom (14 - count)) := by
  cases count with
  | zero =>
      have notLink : "l" ≠ name.text := ne_of_isLong isLong (by decide)
      apply FileSystem.enters_of_child? rfl
      simp [deepTrail, FileSystem.treeAt, FileSystem.root, deepFile, Tree.child?, Tree.children,
        Entry.isDirectory, notLink]
  | succ count =>
      have isBelow : 14 - count = (14 - (count + 1)) + 1 := by omega
      apply FileSystem.enters_of_child?
      · simp only [deepTrail, FileSystem.treeAt]
        rw [isBelow]
        rfl
      · simp only [deepTrail, FileSystem.treeAt]
        rw [isBelow]
        simp [nested, Tree.child?, Tree.children, Entry.isDirectory]

theorem direct_deepTrail (isLong : name.text.utf8ByteSize = Entry.maxNameLength)
    (inside : count ≤ 15) : (deepFile name bottom).Direct (deepTrail name bottom count) := by
  induction count with
  | zero => exact FileSystem.Direct.root
  | succ count inductionHypothesis =>
      apply FileSystem.Direct.child (enters_deepTrail isLong inside) ?_
        (inductionHypothesis (by omega))
      intro target
      cases 14 - count with
      | zero => simp [nested, Tree.entry]
      | succ levels => simp [nested, Tree.entry]

theorem isShort_replicate_iff (isLong : name.text.utf8ByteSize = Entry.maxNameLength) :
    FileSystem.IsShort (List.replicate (count + 1) name.text) ↔ count < 15 := by
  have isSize := utf8ByteSize_slashed_replicate count name.text
  rw [isLong] at isSize
  have isSlash : "/".utf8ByteSize = 1 := by decide
  rw [FileSystem.IsShort, FileSystem.pathOf, Path.text, List.reverse_replicate,
    String.utf8ByteSize_append, isSlash, Nat.add_comm, isSize]
  unfold FileSystem.tooLong Entry.maxNameLength
  omega

theorem not_isShort_place (isLong : name.text.utf8ByteSize = Entry.maxNameLength) :
    ¬FileSystem.IsShort (List.replicate 16 name.text) := by
  rw [isShort_replicate_iff isLong]
  omega

theorem components_target :
    components (deepTarget name) = (deepTrail name bottom 15).location.reverse ++ [name.text] := by
  rw [location_deepTrail, List.reverse_replicate, ← List.replicate_succ', deepTarget]
  apply components_slashed
  · intro other isName
    rw [List.eq_of_mem_replicate isName]
    exact Entry.noSlash_of_isName name.isName
  · simp

theorem enters_link :
    (deepFile name bottom).Enters [] "l" (.node (.link (deepTarget name)) []) :=
  ⟨rfl, rfl, by decide, by decide, by decide, rfl⟩

theorem nulFree_place (name : EntryName) :
    (FileSystem.pathOf (List.replicate 16 name.text)).NulFree := by
  intro other isName
  rw [List.eq_of_mem_replicate (List.mem_reverse.mp isName)]
  exact Entry.nulByte_notMem_of_isName name.isName

theorem targetStart_root (target : String) : FileSystem.targetStart [] target = [] :=
  ite_self _

/-- The link leads where the last name leads in the innermost directory. -/
theorem locate_link (isLong : name.text.utf8ByteSize = Entry.maxNameLength)
    (follows : (deepFile name bottom).follow 39 (deepTrail name bottom 15) [name.text] =
      .ok reached) : (deepFile name bottom).locate ⟨.root, ["l"]⟩ = .ok reached := by
  have direct : (deepFile name bottom).Direct (deepTrail name bottom 15) :=
    direct_deepTrail isLong (Nat.le_refl 15)
  have alongTrail := direct.advance [name.text]
  have followsLink : (deepFile name bottom).follow FileSystem.maxLinks [] ["l"] = .ok reached := by
    rw [FileSystem.maxLinks, FileSystem.follow_of_link (enters_link.advance_link rfl []),
      targetStart_root, List.append_nil, components_target, FileSystem.follow_congr alongTrail]
    exact follows
  rw [FileSystem.locate, if_neg (by decide), if_neg (by decide), FileSystem.trailFrom]
  exact followsLink

/-- What is behind the long path is not looked at while the link is resolved. -/
theorem resolve_link (isLong : name.text.utf8ByteSize = Entry.maxNameLength) :
    (deepFile name bottom).resolve ⟨.root, ["l"]⟩ =
      .ok (FileSystem.pathOf (List.replicate 16 name.text)) := by
  have direct : (deepFile name bottom).Direct (deepTrail name bottom 15) :=
    direct_deepTrail isLong (Nat.le_refl 15)
  have noTarget : (deepFile name bottom).linkTarget?
      (.ofLocation (name.text :: (deepTrail name bottom 15).location)) = none := by
    rw [location_deepTrail, ← List.replicate_succ]
    exact FileSystem.linkTarget?_of_tooLong (not_isShort_place isLong)
  have isStart : Trail.location (FileSystem.targetStart [] (deepTarget name)) = [] := by
    rw [targetStart_root]
    rfl
  have inside : (deepFile name bottom).resolveWithin 989 [(.ofLocation ["l"], none)]
      (.ofLocation (Trail.location (FileSystem.targetStart [] (deepTarget name))))
        (components (deepTarget name)) =
          .resolved (.ofLocation (List.replicate 16 name.text)) [(.ofLocation ["l"], none)] := by
    rw [isStart, components_target, direct.resolveWithin,
      FileSystem.resolveWithin_kept 989 _ name.isName noTarget, FileSystem.resolveWithin_nil,
      location_deepTrail, ← List.replicate_succ]
  have isShort : FileSystem.IsShort ("l" :: Trail.location []) := by decide +kernel
  have resolves : (deepFile name bottom).resolveWithin 990 [] (.ofLocation (Trail.location []))
      ["l"] = _ :=
    FileSystem.resolveWithin_new FileSystem.Direct.root enters_link rfl isShort rfl inside
  rw [FileSystem.resolveWithin_nil] at resolves
  have locates : (deepFile name bottom).locate (FileSystem.pathOf (List.replicate 16 name.text)) =
      .error .nameTooLong :=
    FileSystem.locate_of_tooLong (nulFree_place name) (Nat.le_of_not_lt (not_isShort_place isLong))
  have isStart : FileSystem.startSpot ⟨.root, ["l"]⟩ = .ofLocation (Trail.location []) := rfl
  have isRooted : (FileSystem.Spot.ofLocation (List.replicate 16 name.text)).isRooted = true := rfl
  rw [FileSystem.resolve, isStart, FileSystem.maxNesting, resolves]
  simp only [FileSystem.settle, isRooted, Bool.true_or, if_true, FileSystem.Spot.path_ofLocation,
    FileSystem.checkLoop, locates]

theorem list_deepFile (isLong : name.text.utf8ByteSize = Entry.maxNameLength)
    (isAfter : "l" ≤ name.text) :
    (deepFile name bottom).list ⟨.root, []⟩ = .ok ["l", name.text] := by
  have notLink : "l" ≠ name.text := ne_of_isLong isLong (by decide)
  have areDistinct : ["l", name.text].eraseDups = ["l", name.text] := by
    simp [List.eraseDups_cons, notLink.symm]
  have areNames : (deepFile name bottom).root.names = ["l", name.text] := by
    show ["l", name.text].eraseDups.mergeSort _ = _
    rw [areDistinct]
    exact List.mergeSort_of_pairwise (by simp [isAfter])
  rw [← areNames]
  rfl

theorem isDirectory_first (isLong : name.text.utf8ByteSize = Entry.maxNameLength) :
    (deepFile name bottom).isDirectory ⟨.root, [name.text]⟩ = .ok true := by
  have direct : (deepFile name bottom).Direct (deepTrail name bottom 1) :=
    direct_deepTrail isLong (by decide)
  have isShort : FileSystem.IsShort (List.replicate 1 name.text) :=
    (isShort_replicate_iff isLong).mpr (by decide)
  have locates := FileSystem.locate_pathOf direct
  rw [location_deepTrail, if_pos isShort] at locates
  have isFound : (deepFile name bottom).locate ⟨.root, [name.text]⟩ =
      .ok (deepTrail name bottom 1) := locates
  rw [FileSystem.isDirectory, FileSystem.find?, FileSystem.find, isFound]
  rfl

theorem ofDirectory_deepFile (isLong : name.text.utf8ByteSize = Entry.maxNameLength) :
    Ignore.Matcher.ofDirectory (deepFile name bottom) ⟨.root, []⟩ = .ok ⟨[]⟩ := by
  have notLink : "l" ≠ Ignore.fileName := by decide
  have notName : Ignore.fileName ≠ name.text := ne_of_isLong isLong (by decide)
  have isMissing : (deepFile name bottom).root.child? Ignore.fileName = none := by
    simp [FileSystem.root, deepFile, Tree.child?, Tree.children, Entry.isDirectory, notLink,
      notName.symm]
  have advances : (deepFile name bottom).advance [] [Ignore.fileName] = .error .missing := by
    have notSelf : ¬Location.isSelf Ignore.fileName = true := by decide
    have notParent : ¬(Ignore.fileName == "..") = true := by decide
    have isShort : ¬Entry.maxNameLength < Ignore.fileName.utf8ByteSize := by decide
    have notEmpty : ¬(Ignore.fileName == "") = true := by decide
    rw [FileSystem.advance, FileSystem.treeAt, isMissing]
    simp only [if_neg notEmpty, if_neg notSelf, if_neg notParent, if_neg isShort]
    rfl
  have follows : (deepFile name bottom).follow FileSystem.maxLinks [] [Ignore.fileName] =
      .error .missing := by
    rw [FileSystem.maxLinks, FileSystem.follow, advances]
    rfl
  have locates : (deepFile name bottom).locate ⟨.root, [Ignore.fileName]⟩ = .error .missing := by
    rw [FileSystem.locate, if_neg (by decide), if_neg (by decide), FileSystem.trailFrom]
    exact follows
  have notFile : (deepFile name bottom).isFile ⟨.root, [Ignore.fileName]⟩ = .ok false := by
    rw [FileSystem.isFile, FileSystem.find?, FileSystem.find, locates]
    rfl
  have noLines : Ignore.load (deepFile name bottom) ⟨.root, []⟩ = .ok [] := by
    rw [Ignore.load, Path.child, Path.append, List.nil_append, notFile]
    rfl
  rw [Ignore.Matcher.ofDirectory, noLines]
  rfl

/-- The link leads to a file with one function. -/
structure LeadsToFile (name : EntryName) (bottom : List (EntryName × Tree)) : Prop where
  isLong : name.text.utf8ByteSize = Entry.maxNameLength
  isAfter : "l" ≤ name.text
  follows : ∃ trail last, (deepFile name bottom).follow 39 (deepTrail name bottom 15) [name.text] =
    .ok ((last, functionFile) :: trail)

theorem LeadsToFile.find_link (leads : LeadsToFile name bottom) :
    (deepFile name bottom).find ⟨.root, ["l"]⟩ =
      .ok (functionFile) := by
  rcases leads.follows with ⟨trail, last, follows⟩
  rw [FileSystem.find, locate_link leads.isLong follows]
  rfl

theorem LeadsToFile.enumerate (leads : LeadsToFile name bottom) :
    Walk.enumerate ⟨deepFile name bottom, ⟨[]⟩, ⟨.root, []⟩⟩ 0 = .ok [⟨.root, ["l"]⟩] := by
  have isFile : (deepFile name bottom).isFile ⟨.root, ["l"]⟩ = .ok true := by
    rw [FileSystem.isFile, FileSystem.find?, leads.find_link]
    rfl
  have isKept : Walk.use ⟨deepFile name bottom, ⟨[]⟩, ⟨.root, []⟩⟩ ["l"] = .ok .keep :=
    Walk.use_eq_keep_iff.mpr ⟨isFile, rfl⟩
  have isEntered : Walk.use ⟨deepFile name bottom, ⟨[]⟩, ⟨.root, []⟩⟩ [name.text] = .ok .enter :=
    Walk.use_eq_enter_iff.mpr
      ⟨isDirectory_first leads.isLong, Ignore.Matcher.ignores_of_no_rules _ _⟩
  have isListing : Walk.look ⟨deepFile name bottom, ⟨[]⟩, ⟨.root, []⟩⟩ [] =
      .ok ⟨[], [["l"]], [[name.text]]⟩ := by
    apply Walk.look_eq_ok_iff.mpr
    refine ⟨_, [(["l"], .keep), ([name.text], .enter)],
      list_deepFile leads.isLong leads.isAfter, ?_, rfl⟩
    rw [List.mapM_cons, List.mapM_cons, List.mapM_nil, Walk.childUse, Walk.childUse]
    simp only [List.nil_append, isKept, isEntered]
    rfl
  have areFiles : Walk.files ⟨deepFile name bottom, ⟨[]⟩, ⟨.root, []⟩⟩ 0 = .ok [["l"]] := by
    rw [Walk.files, Int.toNat_zero, Walk.listings_zero, List.mapM_cons, List.mapM_nil, isListing]
    rfl
  exact Walk.enumerate_of_files rfl areFiles

theorem LeadsToFile.scan_root (leads : LeadsToFile name bottom) :
    single.scan (deepFile name bottom) ⟨"/", 0⟩ .functions =
      .ok ⟨[⟨"g", .functions, 1, "l"⟩], []⟩ := by
  have isBytes : (deepFile name bottom).read ⟨.root, ["l"]⟩ = .ok "def g(".toUTF8.toList := by
    rw [FileSystem.read, leads.find_link]
    exact if_pos (by decide +kernel)
  have isText : Source.text (deepFile name bottom) ⟨.root, ["l"]⟩ = .ok "def g(".toList :=
    Source.text_eq_ok_iff.mpr ⟨_, isBytes, by decide +kernel⟩
  have isLabel : (deepFile name bottom).relativePath ⟨.root, ["l"]⟩ ⟨.root, []⟩ = "l" := rfl
  have isRead : readFile (deepFile name bottom) ⟨.root, []⟩ .functions ⟨.root, ["l"]⟩ =
      .ok ⟨[⟨"g", .functions, 1, "l"⟩], none⟩ := by
    rw [readFile_of_text rfl isText, isLabel]
    rfl
  have areResults :
      [⟨.root, ["l"]⟩].mapM (readFile (deepFile name bottom) ⟨.root, []⟩ .functions) =
        .ok [⟨[⟨"g", .functions, 1, "l"⟩], none⟩] := by
    rw [List.mapM_cons, List.mapM_nil, isRead]
    rfl
  apply scan_eq_ok_iff.mpr
  refine ⟨by decide, ⟨.root, []⟩, rfl, Or.inr ⟨rfl, ?_⟩⟩
  exact scanDirectory_eq_ok_iff.mpr
    ⟨⟨[]⟩, _, _, ofDirectory_deepFile leads.isLong, leads.enumerate, areResults, rfl⟩

theorem scan_link (isLong : name.text.utf8ByteSize = Entry.maxNameLength) :
    single.scan (deepFile name bottom) ⟨"/l", 0⟩ .functions =
      .error (.access (FileSystem.pathOf (List.replicate 16 name.text)) .nameTooLong) := by
  have isText : Path.ofText "/l" = ⟨.root, ["l"]⟩ := by decide
  apply scan_of_tooLong (by decide)
  · rw [isText]
    exact resolve_link isLong
  · exact nulFree_place name
  · exact Nat.le_of_not_lt (not_isShort_place isLong)

/-- The scan of the root reports what is behind the link, but a scan of the link fails. -/
def OnlyBelow (fs : FileSystem) : Prop :=
  Walk.enumerate ⟨fs, ⟨[]⟩, ⟨.root, []⟩⟩ 0 = .ok [⟨.root, ["l"]⟩] ∧
    single.scan fs ⟨"/", 0⟩ .functions = .ok ⟨[⟨"g", .functions, 1, "l"⟩], []⟩ ∧
    ∃ resolved, single.scan fs ⟨"/l", 0⟩ .functions = .error (.access resolved .nameTooLong)

theorem LeadsToFile.onlyBelow (leads : LeadsToFile name bottom) :
    OnlyBelow (deepFile name bottom) :=
  ⟨leads.enumerate, leads.scan_root, _, scan_link leads.isLong⟩

theorem leadsToFile_file (isLong : name.text.utf8ByteSize = Entry.maxNameLength)
    (isAfter : "l" ≤ name.text) : LeadsToFile name [(name, functionFile)] := by
  have enters : (deepFile name [(name, functionFile)]).Enters
      (deepTrail name [(name, functionFile)] 15) name.text functionFile := by
    apply FileSystem.enters_of_child? rfl
    simp [deepTrail, nested, FileSystem.treeAt, Tree.child?, Tree.children, Entry.isDirectory]
  refine ⟨isLong, isAfter, deepTrail name [(name, functionFile)] 15, name.text, ?_⟩
  apply FileSystem.follow_of_arrived
  rw [enters.advance_child (by simp [functionFile, Tree.entry])]
  rfl

theorem leadsToFile_link (isLong : name.text.utf8ByteSize = Entry.maxNameLength)
    (isAfter : "l" ≤ name.text) :
    LeadsToFile name [(name, .node (.link "f") []), (⟨"f", by decide⟩, functionFile)] := by
  have notFile : name.text ≠ "f" := (ne_of_isLong isLong (by decide)).symm
  generalize isBottom :
    [(name, Tree.node (.link "f") []), (⟨"f", by decide⟩, functionFile)] = bottom
  have entersLink : (deepFile name bottom).Enters (deepTrail name bottom 15) name.text
      (.node (.link "f") []) := by
    apply FileSystem.enters_of_child? rfl
    simp [deepTrail, nested, FileSystem.treeAt, Tree.child?, Tree.children, Entry.isDirectory,
      ← isBottom]
  have entersFile : (deepFile name bottom).Enters (deepTrail name bottom 15) "f" functionFile := by
    apply FileSystem.enters_of_child? rfl
    simp [deepTrail, nested, FileSystem.treeAt, Tree.child?, Tree.children, Entry.isDirectory,
      ← isBottom, notFile]
  have isStart : FileSystem.targetStart (deepTrail name bottom 15) "f" =
      deepTrail name bottom 15 := if_neg (by decide +kernel)
  have areComponents : components "f" = ["f"] := by decide +kernel
  refine ⟨isLong, isAfter, deepTrail name bottom 15, "f", ?_⟩
  rw [FileSystem.follow_of_link (entersLink.advance_link rfl []), isStart, areComponents]
  apply FileSystem.follow_of_arrived
  rw [List.append_nil, entersFile.advance_child (by simp [functionFile, Tree.entry])]
  rfl

end

theorem utf8ByteSize_replicate (count : Nat) (c : Char) :
    (String.ofList (List.replicate count c)).utf8ByteSize = count * c.utf8Size := by
  induction count with
  | zero => simp
  | succ count inductionHypothesis =>
      rw [List.replicate_succ', String.ofList_append, String.utf8ByteSize_append,
        inductionHypothesis, Nat.succ_mul]
      simp

theorem isName_replicate {count : Nat} (isLong : 2 < count)
    (isShort : count ≤ Entry.maxNameLength) :
    Entry.isName (String.ofList (List.replicate count 'm')) = true := by
  have isSize : (String.ofList (List.replicate count 'm')).utf8ByteSize = count * 1 :=
    utf8ByteSize_replicate count 'm'
  have isLonger : ∀ text : String, text.utf8ByteSize ≤ 2 →
      String.ofList (List.replicate count 'm') ≠ text := by
    rintro text isShort rfl
    omega
  apply Entry.isName_iff.mpr
  refine ⟨?_, isLonger _ (by decide), by simp, by simp, by omega⟩
  rw [Location.isSelf, beq_false_of_ne (isLonger "" (by decide)),
    beq_false_of_ne (isLonger "." (by decide))]
  rfl

/-- A name of the greatest length. -/
def longName : EntryName :=
  ⟨String.ofList (List.replicate Entry.maxNameLength 'm'),
    isName_replicate (by decide) (Nat.le_refl _)⟩

theorem utf8ByteSize_longName : longName.text.utf8ByteSize = Entry.maxNameLength := by
  rw [longName, utf8ByteSize_replicate]
  decide

theorem le_longName : "l" ≤ longName.text := by
  rw [← String.not_lt, String.lt_iff, longName, String.toList_ofList, Entry.maxNameLength,
    List.replicate_succ]
  intro isBelow
  cases isBelow with
  | rel isLess => exact absurd isLess (by decide)

/-- A file behind a link is read by the scan of the root, but it cannot be scanned alone: its own
place may have too long a path, or the place of one more link on the way. -/
theorem scan_of_enumerated_deepFile :
    OnlyBelow (deepFile longName [(longName, functionFile)]) ∧
      OnlyBelow (deepFile longName
        [(longName, .node (.link "f") []), (⟨"f", by decide⟩, functionFile)]) := by
  constructor
  · exact (leadsToFile_file utf8ByteSize_longName le_longName).onlyBelow
  · exact (leadsToFile_link utf8ByteSize_longName le_longName).onlyBelow

end Scanner

end DeclIndex
