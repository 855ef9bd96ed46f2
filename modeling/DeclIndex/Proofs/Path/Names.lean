import DeclIndex.FileSystem.Lookup

/-!
# Paths made of names

Names without slashes can be told from their text with slashes between them, so different names
have different texts (`slashed_injective`). A name of an entry is none of the names that stand for
a directory itself or for its parent. So entry names below a base are by the letter what leads from
the base to them (`FileSystem.relativePath_append`), whatever the names of the base are.
-/

namespace DeclIndex

/-! ## Texts of names -/

variable {names others : List String}

theorem toList_slashed (names : List String) :
    (slashed names).toList = ['/'].intercalate (names.map String.toList) := by
  rw [slashed, String.toList_intercalate]
  rfl

theorem splitOn_slashed (noSlash : ∀ name ∈ names, '/' ∉ name.toList) (nonempty : names ≠ []) :
    (slashed names).toList.splitOn '/' = names.map String.toList := by
  rw [toList_slashed]
  apply List.splitOn_intercalate
  · intro letters isName
    rcases List.mem_map.mp isName with ⟨name, isMember, rfl⟩
    exact noSlash name isMember
  · intro isEmpty
    exact nonempty (List.map_eq_nil_iff.mp isEmpty)

theorem components_slashed (noSlash : ∀ name ∈ names, '/' ∉ name.toList) (nonempty : names ≠ []) :
    components (slashed names) = names := by
  rw [components, splitOn_slashed noSlash nonempty, List.map_map]
  have isSelf : String.ofList ∘ String.toList = id := by
    funext name
    exact String.ofList_toList
  rw [isSelf, List.map_id]

theorem slashed_injective (noSlash : ∀ name ∈ names, '/' ∉ name.toList)
    (noSlash' : ∀ name ∈ others, '/' ∉ name.toList) (nonempty : names ≠ [])
    (nonempty' : others ≠ []) (same : slashed names = slashed others) : names = others := by
  rw [← components_slashed noSlash nonempty, same, components_slashed noSlash' nonempty']

theorem slashed_singleton (name : String) : slashed [name] = name :=
  String.intercalate_singleton

theorem slashed_concat (nonempty : names ≠ []) (name : String) :
    slashed (names ++ [name]) = slashed names ++ "/" ++ name := by
  rw [slashed, String.intercalate_append_of_ne_nil nonempty (by simp), String.intercalate_singleton]
  rfl

/-- Each further name brings the slash before it. -/
theorem toList_slashed_append (nonempty : names ≠ []) (more : List String) :
    (slashed (names ++ more)).toList =
      (slashed names).toList ++ more.flatMap fun name => '/' :: name.toList := by
  induction more generalizing names with
  | nil => simp
  | cons name more inductionHypothesis =>
      have moved : names ++ name :: more = (names ++ [name]) ++ more := by simp
      rw [moved, inductionHypothesis (by simp), slashed_concat nonempty]
      simp

theorem toList_slashed_cons (name : String) (names : List String) :
    (slashed (name :: names)).toList =
      name.toList ++ names.flatMap fun other => '/' :: other.toList := by
  have whole := toList_slashed_append (List.cons_ne_nil name []) names
  rwa [slashed_singleton] at whole

theorem getLast?_slashed_concat {name : String} (nonempty : name ≠ "") (names : List String) :
    (slashed (names ++ [name])).toList.getLast? = name.toList.getLast? := by
  have someLast : name.toList ≠ [] := by simpa using nonempty
  cases names with
  | nil => rw [List.nil_append, slashed_singleton]
  | cons first names =>
      rw [toList_slashed_append (List.cons_ne_nil _ _)]
      simp [List.getLast?_cons, List.getLast?_eq_some_getLast someLast]

theorem utf8ByteSize_slashed_replicate (count : Nat) (name : String) :
    (slashed (List.replicate (count + 1) name)).utf8ByteSize + 1 =
      (count + 1) * (name.utf8ByteSize + 1) := by
  induction count with
  | zero => simp [slashed_singleton]
  | succ count inductionHypothesis =>
      have isLonger : slashed (List.replicate (count + 1 + 1) name) =
          name ++ "/" ++ slashed (List.replicate (count + 1) name) :=
        String.intercalate_cons_cons
      have isSlash : "/".utf8ByteSize = 1 := by decide
      rw [isLonger, String.utf8ByteSize_append, String.utf8ByteSize_append, isSlash, Nat.succ_mul,
        ← inductionHypothesis]
      omega

/-! ## Reading texts -/

theorem mem_splitOn {α : Type} [BEq α] [LawfulBEq α] {separator item : α} {items part : List α}
    (isPart : part ∈ items.splitOn separator) (isIn : item ∈ part) :
    item ≠ separator ∧ item ∈ items := by
  induction items generalizing part with
  | nil =>
      simp only [List.splitOn_nil, List.mem_singleton] at isPart
      simp [isPart] at isIn
  | cons first items inductionHypothesis =>
      rw [List.splitOn_cons_eq_if_modifyHead] at isPart
      by_cases isSeparator : first = separator
      · simp only [isSeparator, BEq.rfl, if_true, List.mem_cons] at isPart
        rcases isPart with rfl | isPart
        · cases isIn
        · rcases inductionHypothesis isPart isIn with ⟨notSeparator, isItem⟩
          exact ⟨notSeparator, List.mem_cons_of_mem _ isItem⟩
      · cases parts : items.splitOn separator with
        | nil => exact (List.splitOn_ne_nil _ _ parts).elim
        | cons head tail =>
            simp only [beq_iff_eq, isSeparator, if_false, parts, List.modifyHead_cons,
              List.mem_cons] at isPart inductionHypothesis
            rcases isPart with rfl | isPart
            · rcases List.mem_cons.mp isIn with rfl | isIn
              · exact ⟨isSeparator, List.mem_cons_self⟩
              · rcases inductionHypothesis (Or.inl rfl) isIn with ⟨notSeparator, isItem⟩
                exact ⟨notSeparator, List.mem_cons_of_mem _ isItem⟩
            · rcases inductionHypothesis (Or.inr isPart) isIn with ⟨notSeparator, isItem⟩
              exact ⟨notSeparator, List.mem_cons_of_mem _ isItem⟩

theorem noSlash_of_mem_components {text name : String} (isComponent : name ∈ components text) :
    '/' ∉ name.toList := by
  rcases List.mem_map.mp isComponent with ⟨letters, isPart, rfl⟩
  rw [String.toList_ofList]
  intro isSlash
  exact (mem_splitOn isPart isSlash).1 rfl

theorem components_slash (text : String) : components ("/" ++ text) = "" :: components text := by
  rw [components, String.toList_append]
  simp [List.splitOn_cons_eq_if_modifyHead, components]

theorem filter_components_slashed (noSlash : ∀ name ∈ names, '/' ∉ name.toList) :
    (components (slashed names)).filter (fun name => !Location.isSelf name) =
      names.filter fun name => !Location.isSelf name := by
  cases names with
  | nil => rfl
  | cons name names => rw [components_slashed noSlash (List.cons_ne_nil _ _)]

theorem Path.anchorOf_slash (letters : List Char) : anchorOf ('/' :: letters) ≠ .here := by
  unfold anchorOf
  split <;> simp_all

theorem Path.anchorOf_eq_here_iff {letters : List Char} :
    anchorOf letters = .here ↔ letters.head? ≠ some '/' := by
  cases letters with
  | nil => simp [anchorOf]
  | cons c letters =>
      by_cases isSlash : c = '/'
      · subst isSlash
        simp [anchorOf_slash]
      · have isHere : anchorOf (c :: letters) = .here := by
          unfold anchorOf
          split <;> simp_all
        simp [isHere, isSlash]

theorem Path.ofText_slash (text : String) :
    (ofText ("/" ++ text)).anchor ≠ .here ∧
      (ofText ("/" ++ text)).names =
        (components text).filter fun name => !Location.isSelf name := by
  constructor
  · rw [ofText, String.toList_append]
    exact anchorOf_slash text.toList
  · rw [ofText, components_slash]
    rfl

/-- A path from the root is read back from its text, without the names for a directory itself. -/
theorem Path.ofText_text {path : Path} (rooted : path.anchor ≠ .here)
    (noSlash : ∀ name ∈ path.names, '/' ∉ name.toList) :
    (ofText path.text).anchor ≠ .here ∧
      (ofText path.text).names = path.names.filter fun name => !Location.isSelf name := by
  rcases path with ⟨anchor, names⟩
  cases anchor with
  | here => exact absurd rfl rooted
  | root =>
      rw [← filter_components_slashed noSlash]
      exact ofText_slash (slashed names)
  | doubleRoot =>
      rw [← filter_components_slashed noSlash]
      have isText : Path.text ⟨.doubleRoot, names⟩ = "/" ++ ("/" ++ slashed names) := by
        rw [← String.append_assoc]
        rfl
      rcases ofText_slash ("/" ++ slashed names) with ⟨rooted, areNames⟩
      rw [isText]
      refine ⟨rooted, areNames.trans ?_⟩
      rw [components_slash]
      rfl

/-! ## Names of entries -/

theorem Entry.isName_iff {name : String} :
    Entry.isName name = true ↔ Location.isSelf name = false ∧ name ≠ ".." ∧ '/' ∉ name.toList ∧
      '\x00' ∉ name.toList ∧ name.utf8ByteSize ≤ Entry.maxNameLength := by
  simp only [Entry.isName, Bool.and_eq_true, Bool.not_eq_true', bne_iff_ne, ne_eq,
    List.contains_eq_mem, decide_eq_true_eq, decide_eq_false_iff_not, and_assoc]

theorem Entry.ne_empty_of_isName {name : String} (isName : Entry.isName name = true) :
    name ≠ "" := by
  rintro rfl
  cases isName

theorem Entry.noSlash_of_isName {name : String} (isName : Entry.isName name = true) :
    '/' ∉ name.toList :=
  (Entry.isName_iff.mp isName).2.2.1

namespace Location

/-- A name that leads one directory down. -/
def IsProper (name : String) : Prop :=
  isSelf name = false ∧ name ≠ ".."

theorem isProper_of_isName {name : String} (isName : Entry.isName name = true) : IsProper name := by
  rcases Entry.isName_iff.mp isName with ⟨notSelf, notParent, _⟩
  exact ⟨notSelf, notParent⟩

theorem step_of_isProper (location : Location) {name : String} (isProper : IsProper name) :
    location.step name = name :: location := by
  simp [step, isProper.1, isProper.2]

/-- Proper names go down from a location, one after the other. -/
theorem append_of_isProper (location : Location) (areProper : ∀ name ∈ names, IsProper name) :
    location.append names = names.reverse ++ location := by
  induction names generalizing location with
  | nil => rfl
  | cons name names inductionHypothesis =>
      rcases List.forall_mem_cons.mp areProper with ⟨isProper, areOthers⟩
      have goesOn := inductionHypothesis (location.step name) areOthers
      rw [step_of_isProper location isProper] at goesOn
      rw [append, List.foldl_cons, step_of_isProper location isProper, List.reverse_cons,
        List.append_assoc]
      exact goesOn

theorem append_of_isName (location : Location)
    (areNames : ∀ name ∈ names, Entry.isName name = true) :
    location.append names = names.reverse ++ location :=
  append_of_isProper location fun name isName => isProper_of_isName (areNames name isName)

theorem append_append (location : Location) (names others : List String) :
    location.append (names ++ others) = (location.append names).append others :=
  List.foldl_append

theorem between_append (base names : List String) : between base (base ++ names) = names := by
  induction base with
  | nil => simp [between]
  | cons name base inductionHypothesis => simpa [between] using inductionHypothesis

theorem relative_of_isName (base : Location) (areNames : ∀ name ∈ names, Entry.isName name = true) :
    (base.append names).relative base = names := by
  rw [relative, append_of_isName base areNames, List.reverse_append, List.reverse_reverse]
  exact between_append _ _

end Location

/-! ## Names below a base -/

namespace FileSystem

variable (fs : FileSystem) {base path : Path}

theorem absolute_append (base : Path) (names : List String) :
    fs.absolute (base.append names) = (fs.absolute base).append names :=
  Location.append_append _ _ _

theorem relativePath_append (nonempty : names ≠ [])
    (areNames : ∀ name ∈ names, Entry.isName name = true) :
    fs.relativePath (base.append names) base = slashed names := by
  rw [relativePath, absolute_append, Location.relative_of_isName _ areNames]
  cases names with
  | nil => exact absurd rfl nonempty
  | cons name names => rfl

theorem relativePath_append_injective (nonempty : names ≠ []) (nonempty' : others ≠ [])
    (areNames : ∀ name ∈ names, Entry.isName name = true)
    (areNames' : ∀ name ∈ others, Entry.isName name = true)
    (same : fs.relativePath (base.append names) base = fs.relativePath (base.append others) base) :
    names = others := by
  rw [relativePath_append fs nonempty areNames, relativePath_append fs nonempty' areNames'] at same
  apply slashed_injective _ _ nonempty nonempty' same
  · exact fun name isName => Entry.noSlash_of_isName (areNames name isName)
  · exact fun name isName => Entry.noSlash_of_isName (areNames' name isName)

end FileSystem

end DeclIndex
