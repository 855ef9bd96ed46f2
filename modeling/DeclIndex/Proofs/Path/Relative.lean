import DeclIndex.Proofs.Path.Names
import Mathlib.Data.List.Basic
import Mathlib.Logic.Relation

/-!
# Relative paths lead back

By the letter, a path leads to what is left of its names once those that cancel each other are gone
(`Location.normalizes_iff`). The path from a base to a file goes up from the base to the last
directory that both have in common, and from there down to the file. So whoever goes along it from
the base comes to the file (`FileSystem.relativePath_leadsBack`).
-/

namespace DeclIndex

variable {names others result base target : List String} {location : Location} {name : String}

namespace Location

/-! ## Normal forms -/

/-- One name fewer, or two. A name for a directory itself may go, and a name together with the
parent behind it. The root has no parent, so there the name for it may go alone. -/
inductive Cancels : List String → List String → Prop where
  | self (before after : List String) {name : String} (isSelf : isSelf name = true) :
      Cancels (before ++ name :: after) (before ++ after)
  | parent (before after : List String) {name : String} (isProper : IsProper name) :
      Cancels (before ++ name :: ".." :: after) (before ++ after)
  | root (after : List String) : Cancels (".." :: after) after

/-- What is left of some names below the root when no more of them cancel. -/
structure Normalizes (names result : List String) : Prop where
  cancels : Relation.ReflTransGen Cancels names result
  areProper : ∀ name ∈ result, IsProper name

theorem append_cons (location : Location) (name : String) (names : List String) :
    location.append (name :: names) = (location.step name).append names :=
  rfl

theorem step_of_isSelf (location : Location) (isSelf : Location.isSelf name = true) :
    location.step name = location := by
  rw [step, if_pos isSelf]

theorem step_parent (location : Location) : location.step ".." = location.tail :=
  rfl

/-- Every name stays, goes up or goes down. -/
theorem name_cases (name : String) : isSelf name = true ∨ name = ".." ∨ IsProper name := by
  by_cases isSelf : Location.isSelf name = true
  · exact Or.inl isSelf
  · by_cases isParent : name = ".."
    · exact Or.inr (Or.inl isParent)
    · exact Or.inr (Or.inr ⟨eq_false_of_ne_true isSelf, isParent⟩)

/-- Names that cancel lead nowhere. -/
theorem Cancels.append_eq (cancels : Cancels names others) :
    append [] names = append [] others := by
  cases cancels with
  | self before after isSelf =>
      rw [append_append, append_append, append_cons, step_of_isSelf _ isSelf]
  | parent before after isProper =>
      rw [append_append, append_append, append_cons, append_cons, step_of_isProper _ isProper,
        step_parent]
      rfl
  | root after => rfl

theorem append_eq_of_cancels (cancel : Relation.ReflTransGen Cancels names others) :
    append [] names = append [] others := by
  induction cancel with
  | refl => rfl
  | tail _ cancels inductionHypothesis => exact inductionHypothesis.trans cancels.append_eq

theorem isProper_of_mem_step (areProper : ∀ other ∈ location, IsProper other) (name : String) :
    ∀ other ∈ location.step name, IsProper other := by
  rcases name_cases name with isSelf | rfl | isProper
  · rw [step_of_isSelf _ isSelf]
    exact areProper
  · rw [step_parent]
    intro other isOther
    exact areProper other (List.mem_of_mem_tail isOther)
  · rw [step_of_isProper _ isProper]
    exact List.forall_mem_cons.mpr ⟨isProper, areProper⟩

theorem isProper_of_mem_append (areProper : ∀ name ∈ location, IsProper name)
    (names : List String) : ∀ name ∈ location.append names, IsProper name := by
  induction names generalizing location with
  | nil => exact areProper
  | cons name names inductionHypothesis =>
      exact inductionHypothesis (isProper_of_mem_step areProper name)

/-- One name further, at most one cancellation is due. -/
theorem cancels_step (areProper : ∀ other ∈ location, IsProper other) (name : String)
    (names : List String) :
    Relation.ReflGen Cancels (location.reverse ++ name :: names)
      ((location.step name).reverse ++ names) := by
  rcases name_cases name with isSelf | rfl | isProper
  · rw [step_of_isSelf _ isSelf]
    exact .single (.self _ _ isSelf)
  · rw [step_parent]
    cases location with
    | nil => exact .single (.root names)
    | cons last location =>
        rw [List.reverse_cons, List.append_assoc, List.tail_cons]
        exact .single (.parent _ _ (areProper last List.mem_cons_self))
  · rw [step_of_isProper _ isProper, List.reverse_cons, List.append_assoc]
    exact .refl

/-- Going along names cancels them one after the other. -/
theorem cancels_append (areProper : ∀ name ∈ location, IsProper name) (names : List String) :
    Relation.ReflTransGen Cancels (location.reverse ++ names) (location.append names).reverse := by
  induction names generalizing location with
  | nil =>
      rw [List.append_nil]
      exact .refl
  | cons name names inductionHypothesis =>
      have isStep := (cancels_step areProper name names).to_reflTransGen
      exact isStep.trans (inductionHypothesis (isProper_of_mem_step areProper name))

/-- Some names have one normal form, and it is found by going along them from the root. -/
theorem normalizes_iff : Normalizes names result ↔ result = (append [] names).reverse := by
  constructor
  · intro normalizes
    rw [append_eq_of_cancels normalizes.cancels, append_of_isProper [] normalizes.areProper,
      List.append_nil, List.reverse_reverse]
  · rintro rfl
    refine ⟨cancels_append (List.forall_mem_nil _) names, ?_⟩
    intro name isName
    exact isProper_of_mem_append (List.forall_mem_nil _) names name (List.mem_reverse.mp isName)

/-! ## Up and down again -/

/-- What two lists of names have in common, and what either of them has beyond that. -/
structure Parts (base target shared up down : List String) : Prop where
  isBase : base = shared ++ up
  isTarget : target = shared ++ down
  isLongest : ∀ other, other <+: base → other <+: target → other <+: shared

theorem Parts.nil_left (target : List String) : Parts [] target [] [] target :=
  ⟨rfl, rfl, fun _ isPrefix _ => isPrefix⟩

theorem Parts.nil_right (base : List String) : Parts base [] [] base [] :=
  ⟨rfl, rfl, fun _ _ isPrefix => isPrefix⟩

theorem Parts.of_ne {name other : String} (differ : name ≠ other) (names others : List String) :
    Parts (name :: names) (other :: others) [] (name :: names) (other :: others) := by
  refine ⟨rfl, rfl, ?_⟩
  intro common isPrefix isPrefix'
  cases common with
  | nil => exact List.prefix_rfl
  | cons first common =>
      rw [List.cons_prefix_cons] at isPrefix isPrefix'
      exact absurd (isPrefix.1.symm.trans isPrefix'.1) differ

theorem Parts.cons {shared up down : List String} (parts : Parts base target shared up down)
    (name : String) : Parts (name :: base) (name :: target) (name :: shared) up down := by
  refine ⟨congrArg (name :: ·) parts.isBase, congrArg (name :: ·) parts.isTarget, ?_⟩
  intro common isPrefix isPrefix'
  cases common with
  | nil => exact List.nil_prefix
  | cons first common =>
      rw [List.cons_prefix_cons] at isPrefix isPrefix' ⊢
      exact ⟨isPrefix.1, parts.isLongest common isPrefix.2 isPrefix'.2⟩

theorem Parts.mem_target {shared up down : List String} (parts : Parts base target shared up down)
    (isDown : name ∈ down) : name ∈ target := by
  rw [parts.isTarget]
  exact List.mem_append_right _ isDown

/-- The way between two lists of names goes up what only the first one has, and down what only the
second one has. -/
theorem exists_parts (base target : List String) :
    ∃ shared up down, Parts base target shared up down ∧
      between base target = List.replicate up.length ".." ++ down := by
  induction base generalizing target with
  | nil => exact ⟨[], [], target, Parts.nil_left target, by simp [between]⟩
  | cons name names inductionHypothesis =>
      cases target with
      | nil => exact ⟨[], name :: names, [], Parts.nil_right _, by simp [between]⟩
      | cons other others =>
          by_cases same : name = other
          · rcases inductionHypothesis others with ⟨shared, up, down, parts, isBetween⟩
            rw [← same]
            refine ⟨name :: shared, up, down, parts.cons name, ?_⟩
            rw [between, if_pos rfl, isBetween]
          · refine ⟨[], name :: names, other :: others, Parts.of_ne same names others, ?_⟩
            rw [between, if_neg same, List.length_cons]

theorem append_replicate_parent (location : Location) (count : Nat) :
    location.append (List.replicate count "..") = location.drop count := by
  induction count generalizing location with
  | zero => rfl
  | succ count inductionHypothesis =>
      rw [List.replicate_succ, append_cons, step_parent, inductionHypothesis, List.drop_tail]

/-- Up what the base has beyond the common part, and down to the target. -/
theorem Parts.append_eq {shared up down : List String} (parts : Parts base target shared up down)
    (areProper : ∀ name ∈ down, IsProper name) :
    append base.reverse (List.replicate up.length ".." ++ down) = target.reverse := by
  have isShared : base.reverse.drop up.length = shared.reverse := by
    rw [parts.isBase, List.reverse_append, List.drop_left' (List.length_reverse)]
  rw [append_append, append_replicate_parent, isShared, append_of_isProper _ areProper,
    ← List.reverse_append, parts.isTarget]

theorem append_filter (location : Location) (names : List String) :
    location.append (names.filter fun name => !isSelf name) = location.append names := by
  induction names generalizing location with
  | nil => rfl
  | cons name names inductionHypothesis =>
      by_cases isSelf : Location.isSelf name = true
      · rw [List.filter_cons_of_neg (by simp [isSelf]), inductionHypothesis, append_cons,
          step_of_isSelf _ isSelf]
      · rw [List.filter_cons_of_pos (by simp [isSelf]), append_cons, append_cons,
          inductionHypothesis]

/-- No name is met that was not there before. -/
theorem mem_of_mem_append (isName : name ∈ location.append names) :
    name ∈ location ∨ name ∈ names := by
  induction names generalizing location with
  | nil => exact Or.inl isName
  | cons next names inductionHypothesis =>
      rcases inductionHypothesis isName with isHere | isLater
      · rcases name_cases next with isSelf | rfl | isProper
        · rw [step_of_isSelf _ isSelf] at isHere
          exact Or.inl isHere
        · exact Or.inl (List.mem_of_mem_tail isHere)
        · rw [step_of_isProper _ isProper] at isHere
          rcases List.mem_cons.mp isHere with rfl | isHere
          · exact Or.inr List.mem_cons_self
          · exact Or.inl isHere
      · exact Or.inr (List.mem_cons_of_mem _ isLater)

end Location

/-! ## Paths by the letter -/

namespace FileSystem

open Location (IsProper Normalizes Parts)

variable {fs : FileSystem}

/-- The names of an absolute path with a text, as they are written. A path without a slash at first
starts in the working directory. -/
def spelled (fs : FileSystem) (text : String) : List String :=
  (if text.toList.head? = some '/' then [] else fs.workingDirectory.reverse) ++ components text

/-- The way from the root to a path with a text, taken by the letter. -/
def lexical (fs : FileSystem) (text : String) : List String :=
  (fs.absolute (.ofText text)).reverse

theorem start_ofText (text : String) :
    fs.start (.ofText text) =
      if text.toList.head? = some '/' then [] else fs.workingDirectory := by
  by_cases isRooted : text.toList.head? = some '/'
  · have notHere : (Path.ofText text).anchor ≠ .here :=
      fun isHere => Path.anchorOf_eq_here_iff.mp isHere isRooted
    rw [if_pos isRooted, start]
    split
    next isHere => exact absurd isHere notHere
    next => rfl
    next => rfl
  · have isHere : (Path.ofText text).anchor = .here := Path.anchorOf_eq_here_iff.mpr isRooted
    rw [if_neg isRooted, start, isHere]

theorem relativePath_ofText (file base : String) :
    fs.relativePath (.ofText file) (.ofText base) =
      match Location.between (fs.lexical base) (fs.lexical file) with
      | [] => "."
      | names => slashed names :=
  rfl

theorem relativePath_of_same {file base : String} (same : fs.lexical file = fs.lexical base) :
    fs.relativePath (.ofText file) (.ofText base) = "." := by
  have noWay := Location.between_append (fs.lexical base) []
  rw [List.append_nil] at noWay
  rw [relativePath_ofText, same, noWay]

variable (areProper : ∀ name ∈ fs.workingDirectory, IsProper name ∧ '/' ∉ name.toList)

include areProper

theorem absolute_ofText (text : String) :
    fs.absolute (.ofText text) = Location.append [] (fs.spelled text) := by
  have areNames : (Path.ofText text).names =
      (components text).filter fun name => !Location.isSelf name := rfl
  have isWorking : Location.append [] fs.workingDirectory.reverse = fs.workingDirectory := by
    rw [Location.append_of_isProper, List.append_nil, List.reverse_reverse]
    intro name isName
    exact (areProper name (List.mem_reverse.mp isName)).1
  rw [absolute, start_ofText, areNames, Location.append_filter, spelled, Location.append_append]
  split
  next => rfl
  next => rw [isWorking]

theorem noSlash_of_mem_spelled {text name : String} (isName : name ∈ fs.spelled text) :
    '/' ∉ name.toList := by
  rcases List.mem_append.mp isName with isStart | isComponent
  · split at isStart
    next => cases isStart
    next => exact (areProper name (List.mem_reverse.mp isStart)).2
  · exact noSlash_of_mem_components isComponent

/-- By the letter, a text leads to a single place, whose names are what the names of the text leave
when they have cancelled each other. -/
theorem normalizes_spelled_iff {text : String} {names : List String} :
    Normalizes (fs.spelled text) names ↔ names = fs.lexical text := by
  rw [Location.normalizes_iff, lexical, absolute_ofText areProper]

theorem of_mem_lexical {text name : String} (isName : name ∈ fs.lexical text) :
    IsProper name ∧ '/' ∉ name.toList := by
  refine ⟨((normalizes_spelled_iff areProper).mpr rfl).areProper name isName, ?_⟩
  rw [lexical, absolute_ofText areProper, List.mem_reverse] at isName
  rcases Location.mem_of_mem_append isName with isNone | isSpelled
  · cases isNone
  · exact noSlash_of_mem_spelled areProper isSpelled

theorem append_lexical (text : String) (names : List String) :
    Location.append [] (fs.lexical text ++ names) =
      Location.append (fs.lexical text).reverse names := by
  have isStart : Location.append [] (fs.lexical text) = (fs.lexical text).reverse := by
    rw [Location.append_of_isProper, List.append_nil]
    exact fun name isName => (of_mem_lexical areProper isName).1
  rw [Location.append_append, isStart]

theorem append_dot {file base : String} (same : fs.lexical file = fs.lexical base) :
    Location.append [] (fs.lexical base ++ components ".") = (fs.lexical file).reverse := by
  have isSelf : components "." = ["."] := by decide
  rw [append_lexical areProper, isSelf, Location.append_cons, Location.step_of_isSelf _ rfl, same]
  rfl

/-- Between two different places there is a way, and its text spells it. -/
theorem relativePath_of_parts {file base : String} {shared up down : List String}
    (parts : Parts (fs.lexical base) (fs.lexical file) shared up down)
    (isBetween : Location.between (fs.lexical base) (fs.lexical file) =
      List.replicate up.length ".." ++ down) (differ : fs.lexical file ≠ fs.lexical base) :
    fs.relativePath (.ofText file) (.ofText base) =
        slashed (List.replicate up.length ".." ++ down) ∧
      components (slashed (List.replicate up.length ".." ++ down)) =
        List.replicate up.length ".." ++ down := by
  have nonempty : List.replicate up.length ".." ++ down ≠ [] := by
    intro noWay
    rcases List.append_eq_nil_iff.mp noWay with ⟨noParent, noDown⟩
    have noUp : up = [] := by simpa using noParent
    exact differ (by rw [parts.isTarget, parts.isBase, noUp, noDown])
  have noSlash : ∀ name ∈ List.replicate up.length ".." ++ down, '/' ∉ name.toList := by
    intro name isName
    rcases List.mem_append.mp isName with isParent | isDown
    · rw [(List.mem_replicate.mp isParent).2]
      decide
    · exact (of_mem_lexical areProper (parts.mem_target isDown)).2
  refine ⟨?_, components_slashed noSlash nonempty⟩
  rw [relativePath_ofText, isBetween]
  split
  next noWay => exact absurd noWay nonempty
  next => rfl

/-- By the letter, the text of a file and that of a base each lead to one place. The path from the
base to the file is a single dot exactly if both places are the same. Otherwise it goes up as often
as the base has names beyond those that are common to both, and then down by the other names of the
file. Added to the base, it leads to the file. -/
theorem relativePath_leadsBack (file base : String) :
    ∃ target start, (∀ names, Normalizes (fs.spelled file) names ↔ names = target) ∧
      (∀ names, Normalizes (fs.spelled base) names ↔ names = start) ∧
      (fs.relativePath (.ofText file) (.ofText base) = "." ↔ target = start) ∧
      (target ≠ start → ∃ shared up down, Parts start target shared up down ∧
        fs.relativePath (.ofText file) (.ofText base) =
          slashed (List.replicate up.length ".." ++ down) ∧
        ∀ name ∈ down, IsProper name ∧ '/' ∉ name.toList) ∧
      ∀ names, Normalizes (start ++ components (fs.relativePath (.ofText file) (.ofText base)))
        names ↔ names = target := by
  refine ⟨fs.lexical file, fs.lexical base, fun _ => normalizes_spelled_iff areProper,
    fun _ => normalizes_spelled_iff areProper, ?_⟩
  by_cases same : fs.lexical file = fs.lexical base
  · rw [relativePath_of_same same]
    refine ⟨by simp [same], fun differ => absurd same differ, fun names => ?_⟩
    rw [Location.normalizes_iff, append_dot areProper same, List.reverse_reverse]
  · rcases Location.exists_parts (fs.lexical base) (fs.lexical file) with
      ⟨shared, up, down, parts, isBetween⟩
    have areDown : ∀ name ∈ down, IsProper name ∧ '/' ∉ name.toList :=
      fun name isDown => of_mem_lexical areProper (parts.mem_target isDown)
    rcases relativePath_of_parts areProper parts isBetween same with ⟨isText, areComponents⟩
    rw [isText]
    refine ⟨?_, fun _ => ⟨shared, up, down, parts, rfl, areDown⟩, fun names => ?_⟩
    · refine ⟨fun isDot => ?_, fun isSame => absurd isSame same⟩
      -- The dot would have to be a name of the way.
      have isDotIn : "." ∈ List.replicate up.length ".." ++ down := by
        rw [← areComponents, isDot]
        decide
      rcases List.mem_append.mp isDotIn with isParent | isDown
      · exact absurd (List.mem_replicate.mp isParent).2 (by decide)
      · cases (areDown "." isDown).1.1
    · rw [areComponents, Location.normalizes_iff, append_lexical areProper,
        parts.append_eq fun name isDown => (areDown name isDown).1, List.reverse_reverse]

/-- A directory in a directory, in which paths start. -/
def innerDirectory : FileSystem :=
  ⟨[(⟨"outer", by decide⟩, .node (.directory false)
    [(⟨"inner", by decide⟩, .node (.directory false) [])])], ["inner", "outer"]⟩

omit areProper in
/-- A file from the working directory and a base from the root, both with parents and needless
slashes. -/
theorem relativePath_leadsBack_sibling :
    (∀ name ∈ innerDirectory.workingDirectory, IsProper name ∧ '/' ∉ name.toList) ∧
    innerDirectory.relativePath (.ofText "../x//y") (.ofText "/../outer/./c/d/..") = "../x/y" ∧
    Normalizes (["outer", "c"] ++ ["..", "x", "y"]) ["outer", "x", "y"] := by
  have areProper : ∀ name ∈ innerDirectory.workingDirectory, IsProper name ∧ '/' ∉ name.toList := by
    intro name isName
    rcases List.mem_pair.mp isName with rfl | rfl
    · exact ⟨⟨rfl, by decide⟩, by decide⟩
    · exact ⟨⟨rfl, by decide⟩, by decide⟩
  have isText : innerDirectory.relativePath (.ofText "../x//y") (.ofText "/../outer/./c/d/..") =
      "../x/y" := by
    decide
  have areComponents : components "../x/y" = ["..", "x", "y"] := by
    decide
  rcases relativePath_leadsBack areProper "../x//y" "/../outer/./c/d/.." with
    ⟨target, start, isTarget, isStart, _, _, leads⟩
  have areTarget : ["outer", "x", "y"] = target :=
    (isTarget _).mp (Location.normalizes_iff.mpr (by decide))
  have areStart : ["outer", "c"] = start :=
    (isStart _).mp (Location.normalizes_iff.mpr (by decide))
  rw [← areTarget, ← areStart, isText, areComponents] at leads
  exact ⟨areProper, isText, (leads _).mpr rfl⟩

end FileSystem

end DeclIndex
