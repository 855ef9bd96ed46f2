import DeclIndex.Proofs.Scan.Contributions

/-!
# Why a scan fails

A scan for declarations of a known kind, down to a depth that is not negative, fails for five
reasons only (`Scanner.Fails`). Two of them lie in the scanned path: it cannot be resolved, or what
it is resolved to cannot even be looked at. One is a scanned file without a text. The others lie in
the ignore file of a scanned directory: it may be out of reach, or a line of it may be no pattern.
Whatever else goes wrong in a directory is passed over.

A path can be looked at unless it is too long, or leads through a closed directory
(`FileSystem.isFile_eq_error_iff`).
-/

namespace DeclIndex

open Sequence (bind_eq_error_iff mapError_eq_error_iff mapError_eq_ok_iff)

theorem FileSystem.ask_eq_error_iff {α : Type} {answer : Except AccessFailure α} {path : Path}
    {failure : Failure} :
    ask path answer = .error failure ↔
      ∃ cause, answer = .error cause ∧ failure = .access path cause :=
  mapError_eq_error_iff

/-- Reading an ignore file fails only if it cannot even be looked at. -/
theorem Ignore.load_eq_error_iff {fs : FileSystem} {directory : Path} {failure : Failure} :
    load fs directory = .error failure ↔
      ∃ cause, fs.isFile (directory.child fileName) = .error cause ∧
        failure = .access (directory.child fileName) cause := by
  rw [load, bind_eq_error_iff, FileSystem.ask_eq_error_iff]
  constructor
  · rintro (isRefused | ⟨answer, _, fails⟩)
    · exact isRefused
    · split at fails
      · split at fails
        · cases fails
        · cases fails
      · cases fails
  · exact Or.inl

theorem Ignore.Matcher.ofDirectory_eq_error_iff {fs : FileSystem} {directory : Path}
    {failure : Failure} :
    ofDirectory fs directory = .error failure ↔
      (∃ cause, fs.isFile (directory.child fileName) = .error cause ∧
        failure = .access (directory.child fileName) cause) ∨
      ∃ lines cause, load fs directory = .ok lines ∧ ofLines lines = .error cause ∧
        failure = .ignorePattern cause := by
  rw [ofDirectory, bind_eq_error_iff, load_eq_error_iff]
  simp only [mapError_eq_error_iff, exists_and_left]

namespace Scanner

variable {scanner : Scanner} {fs : FileSystem} {request : Request} {kind : Kind} {root : Path}
  {rules : List Rule} {failure : Failure}

/-- The reasons for which a scan of a path fails. -/
inductive Fails (fs : FileSystem) (path : String) : Failure → Prop where
  | unresolved {cause : FileSystem.ResolveFailure}
      (notResolved : fs.resolve (.ofText path) = .error cause) : Fails fs path (.ofResolve cause)
  | pathRefused {root : Path} {cause : AccessFailure}
      (isRoot : fs.resolve (.ofText path) = .ok root)
      (isRefused : fs.isFile root = .error cause) : Fails fs path (.access root cause)
  | unreadable {root : Path} {cause : ReadFailure} (isRoot : fs.resolve (.ofText path) = .ok root)
      (isFile : fs.isFile root = .ok true)
      (noText : Source.text fs root = .error (.unreadable root cause)) :
      Fails fs path (.unreadable root cause)
  | ignoreFileRefused {root : Path} {cause : AccessFailure}
      (isRoot : fs.resolve (.ofText path) = .ok root) (notFile : fs.isFile root = .ok false)
      (isRefused : fs.isFile (root.child Ignore.fileName) = .error cause) :
      Fails fs path (.access (root.child Ignore.fileName) cause)
  | ignorePattern {root : Path} {lines : List String} {cause : Ignore.PatternFailure}
      (isRoot : fs.resolve (.ofText path) = .ok root) (notFile : fs.isFile root = .ok false)
      (areLines : Ignore.load fs root = .ok lines)
      (notPatterns : Ignore.Matcher.ofLines lines = .error cause) :
      Fails fs path (.ignorePattern cause)

theorem scanFile_eq_error_iff (areRules : kind.rules? = some rules)
    (isFile : fs.isFile root = .ok true) :
    scanFile fs root kind = .error failure ↔
      ∃ cause, Source.text fs root = .error (.unreadable root cause) ∧
        failure = .unreadable root cause := by
  rw [scanFile, Source.declarations_of_rules areRules]
  cases isText : Source.text fs root with
  | ok letters => simp [Except.map]
  | error failure =>
      rcases Source.exists_unreadable_of_text (FileSystem.nulFree_of_isFile isFile) isText with
        ⟨cause, rfl⟩
      simp [Except.map, eq_comm]

/-- In a directory nothing fails but reading its ignore file. -/
theorem scanDirectory_eq_error_iff {maxDepth : Int} (areRules : kind.rules? = some rules)
    (notFile : fs.isFile root = .ok false) :
    scanner.scanDirectory fs root maxDepth kind = .error failure ↔
      Ignore.Matcher.ofDirectory fs root = .error failure := by
  cases isMatcher : Ignore.Matcher.ofDirectory fs root with
  | error cause => simp only [scanDirectory, isMatcher, bind, Except.bind, Except.error.injEq]
  | ok matcher =>
      rcases Walk.exists_enumerate ⟨fs, matcher, root⟩ maxDepth notFile with ⟨files, areFiles⟩
      rw [scanDirectory_of_enumerate scanner areRules isMatcher areFiles]
      simp only [reduceCtorEq]

/-- A scan fails for one of the reasons that there are, and has no other outcome if there is one. -/
theorem scan_eq_error_iff (areRules : kind.rules? = some rules)
    (notNegative : ¬request.maxDepth < 0) :
    scanner.scan fs request kind = .error failure ↔ Fails fs request.path failure := by
  rw [scan, if_neg notNegative, bind_eq_error_iff, mapError_eq_error_iff]
  constructor
  · rintro (⟨cause, notResolved, rfl⟩ | ⟨root, isRoot, fails⟩)
    · exact Fails.unresolved notResolved
    · rw [mapError_eq_ok_iff] at isRoot
      rcases bind_eq_error_iff.mp fails with fails | ⟨isFile, isAnswer, fails⟩
      · rcases FileSystem.ask_eq_error_iff.mp fails with ⟨cause, isRefused, rfl⟩
        exact Fails.pathRefused isRoot isRefused
      · rw [Walk.ask_eq_ok_iff] at isAnswer
        cases isFile with
        | true =>
            rcases (scanFile_eq_error_iff areRules isAnswer).mp fails with ⟨cause, noText, rfl⟩
            exact Fails.unreadable isRoot isAnswer noText
        | false =>
            have fails := (scanDirectory_eq_error_iff areRules isAnswer).mp fails
            rcases Ignore.Matcher.ofDirectory_eq_error_iff.mp fails with
              ⟨cause, isRefused, rfl⟩ | ⟨lines, cause, areLines, notPatterns, rfl⟩
            · exact Fails.ignoreFileRefused isRoot isAnswer isRefused
            · exact Fails.ignorePattern isRoot isAnswer areLines notPatterns
  · intro fails
    cases fails with
    | unresolved notResolved => exact Or.inl ⟨_, notResolved, rfl⟩
    | pathRefused isRoot isRefused =>
        refine Or.inr ⟨_, mapError_eq_ok_iff.mpr isRoot, ?_⟩
        exact bind_eq_error_iff.mpr
          (Or.inl (FileSystem.ask_eq_error_iff.mpr ⟨_, isRefused, rfl⟩))
    | unreadable isRoot isFile noText =>
        refine Or.inr ⟨_, mapError_eq_ok_iff.mpr isRoot, ?_⟩
        refine bind_eq_error_iff.mpr (Or.inr ⟨true, Walk.ask_eq_ok_iff.mpr isFile, ?_⟩)
        exact (scanFile_eq_error_iff areRules isFile).mpr ⟨_, noText, rfl⟩
    | ignoreFileRefused isRoot notFile isRefused =>
        refine Or.inr ⟨_, mapError_eq_ok_iff.mpr isRoot, ?_⟩
        refine bind_eq_error_iff.mpr (Or.inr ⟨false, Walk.ask_eq_ok_iff.mpr notFile, ?_⟩)
        apply (scanDirectory_eq_error_iff areRules notFile).mpr
        exact Ignore.Matcher.ofDirectory_eq_error_iff.mpr (Or.inl ⟨_, isRefused, rfl⟩)
    | ignorePattern isRoot notFile areLines notPatterns =>
        refine Or.inr ⟨_, mapError_eq_ok_iff.mpr isRoot, ?_⟩
        refine bind_eq_error_iff.mpr (Or.inr ⟨false, Walk.ask_eq_ok_iff.mpr notFile, ?_⟩)
        apply (scanDirectory_eq_error_iff areRules notFile).mpr
        exact Ignore.Matcher.ofDirectory_eq_error_iff.mpr
          (Or.inr ⟨_, _, areLines, notPatterns, rfl⟩)

end Scanner

end DeclIndex
