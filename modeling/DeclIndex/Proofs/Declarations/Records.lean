import DeclIndex.Declarations
import DeclIndex.Proofs.Declarations.LineOrder

/-!
# The records of a text

Each record of a text names the line that it was found on and what a rule yields there
(`Declarations.exists_line_of_mem_scanFrom`). A name is recorded once, whichever rule yields it and
on however many lines (`Declarations.nodup_name_scanFrom`).
-/

namespace DeclIndex.Declarations

variable {finders : List Finder} {rules : List Rule} {kind : Kind} {file : String} {number : Nat}
  {previous : Option String} {seen lines : List String} {record : Record}

theorem exists_line_of_mem_scanFrom
    (isRecord : record ∈ scanFrom finders kind file number previous seen lines) :
    record.kind = kind ∧ record.file = file ∧ record.name ∉ seen ∧
      ∃ index line before, lines[index]? = some line ∧
        record.line = ((number + index : Nat) : Int) ∧
        record.name ∈ names finders line before := by
  induction lines generalizing number previous seen with
  | nil => cases isRecord
  | cons line lines inductionHypothesis =>
      rcases List.mem_append.mp isRecord with isHere | isLater
      · rcases List.mem_map.mp isHere with ⟨name, isFresh, rfl⟩
        rcases mem_fresh_iff.mp isFresh with ⟨isName, notSeen⟩
        exact ⟨rfl, rfl, notSeen, 0, line, previous, rfl, rfl, isName⟩
      · rcases inductionHypothesis isLater with
          ⟨isKind, isFile, notSeen, index, found, before, isLine, isNumber, isName⟩
        refine ⟨isKind, isFile, ?_, index + 1, found, before, isLine, ?_, isName⟩
        · intro wasSeen
          exact notSeen (List.mem_append_right _ wasSeen)
        · rw [isNumber]
          congr 1
          omega

theorem nodup_name_scanFrom (finders : List Finder) (kind : Kind) (file : String) (number : Nat)
    (previous : Option String) (seen lines : List String) :
    ((scanFrom finders kind file number previous seen lines).map (·.name)).Nodup := by
  induction lines generalizing number previous seen with
  | nil => exact List.nodup_nil
  | cons line lines inductionHypothesis =>
      rw [scanFrom, List.map_append, List.map_map]
      apply List.nodup_append.mpr
      refine ⟨?_, inductionHypothesis .., ?_⟩
      · simpa [Function.comp_def] using nodup_fresh seen (names finders line previous)
      · rintro name isHere _ isLater rfl
        rcases List.mem_map.mp isHere with ⟨_, isFresh, rfl⟩
        rcases List.mem_map.mp isLater with ⟨later, isRecord, isName⟩
        apply (exists_line_of_mem_scanFrom isRecord).2.2.1
        rw [isName]
        exact List.mem_append_left _ isFresh

/-- Every record of a text stands on one of its lines, where a rule yields its name. -/
theorem exists_line_of_mem_scan (isRecord : record ∈ scan rules kind file lines) :
    record.kind = kind ∧ record.file = file ∧
      ∃ index line before, lines[index]? = some line ∧ record.line = ((index + 1 : Nat) : Int) ∧
        ∃ rule ∈ rules, rule.name? line before = some record.name := by
  rcases exists_line_of_mem_scanFrom isRecord with
    ⟨isKind, isFile, _, index, line, before, isLine, isNumber, isName⟩
  rw [Nat.add_comm] at isNumber
  exact ⟨isKind, isFile, index, line, before, isLine, isNumber, Rule.mem_names_iff.mp isName⟩

end DeclIndex.Declarations
