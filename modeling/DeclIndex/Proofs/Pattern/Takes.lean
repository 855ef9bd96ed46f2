import DeclIndex.Pattern.Basic

/-!
# What a pattern takes

`Pattern.ways` lists the ways to read a text in the order in which they are tried. Most facts about
a pattern do not depend on that order. `Pattern.Takes` leaves it out: it says which run of
characters a pattern takes, before which rest, and what it captures on the way.

`Pattern.mem_ways_iff` ties the two together. So a text that is read is a run and a rest
(`Pattern.exists_takes_of_read?`), and a text with such a run is read in some way
(`Pattern.exists_read?_of_takes`). Where all runs of a text capture the same, the order of the
ways does not matter at all (`Pattern.captured_read?_iff`). Where a pattern ends with a capture of
a run, the order does matter, and the longest run counts
(`Pattern.exists_takes_of_read?_seq_capture`).
-/

namespace DeclIndex.Pattern

/-- The pattern can take a run that stands before a rest, and captures something or nothing. -/
def Takes : Pattern → List Char → List Char → Option (List Char) → Prop
  | nothing, run, _, captured => run = [] ∧ captured = none
  | one set, run, _, captured => (∃ c, set.contains c = true ∧ run = [c]) ∧ captured = none
  | many set, run, _, captured => (∀ c ∈ run, set.contains c = true) ∧ captured = none
  | seq before after, run, rest, captured =>
    ∃ first second early late, before.Takes first (second ++ rest) early ∧
      after.Takes second rest late ∧ run = first ++ second ∧ captured = late.or early
  | either preferred other, run, rest, captured =>
    preferred.Takes run rest captured ∨ other.Takes run rest captured
  | capture inner, run, rest, captured =>
    (∃ early, inner.Takes run rest early) ∧ captured = some run
  | finish, run, rest, captured => run = [] ∧ (rest = [] ∨ rest = ['\n']) ∧ captured = none

variable {set : CharSet} {run rest text : List Char} {captured : Option (List Char)}

/-! ## Runs of one set -/

theorem mem_remainders_iff :
    rest ∈ remainders set text ↔
      ∃ run, (∀ c ∈ run, set.contains c = true) ∧ text = run ++ rest := by
  induction text with
  | nil =>
      constructor
      · intro isRest
        simp only [remainders, List.mem_singleton] at isRest
        exact ⟨[], by simp, by simp [isRest]⟩
      · rintro ⟨run, _, split⟩
        simp [remainders, (List.append_eq_nil_iff.mp split.symm).2]
  | cons c text inductionHypothesis =>
      simp only [remainders]
      by_cases inSet : set.contains c = true
      · rw [if_pos inSet, List.mem_append, List.mem_singleton, inductionHypothesis]
        constructor
        · rintro (⟨run, runInSet, rfl⟩ | rfl)
          · exact ⟨c :: run, by simpa [inSet] using runInSet, rfl⟩
          · exact ⟨[], by simp, rfl⟩
        · rintro ⟨run, runInSet, split⟩
          cases run with
          | nil => exact Or.inr split.symm
          | cons d run =>
              rcases List.cons.inj split with ⟨rfl, rfl⟩
              exact Or.inl ⟨run, fun e inRun => runInSet e (List.mem_cons_of_mem _ inRun), rfl⟩
      · rw [if_neg inSet, List.mem_singleton]
        constructor
        · rintro rfl
          exact ⟨[], by simp, rfl⟩
        · rintro ⟨run, runInSet, split⟩
          cases run with
          | nil => exact split.symm
          | cons d run =>
              rcases List.cons.inj split with ⟨rfl, rfl⟩
              exact absurd (runInSet c List.mem_cons_self) inSet

/-- The longest run is tried first. -/
theorem head?_remainders (set : CharSet) (text : List Char) :
    (remainders set text).head? = some (text.dropWhile set.contains) := by
  induction text with
  | nil => rfl
  | cons c text inductionHypothesis =>
      simp only [remainders, List.dropWhile_cons]
      by_cases inSet : set.contains c = true
      · simp [inSet, List.head?_append, inductionHypothesis]
      · simp [inSet]

@[simp]
theorem taken_append (run rest : List Char) : taken (run ++ rest) rest = run := by
  simp [taken]

/-! ## Ways and runs -/

theorem mem_ways_iff (pattern : Pattern) (text : List Char) (old : Option (List Char))
    (rest : List Char) (new : Option (List Char)) :
    ⟨rest, new⟩ ∈ pattern.ways ⟨text, old⟩ ↔ ∃ run captured,
      pattern.Takes run rest captured ∧ text = run ++ rest ∧ new = captured.or old := by
  induction pattern generalizing text old rest new with
  | nothing =>
      simp only [ways, List.mem_singleton, Reading.mk.injEq, Takes]
      constructor
      · rintro ⟨rfl, rfl⟩
        exact ⟨[], none, ⟨rfl, rfl⟩, rfl, rfl⟩
      · rintro ⟨_, _, ⟨rfl, rfl⟩, rfl, rfl⟩
        exact ⟨rfl, rfl⟩
  | one set =>
      simp only [ways, Takes]
      cases text with
      | nil =>
          simp only [List.not_mem_nil, false_iff]
          rintro ⟨_, _, ⟨⟨_, _, rfl⟩, _⟩, split, _⟩
          exact List.cons_ne_nil _ _ split.symm
      | cons c text =>
          by_cases inSet : set.contains c = true
          · simp only [inSet, if_true, List.mem_singleton, Reading.mk.injEq]
            constructor
            · rintro ⟨rfl, rfl⟩
              exact ⟨[c], none, ⟨⟨c, inSet, rfl⟩, rfl⟩, rfl, rfl⟩
            · rintro ⟨_, _, ⟨⟨d, _, rfl⟩, rfl⟩, split, rfl⟩
              exact ⟨(List.cons.inj split).2.symm, rfl⟩
          · simp only [inSet, Bool.false_eq_true, if_false, List.not_mem_nil, false_iff]
            rintro ⟨_, _, ⟨⟨d, dInSet, rfl⟩, rfl⟩, split, _⟩
            rw [(List.cons.inj split).1] at inSet
            exact inSet dInSet
  | many set =>
      simp only [ways, Takes, List.mem_map, Reading.mk.injEq, mem_remainders_iff]
      constructor
      · rintro ⟨_, ⟨run, runInSet, rfl⟩, rfl, rfl⟩
        exact ⟨run, none, ⟨runInSet, rfl⟩, rfl, rfl⟩
      · rintro ⟨run, _, ⟨runInSet, rfl⟩, rfl, rfl⟩
        exact ⟨rest, ⟨run, runInSet, rfl⟩, rfl, rfl⟩
  | seq before after hBefore hAfter =>
      simp only [ways, List.mem_flatMap, Takes]
      constructor
      · rintro ⟨⟨middle, kept⟩, inBefore, inAfter⟩
        rcases (hBefore ..).mp inBefore with ⟨first, early, takesFirst, rfl, rfl⟩
        rcases (hAfter ..).mp inAfter with ⟨second, late, takesSecond, rfl, rfl⟩
        exact ⟨first ++ second, late.or early,
          ⟨first, second, early, late, takesFirst, takesSecond, rfl, rfl⟩,
          (List.append_assoc ..).symm, (Option.or_assoc ..).symm⟩
      · rintro ⟨_, _, ⟨first, second, early, late, takesFirst, takesSecond, rfl, rfl⟩, rfl, rfl⟩
        refine ⟨⟨second ++ rest, early.or old⟩, ?_, ?_⟩
        · exact (hBefore ..).mpr ⟨first, early, takesFirst, List.append_assoc .., rfl⟩
        · exact (hAfter ..).mpr ⟨second, late, takesSecond, rfl, Option.or_assoc ..⟩
  | either preferred other hPreferred hOther =>
      simp only [ways, List.mem_append, hPreferred, hOther, Takes, or_and_right, exists_or]
  | capture inner hInner =>
      simp only [ways, List.mem_map, Takes]
      constructor
      · rintro ⟨⟨reached, kept⟩, inInner, equal⟩
        rcases (hInner ..).mp inInner with ⟨run, early, takesRun, split, _⟩
        simp only [Reading.mk.injEq] at equal
        rcases equal with ⟨rfl, rfl⟩
        exact ⟨run, some run, ⟨⟨early, takesRun⟩, rfl⟩, split, by simp [split]⟩
      · rintro ⟨run, _, ⟨⟨early, takesRun⟩, rfl⟩, rfl, rfl⟩
        refine ⟨⟨rest, early.or old⟩, ?_, by simp⟩
        exact (hInner ..).mpr ⟨run, early, takesRun, rfl, rfl⟩
  | finish =>
      simp only [ways, Takes]
      by_cases atEnd : text = [] ∨ text = ['\n']
      · simp only [atEnd, if_true, List.mem_singleton, Reading.mk.injEq]
        constructor
        · rintro ⟨rfl, rfl⟩
          exact ⟨[], none, ⟨rfl, atEnd, rfl⟩, rfl, rfl⟩
        · rintro ⟨_, _, ⟨rfl, _, rfl⟩, rfl, rfl⟩
          exact ⟨rfl, rfl⟩
      · simp only [atEnd, if_false, List.not_mem_nil, false_iff]
        rintro ⟨_, _, ⟨rfl, restAtEnd, rfl⟩, rfl, _⟩
        exact atEnd restAtEnd

theorem exists_takes_of_read? {pattern : Pattern} {r : Reading}
    (reads : pattern.read? text = some r) :
    ∃ run, pattern.Takes run r.rest r.captured ∧ text = run ++ r.rest := by
  rw [read?_eq_head?] at reads
  rcases (mem_ways_iff ..).mp (List.mem_of_mem_head? reads) with
    ⟨run, captured, takes, split, equal⟩
  rw [Option.or_none] at equal
  exact ⟨run, equal ▸ takes, split⟩

theorem exists_read?_of_takes {pattern : Pattern} (takes : pattern.Takes run rest captured) :
    ∃ r, pattern.read? (run ++ rest) = some r := by
  have isWay : (⟨rest, captured⟩ : Reading) ∈ pattern.ways ⟨run ++ rest, none⟩ :=
    (mem_ways_iff ..).mpr ⟨run, captured, takes, rfl, (Option.or_none).symm⟩
  rw [read?_eq_head?]
  exact Option.isSome_iff_exists.mp (List.isSome_head?.mpr (List.ne_nil_of_mem isWay))

/-- The pattern captures the same of a text, however it takes it. -/
def Settled (pattern : Pattern) : Prop :=
  ∀ ⦃run rest captured run' rest' captured'⦄, pattern.Takes run rest captured →
    pattern.Takes run' rest' captured' → run ++ rest = run' ++ rest' → captured = captured'

/-- What a settled pattern captures can be read off any run that it takes. -/
theorem captured_read?_iff {pattern : Pattern} (settled : pattern.Settled) :
    (∃ r, pattern.read? text = some r ∧ r.captured = captured) ↔
      ∃ run rest, pattern.Takes run rest captured ∧ text = run ++ rest := by
  constructor
  · rintro ⟨r, reads, rfl⟩
    rcases exists_takes_of_read? reads with ⟨run, takes, split⟩
    exact ⟨run, r.rest, takes, split⟩
  · rintro ⟨run, rest, takes, rfl⟩
    rcases exists_read?_of_takes takes with ⟨r, reads⟩
    rcases exists_takes_of_read? reads with ⟨run', takes', split⟩
    exact ⟨r, reads, settled takes' takes split.symm⟩

/-! ## A captured run at the end -/

/-- How a sequence of three is bracketed does not matter. -/
theorem read?_seq_assoc (first second third : Pattern) (text : List Char) :
    (seq first (seq second third)).read? text = (seq (seq first second) third).read? text := by
  simp only [read?_eq_head?, ways, List.flatMap_assoc]

/-- A captured run of a set takes all characters of the set that stand next. -/
theorem head?_ways_capture_oneOrMore (set : CharSet) (text : List Char)
    (old : Option (List Char)) (r : Reading) :
    ((capture (oneOrMore set)).ways ⟨text, old⟩).head? = some r ↔
      text.takeWhile set.contains ≠ [] ∧
        r = ⟨text.dropWhile set.contains, some (text.takeWhile set.contains)⟩ := by
  cases text with
  | nil => simp [ways, oneOrMore]
  | cons c text =>
      by_cases inSet : set.contains c = true
      · have takenRun : taken (c :: text) (text.dropWhile set.contains) =
            c :: text.takeWhile set.contains := by
          have whole :=
            taken_append (c :: text.takeWhile set.contains) (text.dropWhile set.contains)
          rwa [List.cons_append, List.takeWhile_append_dropWhile] at whole
        simp only [ways, oneOrMore, inSet, if_true, List.flatMap_cons, List.flatMap_nil,
          List.append_nil, List.map_map, List.head?_map, head?_remainders, Option.map_some,
          Function.comp_apply, takenRun, List.takeWhile_cons, List.dropWhile_cons, ne_eq,
          reduceCtorEq, not_false_eq_true, true_and, Option.some.injEq]
        exact eq_comm
      · simp [ways, oneOrMore, inSet]

theorem exists_takes_of_read?_seq_capture {before : Pattern} {r : Reading}
    (reads : (seq before (capture (oneOrMore set))).read? text = some r) :
    ∃ run rest early, before.Takes run rest early ∧ text = run ++ rest ∧
      rest.takeWhile set.contains ≠ [] ∧ r.captured = some (rest.takeWhile set.contains) := by
  rw [read?_eq_head?, ways, List.head?_flatMap] at reads
  rcases List.exists_of_findSome?_eq_some reads with ⟨⟨rest, kept⟩, isWay, reads⟩
  rcases (mem_ways_iff ..).mp isWay with ⟨run, early, takes, split, _⟩
  rcases (head?_ways_capture_oneOrMore ..).mp reads with ⟨nonempty, rfl⟩
  exact ⟨run, rest, early, takes, split, nonempty, rfl⟩

end DeclIndex.Pattern
