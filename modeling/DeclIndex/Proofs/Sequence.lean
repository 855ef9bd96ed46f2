import Mathlib.Data.List.Forall2

/-!
# Tasks in sequence

`List.mapM` does one task after the other and stops at the first that fails. So it succeeds exactly
if all tasks do, and its results are then those of the tasks. If all failures are the same, it does
not matter which task fails first.
-/

namespace DeclIndex.Sequence

variable {α β ε : Type} {task : α → Except ε β} {items : List α} {results : List β}

theorem bind_eq_ok_iff {first : Except ε α} {next : α → Except ε β} {result : β} :
    first >>= next = .ok result ↔ ∃ item, first = .ok item ∧ next item = .ok result := by
  cases first with
  | error failure => simp [bind, Except.bind]
  | ok item => simp [bind, Except.bind]

theorem map_eq_ok_iff {before : Except ε α} {change : α → β} {result : β} :
    Except.map change before = .ok result ↔ ∃ item, before = .ok item ∧ change item = result := by
  cases before with
  | error failure => simp [Except.map]
  | ok item => simp [Except.map]

theorem map_eq_error_iff {before : Except ε α} {change : α → β} {failure : ε} :
    Except.map change before = .error failure ↔ before = .error failure := by
  cases before with
  | error failure => simp [Except.map]
  | ok item => simp [Except.map]

theorem mapError_eq_ok_iff {ε' : Type} {before : Except ε α} {change : ε → ε'} {item : α} :
    before.mapError change = .ok item ↔ before = .ok item := by
  cases before with
  | error cause => simp [Except.mapError]
  | ok item => simp [Except.mapError]

theorem mapError_eq_error_iff {ε' : Type} {before : Except ε α} {change : ε → ε'} {failure : ε'} :
    before.mapError change = .error failure ↔
      ∃ cause, before = .error cause ∧ failure = change cause := by
  cases before with
  | error cause => simp [Except.mapError, eq_comm]
  | ok item => simp [Except.mapError]

theorem bind_eq_error_iff {first : Except ε α} {next : α → Except ε β} {failure : ε} :
    first >>= next = .error failure ↔
      first = .error failure ∨ ∃ item, first = .ok item ∧ next item = .error failure := by
  cases first with
  | error failure => simp [bind, Except.bind]
  | ok item => simp [bind, Except.bind]

theorem mapM_eq_ok_iff :
    items.mapM task = .ok results ↔
      List.Forall₂ (fun item result => task item = .ok result) items results := by
  induction items generalizing results with
  | nil => simp [pure, Except.pure, eq_comm]
  | cons item items inductionHypothesis =>
      rw [List.mapM_cons, bind_eq_ok_iff]
      constructor
      · rintro ⟨result, isResult, isRest⟩
        rcases bind_eq_ok_iff.mp isRest with ⟨others, areOthers, isList⟩
        cases isList
        exact List.Forall₂.cons isResult (inductionHypothesis.mp areOthers)
      · intro related
        rcases List.forall₂_cons_left_iff.mp related with ⟨result, others, isResult, areOthers, rfl⟩
        refine ⟨result, isResult, ?_⟩
        rw [inductionHypothesis.mpr areOthers]
        rfl

theorem exists_forall₂_iff {relation : α → β → Prop} :
    (∃ results, List.Forall₂ relation items results) ↔
      ∀ item ∈ items, ∃ result, relation item result := by
  induction items with
  | nil => simp
  | cons item items inductionHypothesis =>
      rw [List.forall_mem_cons, ← inductionHypothesis]
      constructor
      · rintro ⟨_, related⟩
        cases related with
        | cons isHere areLater => exact ⟨⟨_, isHere⟩, _, areLater⟩
      · rintro ⟨⟨_, isHere⟩, _, areLater⟩
        exact ⟨_, .cons isHere areLater⟩

theorem exists_mapM_eq_ok_iff :
    (∃ results, items.mapM task = .ok results) ↔
      ∀ item ∈ items, ∃ result, task item = .ok result := by
  simp only [mapM_eq_ok_iff, exists_forall₂_iff]

theorem mem_iff_of_mapM_eq_ok (areResults : items.mapM task = .ok results) {result : β} :
    result ∈ results ↔ ∃ item ∈ items, task item = .ok result := by
  have related := mapM_eq_ok_iff.mp areResults
  clear areResults
  induction related with
  | nil => simp
  | cons isFirst _ inductionHypothesis =>
      simp only [List.mem_cons, exists_eq_or_imp, isFirst, Except.ok.injEq, inductionHypothesis,
        eq_comm (a := result)]

/-- The results stand in the places of the items. -/
theorem map_getElem?_of_mapM_eq_ok (areResults : items.mapM task = .ok results) (index : Nat) :
    items[index]?.map task = results[index]?.map .ok := by
  have related := mapM_eq_ok_iff.mp areResults
  clear areResults
  induction related generalizing index with
  | nil => rfl
  | cons isFirst _ inductionHypothesis =>
      cases index with
      | zero => simp [isFirst]
      | succ index => simpa using inductionHypothesis index

theorem eq_map_of_forall₂ {relation : α → β → Prop} {change : α → β}
    (related : List.Forall₂ relation items results)
    (isChange : ∀ item ∈ items, ∀ result, relation item result → result = change item) :
    results = items.map change := by
  induction related with
  | nil => rfl
  | cons isHere _ inductionHypothesis =>
      rcases List.forall_mem_cons.mp isChange with ⟨isChangeHere, isChangeLater⟩
      rw [List.map_cons, isChangeHere _ isHere, inductionHypothesis isChangeLater]

theorem bind_congr {first : Except ε α} {next other : α → Except ε β}
    (same : ∀ item, first = .ok item → next item = other item) :
    first >>= next = first >>= other := by
  cases first with
  | error failure => rfl
  | ok item => exact same item rfl

theorem mapM_congr {other : α → Except ε β} (same : ∀ item ∈ items, other item = task item) :
    items.mapM other = items.mapM task := by
  induction items with
  | nil => rfl
  | cons item items inductionHypothesis =>
      rcases List.forall_mem_cons.mp same with ⟨sameHere, sameLater⟩
      rw [List.mapM_cons, List.mapM_cons, sameHere, inductionHypothesis sameLater]

theorem length_of_mapM_eq_ok (areResults : items.mapM task = .ok results) :
    results.length = items.length :=
  (mapM_eq_ok_iff.mp areResults).length_eq.symm

/-- The tasks before the first that fails succeed. -/
theorem mapM_eq_error_iff {failure : ε} :
    items.mapM task = .error failure ↔
      ∃ before item after, items = before ++ item :: after ∧
        (∀ other ∈ before, ∃ result, task other = .ok result) ∧ task item = .error failure := by
  constructor
  · intro isError
    induction items with
    | nil => cases isError
    | cons first items inductionHypothesis =>
        rw [List.mapM_cons] at isError
        rcases bind_eq_error_iff.mp isError with isHere | ⟨result, isResult, isLater⟩
        · exact ⟨[], first, items, rfl, by simp, isHere⟩
        · rcases bind_eq_error_iff.mp isLater with isLater | ⟨_, _, isPure⟩
          · rcases inductionHypothesis isLater with ⟨before, item, after, rfl, succeed, fails⟩
            refine ⟨first :: before, item, after, rfl, ?_, fails⟩
            exact List.forall_mem_cons.mpr ⟨⟨result, isResult⟩, succeed⟩
          · cases isPure
  · rintro ⟨before, item, after, rfl, succeed, fails⟩
    rcases exists_mapM_eq_ok_iff.mpr succeed with ⟨results, areResults⟩
    simp only [List.mapM_append, List.mapM_cons, areResults, fails, bind, Except.bind]

theorem exists_mem_of_mapM_eq_error {failure : ε} (isError : items.mapM task = .error failure) :
    ∃ item ∈ items, task item = .error failure := by
  rcases mapM_eq_error_iff.mp isError with ⟨before, item, after, rfl, _, fails⟩
  exact ⟨item, by simp, fails⟩

end DeclIndex.Sequence
