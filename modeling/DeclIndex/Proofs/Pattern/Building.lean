import DeclIndex.Proofs.Pattern.Takes

/-!
# What built patterns take

The ways to build patterns out of smaller ones, read as what the result takes. Where it only matters
whether a pattern takes a run, `Pattern.Allows` leaves out what it captures. A pattern without an
end of the text in it does not look at what follows its run (`Pattern.Allows.change_rest`).
-/

namespace DeclIndex.Pattern

variable {set : CharSet} {run rest text : List Char} {captured : Option (List Char)}

theorem takes_chain_cons (pattern : Pattern) (patterns : List Pattern) :
    (chain (pattern :: patterns)).Takes run rest captured ↔
      (seq pattern (chain patterns)).Takes run rest captured := by
  cases patterns with
  | nil =>
      simp only [chain, Takes]
      constructor
      · intro takes
        exact ⟨run, [], captured, none, takes, ⟨rfl, rfl⟩, (List.append_nil run).symm, rfl⟩
      · rintro ⟨first, _, early, _, takes, ⟨rfl, rfl⟩, rfl, rfl⟩
        simpa using takes
  | cons next others => rfl

/-- A literal text takes itself. -/
theorem takes_exactly (text : String) :
    (exactly text).Takes run rest captured ↔ run = text.toList ∧ captured = none := by
  rw [exactly]
  induction text.toList generalizing run captured with
  | nil => rfl
  | cons c letters inductionHypothesis =>
      simp only [List.map_cons, takes_chain_cons, Takes, inductionHypothesis, CharSet.contains,
        beq_iff_eq]
      constructor
      · rintro ⟨_, _, _, _, ⟨⟨_, rfl, rfl⟩, rfl⟩, ⟨rfl, rfl⟩, rfl, rfl⟩
        exact ⟨rfl, rfl⟩
      · rintro ⟨rfl, rfl⟩
        exact ⟨[c], letters, none, none, ⟨⟨c, rfl, rfl⟩, rfl⟩, ⟨rfl, rfl⟩, rfl, rfl⟩

theorem takes_oneOrMore (set : CharSet) :
    (oneOrMore set).Takes run rest captured ↔
      (run ≠ [] ∧ ∀ c ∈ run, set.contains c = true) ∧ captured = none := by
  simp only [oneOrMore, Takes]
  constructor
  · rintro ⟨_, others, _, _, ⟨⟨c, inSet, rfl⟩, rfl⟩, ⟨allInSet, rfl⟩, rfl, rfl⟩
    exact ⟨⟨List.cons_ne_nil _ _, by simpa [inSet] using allInSet⟩, rfl⟩
  · rintro ⟨⟨nonempty, allInSet⟩, rfl⟩
    rcases List.exists_cons_of_ne_nil nonempty with ⟨c, others, rfl⟩
    rcases List.forall_mem_cons.mp allInSet with ⟨inSet, othersInSet⟩
    exact ⟨[c], others, none, none, ⟨⟨c, inSet, rfl⟩, rfl⟩, ⟨othersInSet, rfl⟩, rfl, rfl⟩

theorem takes_choice (preferred : Pattern) (others : List Pattern) :
    (choice preferred others).Takes run rest captured ↔
      ∃ pattern ∈ preferred :: others, pattern.Takes run rest captured := by
  induction others generalizing preferred with
  | nil => simp [choice]
  | cons next others inductionHypothesis =>
      simp only [choice, Takes, inductionHypothesis, List.mem_cons, or_and_right, exists_or,
        exists_eq_left]

/-- A choice of literal texts takes one of them. -/
theorem takes_keywords (keyword : String) (others : List String) :
    (choice (exactly keyword) (others.map exactly)).Takes run rest captured ↔
      run ∈ (keyword :: others).map String.toList ∧ captured = none := by
  rw [takes_choice, ← List.map_cons]
  constructor
  · rintro ⟨_, isChoice, takes⟩
    rcases List.mem_map.mp isChoice with ⟨text, isText, rfl⟩
    rcases (takes_exactly text).mp takes with ⟨rfl, rfl⟩
    exact ⟨List.mem_map_of_mem isText, rfl⟩
  · rintro ⟨isKeyword, rfl⟩
    rcases List.mem_map.mp isKeyword with ⟨text, isText, rfl⟩
    exact ⟨exactly text, List.mem_map_of_mem (f := exactly) isText,
      (takes_exactly text).mpr ⟨rfl, rfl⟩⟩

/-! ## Runs without captures -/

/-- The pattern can take a run that stands before a rest. -/
def Allows (pattern : Pattern) (run rest : List Char) : Prop :=
  ∃ captured, pattern.Takes run rest captured

theorem allows_nothing : nothing.Allows run rest ↔ run = [] := by
  simp [Allows, Takes]

theorem allows_one : (one set).Allows run rest ↔ ∃ c, set.contains c = true ∧ run = [c] := by
  simp [Allows, Takes]

theorem allows_many : (many set).Allows run rest ↔ ∀ c ∈ run, set.contains c = true := by
  simp [Allows, Takes]

theorem allows_oneOrMore :
    (oneOrMore set).Allows run rest ↔ run ≠ [] ∧ ∀ c ∈ run, set.contains c = true := by
  simp [Allows, takes_oneOrMore]

theorem allows_seq {before after : Pattern} :
    (seq before after).Allows run rest ↔ ∃ first second,
      before.Allows first (second ++ rest) ∧ after.Allows second rest ∧ run = first ++ second := by
  constructor
  · rintro ⟨_, first, second, early, late, takesFirst, takesSecond, split, _⟩
    exact ⟨first, second, ⟨early, takesFirst⟩, ⟨late, takesSecond⟩, split⟩
  · rintro ⟨first, second, ⟨early, takesFirst⟩, ⟨late, takesSecond⟩, split⟩
    exact ⟨late.or early, first, second, early, late, takesFirst, takesSecond, split, rfl⟩

theorem allows_either {preferred other : Pattern} :
    (either preferred other).Allows run rest ↔
      preferred.Allows run rest ∨ other.Allows run rest := by
  simp only [Allows, Takes, exists_or]

theorem allows_capture {inner : Pattern} :
    (capture inner).Allows run rest ↔ inner.Allows run rest := by
  simp only [Allows, Takes, exists_and_left, exists_eq, and_true]

theorem allows_finish : finish.Allows run rest ↔ run = [] ∧ (rest = [] ∨ rest = ['\n']) := by
  simp [Allows, Takes]

theorem allows_chain_cons {pattern : Pattern} {patterns : List Pattern} :
    (chain (pattern :: patterns)).Allows run rest ↔ ∃ first second,
      pattern.Allows first (second ++ rest) ∧ (chain patterns).Allows second rest ∧
        run = first ++ second := by
  rw [← allows_seq, Allows, Allows]
  simp only [takes_chain_cons]

theorem allows_chain_append {patterns others : List Pattern} :
    (chain (patterns ++ others)).Allows run rest ↔ ∃ first second,
      (chain patterns).Allows first (second ++ rest) ∧ (chain others).Allows second rest ∧
        run = first ++ second := by
  induction patterns generalizing run with
  | nil => simp [chain, allows_nothing]
  | cons pattern patterns inductionHypothesis =>
      simp only [List.cons_append, allows_chain_cons, inductionHypothesis]
      constructor
      · rintro ⟨first, _, allowsFirst, ⟨second, third, allowsSecond, allowsThird, rfl⟩, rfl⟩
        rw [List.append_assoc] at allowsFirst
        exact ⟨first ++ second, third, ⟨first, second, allowsFirst, allowsSecond, rfl⟩, allowsThird,
          (List.append_assoc ..).symm⟩
      · rintro ⟨_, third, ⟨first, second, allowsFirst, allowsSecond, rfl⟩, allowsThird, rfl⟩
        rw [← List.append_assoc] at allowsFirst
        exact ⟨first, second ++ third, allowsFirst, ⟨second, third, allowsSecond, allowsThird, rfl⟩,
          List.append_assoc ..⟩

/-- The pattern does not ask for the end of the text. -/
def Endless : Pattern → Prop
  | nothing | one _ | many _ => True
  | seq before after => before.Endless ∧ after.Endless
  | either preferred other => preferred.Endless ∧ other.Endless
  | capture inner => inner.Endless
  | finish => False

instance decidableEndless : (pattern : Pattern) → Decidable pattern.Endless
  | nothing | one _ | many _ => .isTrue trivial
  | seq before after | either before after =>
      @instDecidableAnd _ _ (decidableEndless before) (decidableEndless after)
  | capture inner => decidableEndless inner
  | finish => .isFalse id

theorem Allows.change_rest {pattern : Pattern} (allows : pattern.Allows run rest)
    (endless : pattern.Endless) (other : List Char) : pattern.Allows run other := by
  induction pattern generalizing run rest other with
  | nothing => exact allows_nothing.mpr (allows_nothing.mp allows)
  | one set => exact allows_one.mpr (allows_one.mp allows)
  | many set => exact allows_many.mpr (allows_many.mp allows)
  | seq before after hBefore hAfter =>
      rcases allows_seq.mp allows with ⟨first, second, allowsFirst, allowsSecond, rfl⟩
      exact allows_seq.mpr ⟨first, second, hBefore allowsFirst endless.1 _,
        hAfter allowsSecond endless.2 other, rfl⟩
  | either preferred alternative hPreferred hAlternative =>
      rcases allows_either.mp allows with allows | allows
      · exact allows_either.mpr (Or.inl (hPreferred allows endless.1 other))
      · exact allows_either.mpr (Or.inr (hAlternative allows endless.2 other))
  | capture inner hInner =>
      exact allows_capture.mpr (hInner (allows_capture.mp allows) endless other)
  | finish => exact absurd endless id

theorem endless_chain {patterns : List Pattern} (endless : ∀ pattern ∈ patterns, pattern.Endless) :
    (chain patterns).Endless := by
  induction patterns with
  | nil => trivial
  | cons pattern patterns inductionHypothesis =>
      rcases List.forall_mem_cons.mp endless with ⟨isEndless, others⟩
      cases patterns with
      | nil => exact isEndless
      | cons next patterns => exact ⟨isEndless, inductionHypothesis others⟩

/-! ## Reading and finding -/

theorem isSome_read?_iff {pattern : Pattern} :
    (pattern.read? text).isSome = true ↔
      ∃ run rest, pattern.Allows run rest ∧ text = run ++ rest := by
  rw [Option.isSome_iff_exists]
  constructor
  · rintro ⟨r, reads⟩
    rcases exists_takes_of_read? reads with ⟨run, takes, split⟩
    exact ⟨run, r.rest, ⟨r.captured, takes⟩, split⟩
  · rintro ⟨run, rest, ⟨captured, takes⟩, rfl⟩
    exact exists_read?_of_takes takes

theorem isSome_find?_iff {pattern : Pattern} :
    (pattern.find? text).isSome = true ↔
      ∃ before run rest, pattern.Allows run rest ∧ text = before ++ (run ++ rest) := by
  induction text with
  | nil =>
      rw [find?, isSome_read?_iff]
      constructor
      · rintro ⟨run, rest, allows, split⟩
        exact ⟨[], run, rest, allows, split⟩
      · rintro ⟨before, run, rest, allows, split⟩
        exact ⟨run, rest, allows, (List.append_eq_nil_iff.mp split.symm).2.symm⟩
  | cons c text inductionHypothesis =>
      rw [find?, Option.isSome_or, Bool.or_eq_true, isSome_read?_iff, inductionHypothesis]
      constructor
      · rintro (⟨run, rest, allows, split⟩ | ⟨before, run, rest, allows, rfl⟩)
        · exact ⟨[], run, rest, allows, split⟩
        · exact ⟨c :: before, run, rest, allows, rfl⟩
      · rintro ⟨before, run, rest, allows, split⟩
        cases before with
        | nil => exact Or.inl ⟨run, rest, allows, split⟩
        | cons d before => exact Or.inr ⟨before, run, rest, allows, (List.cons.inj split).2⟩

end DeclIndex.Pattern
