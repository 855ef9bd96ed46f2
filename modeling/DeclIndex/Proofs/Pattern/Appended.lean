import DeclIndex.Proofs.Pattern.Building
import DeclIndex.Proofs.Text.Words

/-!
# Texts with something behind them

A pattern that does not ask for the end of a text reads a longer text in all the ways in which it
reads the text alone, and perhaps in further ways that reach into what was appended. The ways that
leave all of that keep their order (`Pattern.filter_ways_append`). The filter can be carried through
a sequence, because a way that has reached into the appended part does not come back.

If no run that the pattern takes ends with a blank, no way reaches into appended blanks. Then the
text is read just as it is without them (`Pattern.read?_append_blanks`), also where the order of the
ways decides what is captured.
-/

namespace DeclIndex

namespace Reading

/-- The reading of a text as one of the text with something behind it. -/
def append (r : Reading) (suffix : List Char) : Reading :=
  { r with rest := r.rest ++ suffix }

/-- The reading has not reached into the last part of its text. -/
def leaves (suffix : List Char) (r : Reading) : Bool :=
  suffix.length ≤ r.rest.length

@[simp]
theorem leaves_append (r : Reading) (suffix : List Char) :
    (r.append suffix).leaves suffix = true := by
  simp [leaves, append]

end Reading

/-- The text ends with a character other than a blank. -/
def Text.endsFirmly (text : List Char) : Bool :=
  text.getLast?.any fun c => !isBlank c

theorem Text.endsFirmly_append (text : List Char) {more : List Char}
    (firmly : endsFirmly more = true) : endsFirmly (text ++ more) = true := by
  rw [endsFirmly] at firmly ⊢
  rw [List.getLast?_append]
  cases isLast : more.getLast? with
  | none => simp [isLast] at firmly
  | some c => simpa [isLast] using firmly

namespace Pattern

open Text

variable {pattern before after : Pattern} {text blanks : List Char} {r r' : Reading}

/-! ## Ways that leave what was appended -/

theorem length_le_of_mem_ways (isWay : r' ∈ pattern.ways r) : r'.rest.length ≤ r.rest.length := by
  rcases (mem_ways_iff ..).mp isWay with ⟨run, _, _, split, _⟩
  rw [split, List.length_append]
  omega

theorem filter_remainders_append (set : CharSet) (text suffix : List Char) :
    ((remainders set (text ++ suffix)).filter fun rest => suffix.length ≤ rest.length) =
      (remainders set text).map (· ++ suffix) := by
  have reachesIn {c : Char} {text : List Char} :
      ((remainders set text).filter fun rest => (c :: text).length ≤ rest.length) = [] := by
    apply List.filter_eq_nil_iff.mpr
    intro rest isRest
    rcases mem_remainders_iff.mp isRest with ⟨run, _, split⟩
    simp only [split, List.length_cons, List.length_append, decide_eq_true_eq]
    omega
  induction text with
  | nil =>
      cases suffix with
      | nil => rfl
      | cons c suffix =>
          simp only [List.nil_append, remainders]
          split
          · rw [List.filter_append, reachesIn]
            simp
          · simp
  | cons c text inductionHypothesis =>
      have keepsHere : [c :: (text ++ suffix)].filter (fun rest => suffix.length ≤ rest.length) =
          [c :: (text ++ suffix)] := by
        apply List.filter_eq_self.mpr
        simp only [List.mem_singleton, forall_eq, List.length_cons, List.length_append,
          decide_eq_true_eq]
        omega
      simp only [List.cons_append, remainders]
      split
      · rw [List.filter_append, inductionHypothesis, keepsHere, List.map_append]
        rfl
      · exact keepsHere

theorem taken_append_append (text rest suffix : List Char) :
    taken (text ++ suffix) (rest ++ suffix) = taken text rest := by
  simp only [taken, List.length_append, Nat.add_sub_add_right]
  exact List.take_append_of_le_length (by omega)

/-- A way that has reached into the last part of a text is not continued by one that has not. -/
theorem filter_ways_eq_nil {suffix : List Char} (reachesIn : r.leaves suffix = false) :
    (pattern.ways r).filter (Reading.leaves suffix) = [] := by
  apply List.filter_eq_nil_iff.mpr
  intro r' isWay
  have shorter := length_le_of_mem_ways isWay
  simp only [Reading.leaves, decide_eq_true_eq, decide_eq_false_iff_not] at reachesIn ⊢
  omega

theorem flatMap_filter_leaves (rs : List Reading) (suffix : List Char) :
    (rs.flatMap fun r => (pattern.ways r).filter (Reading.leaves suffix)) =
      (rs.filter (Reading.leaves suffix)).flatMap fun r =>
        (pattern.ways r).filter (Reading.leaves suffix) := by
  induction rs with
  | nil => rfl
  | cons r rs inductionHypothesis =>
      rw [List.flatMap_cons, inductionHypothesis]
      cases leaves : r.leaves suffix with
      | true => rw [List.filter_cons_of_pos leaves, List.flatMap_cons]
      | false =>
          rw [List.filter_cons_of_neg (by simp [leaves]), filter_ways_eq_nil leaves,
            List.nil_append]

/-- A longer text is read in the same ways, in the same order, and perhaps in others that reach into
what it has more. -/
theorem filter_ways_append (endless : pattern.Endless) (r : Reading) (suffix : List Char) :
    (pattern.ways (r.append suffix)).filter (Reading.leaves suffix) =
      (pattern.ways r).map fun r' => r'.append suffix := by
  induction pattern generalizing r with
  | nothing => simp [ways]
  | one set =>
      rcases r with ⟨text, old⟩
      cases text with
      | nil =>
          apply List.filter_eq_nil_iff.mpr
          intro r' isWay
          rcases (mem_ways_iff ..).mp isWay with ⟨run, captured, ⟨⟨c, _, rfl⟩, _⟩, split, _⟩
          rw [List.nil_append] at split
          simp [Reading.leaves, split]
      | cons c text =>
          simp only [ways, Reading.append, List.cons_append]
          split
          · simp [Reading.leaves]
          · rfl
  | many set =>
      rcases r with ⟨text, old⟩
      simp only [ways, Reading.append, List.filter_map, List.map_map]
      have sameFilter := filter_remainders_append set text suffix
      simp only [Function.comp_def, Reading.leaves]
      rw [sameFilter, List.map_map]
      rfl
  | seq before after hBefore hAfter =>
      simp only [ways, List.filter_flatMap]
      rw [flatMap_filter_leaves, hBefore endless.1, List.flatMap_map, List.map_flatMap]
      congr 1
      funext r'
      exact hAfter endless.2 r'
  | either preferred other hPreferred hOther =>
      simp only [ways, List.filter_append, hPreferred endless.1, hOther endless.2, List.map_append]
  | capture inner hInner =>
      have sameFilter := hInner endless r
      simp only [ways, List.filter_map, List.map_map]
      have noCapture : Reading.leaves suffix ∘ (fun r' : Reading =>
          { r' with captured := some (taken (r.append suffix).rest r'.rest) }) =
            Reading.leaves suffix := rfl
      rw [noCapture, sameFilter, List.map_map]
      congr 1
      funext r'
      simp [Reading.append, taken_append_append]
  | finish => exact absurd endless id

/-! ## Blanks behind a text -/

/-- The pattern takes the same runs whatever follows, and all of them end firmly. -/
structure Firm (pattern : Pattern) : Prop where
  endless : pattern.Endless
  firmly : ∀ {run rest}, pattern.Allows run rest → endsFirmly run = true

theorem firm_seq (endless : before.Endless) (firm : after.Firm) : (seq before after).Firm where
  endless := ⟨endless, firm.endless⟩
  firmly := by
    intro run rest allows
    rcases allows_seq.mp allows with ⟨first, second, _, allowsSecond, rfl⟩
    exact endsFirmly_append first (firm.firmly allowsSecond)

/-- Patterns one after the other end as the last one does. -/
theorem firm_chain (patterns : List Pattern) {last : Pattern}
    (endless : ∀ pattern ∈ patterns, pattern.Endless) (firm : last.Firm) :
    (chain (patterns ++ [last])).Firm := by
  induction patterns with
  | nil => exact firm
  | cons pattern patterns inductionHypothesis =>
      rcases List.forall_mem_cons.mp endless with ⟨isEndless, others⟩
      cases patterns with
      | nil => exact firm_seq isEndless (inductionHypothesis others)
      | cons next patterns => exact firm_seq isEndless (inductionHypothesis others)

theorem endless_exactly (text : String) : (exactly text).Endless := by
  apply endless_chain
  intro pattern isLetter
  rcases List.mem_map.mp isLetter with ⟨c, _, rfl⟩
  trivial

theorem firm_exactly {text : String} (firmly : endsFirmly text.toList = true) :
    (exactly text).Firm where
  endless := endless_exactly text
  firmly := by
    rintro run rest ⟨captured, takes⟩
    rcases (takes_exactly text).mp takes with ⟨rfl, _⟩
    exact firmly

theorem ways_append_blanks (firm : pattern.Firm) (r : Reading) (isBlank : Blanks blanks) :
    pattern.ways (r.append blanks) = (pattern.ways r).map fun r' => r'.append blanks := by
  rw [← filter_ways_append firm.endless]
  symm
  apply List.filter_eq_self.mpr
  intro r' isWay
  rcases (mem_ways_iff ..).mp isWay with ⟨run, captured, takes, split, _⟩
  have firmly := firm.firmly ⟨captured, takes⟩
  rcases List.append_eq_append_iff.mp split with ⟨taken, rfl, areBlanks⟩ | ⟨left, _, isRest⟩
  · -- The run would end with a blank if it took one.
    rcases List.eq_nil_or_concat taken with rfl | ⟨taken, d, rfl⟩
    · rw [List.nil_append] at areBlanks
      simp [Reading.leaves, areBlanks]
    · have isBlankLast : Text.isBlank d = true := isBlank d (by simp [areBlanks])
      rw [List.concat_eq_append, ← List.append_assoc, endsFirmly, List.getLast?_concat,
        Option.any_some, isBlankLast] at firmly
      cases firmly
  · simp [Reading.leaves, isRest]

/-- Blanks behind a text make no difference to what is read of it. -/
theorem read?_append_blanks (firm : pattern.Firm) (text : List Char) (isBlank : Blanks blanks) :
    pattern.read? (text ++ blanks) = (pattern.read? text).map fun r => r.append blanks := by
  rw [read?_eq_head?, read?_eq_head?, ← List.head?_map, ← ways_append_blanks firm _ isBlank]
  rfl

end Pattern

end DeclIndex
