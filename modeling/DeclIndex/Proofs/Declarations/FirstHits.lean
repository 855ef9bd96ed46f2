import DeclIndex.Proofs.Declarations.Records

/-!
# A scan reports first hits

A scan keeps a list of the names that it has seen. Its result can be said without that list: a name
that is found on a line is a hit, all hits stand in the order of the lines and then of the finders,
and a scan reports the first hit of each name (`Declarations.scanWith_eq_first_hits`). It does not
matter how names are found, so this holds of the rules of a kind and of any others.

The invariant is about the scan from a line on. It reports the hits that are left there, without
those whose names were seen before, and of the others the first one of each name
(`Declarations.scanFrom_eq_firstByName`). Going on to the next line, the names that count as seen
are those of the hits reported so far.
-/

namespace DeclIndex.Declarations

/-- A name is found on a line. -/
structure Hit where
  /-- The number of the line. -/
  line : Nat
  /-- The place of the finder among the finders. -/
  place : Nat
  name : String
  deriving DecidableEq, Repr

namespace Hit

/-- What is reported of a hit. -/
def record (kind : Kind) (file : String) (hit : Hit) : Record :=
  ⟨hit.name, kind, hit.line, file⟩

/-- On an earlier line, or on the same line by an earlier finder. -/
def Before (hit other : Hit) : Prop :=
  hit.line < other.line ∨ hit.line = other.line ∧ hit.place < other.place

end Hit

/-- The line before the line with a number, which the first line does not have. -/
def lineBefore (lines : List String) (number : Nat) : Option String :=
  if number = 1 then none else lines[number - 2]?

/-- Among some finders and lines, the finder in the place of the hit finds its name on its line. -/
def Hit.Occurs (finders : List Finder) (lines : List String) (hit : Hit) : Prop :=
  ∃ line find, 1 ≤ hit.line ∧ lines[hit.line - 1]? = some line ∧ finders[hit.place]? = some find ∧
    find line (lineBefore lines hit.line) = some hit.name

/-- The hits on one line, in the order of the finders. -/
def hitsOn (finders : List Finder) (number : Nat) (line : String) (previous : Option String) :
    List Hit :=
  finders.zipIdx.filterMap fun item =>
    (item.1 line previous).map fun name => ⟨number, item.2, name⟩

/-- The hits from a line on, given its number and the line before it. -/
def hitsFrom (finders : List Finder) (number : Nat) (previous : Option String) :
    List String → List Hit
  | [] => []
  | line :: lines =>
      hitsOn finders number line previous ++ hitsFrom finders (number + 1) (some line) lines

/-- All hits of some finders on some lines. -/
def hits (finders : List Finder) (lines : List String) : List Hit :=
  hitsFrom finders 1 none lines

/-- Of the hits with one name only the first. -/
def firstByName (hits : List Hit) : List Hit :=
  hits.eraseDupsBy fun hit other => hit.name == other.name

/-- The hit is one of some hits, and no earlier one of them has its name. -/
def IsFirst (found : List Hit) (hit : Hit) : Prop :=
  ∃ before after, found = before ++ hit :: after ∧ ∀ earlier ∈ before, earlier.name ≠ hit.name

/-- The hits whose names were not seen before. -/
def unseen (seen : List String) (hits : List Hit) : List Hit :=
  hits.filter fun hit => !seen.contains hit.name

variable {finders : List Finder} {kind : Kind} {file line : String} {previous : Option String}
  {lines seen others : List String} {number : Nat} {hit : Hit} {found : List Hit}

/-! ## All hits -/

theorem map_name_hitsOn (finders : List Finder) (number : Nat) (line : String)
    (previous : Option String) :
    (hitsOn finders number line previous).map (·.name) = names finders line previous := by
  have areFinders : finders.zipIdx.map (·.1) = finders := List.zipIdx_map_fst 0 finders
  conv_rhs => rw [names, ← areFinders, List.filterMap_map]
  rw [hitsOn, List.map_filterMap]
  congr 1
  funext item
  rw [Option.map_map]
  exact Option.map_id' ..

theorem mem_hitsOn_iff :
    hit ∈ hitsOn finders number line previous ↔
      hit.line = number ∧ ∃ find, finders[hit.place]? = some find ∧
        find line previous = some hit.name := by
  rw [hitsOn, List.mem_filterMap]
  constructor
  · rintro ⟨⟨find, place⟩, isFinder, isHit⟩
    rcases Option.map_eq_some_iff.mp isHit with ⟨name, isName, rfl⟩
    exact ⟨rfl, find, List.mem_zipIdx_iff_getElem?.mp isFinder, isName⟩
  · rintro ⟨rfl, find, isFinder, isName⟩
    exact ⟨(find, hit.place), List.mem_zipIdx_iff_getElem?.mpr isFinder,
      Option.map_eq_some_iff.mpr ⟨hit.name, isName, rfl⟩⟩

theorem mem_hitsFrom_iff :
    hit ∈ hitsFrom finders number previous lines ↔
      ∃ index line before, hit.line = number + index ∧ lines[index]? = some line ∧
        (previous :: lines.map some)[index]? = some before ∧
        hit ∈ hitsOn finders hit.line line before := by
  induction lines generalizing number previous with
  | nil => simp [hitsFrom]
  | cons line lines inductionHypothesis =>
      rw [hitsFrom, List.mem_append, inductionHypothesis]
      constructor
      · rintro (isHere | ⟨index, found, before, isNumber, isLine, isBefore, isHit⟩)
        · have isNumber := (mem_hitsOn_iff.mp isHere).1
          rw [← isNumber] at isHere
          exact ⟨0, line, previous, isNumber, rfl, rfl, isHere⟩
        · exact ⟨index + 1, found, before, by omega, isLine, isBefore, isHit⟩
      · rintro ⟨_ | index, found, before, isNumber, isLine, isBefore, isHit⟩
        · cases isLine
          cases isBefore
          rw [isNumber] at isHit
          exact Or.inl isHit
        · exact Or.inr ⟨index, found, before, by omega, isLine, isBefore, isHit⟩

theorem getElem?_lineBefore {index : Nat} (inRange : index < lines.length) :
    (none :: lines.map some)[index]? = some (lineBefore lines (1 + index)) := by
  cases index with
  | zero => rfl
  | succ index =>
      have isBefore : lineBefore lines (1 + (index + 1)) = lines[index]? := by
        rw [lineBefore, if_neg (by omega)]
        congr 1
        omega
      have isThere : lines[index]? = some lines[index] := List.getElem?_eq_getElem (by omega)
      rw [isBefore, List.getElem?_cons_succ, List.getElem?_map, isThere]
      rfl

theorem mem_hits_iff : hit ∈ hits finders lines ↔ hit.Occurs finders lines := by
  rw [hits, mem_hitsFrom_iff]
  constructor
  · rintro ⟨index, line, before, isNumber, isLine, isBefore, isHit⟩
    rw [getElem?_lineBefore (List.getElem?_eq_some_iff.mp isLine).1, ← isNumber] at isBefore
    cases isBefore
    rcases mem_hitsOn_iff.mp isHit with ⟨_, find, isFinder, isName⟩
    refine ⟨line, find, by omega, ?_, isFinder, isName⟩
    rw [isNumber, Nat.add_sub_cancel_left]
    exact isLine
  · rintro ⟨line, find, notZero, isLine, isFinder, isName⟩
    have isNumber : hit.line = 1 + (hit.line - 1) := by omega
    refine ⟨hit.line - 1, line, lineBefore lines hit.line, isNumber, isLine, ?_, ?_⟩
    · rw [getElem?_lineBefore (List.getElem?_eq_some_iff.mp isLine).1, ← isNumber]
    · exact mem_hitsOn_iff.mpr ⟨rfl, find, isFinder, isName⟩

theorem pairwise_hitsOn (finders : List Finder) (number : Nat) (line : String)
    (previous : Option String) : (hitsOn finders number line previous).Pairwise Hit.Before := by
  have inPlace : finders.zipIdx.Pairwise fun item other => item.2 < other.2 := by
    apply List.pairwise_map.mp
    rw [List.zipIdx_map_snd]
    exact List.pairwise_lt_range'
  apply List.pairwise_filterMap.mpr
  apply inPlace.imp
  rintro ⟨find, place⟩ ⟨other, later⟩ isBefore hit isHit otherHit isOtherHit
  rcases Option.map_eq_some_iff.mp isHit with ⟨name, _, rfl⟩
  rcases Option.map_eq_some_iff.mp isOtherHit with ⟨otherName, _, rfl⟩
  exact Or.inr ⟨rfl, isBefore⟩

theorem pairwise_hitsFrom (finders : List Finder) (number : Nat) (previous : Option String)
    (lines : List String) : (hitsFrom finders number previous lines).Pairwise Hit.Before := by
  induction lines generalizing number previous with
  | nil => exact List.Pairwise.nil
  | cons line lines inductionHypothesis =>
      apply List.pairwise_append.mpr
      refine ⟨pairwise_hitsOn finders number line previous, inductionHypothesis _ _, ?_⟩
      intro hit isHere later isLater
      have isNumber := (mem_hitsOn_iff.mp isHere).1
      rcases mem_hitsFrom_iff.mp isLater with ⟨index, _, _, isLaterNumber, _⟩
      exact Or.inl (by omega)

/-! ## First hits -/

theorem unseen_nil (hits : List Hit) : unseen [] hits = hits :=
  List.filter_eq_self.mpr fun _ _ => rfl

theorem unseen_cons_of_mem (wasSeen : hit.name ∈ seen) :
    unseen seen (hit :: found) = unseen seen found :=
  List.filter_cons_of_neg (by simp [wasSeen])

theorem unseen_cons_of_notMem (notSeen : hit.name ∉ seen) :
    unseen seen (hit :: found) = hit :: unseen seen found :=
  List.filter_cons_of_pos (by simp [notSeen])

theorem unseen_unseen (seen others : List String) (hits : List Hit) :
    unseen seen (unseen others hits) = unseen (seen ++ others) hits := by
  rw [unseen, unseen, unseen, List.filter_filter]
  congr 1
  funext hit
  rw [List.contains_append, Bool.not_or]

theorem unseen_congr (same : ∀ name, name ∈ seen ↔ name ∈ others) (hits : List Hit) :
    unseen seen hits = unseen others hits := by
  have sameAnswer : ∀ name, seen.contains name = others.contains name := by
    intro name
    rw [Bool.eq_iff_iff, List.contains_iff_mem, List.contains_iff_mem]
    exact same name
  simp only [unseen, sameAnswer]

theorem firstByName_cons (hit : Hit) (hits : List Hit) :
    firstByName (hit :: hits) = hit :: firstByName (unseen [hit.name] hits) := by
  rw [firstByName, List.eraseDupsBy_cons, firstByName, unseen]
  congr 3
  funext other
  by_cases isSame : other.name = hit.name
  · simp [isSame]
  · simp [isSame]

/-- After a hit is reported, its name counts as seen. -/
theorem firstByName_unseen_cons (notSeen : hit.name ∉ seen) :
    firstByName (unseen seen (hit :: found)) =
      hit :: firstByName (unseen (hit.name :: seen) found) := by
  rw [unseen_cons_of_notMem notSeen, firstByName_cons, unseen_unseen, List.singleton_append]

/-- Names can be left out before or after the first hit of each name is chosen. -/
theorem firstByName_unseen_append (seen others : List String) (found : List Hit) :
    firstByName (unseen (seen ++ others) found) =
      unseen seen (firstByName (unseen others found)) := by
  induction found generalizing others with
  | nil => rfl
  | cons hit found inductionHypothesis =>
      have sameSeen (hits : List Hit) :
          unseen (seen ++ hit.name :: others) hits =
            unseen (hit.name :: (seen ++ others)) hits := by
        apply unseen_congr
        simp only [List.mem_append, List.mem_cons]
        tauto
      by_cases wasSeen : hit.name ∈ others
      · rw [unseen_cons_of_mem wasSeen, unseen_cons_of_mem (List.mem_append_right _ wasSeen)]
        exact inductionHypothesis others
      · rw [firstByName_unseen_cons wasSeen]
        by_cases isLeftOut : hit.name ∈ seen
        · have sameAsBefore : unseen (hit.name :: (seen ++ others)) found =
              unseen (seen ++ others) found := by
            apply unseen_congr
            intro name
            simp only [List.mem_cons, List.mem_append, or_iff_right_iff_imp]
            rintro rfl
            exact Or.inl isLeftOut
          rw [unseen_cons_of_mem isLeftOut, unseen_cons_of_mem (List.mem_append_left _ isLeftOut),
            ← inductionHypothesis, sameSeen, sameAsBefore]
        · have notSeen : hit.name ∉ seen ++ others := by
            simp only [List.mem_append, isLeftOut, wasSeen, or_self, not_false_eq_true]
          rw [unseen_cons_of_notMem isLeftOut, firstByName_unseen_cons notSeen,
            ← inductionHypothesis, sameSeen]

theorem map_name_firstByName (seen : List String) (found : List Hit) :
    (firstByName (unseen seen found)).map (·.name) = fresh seen (found.map (·.name)) := by
  induction found generalizing seen with
  | nil => rfl
  | cons hit found inductionHypothesis =>
      rw [List.map_cons, fresh]
      by_cases wasSeen : hit.name ∈ seen
      · rw [unseen_cons_of_mem wasSeen, if_pos (List.contains_iff_mem.mpr wasSeen)]
        exact inductionHypothesis seen
      · rw [firstByName_unseen_cons wasSeen,
          if_neg (fun contains => wasSeen (List.contains_iff_mem.mp contains)), List.map_cons,
          inductionHypothesis]

theorem firstByName_append (seen : List String) (here later : List Hit) :
    firstByName (unseen seen (here ++ later)) =
      firstByName (unseen seen here) ++
        firstByName (unseen (fresh seen (here.map (·.name)) ++ seen) later) := by
  induction here generalizing seen with
  | nil => rfl
  | cons hit here inductionHypothesis =>
      rw [List.cons_append, List.map_cons, fresh]
      by_cases wasSeen : hit.name ∈ seen
      · rw [unseen_cons_of_mem wasSeen, unseen_cons_of_mem wasSeen,
          if_pos (List.contains_iff_mem.mpr wasSeen)]
        exact inductionHypothesis seen
      · rw [firstByName_unseen_cons wasSeen, firstByName_unseen_cons wasSeen,
          if_neg (fun contains => wasSeen (List.contains_iff_mem.mp contains)),
          inductionHypothesis, List.cons_append]
        congr 3
        apply unseen_congr
        intro name
        simp only [List.mem_append, List.mem_cons]
        tauto

theorem IsFirst.mem (isFirst : IsFirst found hit) : hit ∈ found := by
  rcases isFirst with ⟨before, after, rfl, _⟩
  simp

theorem isFirst_cons_iff {first : Hit} :
    IsFirst (first :: found) hit ↔ hit = first ∨ first.name ≠ hit.name ∧ IsFirst found hit := by
  constructor
  · rintro ⟨_ | ⟨_, before⟩, after, split, isNew⟩
    · exact Or.inl (List.head_eq_of_cons_eq split).symm
    · cases split
      rcases List.forall_mem_cons.mp isNew with ⟨isOther, isNew⟩
      exact Or.inr ⟨isOther, before, after, rfl, isNew⟩
  · rintro (rfl | ⟨isOther, before, after, rfl, isNew⟩)
    · exact ⟨[], found, rfl, by simp⟩
    · exact ⟨first :: before, after, rfl, List.forall_mem_cons.mpr ⟨isOther, isNew⟩⟩

theorem mem_firstByName_unseen_iff :
    hit ∈ firstByName (unseen seen found) ↔ hit.name ∉ seen ∧ IsFirst found hit := by
  induction found generalizing seen with
  | nil => simp [firstByName, unseen, IsFirst]
  | cons first found inductionHypothesis =>
      rw [isFirst_cons_iff]
      by_cases wasSeen : first.name ∈ seen
      · rw [unseen_cons_of_mem wasSeen, inductionHypothesis]
        constructor
        · rintro ⟨notSeen, isFirst⟩
          refine ⟨notSeen, Or.inr ⟨?_, isFirst⟩⟩
          intro isSame
          exact notSeen (isSame ▸ wasSeen)
        · rintro ⟨notSeen, rfl | ⟨_, isFirst⟩⟩
          · exact absurd wasSeen notSeen
          · exact ⟨notSeen, isFirst⟩
      · rw [firstByName_unseen_cons wasSeen, List.mem_cons, inductionHypothesis, List.mem_cons,
          not_or]
        constructor
        · rintro (rfl | ⟨⟨isOther, notSeen⟩, isFirst⟩)
          · exact ⟨wasSeen, Or.inl rfl⟩
          · exact ⟨notSeen, Or.inr ⟨Ne.symm isOther, isFirst⟩⟩
        · rintro ⟨notSeen, rfl | ⟨isOther, isFirst⟩⟩
          · exact Or.inl rfl
          · exact Or.inr ⟨⟨Ne.symm isOther, notSeen⟩, isFirst⟩

theorem mem_firstByName_iff : hit ∈ firstByName found ↔ IsFirst found hit := by
  have isMember : hit ∈ firstByName (unseen [] found) ↔ hit.name ∉ [] ∧ IsFirst found hit :=
    mem_firstByName_unseen_iff
  rw [unseen_nil] at isMember
  simpa using isMember

theorem exists_isFirst (isHit : hit ∈ found) :
    ∃ first, IsFirst found first ∧ first.name = hit.name := by
  induction found with
  | nil => cases isHit
  | cons other found inductionHypothesis =>
      by_cases isSame : other.name = hit.name
      · exact ⟨other, isFirst_cons_iff.mpr (Or.inl rfl), isSame⟩
      · rcases List.mem_cons.mp isHit with rfl | isLater
        · exact absurd rfl isSame
        · rcases inductionHypothesis isLater with ⟨first, isFirst, isName⟩
          exact ⟨first, isFirst_cons_iff.mpr (Or.inr ⟨isName ▸ isSame, isFirst⟩), isName⟩

/-- In ordered hits, a first hit is not below any other hit with its name. -/
theorem IsFirst.line_le {other : Hit} (isFirst : IsFirst found hit)
    (ordered : found.Pairwise Hit.Before) (isHit : other ∈ found)
    (sameName : other.name = hit.name) : hit.line ≤ other.line := by
  rcases isFirst with ⟨before, after, rfl, isNew⟩
  rcases List.mem_append.mp isHit with isEarlier | isHit
  · exact absurd sameName (isNew other isEarlier)
  · rcases List.mem_cons.mp isHit with rfl | isLater
    · exact Nat.le_refl _
    · have orderedAfter := (List.pairwise_append.mp ordered).2.1
      rcases List.rel_of_pairwise_cons orderedAfter isLater with isBelow | ⟨isSame, _⟩
      · exact Nat.le_of_lt isBelow
      · exact Nat.le_of_eq isSame

/-! ## The scan -/

/-- From a line on, a scan reports the first hits of the names that were not seen before. -/
theorem scanFrom_eq_firstByName (finders : List Finder) (kind : Kind) (file : String) (number : Nat)
    (previous : Option String) (seen lines : List String) :
    scanFrom finders kind file number previous seen lines =
      (firstByName (unseen seen (hitsFrom finders number previous lines))).map
        (Hit.record kind file) := by
  induction lines generalizing number previous seen with
  | nil => rfl
  | cons line lines inductionHypothesis =>
      have isHere : (fresh seen (names finders line previous)).map
          (fun name => (⟨name, kind, number, file⟩ : Record)) =
            (firstByName (unseen seen (hitsOn finders number line previous))).map
              (Hit.record kind file) := by
        rw [← map_name_hitsOn finders number, ← map_name_firstByName, List.map_map]
        apply List.map_congr_left
        intro hit isFirst
        rcases mem_firstByName_unseen_iff.mp isFirst with ⟨_, before, after, split, _⟩
        have isHit : hit ∈ hitsOn finders number line previous := by simp [split]
        rw [Hit.record, (mem_hitsOn_iff.mp isHit).1]
        rfl
      rw [scanFrom, hitsFrom, firstByName_append, List.map_append, map_name_hitsOn, isHere,
        inductionHypothesis]

theorem scanWith_eq_firstByName (finders : List Finder) (kind : Kind) (file : String)
    (lines : List String) :
    scanWith finders kind file lines =
      (firstByName (hits finders lines)).map (Hit.record kind file) := by
  rw [scanWith, scanFrom_eq_firstByName, unseen_nil, hits]

/-- The hits are all names that are found on some line, in the order of the lines and then of the
finders. A scan reports the first hit of each name. So it reports just the names that are found,
each of them once and on the first line where it is. -/
theorem scanWith_eq_first_hits (finders : List Finder) (kind : Kind) (file : String)
    (lines : List String) :
    (hits finders lines).Pairwise Hit.Before ∧
    (∀ hit, hit ∈ hits finders lines ↔ hit.Occurs finders lines) ∧
    scanWith finders kind file lines =
      (firstByName (hits finders lines)).map (Hit.record kind file) ∧
    ((scanWith finders kind file lines).map (·.name)).Nodup ∧
    (∀ name, name ∈ (scanWith finders kind file lines).map (·.name) ↔
      ∃ hit : Hit, hit.Occurs finders lines ∧ hit.name = name) ∧
    ∀ record ∈ scanWith finders kind file lines,
      (∃ hit : Hit, hit.Occurs finders lines ∧ record = hit.record kind file) ∧
      ∀ hit : Hit, hit.Occurs finders lines → hit.name = record.name → record.line ≤ hit.line := by
  have ordered : (hits finders lines).Pairwise Hit.Before := pairwise_hitsFrom ..
  have isScan := scanWith_eq_firstByName finders kind file lines
  refine ⟨ordered, fun _ => mem_hits_iff, isScan, nodup_name_scanFrom .., ?_, ?_⟩
  · intro name
    rw [isScan, List.map_map, List.mem_map]
    constructor
    · rintro ⟨hit, isFirst, rfl⟩
      exact ⟨hit, mem_hits_iff.mp (mem_firstByName_iff.mp isFirst).mem, rfl⟩
    · rintro ⟨hit, occurs, rfl⟩
      rcases exists_isFirst (mem_hits_iff.mpr occurs) with ⟨first, isFirst, isName⟩
      exact ⟨first, mem_firstByName_iff.mpr isFirst, isName⟩
  · rw [isScan]
    intro record isRecord
    rcases List.mem_map.mp isRecord with ⟨hit, isFirst, rfl⟩
    rw [mem_firstByName_iff] at isFirst
    refine ⟨⟨hit, mem_hits_iff.mp isFirst.mem, rfl⟩, ?_⟩
    intro other occurs sameName
    exact Int.ofNat_le.mpr (isFirst.line_le ordered (mem_hits_iff.mpr occurs) sameName)

end DeclIndex.Declarations
