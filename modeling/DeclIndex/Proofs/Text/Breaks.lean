import Mathlib.Order.Bounds.Basic
import DeclIndex.Proofs.Text.Encoding

/-!
# Where bytes stop being a text

All bytes are an encoded text followed by a rest that does not open with the encoding of a character
(`Utf8.exists_longest_text`). Unless the rest is empty, the decoder fails there, and what it says of
the failure is what can be said without a decoder (`Utf8.decode_eq_error_iff`): the longest text
before it, and the longest run of bytes that some character opens with.

The run is found by following the character that is open. It goes on as long as the next byte is
allowed and not the last one due (`Pending.Continues`).
-/

namespace DeclIndex.Text.Utf8

/-! ## Texts at the start -/

section

variable {bytes rest : List UInt8} {text letters : List Char} {position : Nat}

theorem decodeFrom_encode_append (position : Nat) (text : List Char) (rest : List UInt8) :
    decodeFrom position none (encode text ++ rest) =
      (decodeFrom (position + (encode text).length) none rest).map (text ++ ·) := by
  induction text generalizing position with
  | nil =>
      change decodeFrom position none rest = Except.map id (decodeFrom position none rest)
      rw [Except.map_id]
      rfl
  | cons c text inductionHypothesis =>
      have isCons : encode (c :: text) = String.utf8EncodeChar c ++ encode text := rfl
      rw [isCons, List.append_assoc, decodeFrom_utf8EncodeChar, inductionHypothesis,
        List.length_append, ← Nat.add_assoc]
      cases decodeFrom (position + (String.utf8EncodeChar c).length + (encode text).length) none
        rest <;> rfl

/-- What follows a text in a longer one is a text. -/
theorem exists_encode_of_append (isText : encode text ++ rest = encode letters) :
    ∃ more, rest = encode more := by
  have isDecoded := decode_eq_ok_iff.mpr isText
  rw [decode, decodeFrom_encode_append] at isDecoded
  rcases Sequence.map_eq_ok_iff.mp isDecoded with ⟨more, isMore, _⟩
  exact ⟨more, decodeFrom_eq_ok_iff.mp isMore⟩

theorem encode_injective : Function.Injective encode := by
  intro text letters same
  have isText : decode (encode text) = .ok text := decode_eq_ok_iff.mpr rfl
  rw [decode_eq_ok_iff.mpr same] at isText
  exact (Except.ok.inj isText).symm

/-- No character is encoded at the start of the bytes. -/
def Broken (bytes : List UInt8) : Prop :=
  ∀ c, ¬String.utf8EncodeChar c <+: bytes

theorem exists_longest_text (bytes : List UInt8) :
    ∃ text rest, bytes = encode text ++ rest ∧ Broken rest := by
  by_cases broken : Broken bytes
  · exact ⟨[], bytes, rfl, broken⟩
  · rw [Broken, not_forall_not] at broken
    rcases broken with ⟨c, rest, rfl⟩
    have isShorter : rest.length < (String.utf8EncodeChar c ++ rest).length := by
      have isPositive := List.length_pos_of_ne_nil (String.utf8EncodeChar_ne_nil (c := c))
      rw [List.length_append]
      omega
    rcases exists_longest_text rest with ⟨text, later, rfl, broken⟩
    exact ⟨c :: text, later, by simp [encode], broken⟩
termination_by bytes.length

theorem Broken.eq_nil_of_encode (broken : Broken bytes) (isStart : encode text <+: bytes) :
    text = [] := by
  cases text with
  | nil => rfl
  | cons c text =>
      have isCons : encode (c :: text) = String.utf8EncodeChar c ++ encode text := rfl
      rw [isCons] at isStart
      exact absurd ((List.prefix_append _ _).trans isStart) (broken c)

/-- The lengths of the starts of some bytes that encode a text. -/
def textLengths (bytes : List UInt8) : Set Nat :=
  {length | length ≤ bytes.length ∧ ∃ text, bytes.take length = encode text}

theorem isGreatest_textLengths (broken : Broken rest) :
    IsGreatest (textLengths (encode text ++ rest)) (encode text).length := by
  constructor
  · refine ⟨?_, text, List.take_left⟩
    rw [List.length_append]
    exact Nat.le_add_right _ _
  · rintro length ⟨inside, letters, isText⟩
    by_contra isLonger
    have isBeyond : (encode text).length ≤ length := by omega
    rw [List.take_append, List.take_of_length_le isBeyond] at isText
    rcases exists_encode_of_append isText with ⟨more, isMore⟩
    have noMore : more = [] := by
      apply broken.eq_nil_of_encode
      rw [← isMore]
      exact List.take_prefix _ _
    have isEmpty : (rest.take (length - (encode text).length)).length = 0 := by
      rw [isMore, noMore]
      rfl
    rw [List.length_take] at isEmpty
    rw [List.length_append] at inside
    omega

end

/-! ## Characters that are not finished -/

/-- The bytes are the start of a character's encoding, but not all of it. -/
def Unfinished (bytes : List UInt8) : Prop :=
  ∃ c, bytes <+: String.utf8EncodeChar c ∧ bytes ≠ String.utf8EncodeChar c

/-- The encoding of some character starts with the byte. -/
def Opens (byte : UInt8) : Prop :=
  ∃ c, (String.utf8EncodeChar c).head? = some byte

theorem Unfinished.of_prefix {bytes run : List UInt8} (unfinished : Unfinished bytes)
    (isStart : run <+: bytes) : Unfinished run := by
  rcases unfinished with ⟨c, isPrefix, notAll⟩
  refine ⟨c, isStart.trans isPrefix, ?_⟩
  rintro rfl
  exact notAll (isPrefix.eq_of_length_le isStart.length_le)

namespace Pending

variable {pending : Pending} {unit code : Nat} {units more : List Nat}

/-- The bytes are allowed, and further ones are still due. -/
inductive Continues : Pending → List Nat → Prop where
  | nil {pending : Pending} : Continues pending []
  | cons {pending : Pending} {unit : Nat} {units : List Nat} (notLast : ¬pending.due ≤ 1)
      (allows : pending.Allows unit) (continues : Continues (pending.next unit) units) :
      Continues pending (unit :: units)

theorem continues_of_ends (ends : pending.Ends (units ++ more) code) (someMore : more ≠ []) :
    pending.Continues units := by
  induction units generalizing pending with
  | nil => exact Continues.nil
  | cons unit units inductionHypothesis =>
      rw [List.cons_append] at ends
      generalize isAll : units ++ more = all at ends
      cases ends with
      | last isLast allows => exact absurd (List.append_eq_nil_iff.mp isAll).2 someMore
      | more notLast allows ends =>
          rw [← isAll] at ends
          exact Continues.cons notLast allows (inductionHypothesis ends)

theorem exists_ends (pending : Pending) (someAllowed : pending.low ≤ pending.high) :
    ∃ more : List UInt8, ∃ code, more ≠ [] ∧ pending.Ends (more.map UInt8.toNat) code := by
  have allows : pending.Allows pending.low.toNat :=
    ⟨Nat.le_refl _, UInt8.le_iff_toNat_le.mp someAllowed⟩
  by_cases isLast : pending.due ≤ 1
  · exact ⟨[pending.low], _, List.cons_ne_nil _ _, Ends.last isLast allows⟩
  · rcases exists_ends (pending.next pending.low.toNat) (by decide : (0x80 : UInt8) ≤ 0xbf) with
      ⟨more, code, _, ends⟩
    exact ⟨pending.low :: more, code, List.cons_ne_nil _ _, Ends.more isLast allows ends⟩
termination_by pending.due
decreasing_by
  change pending.due - 1 < pending.due
  omega

/-- Bytes that are allowed can be completed by further ones. -/
theorem exists_ends_of_continues (someAllowed : pending.low ≤ pending.high)
    (continues : pending.Continues units) :
    ∃ more : List UInt8, ∃ code, more ≠ [] ∧
      pending.Ends (units ++ more.map UInt8.toNat) code := by
  induction continues with
  | nil => exact exists_ends _ someAllowed
  | cons notLast allows _ inductionHypothesis =>
      rcases inductionHypothesis (by decide : (0x80 : UInt8) ≤ 0xbf) with
        ⟨more, code, someMore, ends⟩
      exact ⟨more, code, someMore, Ends.more notLast allows ends⟩

/-- Where no bytes end the character, the decoder takes all that are allowed and then fails. -/
theorem decodeFrom_of_no_end {bytes : List UInt8} (position : Nat)
    (noEnd : ∀ here code, here <+: bytes → ¬pending.Ends (here.map UInt8.toNat) code) :
    ∃ run rest, bytes = run ++ rest ∧ pending.Continues (run.map UInt8.toNat) ∧
      (∀ byte ∈ rest.head?, ¬pending.Continues ((run ++ [byte]).map UInt8.toNat)) ∧
      decodeFrom position (some pending) bytes =
        .error ⟨position - pending.count, pending.first, pending.count + run.length,
          if rest = [] then .unexpectedEnd else .invalidContinuation⟩ := by
  induction bytes generalizing position pending with
  | nil => exact ⟨[], [], rfl, Continues.nil, by simp, rfl⟩
  | cons byte bytes inductionHypothesis =>
      by_cases allows : pending.Allows byte.toNat
      · have notLast : ¬pending.due ≤ 1 := by
          intro isLast
          exact noEnd [byte] _ (by simp) (Ends.last isLast allows)
        have noLaterEnd : ∀ here code, here <+: bytes →
            ¬(pending.next byte.toNat).Ends (here.map UInt8.toNat) code := by
          intro here code isStart ends
          apply noEnd (byte :: here) code
          · exact List.cons_prefix_cons.mpr ⟨rfl, isStart⟩
          · exact Ends.more notLast allows ends
        rcases inductionHypothesis (position + 1) noLaterEnd with
          ⟨run, rest, rfl, continues, isStuck, fails⟩
        refine ⟨byte :: run, rest, rfl, Continues.cons notLast allows continues, ?_, ?_⟩
        · intro next isNext continues
          cases continues with
          | cons _ _ continues => exact isStuck next isNext continues
        · rw [decodeFrom, if_pos (allows_toNat_iff.mp allows), if_neg notLast]
          change decodeFrom (position + 1) (some (pending.next byte.toNat)) (run ++ rest) = _
          rw [fails]
          simp only [next, List.length_cons, Nat.add_sub_add_right]
          rw [Nat.add_assoc, Nat.add_comm 1]
      · refine ⟨[], byte :: bytes, rfl, Continues.nil, ?_, ?_⟩
        · intro next isNext continues
          cases isNext
          cases continues with
          | cons _ allowsToo _ => exact allows allowsToo
        · rw [decodeFrom, if_neg (mt allows_toNat_iff.mpr allows)]
          rfl

end Pending

theorem opening?_eq_some {byte : UInt8} {pending : Pending}
    (isOpening : opening? byte = some pending) :
    pending.first = byte ∧ pending.count = 1 ∧ pending.low ≤ pending.high := by
  rw [opening?_eq] at isOpening
  rw [UInt8.le_iff_toNat_le]
  split at isOpening
  · cases isOpening
  split at isOpening
  · cases isOpening
    exact ⟨rfl, rfl, (by decide : (0x80 : UInt8).toNat ≤ (0xbf : UInt8).toNat)⟩
  split at isOpening
  · cases isOpening
    simp only [true_and, apply_ite UInt8.toNat, UInt8.reduceToNat]
    split <;> split <;> omega
  split at isOpening
  · cases isOpening
    simp only [true_and, apply_ite UInt8.toNat, UInt8.reduceToNat]
    split <;> split <;> omega
  · cases isOpening

theorem unfinished_cons_iff {byte : UInt8} {run : List UInt8} (notAscii : 0x80 ≤ byte.toNat) :
    Unfinished (byte :: run) ↔
      ∃ pending, opening? byte = some pending ∧ pending.Continues (run.map UInt8.toNat) := by
  constructor
  · rintro ⟨c, ⟨more, isAll⟩, notAll⟩
    have someMore : more ≠ [] := by
      rintro rfl
      rw [List.append_nil] at isAll
      exact notAll isAll
    rw [List.cons_append] at isAll
    rcases (exists_opening_iff notAscii).mpr isAll with ⟨pending, isOpening, ends⟩
    rw [List.map_append] at ends
    refine ⟨pending, isOpening, Pending.continues_of_ends ends ?_⟩
    rwa [ne_eq, List.map_eq_nil_iff]
  · rintro ⟨pending, isOpening, continues⟩
    rcases opening?_eq_some isOpening with ⟨_, _, someAllowed⟩
    rcases Pending.exists_ends_of_continues someAllowed continues with
      ⟨more, code, someMore, ends⟩
    have isCode : (Char.ofNat code).toNat = code :=
      toNat_ofNat_of_isValidChar (isValidChar_of_ends isOpening ends)
    rw [← List.map_append, ← isCode] at ends
    have isAll := (exists_opening_iff notAscii).mp ⟨pending, isOpening, ends⟩
    refine ⟨Char.ofNat code, ⟨more, isAll⟩, ?_⟩
    rw [← isAll]
    simpa using someMore

theorem opens_iff {byte : UInt8} (notAscii : 0x80 ≤ byte.toNat) :
    Opens byte ↔ ∃ pending, opening? byte = some pending := by
  constructor
  · rintro ⟨c, isHead⟩
    rcases List.head?_eq_some_iff.mp isHead with ⟨others, isAll⟩
    rcases (exists_opening_iff notAscii).mpr isAll.symm with ⟨pending, isOpening, _⟩
    exact ⟨pending, isOpening⟩
  · rintro ⟨pending, isOpening⟩
    have unfinished : Unfinished [byte] :=
      (unfinished_cons_iff notAscii).mpr ⟨pending, isOpening, Pending.Continues.nil⟩
    rcases unfinished with ⟨c, isStart, _⟩
    rcases isStart with ⟨others, isAll⟩
    exact ⟨c, by rw [← isAll]; rfl⟩

/-! ## Failures -/

/-- The numbers of bytes from a position on that some character opens with, but does not end. -/
def unfinishedLengths (bytes : List UInt8) (position : Nat) : Set Nat :=
  {length | position + length ≤ bytes.length ∧ Unfinished ((bytes.drop position).take length)}

/-- The failure says where some bytes stop being a text: the longest text before it, and the bytes
after that. These are a single byte if no character opens with it, and otherwise as many bytes as
some character opens with. -/
structure Failure.Locates (failure : Failure) (bytes : List UInt8) : Prop where
  isStart : IsGreatest (textLengths bytes) failure.start
  isFirst : bytes[failure.start]? = some failure.first
  isRange : ¬Opens failure.first ∧ failure.count = 1 ∧ failure.reason = .invalidStart ∨
    Opens failure.first ∧ IsGreatest (unfinishedLengths bytes failure.start) failure.count ∧
      failure.reason =
        if failure.start + failure.count = bytes.length then .unexpectedEnd
        else .invalidContinuation

section

variable {failure other : Failure} {bytes rest : List UInt8} {text : List Char}

theorem Failure.Locates.unique (locates : failure.Locates bytes)
    (locatesToo : other.Locates bytes) : failure = other := by
  rcases failure with ⟨start, first, count, reason⟩
  rcases other with ⟨start', first', count', reason'⟩
  obtain rfl : start = start' := locates.isStart.unique locatesToo.isStart
  obtain rfl : first = first' :=
    Option.some.inj (locates.isFirst.symm.trans locatesToo.isFirst)
  rcases locates.isRange with ⟨opensNone, rfl, rfl⟩ | ⟨opens, isCount, isReason⟩
  · rcases locatesToo.isRange with ⟨_, rfl, rfl⟩ | ⟨opens, _⟩
    · rfl
    · exact absurd opens opensNone
  · rcases locatesToo.isRange with ⟨opensNone, _⟩ | ⟨_, isCountToo, isReasonToo⟩
    · exact absurd opens opensNone
    · obtain rfl : count = count' := isCount.unique isCountToo
      obtain rfl : reason = reason' := isReason.trans isReasonToo.symm
      rfl

theorem Broken.notAscii {byte : UInt8} (broken : Broken (byte :: rest)) : ¬byte < 0x80 := by
  intro isAscii
  have isEncoding : [byte] = String.utf8EncodeChar (Char.ofNat byte.toNat) :=
    (cons_eq_utf8EncodeChar_iff isAscii).mpr ⟨rfl, rfl⟩
  apply broken (Char.ofNat byte.toNat)
  rw [← isEncoding]
  exact List.prefix_append [byte] rest

/-- A character that is opened but not encoded: the decoder names as many bytes as there are of
some character. -/
theorem Broken.decodeFrom_of_opens {byte : UInt8} (broken : Broken (byte :: rest))
    (opens : Opens byte) (position : Nat) :
    ∃ run later, rest = run ++ later ∧ Unfinished (byte :: run) ∧
      (∀ next ∈ later.head?, ¬Unfinished (byte :: (run ++ [next]))) ∧
      decodeFrom position none (byte :: rest) = .error ⟨position, byte, 1 + run.length,
        if later = [] then .unexpectedEnd else .invalidContinuation⟩ := by
  have notAscii : 0x80 ≤ byte.toNat := not_isAscii_iff.mp broken.notAscii
  rcases (opens_iff notAscii).mp opens with ⟨pending, isOpening⟩
  rcases opening?_eq_some isOpening with ⟨isFirst, isCount, _⟩
  have noEnd : ∀ here code, here <+: rest → ¬pending.Ends (here.map UInt8.toNat) code := by
    intro here code isStart ends
    have isCode : (Char.ofNat code).toNat = code :=
      toNat_ofNat_of_isValidChar (isValidChar_of_ends isOpening ends)
    rw [← isCode] at ends
    apply broken (Char.ofNat code)
    rw [← (exists_opening_iff notAscii).mp ⟨pending, isOpening, ends⟩]
    exact List.cons_prefix_cons.mpr ⟨rfl, isStart⟩
  rcases Pending.decodeFrom_of_no_end (position + 1) noEnd with
    ⟨run, later, rfl, continues, isStuck, fails⟩
  refine ⟨run, later, rfl, ?_, ?_, ?_⟩
  · exact (unfinished_cons_iff notAscii).mpr ⟨pending, isOpening, continues⟩
  · intro next isNext unfinished
    rcases (unfinished_cons_iff notAscii).mp unfinished with ⟨pendingToo, isOpeningToo, continues⟩
    rw [isOpening] at isOpeningToo
    cases isOpeningToo
    exact isStuck next isNext continues
  · rw [decodeFrom, if_neg broken.notAscii]
    simp only [isOpening, fails, isFirst, isCount, Nat.add_sub_cancel]

theorem Broken.decodeFrom_of_not_opens {byte : UInt8} (broken : Broken (byte :: rest))
    (opensNone : ¬Opens byte) (position : Nat) :
    decodeFrom position none (byte :: rest) = .error ⟨position, byte, 1, .invalidStart⟩ := by
  have notAscii : 0x80 ≤ byte.toNat := not_isAscii_iff.mp broken.notAscii
  have noOpening : opening? byte = none := by
    rw [opens_iff notAscii, ← Option.isSome_iff_exists] at opensNone
    exact Option.not_isSome_iff_eq_none.mp opensNone
  rw [decodeFrom, if_neg broken.notAscii]
  simp only [noOpening]

theorem isGreatest_unfinishedLengths {before : List UInt8} {byte : UInt8} {run later : List UInt8}
    (unfinished : Unfinished (byte :: run))
    (isStuck : ∀ next ∈ later.head?, ¬Unfinished (byte :: (run ++ [next]))) :
    IsGreatest (unfinishedLengths (before ++ byte :: (run ++ later)) before.length)
      (1 + run.length) := by
  constructor
  · refine ⟨?_, ?_⟩
    · simp only [List.length_append, List.length_cons]
      omega
    · rw [List.drop_left, Nat.add_comm, List.take_succ_cons, List.take_left]
      exact unfinished
  · rintro length ⟨inside, unfinishedToo⟩
    by_contra isLonger
    rw [List.drop_left] at unfinishedToo
    cases later with
    | nil =>
        simp only [List.length_append, List.length_cons, List.length_nil] at inside
        omega
    | cons next later =>
        apply isStuck next rfl
        apply unfinishedToo.of_prefix
        have isStart : byte :: (run ++ [next]) <+: byte :: (run ++ next :: later) := by simp
        rw [List.prefix_take_iff]
        refine ⟨isStart, ?_⟩
        simp only [List.length_append, List.length_cons, List.length_nil]
        omega

/-- The decoder fails where no character is encoded, and says so. -/
theorem Broken.exists_locates (broken : Broken rest) (nonempty : rest ≠ []) :
    ∃ failure, decode (encode text ++ rest) = .error failure ∧
      failure.Locates (encode text ++ rest) := by
  rcases List.exists_cons_of_ne_nil nonempty with ⟨byte, others, rfl⟩
  have isFirst : (encode text ++ byte :: others)[(encode text).length]? = some byte := by simp
  rw [decode, decodeFrom_encode_append, Nat.zero_add]
  by_cases opens : Opens byte
  · rcases broken.decodeFrom_of_opens opens (encode text).length with
      ⟨run, later, rfl, unfinished, isStuck, fails⟩
    refine ⟨_, Sequence.map_eq_error_iff.mpr fails, ?_⟩
    refine ⟨isGreatest_textLengths broken, isFirst, Or.inr ⟨opens, ?_, ?_⟩⟩
    · exact isGreatest_unfinishedLengths unfinished isStuck
    · have isEnd : later = [] ↔ (encode text).length + (1 + run.length) =
          (encode text ++ byte :: (run ++ later)).length := by
        rw [← List.length_eq_zero_iff]
        simp only [List.length_append, List.length_cons]
        omega
      simp only [isEnd]
  · have fails := broken.decodeFrom_of_not_opens opens (encode text).length
    refine ⟨_, Sequence.map_eq_error_iff.mpr fails, ?_⟩
    exact ⟨isGreatest_textLengths broken, isFirst, Or.inl ⟨opens, rfl, rfl⟩⟩

/-- Decoding fails with what locates the end of the text in the bytes. -/
theorem decode_eq_error_iff : decode bytes = .error failure ↔ failure.Locates bytes := by
  rcases exists_longest_text bytes with ⟨text, rest, rfl, broken⟩
  by_cases isAll : rest = []
  · subst isAll
    have isText : decode (encode text ++ []) = .ok text :=
      decode_eq_ok_iff.mpr (List.append_nil _)
    rw [isText]
    constructor
    · rintro ⟨⟩
    · intro locates
      have isStart := locates.isStart.unique (isGreatest_textLengths broken)
      have isFirst := locates.isFirst
      rw [isStart] at isFirst
      simp at isFirst
  · rcases broken.exists_locates isAll with ⟨located, fails, locates⟩
    rw [fails]
    constructor
    · rintro ⟨⟩
      exact locates
    · intro locatesToo
      rw [locates.unique locatesToo]

end

end DeclIndex.Text.Utf8
