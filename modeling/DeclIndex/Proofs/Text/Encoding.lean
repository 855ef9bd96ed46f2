import Mathlib.Data.List.Basic
import DeclIndex.Text.Utf8
import DeclIndex.Proofs.Sequence

/-!
# Encoded texts

A text is encoded by `String.utf8EncodeChar`, one character after the other. The decoder accepts
just the bytes that encode a text, and returns that text (`Utf8.decode_eq_ok_iff`). A byte order
mark is the encoding of a character, so bytes with a mark are an encoded text if they are one
without it.

While the decoder is inside a character, some further bytes end it (`Pending.Ends`). An opening byte
together with bytes that end its character is the encoding of a character, and every encoding that
does not start in ASCII arises in this way (`exists_opening_iff`). This is the only place where the
arithmetic of the encoding matters.
-/

namespace DeclIndex.Text.Utf8

/-- The bytes that encode a text. -/
def encode (letters : List Char) : List UInt8 :=
  letters.flatMap String.utf8EncodeChar

/-- The bytes that encode the character with a code, as numbers. -/
def units (code : Nat) : List Nat :=
  if code ≤ 0x7f then [code]
  else if code ≤ 0x7ff then [code / 0x40 + 0xc0, code % 0x40 + 0x80]
  else if code ≤ 0xffff then [code / 0x1000 + 0xe0, code / 0x40 % 0x40 + 0x80, code % 0x40 + 0x80]
  else
    [code / 0x40000 + 0xf0, code / 0x1000 % 0x40 + 0x80, code / 0x40 % 0x40 + 0x80,
      code % 0x40 + 0x80]

theorem toNat_cases (c : Char) : c.toNat < 0xd800 ∨ 0xdfff < c.toNat ∧ c.toNat < 0x110000 :=
  c.valid

theorem toNat_ofNat_of_isValidChar {code : Nat} (isValid : code.isValidChar) :
    (Char.ofNat code).toNat = code := by
  rw [Char.ofNat, dif_pos isValid]
  rfl

theorem map_toNat_utf8EncodeChar (c : Char) :
    (String.utf8EncodeChar c).map UInt8.toNat = units c.toNat := by
  have bound := toNat_cases c
  unfold String.utf8EncodeChar units
  simp only [Char.toNat_val]
  split
  · simp only [List.map_cons, List.map_nil, UInt8.toNat_ofNat', List.cons.injEq, and_true]
    omega
  split
  · simp only [List.map_cons, List.map_nil, UInt8.toNat_ofNat', List.cons.injEq, and_true]
    omega
  split
  · simp only [List.map_cons, List.map_nil, UInt8.toNat_ofNat', List.cons.injEq, and_true]
    omega
  · simp only [List.map_cons, List.map_nil, UInt8.toNat_ofNat', List.cons.injEq, and_true]
    omega

theorem eq_utf8EncodeChar_iff {bytes : List UInt8} {c : Char} :
    bytes = String.utf8EncodeChar c ↔ bytes.map UInt8.toNat = units c.toNat := by
  rw [← map_toNat_utf8EncodeChar]
  have injective : Function.Injective UInt8.toNat := fun _ _ => UInt8.toNat_inj.mp
  exact (injective.list_map.eq_iff).symm

section

variable {first code : Nat} {others : List Nat}

/-- The four lengths of an encoding. -/
theorem cons_eq_units_iff :
    first :: others = units code ↔
      code ≤ 0x7f ∧ first = code ∧ others = [] ∨
      (0x7f < code ∧ code ≤ 0x7ff) ∧ first = code / 0x40 + 0xc0 ∧
        others = [code % 0x40 + 0x80] ∨
      (0x7ff < code ∧ code ≤ 0xffff) ∧ first = code / 0x1000 + 0xe0 ∧
        others = [code / 0x40 % 0x40 + 0x80, code % 0x40 + 0x80] ∨
      0xffff < code ∧ first = code / 0x40000 + 0xf0 ∧
        others = [code / 0x1000 % 0x40 + 0x80, code / 0x40 % 0x40 + 0x80, code % 0x40 + 0x80] := by
  unfold units
  split
  next isShort => grind
  next notOne =>
    split
    next isShort => grind
    next notTwo =>
      split
      next isShort => grind
      next notThree => grind

theorem cons_ne_units (isCode : code < 0x110000) (notAscii : 0x80 ≤ first)
    (opensNothing : first < 0xc2 ∨ 0xf5 ≤ first) : first :: others ≠ units code := by
  rw [ne_eq, cons_eq_units_iff]
  omega

theorem cons_eq_units_two_iff (atLeast : 0xc2 ≤ first) (less : first < 0xe0) :
    first :: others = units code ↔
      ∃ second, others = [second] ∧ (0x80 ≤ second ∧ second ≤ 0xbf) ∧
        code = first % 0x20 * 0x40 + second % 0x40 := by
  have onlyTwo : first :: others = units code ↔ (0x7f < code ∧ code ≤ 0x7ff) ∧
      first = code / 0x40 + 0xc0 ∧ others = [code % 0x40 + 0x80] := by
    rw [cons_eq_units_iff]
    grind
  rw [onlyTwo]
  constructor
  · rintro ⟨isLength, isFirst, rfl⟩
    exact ⟨_, rfl, by omega, by omega⟩
  · rintro ⟨second, rfl, isSecond, isCode⟩
    simp only [List.cons.injEq, and_true]
    omega

theorem cons_eq_units_three_iff (isCode : code < 0xd800 ∨ 0xdfff < code) (atLeast : 0xe0 ≤ first)
    (less : first < 0xf0) :
    first :: others = units code ↔
      ∃ second third, others = [second, third] ∧
        ((if first = 0xe0 then 0xa0 else 0x80) ≤ second ∧
          second ≤ if first = 0xed then 0x9f else 0xbf) ∧
        (0x80 ≤ third ∧ third ≤ 0xbf) ∧
        code = (first % 0x10 * 0x40 + second % 0x40) * 0x40 + third % 0x40 := by
  have onlyThree : first :: others = units code ↔ (0x7ff < code ∧ code ≤ 0xffff) ∧
      first = code / 0x1000 + 0xe0 ∧
        others = [code / 0x40 % 0x40 + 0x80, code % 0x40 + 0x80] := by
    rw [cons_eq_units_iff]
    grind
  rw [onlyThree]
  constructor
  · rintro ⟨isLength, isFirst, rfl⟩
    refine ⟨_, _, rfl, ⟨?_, ?_⟩, by omega, by omega⟩
    · split <;> omega
    · split <;> omega
  · rintro ⟨second, third, rfl, ⟨low, high⟩, isThird, isCode⟩
    have notShort : 0x80 ≤ second ∧ (0xa0 ≤ second ∨ 0xe0 < first) := by
      split at low <;> omega
    have atMost : second ≤ 0xbf := by
      split at high <;> omega
    clear low high
    simp only [List.cons.injEq, and_true]
    omega

theorem cons_eq_units_four_iff (isCode : code < 0x110000) (atLeast : 0xf0 ≤ first)
    (less : first < 0xf5) :
    first :: others = units code ↔
      ∃ second third fourth, others = [second, third, fourth] ∧
        ((if first = 0xf0 then 0x90 else 0x80) ≤ second ∧
          second ≤ if first = 0xf4 then 0x8f else 0xbf) ∧
        (0x80 ≤ third ∧ third ≤ 0xbf) ∧ (0x80 ≤ fourth ∧ fourth ≤ 0xbf) ∧
        code = ((first % 0x08 * 0x40 + second % 0x40) * 0x40 + third % 0x40) * 0x40
          + fourth % 0x40 := by
  have onlyFour : first :: others = units code ↔ 0xffff < code ∧
      first = code / 0x40000 + 0xf0 ∧
        others = [code / 0x1000 % 0x40 + 0x80, code / 0x40 % 0x40 + 0x80, code % 0x40 + 0x80] := by
    rw [cons_eq_units_iff]
    grind
  rw [onlyFour]
  constructor
  · rintro ⟨isLength, isFirst, rfl⟩
    refine ⟨_, _, _, rfl, ⟨?_, ?_⟩, by omega, by omega, by omega⟩
    · split <;> omega
    · split <;> omega
  · rintro ⟨second, third, fourth, rfl, ⟨low, high⟩, isThird, isFourth, isCode⟩
    have notShort : 0x80 ≤ second ∧ (0x90 ≤ second ∨ 0xf0 < first) := by
      split at low <;> omega
    have atMost : second ≤ 0xbf := by
      split at high <;> omega
    clear low high
    simp only [List.cons.injEq, and_true]
    omega

end

/-! ## Inside a character -/

namespace Pending

variable {pending : Pending} {units : List Nat} {code : Nat}

/-- The number of a byte that may follow. -/
def Allows (pending : Pending) (unit : Nat) : Prop :=
  pending.low.toNat ≤ unit ∧ unit ≤ pending.high.toNat

/-- The bits collected with one more byte. -/
def codeWith (pending : Pending) (unit : Nat) : Nat :=
  pending.code * 0x40 + unit % 0x40

/-- The character after one more byte, if that is not the last. -/
def next (pending : Pending) (unit : Nat) : Pending :=
  ⟨pending.first, pending.count + 1, pending.due - 1, 0x80, 0xbf, pending.codeWith unit⟩

/-- Some bytes end the character, whose code is then known. -/
inductive Ends : Pending → List Nat → Nat → Prop where
  | last {pending : Pending} {unit : Nat} (isLast : pending.due ≤ 1)
      (allows : pending.Allows unit) : Ends pending [unit] (pending.codeWith unit)
  | more {pending : Pending} {unit : Nat} {units : List Nat} {code : Nat}
      (notLast : ¬pending.due ≤ 1) (allows : pending.Allows unit)
      (ends : Ends (pending.next unit) units code) : Ends pending (unit :: units) code

theorem ends_last_iff (isLast : pending.due ≤ 1) :
    pending.Ends units code ↔
      ∃ unit, units = [unit] ∧ pending.Allows unit ∧ code = pending.codeWith unit := by
  constructor
  · intro ends
    cases ends with
    | last _ allows => exact ⟨_, rfl, allows, rfl⟩
    | more notLast => exact absurd isLast notLast
  · rintro ⟨unit, rfl, allows, rfl⟩
    exact Ends.last isLast allows

theorem ends_more_iff (notLast : ¬pending.due ≤ 1) :
    pending.Ends units code ↔
      ∃ unit others, units = unit :: others ∧ pending.Allows unit ∧
        (pending.next unit).Ends others code := by
  constructor
  · intro ends
    cases ends with
    | last isLast => exact absurd isLast notLast
    | more _ allows ends => exact ⟨_, _, rfl, allows, ends⟩
  · rintro ⟨unit, others, rfl, allows, ends⟩
    exact Ends.more notLast allows ends

theorem ends_two_iff (isDue : pending.due = 2) :
    pending.Ends units code ↔
      ∃ first second, units = [first, second] ∧ pending.Allows first ∧
        (0x80 ≤ second ∧ second ≤ 0xbf) ∧ code = pending.codeWith first * 0x40 + second % 0x40 := by
  have isLast (unit : Nat) : (pending.next unit).due ≤ 1 :=
    Nat.le_of_eq (congrArg (· - 1) isDue)
  simp only [ends_more_iff (show ¬pending.due ≤ 1 by omega), ends_last_iff (isLast _)]
  constructor
  · rintro ⟨first, _, rfl, allows, second, rfl, isTail, isCode⟩
    exact ⟨first, second, rfl, allows, isTail, isCode⟩
  · rintro ⟨first, second, rfl, allows, isTail, isCode⟩
    exact ⟨first, _, rfl, allows, second, rfl, isTail, isCode⟩

theorem ends_three_iff (isDue : pending.due = 3) :
    pending.Ends units code ↔
      ∃ first second third, units = [first, second, third] ∧ pending.Allows first ∧
        (0x80 ≤ second ∧ second ≤ 0xbf) ∧ (0x80 ≤ third ∧ third ≤ 0xbf) ∧
        code = (pending.codeWith first * 0x40 + second % 0x40) * 0x40 + third % 0x40 := by
  have isDueLater (unit : Nat) : (pending.next unit).due = 2 := by
    rw [next, isDue]
  simp only [ends_more_iff (show ¬pending.due ≤ 1 by omega), ends_two_iff (isDueLater _)]
  constructor
  · rintro ⟨first, _, rfl, allows, second, third, rfl, isTail, isTailToo, isCode⟩
    exact ⟨first, second, third, rfl, allows, isTail, isTailToo, isCode⟩
  · rintro ⟨first, second, third, rfl, allows, isTail, isTailToo, isCode⟩
    exact ⟨first, _, rfl, allows, second, third, rfl, isTail, isTailToo, isCode⟩

end Pending

/-- What an opening byte announces, by the number of bytes that are due. -/
theorem opening?_eq (byte : UInt8) :
    opening? byte =
      if byte.toNat < 0xc2 then none
      else if byte.toNat < 0xe0 then some ⟨byte, 1, 1, 0x80, 0xbf, byte.toNat % 0x20⟩
      else if byte.toNat < 0xf0 then
        some ⟨byte, 1, 2, if byte.toNat = 0xe0 then 0xa0 else 0x80,
          if byte.toNat = 0xed then 0x9f else 0xbf, byte.toNat % 0x10⟩
      else if byte.toNat < 0xf5 then
        some ⟨byte, 1, 3, if byte.toNat = 0xf0 then 0x90 else 0x80,
          if byte.toNat = 0xf4 then 0x8f else 0xbf, byte.toNat % 0x08⟩
      else none := by
  unfold opening?
  simp only [UInt8.lt_iff_toNat_lt, ← UInt8.toNat_inj]
  simp only [UInt8.reduceToNat]
  grind

/-- An opening byte and bytes that end its character encode that character. -/
theorem exists_opening_iff {byte : UInt8} {bytes : List UInt8} {c : Char}
    (notAscii : 0x80 ≤ byte.toNat) :
    (∃ pending, opening? byte = some pending ∧ pending.Ends (bytes.map UInt8.toNat) c.toNat) ↔
      byte :: bytes = String.utf8EncodeChar c := by
  have isCode := toNat_cases c
  rw [eq_utf8EncodeChar_iff, List.map_cons, opening?_eq]
  split
  next less =>
    simp only [reduceCtorEq, false_and, exists_false, false_iff]
    exact cons_ne_units (by omega) notAscii (Or.inl less)
  split
  next notLess less =>
    rw [cons_eq_units_two_iff (Nat.not_lt.mp notLess) less]
    simp only [Option.some.injEq, exists_eq_left']
    exact Pending.ends_last_iff (Nat.le_refl 1)
  split
  next notLess less =>
    rw [cons_eq_units_three_iff (by omega) (Nat.not_lt.mp notLess) less]
    simp only [Option.some.injEq, exists_eq_left']
    rw [Pending.ends_two_iff rfl]
    simp only [Pending.Allows, Pending.codeWith, apply_ite UInt8.toNat, UInt8.reduceToNat]
  split
  next notLess less =>
    rw [cons_eq_units_four_iff (by omega) (Nat.not_lt.mp notLess) less]
    simp only [Option.some.injEq, exists_eq_left']
    rw [Pending.ends_three_iff rfl]
    simp only [Pending.Allows, Pending.codeWith, apply_ite UInt8.toNat, UInt8.reduceToNat]
  next notLess =>
    simp only [reduceCtorEq, false_and, exists_false, false_iff]
    exact cons_ne_units (by omega) notAscii (Or.inr (Nat.not_lt.mp notLess))

/-- A character that was opened has a code that is a character's. -/
theorem isValidChar_of_ends {byte : UInt8} {pending : Pending} {others : List Nat} {code : Nat}
    (isOpening : opening? byte = some pending) (ends : pending.Ends others code) :
    code.isValidChar := by
  rw [opening?_eq] at isOpening
  split at isOpening
  · cases isOpening
  split at isOpening
  · cases isOpening
    rw [Pending.ends_last_iff (Nat.le_refl 1)] at ends
    rcases ends with ⟨second, rfl, isSecond, rfl⟩
    simp only [Nat.isValidChar, Pending.codeWith]
    omega
  split at isOpening
  · cases isOpening
    rw [Pending.ends_two_iff rfl] at ends
    rcases ends with ⟨second, third, rfl, isSecond, isThird, rfl⟩
    simp only [Pending.Allows, apply_ite UInt8.toNat, UInt8.reduceToNat] at isSecond
    simp only [Nat.isValidChar, Pending.codeWith]
    grind
  split at isOpening
  · cases isOpening
    rw [Pending.ends_three_iff rfl] at ends
    rcases ends with ⟨second, third, fourth, rfl, isSecond, isThird, isFourth, rfl⟩
    simp only [Pending.Allows, apply_ite UInt8.toNat, UInt8.reduceToNat] at isSecond
    simp only [Nat.isValidChar, Pending.codeWith]
    grind
  · cases isOpening

/-! ## Decoding -/

section

variable {position code : Nat} {pending : Pending} {here rest bytes : List UInt8}
  {letters : List Char}

theorem allows_toNat_iff {byte : UInt8} :
    pending.Allows byte.toNat ↔ pending.low ≤ byte ∧ byte ≤ pending.high := by
  rw [UInt8.le_iff_toNat_le, UInt8.le_iff_toNat_le]
  rfl

theorem decodeFrom_of_ends (ends : pending.Ends (here.map UInt8.toNat) code) :
    decodeFrom position (some pending) (here ++ rest) =
      (decodeFrom (position + here.length) none rest).map (Char.ofNat code :: ·) := by
  induction here generalizing position pending with
  | nil => cases ends
  | cons byte here inductionHypothesis =>
      rw [List.map_cons] at ends
      rw [List.cons_append, decodeFrom]
      by_cases isLast : pending.due ≤ 1
      · rcases (Pending.ends_last_iff isLast).mp ends with ⟨unit, isUnit, allows, rfl⟩
        rcases List.cons.inj isUnit with ⟨rfl, isNil⟩
        rw [if_pos (allows_toNat_iff.mp allows), if_pos isLast, List.map_eq_nil_iff.mp isNil]
        rfl
      · rcases (Pending.ends_more_iff isLast).mp ends with ⟨unit, units, areUnits, allows, ends⟩
        rcases List.cons.inj areUnits with ⟨rfl, rfl⟩
        rw [if_pos (allows_toNat_iff.mp allows), if_neg isLast, List.length_cons,
          Nat.add_comm here.length, ← Nat.add_assoc]
        exact inductionHypothesis ends

theorem exists_ends_of_decodeFrom
    (isText : decodeFrom position (some pending) bytes = .ok letters) :
    ∃ here rest code, bytes = here ++ rest ∧ pending.Ends (here.map UInt8.toNat) code := by
  induction bytes generalizing position pending letters with
  | nil =>
      rw [decodeFrom] at isText
      cases isText
  | cons byte bytes inductionHypothesis =>
      rw [decodeFrom] at isText
      split at isText
      next allows =>
        rw [← allows_toNat_iff] at allows
        by_cases isLast : pending.due ≤ 1
        · exact ⟨[byte], bytes, _, rfl, Pending.Ends.last isLast allows⟩
        · rw [if_neg isLast] at isText
          rcases inductionHypothesis isText with ⟨here, rest, code, rfl, ends⟩
          exact ⟨byte :: here, rest, code, rfl, Pending.Ends.more isLast allows ends⟩
      next => cases isText

theorem not_isAscii_iff {byte : UInt8} : ¬byte < 0x80 ↔ 0x80 ≤ byte.toNat := by
  rw [UInt8.lt_iff_toNat_lt]
  exact Nat.not_lt

theorem cons_eq_utf8EncodeChar_iff {byte : UInt8} {c : Char} (isAscii : byte < 0x80) :
    byte :: bytes = String.utf8EncodeChar c ↔ bytes = [] ∧ c = Char.ofNat byte.toNat := by
  have isAscii : byte.toNat < 0x80 := UInt8.lt_iff_toNat_lt.mp isAscii
  have isValid : byte.toNat.isValidChar := Or.inl (by omega)
  have onlyOne : byte.toNat :: bytes.map UInt8.toNat = units c.toNat ↔
      c.toNat ≤ 0x7f ∧ byte.toNat = c.toNat ∧ bytes.map UInt8.toNat = [] := by
    rw [cons_eq_units_iff]
    grind
  rw [eq_utf8EncodeChar_iff, List.map_cons, onlyOne, List.map_eq_nil_iff, ← Char.toNat_inj,
    toNat_ofNat_of_isValidChar isValid]
  grind

theorem decodeFrom_utf8EncodeChar (position : Nat) (c : Char) (rest : List UInt8) :
    decodeFrom position none (String.utf8EncodeChar c ++ rest) =
      (decodeFrom (position + (String.utf8EncodeChar c).length) none rest).map (c :: ·) := by
  generalize isEncoding : String.utf8EncodeChar c = bytes
  cases bytes with
  | nil => exact absurd isEncoding String.utf8EncodeChar_ne_nil
  | cons byte bytes =>
      rw [List.cons_append, decodeFrom]
      by_cases isAscii : byte < 0x80
      · rcases (cons_eq_utf8EncodeChar_iff isAscii).mp isEncoding.symm with ⟨rfl, rfl⟩
        rw [if_pos isAscii]
        rfl
      · rw [if_neg isAscii]
        have notAscii : 0x80 ≤ byte.toNat := not_isAscii_iff.mp isAscii
        rcases (exists_opening_iff notAscii).mpr isEncoding.symm with ⟨pending, isOpening, ends⟩
        simp only [isOpening]
        rw [decodeFrom_of_ends ends, List.length_cons, Nat.add_comm bytes.length, ← Nat.add_assoc,
          Char.ofNat_toNat]

theorem exists_char_of_decodeFrom {byte : UInt8}
    (isText : decodeFrom position none (byte :: bytes) = .ok letters) :
    ∃ c rest, byte :: bytes = String.utf8EncodeChar c ++ rest := by
  rw [decodeFrom] at isText
  by_cases isAscii : byte < 0x80
  · have isEncoding : [byte] = String.utf8EncodeChar (Char.ofNat byte.toNat) :=
      (cons_eq_utf8EncodeChar_iff isAscii).mpr ⟨rfl, rfl⟩
    exact ⟨_, bytes, congrArg (· ++ bytes) isEncoding⟩
  · have notAscii : 0x80 ≤ byte.toNat := not_isAscii_iff.mp isAscii
    rw [if_neg isAscii] at isText
    split at isText
    · cases isText
    next pending isOpening =>
      rcases exists_ends_of_decodeFrom isText with ⟨here, rest, code, rfl, ends⟩
      have isCode : (Char.ofNat code).toNat = code :=
        toNat_ofNat_of_isValidChar (isValidChar_of_ends isOpening ends)
      rw [← isCode] at ends
      have isEncoding := (exists_opening_iff notAscii).mp ⟨pending, isOpening, ends⟩
      exact ⟨_, rest, congrArg (· ++ rest) isEncoding⟩

/-- Bytes can be decoded if they encode a text, which is the result. -/
theorem decodeFrom_eq_ok_iff :
    decodeFrom position none bytes = .ok letters ↔ bytes = encode letters := by
  constructor
  · intro isText
    -- A character takes a varying number of bytes, so the induction is on the text.
    induction letters generalizing position bytes with
    | nil =>
        cases bytes with
        | nil => rfl
        | cons byte bytes =>
            rcases exists_char_of_decodeFrom isText with ⟨c, rest, areBytes⟩
            rw [areBytes, decodeFrom_utf8EncodeChar] at isText
            rcases Sequence.map_eq_ok_iff.mp isText with ⟨others, _, isCons⟩
            cases isCons
    | cons c letters inductionHypothesis =>
        cases bytes with
        | nil => cases isText
        | cons byte bytes =>
            rcases exists_char_of_decodeFrom isText with ⟨first, rest, areBytes⟩
            rw [areBytes, decodeFrom_utf8EncodeChar] at isText
            rcases Sequence.map_eq_ok_iff.mp isText with ⟨others, isRest, isCons⟩
            cases isCons
            rw [areBytes, inductionHypothesis isRest]
            rfl
  · rintro rfl
    induction letters generalizing position with
    | nil => rfl
    | cons c letters inductionHypothesis =>
        rw [encode, List.flatMap_cons, decodeFrom_utf8EncodeChar]
        rw [encode] at inductionHypothesis
        rw [inductionHypothesis]
        rfl

theorem decode_eq_ok_iff : decode bytes = .ok letters ↔ bytes = encode letters :=
  decodeFrom_eq_ok_iff

/-- The text without one byte order mark at its start. -/
def withoutMark : List Char → List Char
  | '\uFEFF' :: text => text
  | text => text

/-- The bytes of a byte order mark are those of a character. -/
theorem dropMark_encode (text : List Char) :
    dropMark (encode text) = encode (withoutMark text) := by
  unfold dropMark
  split
  next rest areBytes =>
    have isText : decode (encode text) = .ok text := decode_eq_ok_iff.mpr rfl
    rw [areBytes, decode,
      show 0xef :: 0xbb :: 0xbf :: rest = String.utf8EncodeChar '\uFEFF' ++ rest from rfl,
      decodeFrom_utf8EncodeChar] at isText
    rcases Sequence.map_eq_ok_iff.mp isText with ⟨others, isRest, rfl⟩
    exact decodeFrom_eq_ok_iff.mp isRest
  next noMark =>
    unfold withoutMark
    split
    next others => exact absurd rfl (noMark (encode others))
    next => rfl

/-- A byte order mark does not decide whether bytes are an encoded text. -/
theorem exists_decode_dropMark_iff :
    (∃ letters, decode (dropMark bytes) = .ok letters) ↔ ∃ text, bytes = encode text := by
  constructor
  · rintro ⟨letters, isDecoded⟩
    have isEncoded := decode_eq_ok_iff.mp isDecoded
    unfold dropMark at isEncoded
    split at isEncoded
    next rest => exact ⟨'\uFEFF' :: letters, by rw [isEncoded]; rfl⟩
    next => exact ⟨letters, isEncoded⟩
  · rintro ⟨text, rfl⟩
    exact ⟨withoutMark text, decode_eq_ok_iff.mpr (dropMark_encode text)⟩

end

end DeclIndex.Text.Utf8
