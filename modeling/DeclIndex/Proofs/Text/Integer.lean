import DeclIndex.Text.Integer
import DeclIndex.Proofs.Json.Reading
import DeclIndex.Proofs.Text.Trimmed
import DeclIndex.Proofs.Text.Words

/-!
# Written integers are read back

A natural number is written by its decimal digits. An argument with these digits spells the number,
unless there are too many of them (`Text.integer?_toString`). The numbers that can be written are
those below a power of ten (`Text.Integer.isWritable_iff`).
-/

namespace DeclIndex.Text

variable {c : Char} {letters : List Char} {number : Nat}

/-! ## Digits -/

theorem toNat_of_isDigit (isDigit : c.isDigit = true) : 48 ≤ c.toNat ∧ c.toNat ≤ 57 := by
  rw [Char.isDigit, Bool.and_eq_true, decide_eq_true_eq, decide_eq_true_eq] at isDigit
  exact isDigit

theorem digit?_of_isDigit (isDigit : c.isDigit = true) :
    digit? c = some (c.toNat - '0'.toNat) := by
  have isAscii : (0x30 ≤ c.toNat && c.toNat < 0x30 + 10) = true := by
    have bounds := toNat_of_isDigit isDigit
    rw [Bool.and_eq_true, decide_eq_true_eq, decide_eq_true_eq]
    omega
  have isFound : zeros.find? (fun least => least ≤ c.toNat && c.toNat < least + 10) = some 0x30 :=
    List.find?_cons_of_pos isAscii
  rw [digit?, isFound]
  rfl

theorem isSpace_of_isDigit (isDigit : c.isDigit = true) : isSpace c = false := by
  have apart : Ranges.Apart [(48, 57)] blankRanges := by decide
  have isContained : Ranges.contains [(48, 57)] c = true := by
    have bounds := toNat_of_isDigit isDigit
    rw [Ranges.contains, if_neg (by omega), if_pos bounds.2]
  rw [isSpace, isBlank, Ranges.contains_eq_false_of_apart apart isContained]
  rfl

theorem isWord_of_isDigit (isDigit : c.isDigit = true) : isWord c = true := by
  have bounds := toNat_of_isDigit isDigit
  rw [isWord, wordRanges, Ranges.contains, if_neg (by omega), if_pos bounds.2]

theorem isDigit_of_mem_toDigits (isIn : c ∈ Nat.toDigits 10 number) : c.isDigit = true :=
  Nat.isDigit_of_mem_toDigits (by decide) (by decide) isIn

namespace Integer

theorem moreDigits?_of_isDigit (areDigits : ∀ c ∈ letters, c.isDigit = true) :
    moreDigits? letters = some (letters.map fun c => c.toNat - '0'.toNat) := by
  induction letters with
  | nil => rfl
  | cons c letters inductionHypothesis =>
      rw [List.forall_mem_cons] at areDigits
      rw [moreDigits?]
      · simp only [digit?_of_isDigit areDigits.1, inductionHypothesis areDigits.2]
        rfl
      · rintro other others rfl
        cases areDigits.1

theorem magnitude?_toDigits (isShort : (Nat.toDigits 10 number).length ≤ maxDigits) :
    magnitude? (Nat.toDigits 10 number) = some number := by
  have areDigits : ∀ c ∈ Nat.toDigits 10 number, c.isDigit = true :=
    fun c => isDigit_of_mem_toDigits
  have isRead : digits? (Nat.toDigits 10 number) =
      some ((Nat.toDigits 10 number).map fun c => c.toNat - '0'.toNat) := by
    rcases Json.exists_toDigits number with ⟨c, others, isSplit, isDigit⟩
    rw [isSplit] at areDigits ⊢
    rw [List.forall_mem_cons] at areDigits
    simp only [digits?, digit?_of_isDigit areDigits.1, moreDigits?_of_isDigit areDigits.2]
    rfl
  have isValue : (Nat.toDigits 10 number).foldl (fun n c => 10 * n + (c.toNat - '0'.toNat)) 0 =
      number := Nat.ofDigitChars_ten_toDigits
  have isAllowed : (guard (((Nat.toDigits 10 number).map fun c => c.toNat - '0'.toNat).length ≤
      maxDigits) : Option Unit) = some () := by
    rw [List.length_map]
    exact if_pos isShort
  rw [magnitude?, isRead, Option.bind_eq_bind, Option.bind_some, isAllowed, Option.bind_eq_bind,
    Option.bind_some, List.foldl_map, isValue]
  rfl

end Integer

/-! ## Arguments -/

theorem toList_toString (number : Nat) : (toString number).toList = Nat.toDigits 10 number :=
  String.toList_ofList

theorem isWord_of_mem_toString_natCast (isIn : c ∈ (toString (number : Int)).toList) :
    isWord c = true := by
  have areDigits : (toString (number : Int)).toList = Nat.toDigits 10 number := String.toList_ofList
  rw [areDigits] at isIn
  exact isWord_of_isDigit (isDigit_of_mem_toDigits isIn)

theorem isWord_of_mem_toString {value : Int} (isIn : c ∈ (toString value).toList) :
    c = '-' ∨ isWord c = true := by
  rcases Json.toList_toString value with ⟨number, _, areDigits⟩ | ⟨number, _, areDigits⟩
  · rw [areDigits] at isIn
    exact Or.inr (isWord_of_isDigit (isDigit_of_mem_toDigits isIn))
  · rw [areDigits, List.mem_cons] at isIn
    exact isIn.imp_right fun isDigit => isWord_of_isDigit (isDigit_of_mem_toDigits isDigit)

/-- A number is read back from its digits if there are not too many of them. -/
theorem integer?_toString (isShort : (toString number).length ≤ Integer.maxDigits) :
    integer? (toString number) = some (number : Int) := by
  have areDigits : ∀ c ∈ Nat.toDigits 10 number, c.isDigit = true :=
    fun c => isDigit_of_mem_toDigits
  have isTrimmed : trim isSpace (Nat.toDigits 10 number) = Nat.toDigits 10 number := by
    apply trim_eq_self
    · intro c isFirst
      exact isSpace_of_isDigit (areDigits c (List.mem_of_mem_head? isFirst))
    · intro c isLast
      exact isSpace_of_isDigit (areDigits c (List.mem_of_mem_getLast? isLast))
  rw [← String.length_toList, toList_toString] at isShort
  rw [integer?, toList_toString, isTrimmed]
  split
  next rest isSigned =>
    have isDigit : '-'.isDigit = true := areDigits '-' (by simp [isSigned])
    cases isDigit
  next rest isSigned =>
    have isDigit : '+'.isDigit = true := areDigits '+' (by simp [isSigned])
    cases isDigit
  next =>
    rw [Integer.magnitude?_toDigits isShort]
    rfl

/-! ## Numbers that can be written -/

variable {value : Int}

theorem length_toDigits_le_iff {digits : Nat} (isPositive : 0 < digits) :
    (Nat.toDigits 10 number).length ≤ digits ↔ number < Nat.pow 10 digits :=
  Nat.length_toDigits_le_iff (by decide) isPositive

theorem Integer.isWritable_iff :
    isWritable value = true ↔ value.natAbs < Nat.pow 10 maxDigits := by
  rw [isWritable, decide_eq_true_eq]
  exact length_toDigits_le_iff (by decide)

theorem decimal?_of_isWritable (isWritable : Integer.isWritable value = true) :
    decimal? value = some (toString value) :=
  if_pos isWritable

theorem decimal?_of_not_isWritable (notWritable : Integer.isWritable value = false) :
    decimal? value = none := by
  rw [decimal?, notWritable]
  rfl

end DeclIndex.Text
