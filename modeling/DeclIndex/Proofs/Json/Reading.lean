import DeclIndex.Proofs.Json.Reader

/-!
# Written values are read back

Whatever is written is read back (`Json.read?_spelling`). A written value is followed by its end, by
a comma or by white space, so it is never taken to go on, and each part of it is shorter than the
whole, which bounds the depth of the reading.
-/

namespace DeclIndex.Json

/-! ## Strings are read back -/

/-- The four digits of a UTF-16 unit. -/
theorem hex_four {code : Nat} (isUnit : code < 0x10000) :
    Text.hex 4 code = [Nat.digitChar (code / 0x1000), Nat.digitChar (code / 0x100 % 0x10),
      Nat.digitChar (code / 0x10 % 0x10), Nat.digitChar (code % 0x10)] := by
  have digits (number : Nat) (notShort : 0x10 ≤ number) :
      Nat.toDigits 16 number = Nat.toDigits 16 (number / 16) ++ [Nat.digitChar (number % 16)] :=
    Nat.toDigits_of_base_le (by decide) notShort
  have digit (number : Nat) (isShort : number < 0x10) :
      Nat.toDigits 16 number = [Nat.digitChar number] :=
    Nat.toDigits_of_lt_base isShort
  have noDigit : Nat.digitChar 0 = '0' := rfl
  unfold Text.hex
  by_cases isOne : code < 0x10
  · rw [digit code isOne, show code / 0x1000 = 0 by omega, show code / 0x100 % 0x10 = 0 by omega,
      show code / 0x10 % 0x10 = 0 by omega, Nat.mod_eq_of_lt isOne, noDigit]
    rfl
  by_cases isTwo : code < 0x100
  · rw [digits code (by omega), digit (code / 16) (by omega), show code / 0x1000 = 0 by omega,
      show code / 0x100 % 0x10 = 0 by omega, Nat.mod_eq_of_lt (show code / 0x10 < 0x10 by omega),
      noDigit]
    rfl
  by_cases isThree : code < 0x1000
  · rw [digits code (by omega), digits (code / 16) (by omega), digit (code / 16 / 16) (by omega),
      show code / 0x1000 = 0 by omega, show code / 16 / 16 = code / 0x100 by omega,
      Nat.mod_eq_of_lt (show code / 0x100 < 0x10 by omega), noDigit]
    rfl
  · rw [digits code (by omega), digits (code / 16) (by omega), digits (code / 16 / 16) (by omega),
      digit (code / 16 / 16 / 16) (by omega), show code / 16 / 16 / 16 = code / 0x1000 by omega,
      show code / 16 / 16 = code / 0x100 by omega]
    rfl

theorem hexDigit?_digitChar {digit : Nat} (isDigit : digit < 0x10) :
    hexDigit? (Nat.digitChar digit) = some digit := by
  decide +revert

theorem readUnit?_unit {code : Nat} (isUnit : code < 0x10000) (rest : List Char) :
    readUnit? (unit code ++ rest) = some (code, rest) := by
  rw [unit, hex_four isUnit]
  simp only [List.cons_append, List.nil_append, readUnit?,
    hexDigit?_digitChar (show code / 0x1000 < 0x10 by omega),
    hexDigit?_digitChar (Nat.mod_lt _ (show 0 < 0x10 by decide)), bind, Option.bind, pure]
  congr 2
  omega

theorem readSpelled?_unit {code : Nat} (isUnit : code < 0x10000)
    (notSurrogate : code < 0xd800 ∨ 0xdfff < code) (rest : List Char) :
    readSpelled? (unit code ++ rest) = some (Char.ofNat code, rest) := by
  simp only [readSpelled?, readUnit?_unit isUnit, bind, Option.bind, if_pos notSurrogate, pure]

theorem readSpelled?_units {high low : Nat} (isHigh : 0xd800 ≤ high ∧ high < 0xdc00)
    (isLow : 0xdc00 ≤ low ∧ low ≤ 0xdfff) (rest : List Char) :
    readSpelled? (unit high ++ (unit low ++ rest)) =
      some (Char.ofNat (0x10000 + (high - 0xd800) * 0x400 + (low - 0xdc00)), rest) := by
  have notPlain : ¬(high < 0xd800 ∨ 0xdfff < high) := by omega
  simp only [readSpelled?, readUnit?_unit (show high < 0x10000 by omega),
    readUnit?_unit (show low < 0x10000 by omega), bind, Option.bind, pure, if_neg notPlain,
    if_neg (Nat.not_le.mpr isHigh.2), if_pos isLow]

/-- An escape by units is not taken for a short one. -/
theorem readCharacter?_unit (code : Nat) (rest : List Char) :
    readCharacter? (unit code ++ rest) = readSpelled? (unit code ++ rest) := by
  rfl

/-- The ways to write a character. -/
inductive Spells (c : Char) : List Char → Prop where
  | short {letter : Char} (isShort : shortForm? letter = some c) : Spells c ['\\', letter]
  | plain (isVisible : 0x20 ≤ c.toNat ∧ c.toNat < 0x7f) (notQuote : c ≠ '"')
      (notBackslash : c ≠ '\\') : Spells c [c]
  | unit (isUnit : c.toNat < 0x10000) : Spells c (unit c.toNat)
  | units {high low : Nat} (isHigh : 0xd800 ≤ high ∧ high < 0xdc00)
      (isLow : 0xdc00 ≤ low ∧ low ≤ 0xdfff)
      (isCode : c.toNat = 0x10000 + (high - 0xd800) * 0x400 + (low - 0xdc00)) :
      Spells c (Json.unit high ++ Json.unit low)

theorem spells_escape (c : Char) : Spells c (escape c) := by
  have isCode : c.toNat < 0xd800 ∨ 0xdfff < c.toNat ∧ c.toNat < 0x110000 := c.valid
  unfold escape
  split
  next isMark =>
    rcases (Bool.or_eq_true _ _).mp isMark with isQuote | isBackslash
    · rw [of_decide_eq_true isQuote]
      exact Spells.short rfl
    · rw [of_decide_eq_true isBackslash]
      exact Spells.short rfl
  next notMark =>
    have notQuote : c ≠ '"' := by
      rintro rfl
      exact notMark rfl
    have notBackslash : c ≠ '\\' := by
      rintro rfl
      exact notMark rfl
    split
    next isFeed => exact Spells.short (isFeed ▸ rfl)
    split
    next isReturn => exact Spells.short (isReturn ▸ rfl)
    split
    next isTab => exact Spells.short (isTab ▸ rfl)
    split
    next isBackspace => exact Spells.short (isBackspace ▸ rfl)
    split
    next isFormFeed => exact Spells.short (isFormFeed ▸ rfl)
    split
    next isVisible => exact Spells.plain isVisible notQuote notBackslash
    split
    next isUnit => exact Spells.unit isUnit
    next notUnit => exact Spells.units (by omega) (by omega) (by omega)

theorem readCharacter?_escape (c : Char) (rest : List Char) :
    readCharacter? (escape c ++ rest) = some (c, rest) := by
  have isCode : c.toNat < 0xd800 ∨ 0xdfff < c.toNat := by
    have isValid : c.toNat < 0xd800 ∨ 0xdfff < c.toNat ∧ c.toNat < 0x110000 := c.valid
    omega
  have spells := spells_escape c
  generalize escape c = written at spells
  cases spells with
  | short isShort =>
      simp only [List.cons_append, List.nil_append, readCharacter?, List.head?_cons,
        Option.bind_some, isShort, List.tail_cons]
  | plain isVisible _ notBackslash =>
      rw [List.singleton_append, readCharacter?]
      · rw [if_neg (Nat.not_lt.mpr isVisible.1)]
      · exact notBackslash
  | unit isUnit =>
      rw [readCharacter?_unit, readSpelled?_unit isUnit isCode, Char.ofNat_toNat]
  | units isHigh isLow isCode =>
      rw [List.append_assoc, readCharacter?_unit, readSpelled?_units isHigh isLow, ← isCode,
        Char.ofNat_toNat]

theorem exists_escape (c : Char) : ∃ first others, escape c = first :: others ∧ first ≠ '"' := by
  have spells := spells_escape c
  generalize escape c = written at spells
  cases spells with
  | short _ => exact ⟨_, _, rfl, by decide⟩
  | plain _ notQuote _ => exact ⟨_, _, rfl, notQuote⟩
  | unit _ => exact ⟨_, _, rfl, by decide⟩
  | units _ _ _ => exact ⟨_, _, rfl, by decide⟩

theorem length_le_flatMap_escape (letters : List Char) :
    letters.length ≤ (letters.flatMap escape).length := by
  induction letters with
  | nil => exact Nat.le_refl 0
  | cons c letters inductionHypothesis =>
      rcases exists_escape c with ⟨first, others, isEscape, _⟩
      rw [List.flatMap_cons, List.length_append, isEscape, List.length_cons, List.length_cons]
      omega

theorem readCharacters?_escape {letters : List Char} {fuel : Nat} (isEnough : letters.length < fuel)
    (rest : List Char) :
    readCharacters? fuel (letters.flatMap escape ++ '"' :: rest) = some (letters, rest) := by
  induction letters generalizing fuel with
  | nil =>
      cases fuel with
      | zero => cases isEnough
      | succ fuel => rfl
  | cons c letters inductionHypothesis =>
      cases fuel with
      | zero => cases isEnough
      | succ fuel =>
          have isRead := inductionHypothesis (Nat.lt_of_succ_lt_succ isEnough)
          rw [List.flatMap_cons, List.append_assoc, readCharacters?]
          · simp only [readCharacter?_escape, isRead, bind, Option.bind, pure]
          · intro others isSame
            rcases exists_escape c with ⟨first, more, isEscape, notQuote⟩
            rw [isEscape] at isSame
            exact notQuote (List.head_eq_of_cons_eq isSame)

theorem readText?_escape (value : String) (rest : List Char) :
    readText? (value.toList.flatMap escape ++ '"' :: rest) = some (value, rest) := by
  have isEnough : value.toList.length < (value.toList.flatMap escape ++ '"' :: rest).length := by
    have isLess := length_le_flatMap_escape value.toList
    rw [List.length_append, List.length_cons]
    omega
  simp only [readText?, readCharacters?_escape isEnough, bind, Option.bind, pure,
    String.ofList_toList]

/-! ## Numbers are read back -/

/-- No number goes on here. -/
def EndsNumber (rest : List Char) : Prop :=
  ∀ c, rest.head? = some c → c.isDigit = false ∧ isFraction c = false

theorem endsNumber_nil : EndsNumber [] := by
  intro c isHead
  cases isHead

theorem endsNumber_newline (level : Nat) (rest : List Char) :
    EndsNumber (newline level ++ rest) := by
  intro c isHead
  cases isHead
  exact ⟨rfl, rfl⟩

theorem endsNumber_comma (rest : List Char) : EndsNumber (',' :: rest) := by
  intro c isHead
  cases isHead
  exact ⟨rfl, rfl⟩

theorem digitChar_ne_zero {digit : Nat} (isPositive : 0 < digit) (isDigit : digit < 10) :
    Nat.digitChar digit ≠ '0' := by
  have allDigits : ∀ digit < 10, 0 < digit → Nat.digitChar digit ≠ '0' := by
    decide
  exact allDigits digit isDigit isPositive

/-- A positive number is written without a needless zero. -/
theorem head?_toDigits_ne_zero {number : Nat} (isPositive : 0 < number) :
    (Nat.toDigits 10 number).head? ≠ some '0' := by
  induction number using Nat.strongRecOn with
  | ind number inductionHypothesis =>
      by_cases isShort : number < 10
      · rw [Nat.toDigits_of_lt_base isShort]
        intro isZero
        exact digitChar_ne_zero isPositive isShort (Option.some.inj isZero)
      · have isFirst : (Nat.toDigits 10 (number / 10) ++ [(number % 10).digitChar]).head? =
            (Nat.toDigits 10 (number / 10)).head? := by
          rw [List.head?_append, Option.or_of_isSome]
          exact List.isSome_head?.mpr Nat.toDigits_ne_nil
        rw [Nat.toDigits_of_base_le (by decide) (Nat.not_lt.mp isShort), isFirst]
        exact inductionHypothesis (number / 10) (by omega) (by omega)

theorem readNatural?_toDigits (number : Nat) {rest : List Char} (ends : EndsNumber rest) :
    readNatural? (Nat.toDigits 10 number ++ rest) = some (number, rest) := by
  have areDigits : ∀ c ∈ Nat.toDigits 10 number, c.isDigit = true := by
    intro c isDigit
    exact Nat.isDigit_of_mem_toDigits (by decide) (by decide) isDigit
  have isSplit : rest.takeWhile Char.isDigit = [] ∧ rest.dropWhile Char.isDigit = rest := by
    cases rest with
    | nil => exact ⟨rfl, rfl⟩
    | cons c rest =>
        have notDigit := (ends c rfl).1
        simp [notDigit]
  have notNeedless : ¬((Nat.toDigits 10 number).head? = some '0' ∧
      (Nat.toDigits 10 number).tail ≠ []) := by
    rintro ⟨isZero, someMore⟩
    by_cases isPositive : 0 < number
    · exact head?_toDigits_ne_zero isPositive isZero
    · rw [Nat.eq_zero_of_not_pos isPositive] at someMore
      exact someMore rfl
  have notFraction : rest.head?.any isFraction = false := by
    cases rest with
    | nil => rfl
    | cons c rest => exact (ends c rfl).2
  unfold readNatural?
  rw [List.takeWhile_append_of_pos areDigits, List.dropWhile_append_of_pos areDigits, isSplit.1,
    isSplit.2, List.append_nil]
  simp only [Nat.toDigits_ne_nil, notNeedless, notFraction, Bool.false_eq_true, or_self, if_false,
    Nat.ofDigitChars_ten_toDigits]

/-- Numbers are written by their digits, after a sign if they are negative. -/
theorem toList_toString (value : Int) :
    (∃ number : Nat, value = Int.ofNat number ∧
        (toString value).toList = Nat.toDigits 10 number) ∨
      ∃ number : Nat, value = -Int.ofNat number ∧
        (toString value).toList = '-' :: Nat.toDigits 10 number := by
  cases value with
  | ofNat number => exact Or.inl ⟨number, rfl, String.toList_ofList⟩
  | negSucc number =>
      refine Or.inr ⟨number + 1, rfl, ?_⟩
      have isText : toString (Int.negSucc number) =
          "-" ++ String.ofList (Nat.toDigits 10 (number + 1)) := rfl
      have isDigits : (String.ofList (Nat.toDigits 10 (number + 1))).toList =
          Nat.toDigits 10 (number + 1) := String.toList_ofList
      rw [isText, String.toList_append, isDigits]
      rfl

theorem exists_toDigits (number : Nat) :
    ∃ c others, Nat.toDigits 10 number = c :: others ∧ c.isDigit = true := by
  cases isDigits : Nat.toDigits 10 number with
  | nil => exact absurd isDigits Nat.toDigits_ne_nil
  | cons c others =>
      have isFirst : c ∈ Nat.toDigits 10 number := by
        rw [isDigits]
        exact List.mem_cons_self
      exact ⟨c, others, rfl, Nat.isDigit_of_mem_toDigits (by decide) (by decide) isFirst⟩

theorem readInteger?_toString (value : Int) {rest : List Char} (ends : EndsNumber rest) :
    readInteger? ((toString value).toList ++ rest) = some (value, rest) := by
  rcases toList_toString value with ⟨number, rfl, isText⟩ | ⟨number, rfl, isText⟩
  · rw [isText, readInteger?]
    · simp only [readNatural?_toDigits number ends, bind, Option.bind, pure]
    · intro others isSame
      rcases exists_toDigits number with ⟨c, more, areDigits, isDigit⟩
      rw [areDigits] at isSame
      rw [List.head_eq_of_cons_eq isSame] at isDigit
      cases isDigit
  · rw [isText, List.cons_append, readInteger?]
    simp only [readNatural?_toDigits number ends, bind, Option.bind, pure]

/-! ## Values are read back -/

theorem skip_newline (level : Nat) (rest : List Char) :
    skip (newline level ++ rest) = skip rest := by
  have blanks : ∀ count, skip (List.replicate count ' ' ++ rest) = skip rest := by
    intro count
    induction count with
    | zero => rfl
    | succ count inductionHypothesis => exact inductionHypothesis
  exact blanks (2 * level)

theorem readValue?_of_skip {first second : List Char} (same : skip first = skip second)
    (fuel : Nat) : readValue? fuel first = readValue? fuel second := by
  cases fuel with
  | zero => rfl
  | succ fuel => rw [readValue?, readValue?, same]

theorem readValue?_newline (fuel level : Nat) (rest : List Char) :
    readValue? fuel (newline level ++ rest) = readValue? fuel rest :=
  readValue?_of_skip (skip_newline level rest) fuel

theorem readMember?_newline (fuel level : Nat) (rest : List Char) :
    readMember? fuel (newline level ++ rest) = readMember? fuel rest := by
  cases fuel with
  | zero => rfl
  | succ fuel => rw [readMember?, readMember?, skip_newline]

theorem ne_of_isDigit {c other : Char} (isDigit : c.isDigit = true)
    (notDigit : other.isDigit = false) : c ≠ other := by
  rintro rfl
  rw [isDigit] at notDigit
  cases notDigit

theorem isSpace_of_isDigit {c : Char} (isDigit : c.isDigit = true) : isSpace c = false := by
  have notBlank : c ≠ ' ' := ne_of_isDigit isDigit rfl
  have notFeed : c ≠ '\n' := ne_of_isDigit isDigit rfl
  have notReturn : c ≠ '\r' := ne_of_isDigit isDigit rfl
  have notTab : c ≠ '\t' := ne_of_isDigit isDigit rfl
  simp [isSpace, notBlank, notFeed, notReturn, notTab]

/-- A written value starts with a visible character, and not with what closes a list. -/
theorem exists_write (level : Nat) (value : Json) :
    ∃ c others, write level value = c :: others ∧ isSpace c = false ∧ c ≠ ']' := by
  match value with
  | text value => exact ⟨'"', _, rfl, rfl, by decide⟩
  | integer value =>
      rcases toList_toString value with ⟨number, _, isText⟩ | ⟨number, _, isText⟩
      · rcases exists_toDigits number with ⟨c, others, areDigits, isDigit⟩
        exact ⟨c, others, isText.trans areDigits, isSpace_of_isDigit isDigit,
          ne_of_isDigit isDigit rfl⟩
      · exact ⟨'-', _, isText, rfl, by decide⟩
  | list [] => exact ⟨'[', _, rfl, rfl, by decide⟩
  | list (item :: items) => exact ⟨'[', _, rfl, rfl, by decide⟩
  | object [] => exact ⟨'\x7b', _, rfl, rfl, by decide⟩
  | object (member :: members) => exact ⟨'\x7b', _, rfl, rfl, by decide⟩

theorem skip_write (level : Nat) (value : Json) (rest : List Char) :
    skip (write level value ++ rest) = write level value ++ rest := by
  rcases exists_write level value with ⟨c, others, isWritten, isVisible, _⟩
  rw [isWritten, List.cons_append, skip, List.dropWhile_cons_of_neg (by simp [isVisible])]

theorem endsNumber_writeItems (level : Nat) (items : List Json) (rest : List Char) :
    EndsNumber (writeItems level items ++ rest) := by
  cases items with
  | nil =>
      rw [writeItems, List.append_assoc]
      exact endsNumber_newline level _
  | cons item items => exact endsNumber_comma _

theorem endsNumber_writeMembers (level : Nat) (members : List (String × Json)) (rest : List Char) :
    EndsNumber (writeMembers level members ++ rest) := by
  cases members with
  | nil =>
      rw [writeMembers, List.append_assoc]
      exact endsNumber_newline level _
  | cons member members => exact endsNumber_comma _

theorem readValue?_text (value : String) {fuel : Nat} (level : Nat) (rest : List Char) :
    readValue? (fuel + 1) (write level (.text value) ++ rest) = some (.text value, rest) := by
  have isText : write level (.text value) ++ rest =
      '"' :: (value.toList.flatMap escape ++ '"' :: rest) := by
    simp [write, writeText]
  rw [readValue?, skip_write, isText]
  simp only [readText?_escape, bind, Option.bind, pure]

theorem readValue?_integer (value : Int) {fuel : Nat} (level : Nat) {rest : List Char}
    (ends : EndsNumber rest) :
    readValue? (fuel + 1) (write level (.integer value) ++ rest) = some (.integer value, rest) := by
  have isRead := readInteger?_toString value ends
  have isNumber : ∀ c others, write level (.integer value) ++ rest = c :: others →
      c = '-' ∨ c.isDigit = true := by
    intro c others isSame
    rcases toList_toString value with ⟨number, _, isText⟩ | ⟨number, _, isText⟩
    · rcases exists_toDigits number with ⟨first, more, areDigits, isDigit⟩
      rw [write, isText, areDigits] at isSame
      rw [← List.head_eq_of_cons_eq isSame]
      exact Or.inr isDigit
    · rw [write, isText] at isSame
      exact Or.inl (List.head_eq_of_cons_eq isSame).symm
  rw [readValue?, skip_write]
  split
  next others isSame => rcases isNumber _ _ isSame with isMinus | isDigit <;> contradiction
  next others isSame => rcases isNumber _ _ isSame with isMinus | isDigit <;> contradiction
  next others isSame => rcases isNumber _ _ isSame with isMinus | isDigit <;> contradiction
  next =>
    rw [write, isRead]
    rfl

mutual

/-- Whatever is written is read back, as long as the text after it does not carry a number on. -/
theorem readValue?_write (value : Json) (level : Nat) {fuel : Nat} {rest : List Char}
    (isEnough : (write level value).length ≤ fuel) (ends : EndsNumber rest) :
    readValue? fuel (write level value ++ rest) = some (value, rest) := by
  match fuel, value with
  | 0, value =>
      rcases exists_write level value with ⟨c, others, isWritten, _⟩
      rw [isWritten] at isEnough
      cases isEnough
  | fuel + 1, text value => exact readValue?_text value level rest
  | fuel + 1, integer value => exact readValue?_integer value level ends
  | fuel + 1, list [] => rfl
  | fuel + 1, object [] => rfl
  | fuel + 1, list (item :: items) =>
      simp only [write, List.length_append, List.length_cons] at isEnough
      have isItem : readValue? fuel (write (level + 1) item ++ (writeItems level items ++ rest)) =
          some (item, writeItems level items ++ rest) :=
        readValue?_write item (level + 1) (by omega) (endsNumber_writeItems level items rest)
      have areItems : readItems? fuel (writeItems level items ++ rest) = some (items, rest) :=
        readItems?_write items level (by omega)
      rcases exists_write (level + 1) item with ⟨c, others, isWritten, _, notClosed⟩
      have notEmpty : (skip (newline (level + 1) ++
          (write (level + 1) item ++ (writeItems level items ++ rest)))).head? ≠ some ']' := by
        rw [skip_newline, skip_write, isWritten]
        exact fun isClosed => notClosed (Option.some.inj isClosed)
      rw [readValue?, skip_write, write]
      simp only [List.cons_append, List.append_assoc]
      rw [if_neg notEmpty, readValue?_newline, isItem]
      simp only [areItems, bind, Option.bind, pure]
  | fuel + 1, object (member :: members) =>
      simp only [write, List.length_append, List.length_cons] at isEnough
      have isMember : readMember? fuel
          (writeMember level member ++ (writeMembers level members ++ rest)) =
          some (member, writeMembers level members ++ rest) :=
        readMember?_write member level (by omega) (endsNumber_writeMembers level members rest)
      have areMembers : readMembers? fuel (writeMembers level members ++ rest) =
          some (members, rest) := readMembers?_write members level (by omega)
      rcases member with ⟨name, value⟩
      have notEmpty : (skip (newline (level + 1) ++ (writeMember level (name, value) ++
          (writeMembers level members ++ rest)))).head? ≠ some '\x7d' := by
        rw [skip_newline]
        exact fun isClosed => absurd (Option.some.inj isClosed) (by decide)
      rw [readValue?, skip_write, write]
      simp only [List.cons_append, List.append_assoc]
      rw [if_neg notEmpty, readMember?_newline, isMember]
      simp only [areMembers, bind, Option.bind, pure]

theorem readItems?_write (items : List Json) (level : Nat) {fuel : Nat} {rest : List Char}
    (isEnough : (writeItems level items).length ≤ fuel) :
    readItems? fuel (writeItems level items ++ rest) = some (items, rest) := by
  match fuel, items with
  | 0, [] => simp [writeItems] at isEnough
  | 0, item :: items => simp [writeItems] at isEnough
  | fuel + 1, [] =>
      rw [writeItems, List.append_assoc, readItems?, skip_newline]
      rfl
  | fuel + 1, item :: items =>
      simp only [writeItems, List.length_append, List.length_cons] at isEnough
      have isItem : readValue? fuel (write (level + 1) item ++ (writeItems level items ++ rest)) =
          some (item, writeItems level items ++ rest) :=
        readValue?_write item (level + 1) (by omega) (endsNumber_writeItems level items rest)
      have areItems : readItems? fuel (writeItems level items ++ rest) = some (items, rest) :=
        readItems?_write items level (by omega)
      have isComma (others : List Char) : skip (',' :: others) = ',' :: others := rfl
      rw [writeItems]
      simp only [List.cons_append, List.append_assoc]
      rw [readItems?, isComma]
      simp only [readValue?_newline, isItem, areItems, bind, Option.bind, pure]

theorem readMember?_write (member : String × Json) (level : Nat) {fuel : Nat} {rest : List Char}
    (isEnough : (writeMember level member).length ≤ fuel) (ends : EndsNumber rest) :
    readMember? fuel (writeMember level member ++ rest) = some (member, rest) := by
  match fuel, member with
  | 0, (name, value) => simp [writeMember, writeText] at isEnough
  | fuel + 1, (name, value) =>
      simp only [writeMember, writeText, List.length_append, List.length_cons] at isEnough
      have isBlank : skip (' ' :: (write (level + 1) value ++ rest)) =
          skip (write (level + 1) value ++ rest) := rfl
      have isValue : readValue? fuel (' ' :: (write (level + 1) value ++ rest)) =
          some (value, rest) := by
        rw [readValue?_of_skip isBlank]
        exact readValue?_write value (level + 1) (by omega) ends
      have isQuote (others : List Char) : skip ('"' :: others) = '"' :: others := rfl
      have isColon (others : List Char) : skip (':' :: others) = ':' :: others := rfl
      rw [writeMember, writeText]
      simp only [List.cons_append, List.append_assoc, List.nil_append]
      rw [readMember?, isQuote]
      simp only [readText?_escape, isColon, List.head?_cons, List.tail_cons, if_true, isValue, bind,
        Option.bind, pure]

theorem readMembers?_write (members : List (String × Json)) (level : Nat) {fuel : Nat}
    {rest : List Char} (isEnough : (writeMembers level members).length ≤ fuel) :
    readMembers? fuel (writeMembers level members ++ rest) = some (members, rest) := by
  match fuel, members with
  | 0, [] => simp [writeMembers] at isEnough
  | 0, member :: members => simp [writeMembers] at isEnough
  | fuel + 1, [] =>
      rw [writeMembers, List.append_assoc, readMembers?, skip_newline]
      rfl
  | fuel + 1, member :: members =>
      simp only [writeMembers, List.length_append, List.length_cons] at isEnough
      have isMember : readMember? fuel
          (writeMember level member ++ (writeMembers level members ++ rest)) =
          some (member, writeMembers level members ++ rest) :=
        readMember?_write member level (by omega) (endsNumber_writeMembers level members rest)
      have areMembers : readMembers? fuel (writeMembers level members ++ rest) =
          some (members, rest) := readMembers?_write members level (by omega)
      have isComma (others : List Char) : skip (',' :: others) = ',' :: others := rfl
      rw [writeMembers]
      simp only [List.cons_append, List.append_assoc]
      rw [readMembers?, isComma]
      simp only [readMember?_newline, isMember, areMembers, bind, Option.bind, pure]

end

/-- A spelled value is read back. -/
theorem read?_spelling (value : Json) : read? value.spelling = some value := by
  have isValue := readValue?_write value 0 (Nat.le_refl _) endsNumber_nil
  rw [List.append_nil] at isValue
  rw [read?, spelling, String.toList_ofList]
  simp only [isValue, bind, Option.bind, pure]
  rfl

end DeclIndex.Json
