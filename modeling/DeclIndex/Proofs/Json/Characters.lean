import DeclIndex.Proofs.Json.Reading
import DeclIndex.Proofs.Text.Integer
import Mathlib.Data.List.Basic

/-!
# The characters of written values

A value is written by visible ASCII characters and line feeds, whatever its texts hold
(`Json.visible_write`). A colon that is no part of a text stands before a blank
(`Json.colonBlank_write`).

Both are properties of the parts that a value is written by, and of all that is put together from
such parts (`Json.Closed`).
-/

namespace DeclIndex.Json

/-! ## The parts of a written value -/

mutual

/-- The texts in a value, and the names of members among them. -/
def texts : Json → List String
  | text value => [value]
  | integer _ => []
  | list items => textsOfItems items
  | object members => textsOfMembers members

/-- The texts in some items. -/
def textsOfItems : List Json → List String
  | [] => []
  | item :: items => texts item ++ textsOfItems items

/-- The names of some members, and the texts in their values. -/
def textsOfMembers : List (String × Json) → List String
  | [] => []
  | (name, value) :: members => name :: texts value ++ textsOfMembers members

end

theorem mem_textsOfItems_iff {items : List Json} {text : String} :
    text ∈ textsOfItems items ↔ ∃ item ∈ items, text ∈ texts item := by
  induction items with
  | nil => simp [textsOfItems]
  | cons item items inductionHypothesis => simp [textsOfItems, inductionHypothesis]

theorem mem_textsOfMembers_cons_iff {member : String × Json} {members : List (String × Json)}
    {text : String} : text ∈ textsOfMembers (member :: members) ↔
      text = member.1 ∨ text ∈ texts member.2 ∨ text ∈ textsOfMembers members := by
  rw [textsOfMembers, List.mem_append, List.mem_cons, or_assoc]

theorem mem_textsOfMembers_assign {name : String} {value : Json} {members : List (String × Json)}
    {text : String} (isText : text ∈ textsOfMembers (assign name value members)) :
    text = name ∨ text ∈ texts value ∨ text ∈ textsOfMembers members := by
  induction members with
  | nil => exact mem_textsOfMembers_cons_iff.mp isText
  | cons member members inductionHypothesis =>
      rw [mem_textsOfMembers_cons_iff]
      rw [assign] at isText
      split at isText
      · rcases mem_textsOfMembers_cons_iff.mp isText with isName | isValue | isLater
        · exact Or.inl isName
        · exact Or.inr (Or.inl isValue)
        · exact Or.inr (Or.inr (Or.inr (Or.inr isLater)))
      · rcases mem_textsOfMembers_cons_iff.mp isText with isName | isValue | isLater
        · exact Or.inr (Or.inr (Or.inl isName))
        · exact Or.inr (Or.inr (Or.inr (Or.inl isValue)))
        · rcases inductionHypothesis isLater with isName | isValue | isLater
          · exact Or.inl isName
          · exact Or.inr (Or.inl isValue)
          · exact Or.inr (Or.inr (Or.inr (Or.inr isLater)))

theorem mem_textsOfMembers_foldl_assign {members object : List (String × Json)} {text : String}
    (isText : text ∈ textsOfMembers
      (members.foldl (fun object member => assign member.1 member.2 object) object)) :
    text ∈ textsOfMembers object ∨ text ∈ textsOfMembers members := by
  induction members generalizing object with
  | nil => exact Or.inl isText
  | cons member members inductionHypothesis =>
      rw [mem_textsOfMembers_cons_iff]
      rcases inductionHypothesis isText with isObject | isLater
      · rcases mem_textsOfMembers_assign isObject with isName | isValue | isObject
        · exact Or.inr (Or.inl isName)
        · exact Or.inr (Or.inr (Or.inl isValue))
        · exact Or.inl isObject
      · exact Or.inr (Or.inr (Or.inr isLater))

/-- An object holds no texts but those of its members. -/
theorem mem_texts_ofMembers {members : List (String × Json)} {text : String}
    (isText : text ∈ texts (ofMembers members)) : text ∈ textsOfMembers members := by
  rcases mem_textsOfMembers_foldl_assign isText with isNone | isMember
  · cases isNone
  · exact isMember

/-- The brackets around a list or an object, and the comma in it. -/
def marks : List Char := ['[', ']', '\x7b', '\x7d', ',']

/-- Whatever is put together from parts with a property has the property, and so have all parts of
written values but the texts. -/
structure Closed (holds : List Char → Prop) : Prop where
  append : ∀ {first second}, holds first → holds second → holds (first ++ second)
  mark : ∀ c ∈ marks, holds [c]
  colon : holds [':', ' ']
  newline : ∀ level, holds (newline level)
  integer : ∀ value : Int, holds (toString value).toList

namespace Closed

variable {holds : List Char → Prop} (closed : Closed holds)

include closed

theorem cons_newline {c : Char} (isMark : c ∈ marks) (level : Nat) :
    holds (c :: Json.newline level) :=
  closed.append (closed.mark c isMark) (closed.newline level)

theorem newline_concat {c : Char} (isMark : c ∈ marks) (level : Nat) :
    holds (Json.newline level ++ [c]) :=
  closed.append (closed.newline level) (closed.mark c isMark)

mutual

/-- A written value has a property if its written texts have. -/
theorem write (value : Json) (level : Nat)
    (areTexts : ∀ text ∈ texts value, holds (writeText text)) :
    holds (Json.write level value) := by
  match value with
  | .text value => exact areTexts value (by simp [texts])
  | .integer value => exact closed.integer value
  | .list [] => exact closed.append (closed.mark '[' (by decide)) (closed.mark ']' (by decide))
  | .object [] =>
      exact closed.append (closed.mark '\x7b' (by decide)) (closed.mark '\x7d' (by decide))
  | .list (item :: items) =>
      rw [texts, textsOfItems, List.forall_mem_append] at areTexts
      rw [Json.write]
      exact closed.append
        (closed.append (closed.cons_newline (by decide) _) (write item _ areTexts.1))
        (writeItems items level areTexts.2)
  | .object (member :: members) =>
      rw [texts, textsOfMembers, List.forall_mem_append] at areTexts
      rw [Json.write]
      exact closed.append
        (closed.append (closed.cons_newline (by decide) _) (writeMember member level areTexts.1))
        (writeMembers members level areTexts.2)

theorem writeItems (items : List Json) (level : Nat)
    (areTexts : ∀ text ∈ textsOfItems items, holds (writeText text)) :
    holds (Json.writeItems level items) := by
  match items with
  | [] => exact closed.newline_concat (by decide) level
  | item :: items =>
      rw [textsOfItems, List.forall_mem_append] at areTexts
      rw [Json.writeItems]
      exact closed.append
        (closed.append (closed.cons_newline (by decide) _) (write item _ areTexts.1))
        (writeItems items level areTexts.2)

theorem writeMember (member : String × Json) (level : Nat)
    (areTexts : ∀ text ∈ member.1 :: texts member.2, holds (writeText text)) :
    holds (Json.writeMember level member) := by
  match member with
  | (name, value) =>
      rw [List.forall_mem_cons] at areTexts
      rw [Json.writeMember]
      exact closed.append (closed.append areTexts.1 closed.colon) (write value _ areTexts.2)

theorem writeMembers (members : List (String × Json)) (level : Nat)
    (areTexts : ∀ text ∈ textsOfMembers members, holds (writeText text)) :
    holds (Json.writeMembers level members) := by
  match members with
  | [] => exact closed.newline_concat (by decide) level
  | member :: members =>
      rw [textsOfMembers, List.forall_mem_append] at areTexts
      rw [Json.writeMembers]
      exact closed.append
        (closed.append (closed.cons_newline (by decide) _) (writeMember member level areTexts.1))
        (writeMembers members level areTexts.2)

end

end Closed

/-! ## Visible characters -/

/-- A visible character of ASCII, or the blank. -/
def IsVisible (c : Char) : Prop :=
  0x20 ≤ c.toNat ∧ c.toNat < 0x7f

instance (c : Char) : Decidable (IsVisible c) :=
  inferInstanceAs (Decidable (_ ∧ _))

/-- A visible character other than the colon. -/
def IsOrdinary (c : Char) : Prop :=
  IsVisible c ∧ c ≠ ':'

instance (c : Char) : Decidable (IsOrdinary c) :=
  inferInstanceAs (Decidable (_ ∧ _))

variable {c letter : Char} {written : List Char}

theorem IsOrdinary.imp {isClaimed : Prop} (isOrdinary : IsOrdinary letter) :
    IsVisible letter ∧ (letter = ':' → isClaimed) :=
  ⟨isOrdinary.1, fun isColon => absurd isColon isOrdinary.2⟩

theorem isOrdinary_of_mem_marks (isMark : letter ∈ marks) : IsOrdinary letter := by
  simp only [marks, List.mem_cons, List.not_mem_nil, or_false] at isMark
  rcases isMark with rfl | rfl | rfl | rfl | rfl <;> decide

theorem isOrdinary_digitChar {digit : Nat} (isDigit : digit < 0x10) :
    IsOrdinary (Nat.digitChar digit) := by
  decide +revert

theorem isOrdinary_of_mem_unit {code : Nat} (isUnit : code < 0x10000) (isIn : letter ∈ unit code) :
    IsOrdinary letter := by
  rw [unit, hex_four isUnit] at isIn
  simp only [List.mem_cons, List.not_mem_nil, or_false] at isIn
  rcases isIn with rfl | rfl | rfl | rfl | rfl | rfl
  · decide
  · decide
  · exact isOrdinary_digitChar (by omega)
  · exact isOrdinary_digitChar (by omega)
  · exact isOrdinary_digitChar (by omega)
  · exact isOrdinary_digitChar (by omega)

theorem isOrdinary_of_shortForm? (isShort : shortForm? letter = some c) : IsOrdinary letter := by
  unfold shortForm? at isShort
  split at isShort <;> first | decide | cases isShort

theorem isOrdinary_of_mem_toDigits {number : Nat} (isIn : letter ∈ Nat.toDigits 10 number) :
    IsOrdinary letter := by
  have isDigit := Text.isDigit_of_mem_toDigits isIn
  have bounds := Text.toNat_of_isDigit isDigit
  exact ⟨⟨by omega, by omega⟩, ne_of_isDigit isDigit rfl⟩

theorem isOrdinary_of_mem_toString {value : Int} (isIn : letter ∈ (toString value).toList) :
    IsOrdinary letter := by
  rcases toList_toString value with ⟨number, _, isText⟩ | ⟨number, _, isText⟩
  · rw [isText] at isIn
    exact isOrdinary_of_mem_toDigits isIn
  · rw [isText] at isIn
    rcases List.mem_cons.mp isIn with rfl | isIn
    · decide
    · exact isOrdinary_of_mem_toDigits isIn

/-- A character is spelled by visible characters, and by a colon only if it is one. -/
theorem of_mem_escape (isIn : letter ∈ escape c) :
    IsVisible letter ∧ (letter = ':' → c = ':') := by
  have spells := spells_escape c
  generalize escape c = written at spells isIn
  cases spells with
  | @short short isShort =>
      have allOrdinary : ∀ letter ∈ ['\\', short], IsOrdinary letter := by
        simpa using ⟨by decide, isOrdinary_of_shortForm? isShort⟩
      exact (allOrdinary letter isIn).imp
  | plain isVisible _ _ =>
      rw [List.mem_singleton.mp isIn]
      exact ⟨isVisible, id⟩
  | unit isUnit => exact (isOrdinary_of_mem_unit isUnit isIn).imp
  | units isHigh isLow _ =>
      rcases List.mem_append.mp isIn with isIn | isIn
      · exact (isOrdinary_of_mem_unit (by omega) isIn).imp
      · exact (isOrdinary_of_mem_unit (by omega) isIn).imp

/-- A text is written by visible characters, and by a colon only if it holds one. -/
theorem of_mem_writeText {value : String} (isIn : letter ∈ writeText value) :
    IsVisible letter ∧ (letter = ':' → ':' ∈ value.toList) := by
  have isQuote : IsOrdinary '"' := by decide
  rw [writeText, List.cons_append, List.mem_cons, List.mem_append, List.mem_singleton,
    List.mem_flatMap] at isIn
  rcases isIn with rfl | ⟨c, isLetter, isIn⟩ | rfl
  · exact isQuote.imp
  · rcases of_mem_escape isIn with ⟨isVisible, isColon⟩
    refine ⟨isVisible, ?_⟩
    intro sameColon
    rw [← isColon sameColon]
    exact isLetter
  · exact isQuote.imp

theorem of_mem_newline {level : Nat} (isIn : letter ∈ newline level) :
    (letter = '\n' ∨ IsVisible letter) ∧ letter ≠ ':' := by
  rcases List.mem_cons.mp isIn with rfl | isIn
  · decide
  · rw [(List.mem_replicate.mp isIn).2]
    decide

/-- There are only visible characters and line feeds. -/
def Visible (written : List Char) : Prop :=
  ∀ c ∈ written, c = '\n' ∨ IsVisible c

theorem closed_visible : Closed Visible where
  append visible visible' := List.forall_mem_append.mpr ⟨visible, visible'⟩
  mark := by
    intro c isMark letter isIn
    rw [List.mem_singleton.mp isIn]
    exact Or.inr (isOrdinary_of_mem_marks isMark).1
  colon := by
    intro c isIn
    rcases List.mem_pair.mp isIn with rfl | rfl
    · decide
    · decide
  newline := fun _ _ isIn => (of_mem_newline isIn).1
  integer := fun _ _ isIn => Or.inr (isOrdinary_of_mem_toString isIn).1

/-- Whatever a value holds, it is written by visible characters and line feeds. -/
theorem visible_write (value : Json) (level : Nat) : Visible (write level value) := by
  apply closed_visible.write
  intro text _ c isIn
  exact Or.inr (of_mem_writeText isIn).1

theorem ascii_spelling (value : Json) : ∀ c ∈ value.spelling.toList, c.toNat < 0x80 := by
  intro c isIn
  rw [spelling, String.toList_ofList] at isIn
  rcases visible_write value 0 c isIn with rfl | isVisible
  · decide
  · exact Nat.lt_succ_of_lt isVisible.2

/-! ## Colons -/

/-- Each colon stands before a blank. -/
def ColonBlank (written : List Char) : Prop :=
  ∀ before after, written = before ++ ':' :: after → after.head? = some ' '

theorem colonBlank_of_notMem (noColon : ':' ∉ written) : ColonBlank written := by
  rintro before after rfl
  simp at noColon

theorem ColonBlank.append {first second : List Char} (colonBlank : ColonBlank first)
    (colonBlank' : ColonBlank second) : ColonBlank (first ++ second) := by
  intro before after split
  rcases List.append_eq_append_iff.mp split with
    ⟨between, _, isSecond⟩ | ⟨between, isFirst, isAfter⟩
  · exact colonBlank' between after isSecond
  · cases between with
    | nil => exact colonBlank' [] after isAfter.symm
    | cons c between =>
        rw [List.cons_append] at isAfter
        cases isAfter
        rw [List.head?_append, colonBlank before between isFirst]
        rfl

theorem closed_colonBlank : Closed ColonBlank where
  append := ColonBlank.append
  mark := by
    intro c isMark
    apply colonBlank_of_notMem
    intro isColon
    exact (isOrdinary_of_mem_marks isMark).2 (List.mem_singleton.mp isColon).symm
  colon := by
    intro before after split
    rcases before with _ | ⟨c, before⟩
    · cases split
      rfl
    · have isColon : ':' ∈ [' '] := by
        rw [(List.cons.inj split).2]
        simp
      cases isColon with
      | tail _ isColon => cases isColon
  newline := fun _ => colonBlank_of_notMem fun isColon => (of_mem_newline isColon).2 rfl
  integer := fun _ => colonBlank_of_notMem fun isColon => (isOrdinary_of_mem_toString isColon).2 rfl

/-- If no text of a value holds a colon, all colons are those between names and values. -/
theorem colonBlank_write (value : Json) (level : Nat)
    (noColon : ∀ text ∈ texts value, ':' ∉ text.toList) : ColonBlank (write level value) := by
  apply closed_colonBlank.write
  intro text isText
  apply colonBlank_of_notMem
  intro isColon
  exact noColon text isText ((of_mem_writeText isColon).2 rfl)

end DeclIndex.Json
