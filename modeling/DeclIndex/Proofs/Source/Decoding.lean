import DeclIndex.Proofs.Rule.Captures
import DeclIndex.Proofs.Source.Lines
import DeclIndex.Proofs.Text.Breaks

/-!
# Which files have a text

A file that can be read declares what the lines of its text declare, if its bytes without a byte
order mark encode one. Otherwise it is refused, and the failure locates the place where the bytes
stop being a text (`Source.declarations_exact`).
-/

namespace DeclIndex.Source

open Text

variable {fs : FileSystem} {file : Path} {kind : Kind} {bytes : List UInt8}
  {text : List Char}

theorem text_of_encode (isRead : fs.read file = .ok bytes)
    (isText : Utf8.dropMark bytes = Utf8.encode text) : Source.text fs file = .ok text :=
  text_eq_ok_iff.mpr ⟨bytes, isRead, Utf8.decode_eq_ok_iff.mpr isText⟩

theorem text_of_locates {failure : Utf8.Failure} (isRead : fs.read file = .ok bytes)
    (locates : failure.Locates (Utf8.dropMark bytes)) :
    Source.text fs file = .error (.unreadable file (.encoding failure)) := by
  simp only [Source.text, isRead, Utf8.decode_eq_error_iff.mpr locates]
  rfl

/-- A file that can be read declares something exactly if its bytes, apart from a byte order mark,
are the encoding of a text. That text is the only one, and its lines are scanned. Otherwise the file
is refused with the place of the first bytes that are no character. -/
theorem declarations_exact (base : Path) (isKind : kind = .functions ∨ kind = .classes)
    (isRead : fs.read file = .ok bytes) :
    ((∃ records, declarations fs file base kind = .ok records) ↔
      ∃ text, Utf8.dropMark bytes = Utf8.encode text) ∧
    (∀ text, Utf8.dropMark bytes = Utf8.encode text →
      (∀ other, Utf8.dropMark bytes = Utf8.encode other → other = text) ∧
      ∃ rules, kind.rules? = some rules ∧ declarations fs file base kind =
        .ok (Declarations.scan rules kind (fs.relativePath file base) (lines text))) ∧
    ((¬∃ text, Utf8.dropMark bytes = Utf8.encode text) →
      ∃ failure : Utf8.Failure, failure.Locates (Utf8.dropMark bytes) ∧
        declarations fs file base kind = .error (.unreadable file (.encoding failure))) := by
  rcases Kind.exists_rules isKind with ⟨rules, areRules⟩
  have declares (text : List Char) (isText : Utf8.dropMark bytes = Utf8.encode text) :
      declarations fs file base kind =
        .ok (Declarations.scan rules kind (fs.relativePath file base) (lines text)) :=
    declarations_of_text areRules (text_of_encode isRead isText)
  have refuses (noText : ¬∃ text, Utf8.dropMark bytes = Utf8.encode text) :
      ∃ failure : Utf8.Failure, failure.Locates (Utf8.dropMark bytes) ∧
        declarations fs file base kind = .error (.unreadable file (.encoding failure)) := by
    cases isDecoded : Utf8.decode (Utf8.dropMark bytes) with
    | ok text => exact absurd ⟨text, Utf8.decode_eq_ok_iff.mp isDecoded⟩ noText
    | error failure =>
        have locates := Utf8.decode_eq_error_iff.mp isDecoded
        refine ⟨failure, locates, ?_⟩
        rw [declarations_of_rules areRules, text_of_locates isRead locates]
        rfl
  refine ⟨?_, ?_, refuses⟩
  · constructor
    · rintro ⟨records, areRecords⟩
      by_contra noText
      rcases refuses noText with ⟨failure, _, isRefused⟩
      rw [areRecords] at isRefused
      cases isRefused
    · rintro ⟨text, isText⟩
      exact ⟨_, declares text isText⟩
  · intro text isText
    refine ⟨?_, rules, areRules, declares text isText⟩
    intro other isOther
    exact Utf8.encode_injective (isOther.symm.trans isText)

/-- Both files start with a mark. The second one ends with a character of four bytes of which three
are there. -/
theorem declarations_exact_page :
    (pageFile [0xef, 0xbb, 0xbf, 0x41]).read ⟨.here, ["page"]⟩ = .ok [0xef, 0xbb, 0xbf, 0x41] ∧
    (∃ records, declarations (pageFile [0xef, 0xbb, 0xbf, 0x41])
      ⟨.here, ["page"]⟩ ⟨.here, []⟩ .functions = .ok records) ∧
    ∃ failure : Utf8.Failure,
      failure.Locates [0x41, 0xf0, 0x9f, 0x98] ∧ failure.start = 1 ∧ failure.count = 3 ∧
      declarations (pageFile [0xef, 0xbb, 0xbf, 0x41, 0xf0, 0x9f, 0x98])
        ⟨.here, ["page"]⟩ ⟨.here, []⟩ .functions =
          .error (.unreadable ⟨.here, ["page"]⟩ (.encoding failure)) := by
  have isSmall : ([0xef, 0xbb, 0xbf, 0x41] : List UInt8).length < FileSystem.tooLarge := by decide
  have isSmallToo : ([0xef, 0xbb, 0xbf, 0x41, 0xf0, 0x9f, 0x98] : List UInt8).length <
      FileSystem.tooLarge := by decide
  have isRead := read_pageFile isSmall
  have isReadToo := read_pageFile isSmallToo
  have fails : Utf8.decode [0x41, 0xf0, 0x9f, 0x98] = .error ⟨1, 0xf0, 3, .unexpectedEnd⟩ := by
    decide
  have noText : ¬∃ text, Utf8.dropMark [0xef, 0xbb, 0xbf, 0x41, 0xf0, 0x9f, 0x98] =
      Utf8.encode text := by
    rintro ⟨text, isText⟩
    cases fails.symm.trans (Utf8.decode_eq_ok_iff.mpr isText)
  refine ⟨isRead, ?_, ?_⟩
  · exact (declarations_exact ⟨.here, []⟩ (Or.inl rfl) isRead).1.mpr ⟨['A'], rfl⟩
  · rcases (declarations_exact ⟨.here, []⟩ (Or.inl rfl) isReadToo).2.2 noText with
      ⟨failure, locates, isRefused⟩
    cases fails.symm.trans (Utf8.decode_eq_error_iff.mpr locates)
    exact ⟨_, locates, rfl, rfl, isRefused⟩

end DeclIndex.Source
