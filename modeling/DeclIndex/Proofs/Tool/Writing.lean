import DeclIndex.Tool
import DeclIndex.Proofs.Scan.Records
import DeclIndex.Proofs.Source.Lines
import DeclIndex.Proofs.Text.Integer

/-!
# Which records are written

Records are written in both forms unless the line of one of them has too many digits
(`Record.render_eq_ok_iff`). This never happens to the records of a scan: a file holds fewer bytes
than there are numbers that can be written, and its text has hardly more lines than the file has
bytes (`Scanner.isWritable_of_mem_scan`).
-/

namespace DeclIndex

open Sequence (bind_eq_ok_iff)

/-! ## Records that can be written -/

namespace Json

theorem areWritable_iff {items : List Json} :
    areWritable items = true ↔ ∀ item ∈ items, item.isWritable = true := by
  induction items with
  | nil => simp [areWritable]
  | cons item items inductionHypothesis => simp [areWritable, inductionHypothesis]

end Json

namespace Record

variable {record : Record} {records : List Record} {format : OutputFormat} {text : String}

/-- How a record is spelled as a line of text. -/
def spelledLine (record : Record) : String :=
  record.name ++ "; " ++ record.file ++ ":" ++ toString record.line

/-- How records are spelled in one of the forms. -/
def spelling (format : OutputFormat) (records : List Record) : String :=
  match format with
  | .text => "\n".intercalate (records.map spelledLine)
  | .json => (Json.list (records.map toJson)).spelling

/-- The line of the record does not have too many digits. -/
def IsWritable (record : Record) : Prop :=
  Text.Integer.isWritable record.line = true

instance (record : Record) : Decidable record.IsWritable :=
  inferInstanceAs (Decidable (_ = _))

theorem toLine_of_isWritable (isWritable : record.IsWritable) :
    record.toLine = .ok record.spelledLine := by
  rw [toLine, Text.decimal?_of_isWritable isWritable]
  rfl

theorem toLine_of_not_isWritable (notWritable : ¬record.IsWritable) :
    record.toLine = .error .tooManyDigits := by
  rw [toLine, Text.decimal?_of_not_isWritable (Bool.eq_false_of_not_eq_true notWritable)]
  rfl

/-- No value for another member of the object takes the place of the line. -/
theorem isWritable_toJson_iff : record.toJson.isWritable = true ↔ record.IsWritable := by
  rw [toJson, Json.ofMembers, IsWritable]
  simp only [List.foldl_cons, List.foldl_nil, Json.assign]
  split
  · simp [Json.assign, Json.isWritable, Json.haveWritable]
  · rw [Json.assign]
    split
    · simp [Json.isWritable, Json.haveWritable]
    · simp [Json.assign, Json.isWritable, Json.haveWritable]

theorem render_of_isWritable (format : OutputFormat)
    (areWritable : ∀ record ∈ records, record.IsWritable) :
    render format records = .ok (spelling format records) := by
  cases format with
  | text =>
      have areLines : records.mapM toLine = .ok (records.map spelledLine) := by
        apply Sequence.mapM_eq_ok_iff.mpr
        rw [List.forall₂_map_right_iff, List.forall₂_same]
        exact fun record isRecord => toLine_of_isWritable (areWritable record isRecord)
      rw [render, areLines]
      rfl
  | json =>
      have allWritable : (Json.list (records.map toJson)).isWritable = true := by
        rw [Json.isWritable, Json.areWritable_iff, List.forall_mem_map]
        exact fun record isRecord => isWritable_toJson_iff.mpr (areWritable record isRecord)
      rw [render, Json.render?, if_pos allWritable]
      rfl

theorem render_of_not_isWritable (format : OutputFormat) (isRecord : record ∈ records)
    (notWritable : ¬record.IsWritable) : render format records = .error .tooManyDigits := by
  cases format with
  | text =>
      have fails : records.mapM toLine = .error .tooManyDigits := by
        cases areLines : records.mapM toLine with
        | ok lines =>
            rcases Sequence.exists_mapM_eq_ok_iff.mp ⟨lines, areLines⟩ record isRecord with
              ⟨line, isLine⟩
            rw [toLine_of_not_isWritable notWritable] at isLine
            cases isLine
        | error failure =>
            rcases Sequence.exists_mem_of_mapM_eq_error areLines with ⟨other, _, failsHere⟩
            by_cases isWritable : other.IsWritable
            · rw [toLine_of_isWritable isWritable] at failsHere
              cases failsHere
            · rw [toLine_of_not_isWritable isWritable] at failsHere
              cases failsHere
              rfl
      rw [render, fails]
      rfl
  | json =>
      have notAll : ¬(Json.list (records.map toJson)).isWritable = true := by
        rw [Json.isWritable, Json.areWritable_iff, List.forall_mem_map]
        exact fun areWritable =>
          notWritable (isWritable_toJson_iff.mp (areWritable record isRecord))
      rw [render, Json.render?, if_neg notAll]
      rfl

theorem render_eq_ok_iff :
    render format records = .ok text ↔
      (∀ record ∈ records, record.IsWritable) ∧ spelling format records = text := by
  constructor
  · intro isRendered
    have areWritable : ∀ record ∈ records, record.IsWritable := by
      intro record isRecord
      by_contra notWritable
      rw [render_of_not_isWritable format isRecord notWritable] at isRendered
      cases isRendered
    rw [render_of_isWritable format areWritable] at isRendered
    exact ⟨areWritable, Except.ok.inj isRendered⟩
  · rintro ⟨areWritable, rfl⟩
    exact render_of_isWritable format areWritable

end Record

/-! ## Records of a scan -/

theorem FileSystem.length_of_read {fs : FileSystem} {path : Path} {bytes : List UInt8}
    (isRead : fs.read path = .ok bytes) : bytes.length < tooLarge := by
  rcases bind_eq_ok_iff.mp isRead with ⟨tree, _, areBytes⟩
  split at areBytes
  · split at areBytes
    · cases areBytes
      assumption
    · cases areBytes
  · cases areBytes
  · cases areBytes
  · cases areBytes
  · cases areBytes
    decide
  · cases areBytes

theorem Text.Utf8.length_le_encode (letters : List Char) :
    letters.length ≤ (encode letters).length := by
  induction letters with
  | nil => exact Nat.le_refl 0
  | cons c letters inductionHypothesis =>
      have isPositive : 0 < (String.utf8EncodeChar c).length := by
        rw [String.length_utf8EncodeChar]
        exact c.utf8Size_pos
      rw [encode] at inductionHypothesis ⊢
      rw [List.flatMap_cons, List.length_append, List.length_cons]
      omega

namespace Source

theorem length_lines_le (text : List Char) : (lines text).length ≤ text.length + 1 := by
  induction text with
  | nil => exact Nat.le_refl 1
  | cons c text inductionHypothesis =>
      by_cases isFeed : c = '\n'
      · subst isFeed
        have areLines : lines ('\n' :: text) = lines [] ++ lines text := lines_append [] text
        have isOne : (lines []).length = 1 := rfl
        rw [areLines, List.length_append, isOne, List.length_cons]
        omega
      · rw [lines_cons isFeed, List.length_modifyHead, List.length_cons]
        omega

theorem length_text_lt {fs : FileSystem} {file : Path} {letters : List Char}
    (isText : text fs file = .ok letters) : letters.length < FileSystem.tooLarge := by
  rcases text_eq_ok_iff.mp isText with ⟨bytes, isRead, isDecoded⟩
  have isShort : letters.length ≤ (Text.Utf8.dropMark bytes).length := by
    rw [Text.Utf8.decode_eq_ok_iff.mp isDecoded]
    exact Text.Utf8.length_le_encode letters
  have isShorter : (Text.Utf8.dropMark bytes).length ≤ bytes.length := by
    unfold Text.Utf8.dropMark
    split
    · simp only [List.length_cons]
      omega
    · exact Nat.le_refl _
  have isSmall := FileSystem.length_of_read isRead
  omega

end Source

/-- The line of a record stands in a file, and no file is large enough to have lines with numbers
that cannot be written. -/
theorem Scanner.isWritable_of_mem_scan {scanner : Scanner} {fs : FileSystem} {request : Request}
    {kind : Kind} {report : Report} {record : Record} (isKind : kind = .functions ∨ kind = .classes)
    (isReport : scanner.scan fs request kind = .ok report) (isRecord : record ∈ report.records) :
    record.IsWritable := by
  rcases Kind.exists_rules isKind with ⟨rules, areRules⟩
  rcases exists_text_of_mem_scan areRules isReport isRecord with
    ⟨file, _, letters, isText, isRecord⟩
  rcases Declarations.exists_line_of_mem_scan isRecord with
    ⟨_, _, index, line, _, isThere, isLine, _⟩
  have inRange : index < (Source.lines letters).length := (List.getElem?_eq_some_iff.mp isThere).1
  have isShort := Source.length_lines_le letters
  have isSmall := Source.length_text_lt isText
  have isNumber : index + 1 ≤ FileSystem.tooLarge := by omega
  have isBelow : FileSystem.tooLarge < Nat.pow 10 19 := by decide
  have fewDigits : (Nat.toDigits 10 (index + 1)).length ≤ 19 :=
    (Text.length_toDigits_le_iff (by decide)).mpr (Nat.lt_of_le_of_lt isNumber isBelow)
  rw [Record.IsWritable, Text.Integer.isWritable, decide_eq_true_eq, isLine, Int.natAbs_natCast]
  exact Nat.le_trans fewDigits (by decide)

end DeclIndex
