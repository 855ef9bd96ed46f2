import DeclIndex.Proofs.Json.Characters
import DeclIndex.Proofs.Source.Lines
import DeclIndex.Proofs.Tool.Answer
import Mathlib.Data.List.DropRight

/-!
# Rendered records are read back

Neither form of records loses anything that it is to tell. In plain text the path of a file may hold
the separators itself, but a name holds no semicolon and a number no colon, so a line is taken apart
at its first semicolon and at its last colon (`Record.readText_spelling`). In JSON the characters of
names and paths are all written within ASCII (`Record.render_json_readable`).

A line of too many digits cannot be written in either form.
-/

namespace DeclIndex.Record

open Text (IsName)

variable {kind : Kind} {record : Record} {records : List Record}

/-! ## Lines of text -/

/-- What a line of text tells of a record: its name, its file and its line. -/
def entry (record : Record) : String × String × Int :=
  (record.name, record.file, record.line)

/-- A record as a scan for a kind reports it, of a file whose path is written on one line. -/
structure Listed (kind : Kind) (record : Record) : Prop where
  isKind : record.kind = kind
  isName : IsName record.name.toList
  isPositive : 0 < record.line
  noFeed : '\n' ∉ record.file.toList

/-- The entry that a line spells: the name stands before the first semicolon, the number behind the
last colon. -/
def readLine (line : String) : String × String × Int :=
  let name := line.toList.takeWhile (· != ';')
  let rest := (line.toList.dropWhile (· != ';')).drop 2
  let number := rest.rtakeWhile (· != ':')
  (String.ofList name, String.ofList (rest.rdropWhile (· != ':')).dropLast,
    Nat.ofDigitChars 10 number 0)

/-- The entries that some lines spell; there are none in an empty text. -/
def readText (text : String) : List (String × String × Int) :=
  if text = "" then [] else (Source.lines text.toList).map readLine

namespace Listed

theorem noSemicolon (listed : Listed kind record) :
    ∀ c ∈ record.name.toList, (c != ';') = true := by
  intro c isIn
  have isWord := listed.isName.2 c isIn
  rw [bne_iff_ne]
  rintro rfl
  cases isWord

/-- A line is counted by decimal digits alone. -/
theorem exists_toDigits (listed : Listed kind record) :
    ∃ number : Nat, record.line = number ∧
      (toString record.line).toList = Nat.toDigits 10 number := by
  have isPositive := listed.isPositive
  rcases Json.toList_toString record.line with
    ⟨number, isLine, areDigits⟩ | ⟨number, isLine, areDigits⟩
  · exact ⟨number, isLine, areDigits⟩
  · rw [isLine, Int.ofNat_eq_natCast] at isPositive
    omega

end Listed

theorem toList_spelledLine (record : Record) :
    record.spelledLine.toList = record.name.toList ++
      ';' :: ' ' :: (record.file.toList ++ ':' :: (toString record.line).toList) := by
  simp [spelledLine]

/-- A line is taken apart into what it was put together from. -/
theorem readLine_spelledLine (listed : Listed kind record) :
    readLine record.spelledLine = record.entry := by
  rcases listed.exists_toDigits with ⟨number, isLine, areDigits⟩
  have isName : record.spelledLine.toList.takeWhile (· != ';') = record.name.toList := by
    rw [toList_spelledLine, List.takeWhile_append_of_pos listed.noSemicolon,
      List.takeWhile_cons_of_neg (by decide), List.append_nil]
  have isRest : (record.spelledLine.toList.dropWhile (· != ';')).drop 2 =
      record.file.toList ++ ':' :: Nat.toDigits 10 number := by
    rw [toList_spelledLine, List.dropWhile_append_of_pos listed.noSemicolon,
      List.dropWhile_cons_of_neg (by decide), areDigits]
    rfl
  have noColon : ∀ c ∈ (Nat.toDigits 10 number).reverse, (c != ':') = true := by
    intro c isIn
    rw [bne_iff_ne]
    exact Json.ne_of_isDigit (Text.isDigit_of_mem_toDigits (List.mem_reverse.mp isIn)) rfl
  have isNumber : (record.file.toList ++ ':' :: Nat.toDigits 10 number).rtakeWhile (· != ':') =
      Nat.toDigits 10 number := by
    rw [List.rtakeWhile, List.reverse_append, List.reverse_cons, List.append_assoc,
      List.takeWhile_append_of_pos noColon, List.singleton_append,
      List.takeWhile_cons_of_neg (by decide), List.append_nil, List.reverse_reverse]
  have isFile : (record.file.toList ++ ':' :: Nat.toDigits 10 number).rdropWhile (· != ':') =
      record.file.toList ++ [':'] := by
    rw [List.rdropWhile, List.reverse_append, List.reverse_cons, List.append_assoc,
      List.dropWhile_append_of_pos noColon, List.singleton_append,
      List.dropWhile_cons_of_neg (by decide), List.reverse_cons, List.reverse_reverse]
  simp only [readLine, entry, isName, isRest, isNumber, isFile, List.dropLast_concat,
    String.ofList_toList, Nat.ofDigitChars_ten_toDigits, isLine]

theorem noFeed_spelledLine (listed : Listed kind record) : '\n' ∉ record.spelledLine.toList := by
  rcases listed.exists_toDigits with ⟨number, _, areDigits⟩
  rw [toList_spelledLine, areDigits]
  intro isFeed
  rcases List.mem_append.mp isFeed with isInName | isFeed
  · cases listed.isName.2 _ isInName
  · rw [List.mem_cons, List.mem_cons, List.mem_append, List.mem_cons] at isFeed
    rcases isFeed with isSemicolon | isBlank | isInFile | isColon | isDigit
    · cases isSemicolon
    · cases isBlank
    · exact listed.noFeed isInFile
    · cases isColon
    · cases Text.isDigit_of_mem_toDigits isDigit

theorem map_readLine_spelledLine (areListed : ∀ record ∈ records, Listed kind record) :
    (records.map spelledLine).map readLine = records.map entry := by
  rw [List.map_map]
  apply List.map_congr_left
  intro record isRecord
  exact readLine_spelledLine (areListed record isRecord)

theorem readText_spelling (areListed : ∀ record ∈ records, Listed kind record) :
    readText (spelling .text records) = records.map entry := by
  have isEmptyIff : spelling .text records = "" ↔ records = [] :=
    spelling_text_eq_empty_iff fun record isRecord => (areListed record isRecord).isName
  by_cases noRecords : records = []
  · rw [readText, if_pos (isEmptyIff.mpr noRecords), noRecords]
    rfl
  · have noFeed : ∀ line ∈ records.map spelledLine, '\n' ∉ line.toList := by
      intro line isLine
      rcases List.mem_map.mp isLine with ⟨record, isRecord, rfl⟩
      exact noFeed_spelledLine (areListed record isRecord)
    have someLine : records.map spelledLine ≠ [] := by
      intro noLine
      exact noRecords (List.map_eq_nil_iff.mp noLine)
    have areLines : Source.lines (spelling .text records).toList = records.map spelledLine :=
      Source.lines_intercalate noFeed someLine
    rw [readText, if_neg fun isEmpty => noRecords (isEmptyIff.mp isEmpty), areLines,
      map_readLine_spelledLine areListed]

/-- The record of a kind that an entry tells of. -/
def ofEntry (kind : Kind) (entry : String × String × Int) : Record :=
  ⟨entry.1, kind, entry.2.2, entry.2.1⟩

theorem map_ofEntry (areKind : ∀ record ∈ records, record.kind = kind) :
    (records.map entry).map (ofEntry kind) = records := by
  have restores : ∀ record ∈ records, ofEntry kind record.entry = record := by
    intro record isRecord
    rw [← areKind record isRecord]
    rfl
  rw [List.map_map]
  exact (List.map_congr_left restores).trans (List.map_id records)

/-- What a scan reports has a name that a rule captured, and stands on a line of a text. -/
theorem listed_of_mem_scan {scanner : Scanner} {fs : FileSystem} {request : Request}
    {report : Report} (isKind : kind = .functions ∨ kind = .classes)
    (isReport : scanner.scan fs request kind = .ok report) (isRecord : record ∈ report.records)
    (noFeed : '\n' ∉ record.file.toList) : Listed kind record := by
  have isName := Scanner.isName_of_mem_scan isKind isReport isRecord
  rcases Kind.exists_rules isKind with ⟨rules, areRules⟩
  rcases Scanner.exists_text_of_mem_scan areRules isReport isRecord with ⟨_, _, _, _, isRecord⟩
  rcases Declarations.exists_line_of_mem_scan isRecord with ⟨isKind, _, index, _, _, _, isLine, _⟩
  exact ⟨isKind, isName, by rw [isLine]; omega, noFeed⟩

/-- Records of one kind are read back from their lines of text, so no other records of the kind have
the same text. Only a line of too many digits keeps them from being written. This holds for all
records of a scan in which no path holds a line feed, and none of them has such a line. -/
theorem render_text_readable (areListed : ∀ record ∈ records, Listed kind record) :
    ((∀ record ∈ records, record.IsWritable) →
      ∃ text, render .text records = .ok text ∧ readText text = records.map entry) ∧
    (∀ record ∈ records, ¬record.IsWritable → render .text records = .error .tooManyDigits) ∧
    (∀ text others, (∀ record ∈ others, Listed kind record) →
      render .text records = .ok text → render .text others = .ok text → others = records) ∧
    ∀ (scanner : Scanner) (fs : FileSystem) (request : Request) (report : Report),
      kind = .functions ∨ kind = .classes → scanner.scan fs request kind = .ok report →
      ∀ record ∈ report.records, '\n' ∉ record.file.toList →
        Listed kind record ∧ record.IsWritable := by
  refine ⟨?_, ?_, ?_, ?_⟩
  · intro areWritable
    exact ⟨_, render_of_isWritable .text areWritable, readText_spelling areListed⟩
  · intro record isRecord notWritable
    exact render_of_not_isWritable .text isRecord notWritable
  · intro text others areOthers isText isOther
    have sameText : spelling .text others = spelling .text records :=
      (render_eq_ok_iff.mp isOther).2.trans (render_eq_ok_iff.mp isText).2.symm
    have sameEntries : others.map entry = records.map entry := by
      rw [← readText_spelling areOthers, sameText, readText_spelling areListed]
    rw [← map_ofEntry fun record isRecord => (areOthers record isRecord).isKind, sameEntries,
      map_ofEntry fun record isRecord => (areListed record isRecord).isKind]
  · intro scanner fs request report isKind isReport record isRecord noFeed
    exact ⟨listed_of_mem_scan isKind isReport isRecord noFeed,
      Scanner.isWritable_of_mem_scan isKind isReport isRecord⟩

/-- The first path holds both separators. The second one is empty, and its line could be a part of a
path. -/
theorem render_text_readable_pair :
    (∀ record ∈ [Record.mk "f" .functions 12 "a; b:3/c:4.py", ⟨"été", .functions, 7, ""⟩],
      Listed .functions record) ∧
    ∃ text, render .text [⟨"f", .functions, 12, "a; b:3/c:4.py"⟩, ⟨"été", .functions, 7, ""⟩] =
        .ok text ∧
      readText text = [("f", "a; b:3/c:4.py", 12), ("été", "", 7)] := by
  have areListed : ∀ record ∈
      [Record.mk "f" .functions 12 "a; b:3/c:4.py", ⟨"été", .functions, 7, ""⟩],
      Listed .functions record := by
    intro record isRecord
    rcases List.mem_pair.mp isRecord with rfl | rfl
    · exact ⟨rfl, ⟨by decide, List.all_eq_true.mp (by decide +kernel)⟩, by decide, by decide⟩
    · exact ⟨rfl, ⟨by decide, List.all_eq_true.mp (by decide +kernel)⟩, by decide, by decide⟩
  have areWritable : ∀ record ∈
      [Record.mk "f" .functions 12 "a; b:3/c:4.py", ⟨"été", .functions, 7, ""⟩],
      record.IsWritable := by
    intro record isRecord
    rcases List.mem_pair.mp isRecord with rfl | rfl
    · decide
    · decide
  exact ⟨areListed, (render_text_readable areListed).1 areWritable⟩

/-- A record whose line is the least number that has too many digits. -/
def farDown : Record :=
  ⟨"f", .functions, Int.ofNat (Nat.pow 10 Text.Integer.maxDigits), "a.py"⟩

theorem farDown_not_isWritable : ¬farDown.IsWritable := by
  rw [IsWritable, Text.Integer.isWritable_iff, farDown, Int.ofNat_eq_natCast, Int.natAbs_natCast]
  exact Nat.lt_irrefl _

/-- The record is of the kind that a text would tell of, and it has no text. -/
theorem render_text_farDown :
    Listed .functions farDown ∧ render .text [farDown] = .error .tooManyDigits := by
  have isPositive (digits : Nat) : 0 < Int.ofNat (Nat.pow 10 digits) :=
    Int.natCast_pos.mpr (Nat.pow_pos (by decide))
  refine ⟨⟨rfl, ⟨by decide, List.all_eq_true.mp (by decide +kernel)⟩, isPositive _, by decide⟩, ?_⟩
  exact render_of_not_isWritable .text List.mem_cons_self farDown_not_isWritable

/-! ## JSON -/

/-- A record as an object with a name that goes by the kind, a line and a file. -/
theorem toJson_eq (isKind : record.kind = .functions ∨ record.kind = .classes) :
    record.toJson = .object [(record.kind.label, .text record.name),
      ("line", .integer record.line), ("file", .text record.file)] := by
  rw [toJson]
  rcases isKind with isKind | isKind
  · rw [isKind]
    rfl
  · rw [isKind]
    rfl

/-- In JSON records of the two kinds are written by ASCII characters, whatever their names and paths
hold, and they are read back from them. Only a line of too many digits keeps them from being
written. The message of a failure is always written and read back like this. -/
theorem render_json_readable
    (areKinds : ∀ record ∈ records, record.kind = .functions ∨ record.kind = .classes) :
    ((∀ record ∈ records, record.IsWritable) →
      ∃ text, render .json records = .ok text ∧ (∀ c ∈ text.toList, c.toNat < 0x80) ∧
        Json.read? text = some (.list (records.map fun record =>
          .object [(record.kind.label, .text record.name), ("line", .integer record.line),
            ("file", .text record.file)]))) ∧
    (∀ record ∈ records, ¬record.IsWritable → render .json records = .error .tooManyDigits) ∧
    ∀ message, (∀ c ∈ (Failure.renderMessage message).toList, c.toNat < 0x80) ∧
      Json.read? (Failure.renderMessage message) = some (.object [("error", .text message)]) := by
  have areObjects : records.map toJson = records.map fun record =>
      .object [(record.kind.label, .text record.name), ("line", .integer record.line),
        ("file", .text record.file)] :=
    List.map_congr_left fun record isRecord => toJson_eq (areKinds record isRecord)
  refine ⟨?_, ?_, ?_⟩
  · intro areWritable
    refine ⟨_, render_of_isWritable .json areWritable, Json.ascii_spelling _, ?_⟩
    rw [spelling, Json.read?_spelling, areObjects]
  · intro record isRecord notWritable
    exact render_of_not_isWritable .json isRecord notWritable
  · intro message
    exact ⟨Json.ascii_spelling _, Json.read?_spelling _⟩

/-- A name beyond the first plane, a path with a quote and a control character, and a line before
the first one. -/
theorem render_json_readable_single :
    (∀ record ∈ [Record.mk "𝕗" .classes (-3) "\"\x01\\"],
      record.kind = .functions ∨ record.kind = .classes) ∧
    ∃ text, render .json [⟨"𝕗", .classes, -3, "\"\x01\\"⟩] = .ok text ∧
      Json.read? text = some (.list [.object
        [("class", .text "𝕗"), ("line", .integer (-3)), ("file", .text "\"\x01\\")]]) := by
  have areKinds : ∀ record ∈ [Record.mk "𝕗" .classes (-3) "\"\x01\\"],
      record.kind = .functions ∨ record.kind = .classes := by
    intro record isRecord
    rw [List.mem_singleton.mp isRecord]
    exact Or.inr rfl
  have areWritable : ∀ record ∈ [Record.mk "𝕗" .classes (-3) "\"\x01\\"],
      record.IsWritable := by
    intro record isRecord
    rw [List.mem_singleton.mp isRecord]
    decide
  rcases (render_json_readable areKinds).1 areWritable with ⟨text, isText, _, isRead⟩
  exact ⟨areKinds, text, isText, isRead⟩

/-- A record of a kind that has objects, and there is no object for it. -/
theorem render_json_farDown :
    farDown.kind = .functions ∧ render .json [farDown] = .error .tooManyDigits :=
  ⟨rfl, render_of_not_isWritable .json List.mem_cons_self farDown_not_isWritable⟩

end DeclIndex.Record
