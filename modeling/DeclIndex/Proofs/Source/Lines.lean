import DeclIndex.Proofs.Scan.Outcome
import DeclIndex.Proofs.Text.Encoding

/-!
# Texts and lines of files

A file that holds an encoded text has that text, apart from a byte order mark at its start
(`Source.text_of_read_encode`). The lines of a text are those of its two sides wherever it is split
at a line feed (`Source.lines_append`), and lines with line feeds between them are read back
(`Source.lines_intercalate`).
-/

namespace DeclIndex.Source

open Text

variable {fs : FileSystem} {file : Path} {text : List Char}

theorem text_of_read_encode (isRead : fs.read file = .ok (Utf8.encode text)) :
    Source.text fs file = .ok (Utf8.withoutMark text) :=
  text_eq_ok_iff.mpr ⟨_, isRead, Utf8.decode_eq_ok_iff.mpr (Utf8.dropMark_encode text)⟩

theorem lines_ne_nil (text : List Char) : lines text ≠ [] := by
  simp [lines]

theorem lines_append (text more : List Char) :
    lines (text ++ '\n' :: more) = lines text ++ lines more := by
  rw [lines, List.splitOn_append_cons_self, List.map_append]
  rfl

theorem lines_cons {c : Char} (notFeed : c ≠ '\n') (text : List Char) :
    lines (c :: text) = (lines text).modifyHead fun line => String.ofList (c :: line.toList) := by
  have sameLines : ((text.splitOn '\n').modifyHead (List.cons c)).map String.ofList =
      ((text.splitOn '\n').map String.ofList).modifyHead fun line =>
        String.ofList (c :: line.toList) := by
    cases text.splitOn '\n' <;> simp
  rw [lines, List.splitOn_cons_eq_if_modifyHead, if_neg (by simpa using notFeed), sameLines]
  rfl

theorem lines_of_notMem {text : String} (noFeed : '\n' ∉ text.toList) :
    lines text.toList = [text] := by
  rw [lines, List.splitOn_eq_singleton noFeed, List.map_singleton, String.ofList_toList]

/-- Lines are read back from the text in which line feeds stand between them. -/
theorem lines_intercalate {texts : List String} (noFeed : ∀ text ∈ texts, '\n' ∉ text.toList)
    (nonempty : texts ≠ []) : lines ("\n".intercalate texts).toList = texts := by
  induction texts with
  | nil => exact absurd rfl nonempty
  | cons text texts inductionHypothesis =>
      rcases List.forall_mem_cons.mp noFeed with ⟨noFeedHere, noFeedLater⟩
      cases texts with
      | nil => rw [String.intercalate_singleton, lines_of_notMem noFeedHere]
      | cons next texts =>
          have areParts : ("\n".intercalate (text :: next :: texts)).toList =
              text.toList ++ '\n' :: ("\n".intercalate (next :: texts)).toList := by
            rw [String.intercalate_cons_cons, String.append_assoc, String.toList_append,
              String.toList_append]
            rfl
          rw [areParts, lines_append, lines_of_notMem noFeedHere,
            inductionHypothesis noFeedLater (List.cons_ne_nil _ _)]
          rfl

/-- One file with some bytes. -/
def pageFile (bytes : List UInt8) : FileSystem :=
  ⟨[(⟨"page", by decide⟩, .node (.file bytes false) [])], []⟩

theorem read_pageFile {bytes : List UInt8} (isSmall : bytes.length < FileSystem.tooLarge) :
    (pageFile bytes).read ⟨.here, ["page"]⟩ = .ok bytes :=
  if_pos isSmall

end DeclIndex.Source
