import DeclIndex.Ignore.Rule
import DeclIndex.Proofs.Pattern.Building
import Mathlib.Data.List.Basic
import Mathlib.Data.List.TakeWhile

/-!
# Pieces that go on below what they match

Pieces that match a path at its end, or before a slash, match every path below it too. They end in
one of two ways (`Piece.Closing`): either no piece asks for the end of the path, or the last piece
allows for a slash instead of the end, and the piece before it stays within one name. In the second
case the pieces may have matched a path with a slash at its end only up to that end. Then the piece
before the last took nothing, so it is a star, and it can take the next name as well
(`Piece.Closing.exists_allow_append`).

A set of characters may hold a slash, so nothing like this is true of patterns with brackets.
-/

namespace DeclIndex.Ignore

namespace Piece

open Pattern

/-- The pieces, one after the other, can take a run that stands before a rest. -/
def Allow (pieces : List Piece) (run rest : List Char) : Prop :=
  (chain (pieces.map pattern)).Allows run rest

/-- The piece takes characters of one name. -/
def WithinName : Piece → Prop
  | name | star | question => True
  | literal c => c ≠ '/'
  | _ => False

variable {piece : Piece} {pieces others : List Piece} {run rest : List Char}

/-! ## Single pieces -/

theorem endless_pattern (notFinish : piece ≠ finish) : piece.pattern.Endless := by
  cases piece with
  | finish => exact absurd rfl notFinish
  | _ => simp [pattern, Pattern.optional, oneOrMore, chain, Endless]

theorem WithinName.notMem_slash (within : piece.WithinName)
    (allows : piece.pattern.Allows run rest) : '/' ∉ run := by
  cases piece with
  | name =>
      intro isIn
      simpa [CharSet.contains] using (allows_oneOrMore.mp allows).2 '/' isIn
  | star =>
      intro isIn
      simpa [CharSet.contains] using allows_many.mp allows '/' isIn
  | question =>
      rcases allows_one.mp allows with ⟨c, isOther, rfl⟩
      have notSlash : c ≠ '/' := by simpa [CharSet.contains] using isOther
      simpa using notSlash.symm
  | literal c =>
      rcases allows_one.mp allows with ⟨d, isSame, rfl⟩
      have isLiteral : d = c := by simpa [CharSet.contains] using isSame
      have notSlash : c ≠ '/' := within
      simpa [isLiteral] using notSlash.symm
  | _ => exact absurd within id

/-- Of the pieces that stay within a name, only a star may take nothing. -/
theorem WithinName.eq_star (within : piece.WithinName) (allows : piece.pattern.Allows [] rest) :
    piece = star := by
  cases piece with
  | star => rfl
  | name => exact absurd rfl (allows_oneOrMore.mp allows).1
  | question =>
      rcases allows_one.mp allows with ⟨c, _, isEmpty⟩
      cases isEmpty
  | literal c =>
      rcases allows_one.mp allows with ⟨d, _, isEmpty⟩
      cases isEmpty
  | _ => exact absurd within id

theorem allows_finish_piece :
    finish.pattern.Allows run rest ↔ run = ['/'] ∨ run = [] ∧ (rest = [] ∨ rest = ['\n']) := by
  simp [pattern, allows_either, allows_capture, allows_one, allows_finish, CharSet.contains]

/-! ## Sequences of pieces -/

theorem allow_append :
    Allow (pieces ++ others) run rest ↔ ∃ first second,
      Allow pieces first (second ++ rest) ∧ Allow others second rest ∧ run = first ++ second := by
  simp only [Allow, List.map_append, allows_chain_append]

theorem allow_cons :
    Allow (piece :: pieces) run rest ↔ ∃ first second,
      piece.pattern.Allows first (second ++ rest) ∧ Allow pieces second rest ∧
        run = first ++ second := by
  simp only [Allow, List.map_cons, allows_chain_cons]

theorem allow_singleton : Allow [piece] run rest ↔ piece.pattern.Allows run rest := Iff.rfl

theorem Allow.change_rest (allow : Allow pieces run rest) (endless : finish ∉ pieces)
    (other : List Char) : Allow pieces run other := by
  apply Allows.change_rest allow (endless_chain _) other
  intro pattern isPattern
  rcases List.mem_map.mp isPattern with ⟨piece, isPiece, rfl⟩
  apply endless_pattern
  rintro rfl
  exact endless isPiece

/-- Behind a piece within a name, a slash in the place of the end lets anything follow. -/
theorem allow_finish_slash (endless : piece ≠ finish) (allows : piece.pattern.Allows run rest)
    (other : List Char) : Allow [piece, finish] (run ++ ['/']) other := by
  apply allow_cons.mpr
  refine ⟨run, ['/'], allows.change_rest (endless_pattern endless) _, ?_, rfl⟩
  exact allow_singleton.mpr (allows_finish_piece.mpr (Or.inl rfl))

/-- A star before the end takes the first name of any text. -/
theorem exists_allow_star_finish (text : List Char) :
    ∃ run rest, Allow [star, finish] run rest ∧ text = run ++ rest := by
  have takesName : ∀ rest, star.pattern.Allows (text.takeWhile (· != '/')) rest := by
    intro rest
    apply allows_many.mpr
    intro c isIn
    exact List.mem_takeWhile_imp isIn
  have isText := List.takeWhile_append_dropWhile (p := (· != '/')) (l := text)
  cases afterName : text.dropWhile (· != '/') with
  | nil =>
      rw [afterName] at isText
      refine ⟨text.takeWhile (· != '/') ++ [], [], ?_, by simpa using isText.symm⟩
      apply allow_cons.mpr
      exact ⟨_, [], takesName _,
        allow_singleton.mpr (allows_finish_piece.mpr (Or.inr ⟨rfl, Or.inl rfl⟩)), rfl⟩
  | cons c others =>
      have isSlash := List.head?_dropWhile_not (· != '/') text
      rw [afterName] at isSlash
      have isSlash : c = '/' := by simpa using isSlash
      subst isSlash
      rw [afterName] at isText
      refine ⟨text.takeWhile (· != '/') ++ ['/'], others, ?_, by simpa using isText.symm⟩
      exact allow_finish_slash (by decide) (takesName []) others

/-! ## Sequences that go on below -/

/-- The pieces do not ask for the end of a path, or allow for a slash instead, after a piece that
stays within a name. -/
inductive Closing : List Piece → Prop where
  | endless {pieces : List Piece} (endless : finish ∉ pieces) : Closing pieces
  | atEnd {body : List Piece} {last : Piece} (endless : finish ∉ body)
      (within : last.WithinName) : Closing (body ++ [last, finish])

theorem Closing.append (closing : Closing pieces) (endless : finish ∉ others) :
    Closing (others ++ pieces) := by
  cases closing with
  | endless endless' =>
      apply Closing.endless
      simp [endless, endless']
  | atEnd endless' within =>
      rw [← List.append_assoc]
      apply Closing.atEnd _ within
      simp [endless, endless']

theorem Closing.cons (closing : Closing pieces) (notFinish : piece ≠ finish) :
    Closing (piece :: pieces) := by
  have single : finish ∉ [piece] := by simpa [eq_comm] using notFinish
  exact closing.append single

/-- What goes on after a text at a slash, on either side of its end, is matched like the text. -/
theorem Closing.exists_allow_append (closing : Closing pieces) {text before more : List Char}
    (allow : Allow pieces run rest) (split : text = before ++ (run ++ rest))
    (noFeed : text.getLast? ≠ some '\n')
    (boundary : more.head? = some '/' ∨ text.getLast? = some '/') :
    ∃ run' rest', Allow pieces run' rest' ∧ text ++ more = before ++ (run' ++ rest') := by
  cases closing with
  | endless endless =>
      refine ⟨run, rest ++ more, allow.change_rest endless _, ?_⟩
      simp [split]
  | @atEnd body last endless within =>
      rcases allow_append.mp allow with ⟨first, _, allowFirst, allowLast, rfl⟩
      rcases allow_cons.mp allowLast with ⟨second, third, allowsSecond, allowsThird, rfl⟩
      have goesOn : ∀ run' rest', Allow [last, finish] run' rest' →
          Allow (body ++ [last, finish]) (first ++ run') rest' := fun run' rest' allow' =>
        allow_append.mpr ⟨first, run', allowFirst.change_rest endless _, allow', rfl⟩
      have notFinish : last ≠ finish := by
        rintro rfl
        exact within
      have atSlash := allow_finish_slash notFinish allowsSecond
      rcases allows_finish_piece.mp (allow_singleton.mp allowsThird) with rfl | ⟨rfl, rfl | rfl⟩
      · -- The pieces stop at a slash, so what is behind it does not matter.
        exact ⟨_, rest ++ more, goesOn _ _ (atSlash _), by simp [split]⟩
      · rw [List.append_nil, List.append_nil] at split
        rcases boundary with startsBelow | endsInSlash
        · -- The pieces stop at the end of the text, and a slash follows.
          rcases List.head?_eq_some_iff.mp startsBelow with ⟨more, rfl⟩
          exact ⟨_, more, goesOn _ _ (atSlash _), by simp [split]⟩
        · -- The pieces stop behind a slash, so the last one took nothing and is a star.
          have tookNothing : second = [] := by
            rcases List.eq_nil_or_concat' second with isEmpty | ⟨init, c, rfl⟩
            · exact isEmpty
            · rw [split, ← List.append_assoc, ← List.append_assoc, List.getLast?_concat]
                at endsInSlash
              cases endsInSlash
              exact absurd (by simp) (within.notMem_slash allowsSecond)
          subst tookNothing
          have isStar := within.eq_star allowsSecond
          subst isStar
          rcases exists_allow_star_finish more with ⟨run', rest', allow', rfl⟩
          exact ⟨_, rest', goesOn _ _ allow', by simp [split]⟩
      · rw [split] at noFeed
        exact absurd (by simp) noFeed

end Piece

end DeclIndex.Ignore
