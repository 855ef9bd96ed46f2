import DeclIndex.Text.Blank
import Mathlib.Data.List.TakeWhile

/-!
# Trimmed texts

Trimming drops nothing from a text that neither starts nor ends with a character to drop
(`Text.trim_eq_self`), and leaves such a text behind.
-/

namespace DeclIndex.Text

variable {drops : Char → Bool} {text : List Char}

/-! ## The end of a text -/

theorem dropWhile_of_head? (keepsFirst : ∀ c ∈ text.head?, drops c = false) :
    text.dropWhile drops = text := by
  cases text with
  | nil => rfl
  | cons c text => simp [keepsFirst c rfl]

theorem dropEndWhile_of_getLast? (keepsLast : ∀ c ∈ text.getLast?, drops c = false) :
    dropEndWhile drops text = text := by
  rw [dropEndWhile, dropWhile_of_head?, List.reverse_reverse]
  rwa [List.head?_reverse]

theorem dropEndWhile_cons {c : Char} (keeps : drops c = false) (text : List Char) :
    dropEndWhile drops (c :: text) = c :: dropEndWhile drops text := by
  rw [dropEndWhile, dropEndWhile, List.reverse_cons, List.dropWhile_append]
  split
  next isEmpty =>
    rw [List.isEmpty_iff.mp isEmpty, List.dropWhile_cons_of_neg (by simp [keeps])]
    rfl
  next => rw [List.reverse_concat]

theorem dropEndWhile_eq_nil (dropsAll : ∀ c ∈ text, drops c = true) :
    dropEndWhile drops text = [] := by
  rw [dropEndWhile, List.reverse_eq_nil_iff, List.dropWhile_eq_nil_iff]
  intro c isIn
  exact dropsAll c (List.mem_reverse.mp isIn)

theorem getLast?_dropEndWhile (drops : Char → Bool) (text : List Char) :
    ∀ c ∈ (dropEndWhile drops text).getLast?, drops c = false := by
  intro c isLast
  rw [dropEndWhile, List.getLast?_reverse] at isLast
  have notDropped := List.head?_dropWhile_not drops text.reverse
  rw [Option.mem_def.mp isLast] at notDropped
  simpa using notDropped

theorem exists_append_dropEndWhile (drops : Char → Bool) (text : List Char) :
    ∃ ending, dropEndWhile drops text ++ ending = text ∧ ∀ c ∈ ending, drops c = true := by
  refine ⟨(text.reverse.takeWhile drops).reverse, ?_, ?_⟩
  · rw [dropEndWhile, ← List.reverse_append, List.takeWhile_append_dropWhile, List.reverse_reverse]
  · intro c isIn
    exact List.mem_takeWhile_imp (List.mem_reverse.mp isIn)

theorem dropEndWhile_prefix (drops : Char → Bool) (text : List Char) :
    dropEndWhile drops text <+: text := by
  rcases exists_append_dropEndWhile drops text with ⟨ending, isText, _⟩
  exact ⟨ending, isText⟩

/-! ## Both ends -/

theorem trim_of_head? (keepsFirst : ∀ c ∈ text.head?, drops c = false) :
    trim drops text = dropEndWhile drops text := by
  rw [trim, dropWhile_of_head? keepsFirst]

theorem trim_eq_self (keepsFirst : ∀ c ∈ text.head?, drops c = false)
    (keepsLast : ∀ c ∈ text.getLast?, drops c = false) : trim drops text = text := by
  rw [trim_of_head? keepsFirst, dropEndWhile_of_getLast? keepsLast]

theorem trim_concat {c : Char} (isDropped : drops c = true) (text : List Char) :
    trim drops (text ++ [c]) = trim drops text := by
  have dropsLast : [c].dropWhile drops = [] := List.dropWhile_cons_of_pos isDropped
  rw [trim, trim, List.dropWhile_append]
  split
  next isEmpty => rw [dropsLast, List.isEmpty_iff.mp isEmpty]
  next =>
    rw [dropEndWhile, List.reverse_concat, List.dropWhile_cons_of_pos isDropped]
    rfl

theorem trim_eq_nil (dropsAll : ∀ c ∈ text, drops c = true) : trim drops text = [] := by
  rw [trim, List.dropWhile_eq_nil_iff.mpr dropsAll]
  rfl

end DeclIndex.Text
