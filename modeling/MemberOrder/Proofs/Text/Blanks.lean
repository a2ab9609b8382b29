import MemberOrder.Text.Blank
import Mathlib.Data.List.DropRight

/-!
# Trimmed lines and pieces of texts

A line is what is left of it when it is trimmed and the blanks at its end
(`Text.exists_blanks`). A text is its pieces between marks with the marks between them
(`Text.intercalate_piecesBetween`).
-/

namespace MemberOrder

namespace Text

section Trimming

variable {line blanks : List Char}

/-- A line is what is left of it without the blanks at its end, and these. -/
theorem exists_blanks (line : List Char) :
    ∃ blanks, line = trimEndChars line ++ blanks ∧ ∀ c ∈ blanks, isBlank c :=
  ⟨line.rtakeWhile isBlank, List.rdropWhile_append_rtakeWhile.symm,
    fun _ => List.mem_rtakeWhile_imp⟩

theorem trimEndChars_append_blanks (line : List Char) (all : ∀ c ∈ blanks, isBlank c) :
    trimEndChars (line ++ blanks) = trimEndChars line := by
  have none : blanks.reverse.dropWhile isBlank = [] :=
    List.dropWhile_eq_nil_iff.mpr fun c member => all c (List.mem_reverse.mp member)
  rw [trimEndChars, List.reverse_append, List.dropWhile_append, none]
  rfl

theorem trimEndChars_append (line : List Char) {more : List Char}
    (solid : trimEndChars more ≠ []) : trimEndChars (line ++ more) = line ++ trimEndChars more := by
  have present : more.reverse.dropWhile isBlank ≠ [] := fun none => solid (by
    rw [trimEndChars, none, List.reverse_nil])
  rw [trimEndChars, List.reverse_append, List.dropWhile_append,
    List.isEmpty_eq_false_iff.mpr present]
  simp [trimEndChars]

theorem trimEndChars_trimEndChars (line : List Char) :
    trimEndChars (trimEndChars line) = trimEndChars line :=
  List.rdropWhile_idempotent isBlank line

end Trimming

section Pieces

theorem exists_piecesBetween (mark : Char) (text : List Char) :
    ∃ piece rest, piecesBetween mark text = piece :: rest := by
  cases text with
  | nil => exact ⟨[], [], rfl⟩
  | cons c rest =>
      rw [piecesBetween, List.foldr_cons]
      split
      · exact ⟨_, _, rfl⟩
      · split <;> exact ⟨_, _, rfl⟩

theorem piecesBetween_mark (mark : Char) (rest : List Char) :
    piecesBetween mark (mark :: rest) = [] :: piecesBetween mark rest := by
  rw [piecesBetween, List.foldr_cons, if_pos rfl]
  rfl

theorem piecesBetween_cons {c mark : Char} (other : c ≠ mark) {text piece : List Char}
    {rest : List (List Char)} (found : piecesBetween mark text = piece :: rest) :
    piecesBetween mark (c :: text) = (c :: piece) :: rest := by
  rw [piecesBetween] at found ⊢
  rw [List.foldr_cons, if_neg other, found]

theorem piecesBetween_of_not_mem {mark : Char} {text : List Char} (absent : mark ∉ text) :
    piecesBetween mark text = [text] := by
  induction text with
  | nil => rfl
  | cons c rest ih =>
      obtain ⟨other, later⟩ := List.ne_and_not_mem_of_not_mem_cons absent
      exact piecesBetween_cons other.symm (ih later)

theorem piecesBetween_append {mark : Char} {first rest : List Char} (absent : mark ∉ first) :
    piecesBetween mark (first ++ mark :: rest) = first :: piecesBetween mark rest := by
  induction first with
  | nil => exact piecesBetween_mark mark rest
  | cons c more ih =>
      obtain ⟨other, later⟩ := List.ne_and_not_mem_of_not_mem_cons absent
      exact piecesBetween_cons other.symm (ih later)

/-- A text is its pieces with marks between them. -/
theorem intercalate_piecesBetween (mark : Char) (text : List Char) :
    [mark].intercalate (piecesBetween mark text) = text := by
  induction text with
  | nil => rfl
  | cons c text ih =>
      obtain ⟨piece, rest, found⟩ := exists_piecesBetween mark text
      by_cases same : c = mark
      · subst same
        rw [piecesBetween_mark, found]
        rw [found] at ih
        conv_rhs => rw [← ih]
        rfl
      · rw [piecesBetween_cons same found]
        rw [found] at ih
        cases rest with
        | nil => simpa [List.intercalate] using ih
        | cons next others => simpa [List.intercalate] using ih

/-- The pieces have all characters but the marks. -/
theorem flatten_piecesBetween (mark : Char) (text : List Char) :
    (piecesBetween mark text).flatten = text.filter (· ≠ mark) := by
  induction text with
  | nil => rfl
  | cons c text ih =>
      obtain ⟨piece, rest, found⟩ := exists_piecesBetween mark text
      by_cases same : c = mark
      · subst same
        rw [piecesBetween_mark]
        simpa using ih
      · rw [piecesBetween_cons same found]
        rw [found] at ih
        simpa [same] using ih

theorem mem_of_mem_piecesBetween {mark c : Char} {text piece : List Char}
    (listed : piece ∈ piecesBetween mark text) (member : c ∈ piece) : c ∈ text ∧ c ≠ mark := by
  have inside := List.mem_flatten.mpr ⟨piece, listed, member⟩
  rw [flatten_piecesBetween] at inside
  simpa using inside

theorem intercalate_cons_cons (mark : Char) (piece next : List Char) (rest : List (List Char)) :
    [mark].intercalate (piece :: next :: rest) =
      piece ++ mark :: [mark].intercalate (next :: rest) := by
  simp [List.intercalate]

end Pieces

end Text

end MemberOrder
