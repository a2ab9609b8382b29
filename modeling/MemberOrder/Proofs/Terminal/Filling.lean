import MemberOrder.Proofs.Text.Blanks
import MemberOrder.Proofs.Text.Graphemes
import MemberOrder.Terminal.Fill

/-!
# Lines that are filled

Filling lines with words loses nothing (`Terminal.flatten_fill`), and every line fits but for the
blanks at its end (`Terminal.fits_fill`). This needs that every blank has a cell and that no joiner
stands beside a blank: else a character that is joined or widened across a blank makes a line wider
than its words are.
-/

namespace MemberOrder

namespace Text

section Selecting

/-- A code point between two bounds is in no range that is beside both. -/
theorem inRanges_eq_false {ranges : List (Nat × Nat)} {first last code : Nat}
    (beside : ranges.all fun range => range.2 < first || last < range.1)
    (bounds : first ≤ code ∧ code ≤ last) : inRanges ranges code = false := by
  rw [inRanges, List.any_eq_false]
  intro range member
  have away := List.all_eq_true.mp beside range member
  simp only [Bool.or_eq_true, Bool.and_eq_true, decide_eq_true_eq] at away ⊢
  omega

/-- A selector does not widen a blank. -/
theorem isSelectable_of_isBlank {c : Char} (blank : isBlank c) : isSelectable (some c) = false := by
  have single {code : Nat} (same : c.toNat = code) : code ≤ c.toNat ∧ c.toNat ≤ code :=
    ⟨same.ge, same.le⟩
  simp only [isBlank, Bool.or_eq_true, Bool.and_eq_true, decide_eq_true_eq, beq_iff_eq, or_assoc]
    at blank
  change inRanges selectableRanges c.toNat = false
  rcases blank with bounds | bounds | same | same | same | bounds | same | same | same | same | same
  · exact inRanges_eq_false (by decide +kernel) bounds
  · exact inRanges_eq_false (by decide +kernel) bounds
  · exact inRanges_eq_false (by decide +kernel) (single same)
  · exact inRanges_eq_false (by decide +kernel) (single same)
  · exact inRanges_eq_false (by decide +kernel) (single same)
  · exact inRanges_eq_false (by decide +kernel) bounds
  all_goals exact inRanges_eq_false (by decide +kernel) (single same)

end Selecting

end Text

namespace Terminal

open Text

/-- Neighbours of which none is a joiner beside a blank. -/
def Joins (first second : Char) : Prop :=
  (isBlank first → second ≠ joiner) ∧ (isBlank second → first ≠ joiner)

instance (first second : Char) : Decidable (Joins first second) :=
  inferInstanceAs (Decidable (_ ∧ _))

/-- A part of a line, in which blanks have cells and joiners are inside of words. -/
structure Measured (line : List Char) : Prop where
  cells : ∀ c ∈ line, isBlank c → cellWidth c ≠ 0
  joins : line.IsChain Joins

/-- A line that ends in a blank if it is not empty. -/
def EndsBlank (line : List Char) : Prop := ∀ c ∈ line.getLast?, isBlank c

/-- A line that ends in a blank or is empty, and a word after it that has no joiner in front. -/
def Follows (line word : List Char) : Prop := EndsBlank line ∧ word.head? ≠ some joiner

/-- A line that has no joiner in front and fits in a number of cells but for blanks. -/
structure Fits (width : Nat) (line : List Char) : Prop where
  begins : line.head? ≠ some joiner
  size : Text.width (trimEndChars line) ≤ width

section Lines

variable {line word more : List Char} {width : Nat}

theorem Measured.of_infix (measured : Measured line) (inside : word <:+: line) : Measured word :=
  ⟨fun c member => measured.cells c (inside.mem member), measured.joins.infix inside⟩

/-- What stands before a blank waits for nothing. -/
theorem Measured.closed_of_blank {c : Char} (measured : Measured (line ++ c :: more))
    (blank : isBlank c) : isOpen line = false := by
  cases closed : isOpen line with
  | false => rfl
  | true =>
      obtain ⟨-, -, between⟩ := List.isChain_append.mp measured.joins
      exact absurd rfl ((between joiner (getLast?_of_isOpen closed) c rfl).2 blank)

/-- After a blank a line goes on as it would begin. -/
theorem Measured.width_append (measured : Measured line) (ends : EndsBlank line)
    (more : List Char) :
    Text.width (line ++ more) = Text.width line + Text.width more := by
  induction line using List.reverseRecOn with
  | nil => simp [Text.width, widthFrom]
  | append_singleton before c _ =>
      have blank : isBlank c := ends c (by simp)
      have cell := measured.cells c (by simp) blank
      have notJoiner := ne_joiner_of_cell cell
      have closedBefore := measured.closed_of_blank blank
      have closed : isOpen (before ++ [c]) = false := by
        rw [isOpen_append closedBefore, isOpen_cons notJoiner]
        rfl
      have last : lastFrom none (before ++ [c]) = some c := by
        rw [lastFrom_append closedBefore, lastFrom_cons notJoiner,
          if_neg (ne_emojiSelector_of_cell cell), if_neg cell]
        rfl
      rw [Text.width, widthFrom_append closed, last]
      exact congrArg _ (widthFrom_congr (isSelectable_of_isBlank blank) more)

theorem endsBlank_append (first : EndsBlank line) (second : EndsBlank word) :
    EndsBlank (line ++ word) := by
  intro c isLast
  rw [List.getLast?_append, Option.mem_def, Option.or_eq_some_iff] at isLast
  obtain ofWord | ⟨-, ofLine⟩ := isLast
  · exact second c ofWord
  · exact first c ofLine

theorem EndsBlank.of_append (ends : EndsBlank (line ++ word)) : EndsBlank word := by
  intro c isLast
  refine ends c ?_
  rw [List.getLast?_append, Option.mem_def.mp isLast]
  rfl

theorem endsBlank_nil : EndsBlank [] := fun _ none => by cases none

theorem head?_ne_of_prefix {c : Char} (leads : word <+: line) (other : line.head? ≠ some c) :
    word.head? ≠ some c := by
  obtain ⟨more, rfl⟩ := leads
  intro same
  rw [List.head?_append, same] at other
  exact other rfl

theorem width_trimEndChars_le (line : List Char) :
    Text.width (trimEndChars line) ≤ Text.width line := by
  obtain ⟨blanks, whole, -⟩ := exists_blanks line
  conv_rhs => rw [whole]
  exact widthFrom_le_append none _ _

theorem Fits.append (fits : Fits width line) (measured : Measured line) (ends : EndsBlank line)
    (begins : word.head? ≠ some joiner)
    (size : Text.width line + Text.width (trimEndChars word) ≤ width) :
    Fits width (line ++ word) := by
  constructor
  · rw [List.head?_append]
    cases found : line.head? with
    | none => simpa using begins
    | some c => simpa [found] using fits.begins
  · by_cases solid : trimEndChars word = []
    · obtain ⟨blanks, whole, all⟩ := exists_blanks word
      rw [solid, List.nil_append] at whole
      rw [whole, trimEndChars_append_blanks line all]
      exact fits.size
    · rwa [trimEndChars_append line solid, measured.width_append ends]

end Lines

section Chopping

variable {held : List Char} {used width : Nat} {graphemes : List Grapheme}

theorem flatten_chopFrom (width used : Nat) (held : List Char) (graphemes : List Grapheme) :
    (chopFrom width used held graphemes).flatten = held ++ graphemes.flatMap Grapheme.chars := by
  fun_induction chopFrom width used held graphemes <;> simp_all

theorem fits_of_width_le (begins : held.head? ≠ some joiner) (size : Text.width held ≤ width) :
    Fits width held :=
  ⟨begins, (width_trimEndChars_le held).trans size⟩

/-- Graphemes in a row that are no wider than a line are chopped into pieces that fit. -/
theorem fits_chopFrom (laid : Laid (⟨held, used⟩ :: graphemes)) (begins : held.head? ≠ some joiner)
    (room : used ≤ width) (small : ∀ grapheme ∈ graphemes, grapheme.cells ≤ width) :
    ∀ piece ∈ chopFrom width used held graphemes, Fits width piece := by
  induction graphemes generalizing held used with
  | nil =>
      refine List.forall_mem_singleton.mpr (fits_of_width_le begins ?_)
      exact (laid.cells _ List.mem_cons_self).trans_le room
  | cons next rest ih =>
      obtain ⟨row, cells⟩ := laid
      obtain ⟨⟨closed, begun⟩, rowRest⟩ := List.isChain_cons_cons.mp row
      obtain ⟨size, sizeNext, sizes⟩ : Text.width held = used ∧ Text.width next.chars = next.cells ∧
          ∀ grapheme ∈ rest, Text.width grapheme.chars = grapheme.cells := by
        simpa using cells
      obtain ⟨smallNext, smallRest⟩ := List.forall_mem_cons.mp small
      rw [chopFrom]
      split
      · refine List.forall_mem_cons.mpr ⟨fits_of_width_le begins (size.trans_le room), ?_⟩
        refine ih ⟨rowRest, List.forall_mem_cons.mpr ⟨sizeNext, sizes⟩⟩ ?_ smallNext smallRest
        obtain ⟨c, after, shape, cell⟩ := begun
        rw [shape]
        exact fun same => ne_joiner_of_cell cell (Option.some.inj same)
      · refine ih ⟨?_, List.forall_mem_cons.mpr ⟨?_, sizes⟩⟩ ?_ (by omega) smallRest
        · refine List.isChain_cons.mpr ⟨fun second isSecond => ?_, (List.isChain_cons.mp rowRest).2⟩
          obtain ⟨closedNext, begunSecond⟩ := (List.isChain_cons.mp rowRest).1 second isSecond
          exact ⟨by rw [isOpen_append closed, closedNext], begunSecond⟩
        · rw [Text.width_append closed begun, size, sizeNext]
        · cases held with
          | nil =>
              obtain ⟨c, after, shape, cell⟩ := begun
              rw [shape]
              exact fun same => ne_joiner_of_cell cell (Option.some.inj same)
          | cons c more => exact begins

/-- A word is chopped into pieces that fit. -/
theorem fits_chop (room : 3 ≤ width) {word : List Char} (begins : word.head? ≠ some joiner) :
    ∀ piece ∈ chop width word, Fits width piece := by
  have laid := laid_graphemes begins
  have whole := flatMap_graphemes word
  have small : ∀ grapheme ∈ graphemes word, grapheme.cells ≤ width := fun grapheme member =>
    (cells_graphemes grapheme member).trans room
  rw [chop]
  generalize graphemes word = all at laid whole small ⊢
  cases all with
  | nil =>
      refine List.forall_mem_singleton.mpr (fits_of_width_le (by simp) ?_)
      exact Nat.zero_le _
  | cons first rest =>
      obtain ⟨smallFirst, smallRest⟩ := List.forall_mem_cons.mp small
      have fitting : ¬ width < 0 + first.cells := by omega
      rw [chopFrom, if_neg fitting, Nat.zero_add]
      refine fits_chopFrom laid (fun same => begins ?_) smallFirst smallRest
      rw [← whole, List.flatMap_cons, List.head?_append, ← List.nil_append first.chars, same]
      rfl

theorem flatten_chop (width : Nat) (word : List Char) : (chop width word).flatten = word := by
  rw [chop, flatten_chopFrom, flatMap_graphemes]
  rfl

end Chopping

section Filling

variable {width : Nat} {line word : List Char} {words : List (List Char)}

/-- The pieces in which a word goes on, after the line so far. -/
def begunLines (width : Nat) (line word : List Char) : List (List Char) :=
  let parts := if width < Text.width (trimEndChars word) then chop width word else [word]
  if line.isEmpty then parts.dropWhile List.isEmpty else line :: parts

theorem flatten_dropWhile_isEmpty (parts : List (List Char)) :
    (parts.dropWhile List.isEmpty).flatten = parts.flatten := by
  induction parts with
  | nil => rfl
  | cons part rest ih =>
      rw [List.dropWhile_cons]
      split
      · next empty => rw [ih, List.isEmpty_iff.mp empty, List.flatten_cons, List.nil_append]
      · rfl

theorem flatten_begunLines (width : Nat) (line word : List Char) :
    (begunLines width line word).flatten = line ++ word := by
  have whole : (if width < Text.width (trimEndChars word) then chop width word
      else [word]).flatten = word := by
    split
    · exact flatten_chop width word
    · exact List.flatten_singleton
  rw [begunLines]
  split
  · next empty => rw [flatten_dropWhile_isEmpty, whole, List.isEmpty_iff.mp empty, List.nil_append]
  · rw [List.flatten_cons, whole]

theorem fits_begunLines (room : 3 ≤ width) (fits : Fits width line)
    (begins : word.head? ≠ some joiner) :
    ∀ begun ∈ begunLines width line word, Fits width begun := by
  have parts : ∀ part ∈ if width < Text.width (trimEndChars word) then chop width word
      else [word], Fits width part := by
    split
    · exact fits_chop room begins
    · next narrow => exact List.forall_mem_singleton.mpr ⟨begins, Nat.not_lt.mp narrow⟩
  rw [begunLines]
  split
  · exact fun begun member => parts begun ((List.dropWhile_sublist _).mem member)
  · exact List.forall_mem_cons.mpr ⟨fits, parts⟩

theorem fill_cons (width : Nat) (line : List Char) (used : Nat) (word : List Char)
    (rest : List (List Char)) : fill .fold width line used (word :: rest) =
      if used + Text.width (trimEndChars word) ≤ width then
        fill .fold width (line ++ word) (used + Text.width word) rest
      else (begunLines width line word).dropLast ++
        fill .fold width ((begunLines width line word).getLast?.getD [])
          (Text.width ((begunLines width line word).getLast?.getD [])) rest := by
  simp [fill, begunLines]

/-- The pieces before the last one, and the last one. -/
theorem flatten_dropLast_append_getLast (lines : List (List Char)) :
    lines.dropLast.flatten ++ lines.getLast?.getD [] = lines.flatten := by
  induction lines using List.reverseRecOn <;> simp

/-- Filling lines loses nothing. -/
theorem flatten_fill (width : Nat) (line : List Char) (used : Nat) (words : List (List Char)) :
    (fill .fold width line used words).flatten = line ++ words.flatten := by
  induction words generalizing line used with
  | nil => simp [fill]
  | cons word rest ih =>
      rw [fill_cons, List.flatten_cons, ← List.append_assoc]
      split
      · rw [ih]
      · rw [List.flatten_append, ih, ← List.append_assoc, flatten_dropLast_append_getLast,
          flatten_begunLines]

/-- Words that end in blanks are set in lines that they fit in. -/
theorem fits_fill (room : 3 ≤ width) (line : List Char)
    (measured : Measured (line ++ words.flatten)) (row : (line :: words).IsChain Follows)
    (fits : Fits width line) :
    ∀ filled ∈ fill .fold width line (Text.width line) words, Fits width filled := by
  induction words generalizing line with
  | nil => exact List.forall_mem_singleton.mpr fits
  | cons word rest ih =>
      obtain ⟨⟨endsLine, begins⟩, rowRest⟩ := List.isChain_cons_cons.mp row
      have measuredLine : Measured line := measured.of_infix (List.prefix_append _ _).isInfix
      -- The other words follow a line that ends as the line so far does with the word.
      have goesOn {last : List Char} (same : EndsBlank (line ++ word) → EndsBlank last) :
          (last :: rest).IsChain Follows :=
        List.IsChain.imp_head (fun follows =>
          ⟨same (endsBlank_append endsLine follows.1), follows.2⟩) rowRest
      rw [fill_cons]
      split
      · next size =>
          rw [← measuredLine.width_append endsLine word]
          refine ih _ ?_ (goesOn id) (fits.append measuredLine endsLine begins size)
          rwa [List.append_assoc]
      · have whole := flatten_dropLast_append_getLast (begunLines width line word)
        rw [flatten_begunLines] at whole
        have begun := fits_begunLines room fits begins
        refine List.forall_mem_append.mpr
          ⟨fun filled member => begun filled (List.dropLast_subset _ member), ?_⟩
        refine ih _ ?_ (goesOn fun both => (whole ▸ both).of_append) ?_
        · refine measured.of_infix ⟨(begunLines width line word).dropLast.flatten, [], ?_⟩
          rw [List.append_nil, ← List.append_assoc, whole, List.flatten_cons, List.append_assoc]
        · cases last : (begunLines width line word).getLast? with
          | none => exact fits_of_width_le (by simp) (Nat.zero_le _)
          | some filled => exact begun filled (List.mem_of_getLast? last)

end Filling

end Terminal

end MemberOrder
