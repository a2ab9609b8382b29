import MemberOrder.Text.Width
import Mathlib.Algebra.GroupWithZero.Nat
import Mathlib.Data.List.Chain

/-!
# Graphemes and widths

How wide a text is after another one depends on two things at the end of the first: a joiner there
takes the next character with it, and a selector may widen the last character with a cell. Where
the second text begins with a character that has a cell neither matters, and the widths add up
(`Text.width_append`). So the cells of the graphemes of a text are its width
(`Text.sum_cells_graphemes`).
-/

namespace MemberOrder

namespace Text

/-- Whether a text ends in a joiner that waits for a character. -/
def isOpen : List Char → Bool
  | [] => false
  | c :: rest =>
    if c = joiner then
      match rest with
      | [] => true
      | _ :: rest => isOpen rest
    else isOpen rest

/-- The character that a selector after a text may widen, given the one before the text. -/
def lastFrom (last : Option Char) : List Char → Option Char
  | [] => last
  | c :: rest =>
    if c = joiner then
      match rest with
      | [] => last
      | _ :: rest => lastFrom last rest
    else if c = emojiSelector then lastFrom none rest
    else if cellWidth c = 0 then lastFrom last rest
    else lastFrom (some c) rest

section Characters

variable {c : Char}

theorem cellWidth_joiner : cellWidth joiner = 0 := by decide +kernel

theorem cellWidth_emojiSelector : cellWidth emojiSelector = 0 := by decide +kernel

theorem ne_joiner_of_cell (cell : cellWidth c ≠ 0) : c ≠ joiner := fun same =>
  cell (same ▸ cellWidth_joiner)

theorem ne_emojiSelector_of_cell (cell : cellWidth c ≠ 0) : c ≠ emojiSelector := fun same =>
  cell (same ▸ cellWidth_emojiSelector)

theorem cellWidth_le (c : Char) : cellWidth c ≤ 2 := by
  unfold cellWidth
  split_ifs <;> omega

end Characters

section Steps

variable {c : Char} (other : c ≠ joiner) (last : Option Char) (rest : List Char)

include other

theorem isOpen_cons : isOpen (c :: rest) = isOpen rest := by
  cases rest <;> simp [isOpen, other]

theorem lastFrom_cons : lastFrom last (c :: rest) =
    if c = emojiSelector then lastFrom none rest
    else if cellWidth c = 0 then lastFrom last rest
    else lastFrom (some c) rest := by
  cases rest <;> simp [lastFrom, other]

theorem widthFrom_cons : widthFrom last (c :: rest) =
    if c = emojiSelector then (isSelectable last).toNat + widthFrom none rest
    else if cellWidth c = 0 then widthFrom last rest
    else cellWidth c + widthFrom (some c) rest := by
  cases rest <;> simp [widthFrom, other]

end Steps

section Joining

variable {first : List Char} (closed : isOpen first = false)

include closed

theorem isOpen_append (second : List Char) : isOpen (first ++ second) = isOpen second := by
  fun_induction isOpen first with
  | case1 => rfl
  | case2 => cases closed
  | case3 d rest ih => simp [isOpen, ih closed]
  | case4 c rest other ih => rw [List.cons_append, isOpen_cons other, ih closed]

theorem lastFrom_append (last : Option Char) (second : List Char) :
    lastFrom last (first ++ second) = lastFrom (lastFrom last first) second := by
  fun_induction isOpen first generalizing last with
  | case1 => rfl
  | case2 => cases closed
  | case3 d rest ih => simp [lastFrom, ih closed]
  | case4 c rest other ih =>
      rw [List.cons_append, lastFrom_cons other, lastFrom_cons other]
      simp only [ih closed]
      split_ifs <;> rfl

theorem widthFrom_append (last : Option Char) (second : List Char) :
    widthFrom last (first ++ second) =
      widthFrom last first + widthFrom (lastFrom last first) second := by
  fun_induction isOpen first generalizing last with
  | case1 => simp [widthFrom, lastFrom]
  | case2 => cases closed
  | case3 d rest ih => simp [widthFrom, lastFrom, ih closed]
  | case4 c rest other ih =>
      rw [List.cons_append, widthFrom_cons other, widthFrom_cons other, lastFrom_cons other]
      simp only [ih closed]
      split_ifs <;> simp only [Nat.add_assoc]

end Joining

/-- Of the last character only counts whether a selector widens it. -/
theorem widthFrom_congr {last other : Option Char} (same : isSelectable last = isSelectable other)
    (text : List Char) : widthFrom last text = widthFrom other text := by
  fun_induction isOpen text with
  | case1 => rfl
  | case2 => rfl
  | case3 d rest ih => simpa [widthFrom] using ih
  | case4 c rest notJoiner ih => rw [widthFrom_cons notJoiner, widthFrom_cons notJoiner, same, ih]

theorem isSelectable_lastFrom_congr {last other : Option Char}
    (same : isSelectable last = isSelectable other) (text : List Char) :
    isSelectable (lastFrom last text) = isSelectable (lastFrom other text) := by
  fun_induction isOpen text with
  | case1 => exact same
  | case2 => exact same
  | case3 d rest ih => simpa [lastFrom] using ih
  | case4 c rest notJoiner ih =>
      rw [lastFrom_cons notJoiner, lastFrom_cons notJoiner]
      split_ifs
      · rfl
      · exact ih
      · rfl

/-- A text that waits for a character ends in a joiner. -/
theorem getLast?_of_isOpen {text : List Char} (waits : isOpen text) :
    text.getLast? = some joiner := by
  fun_induction isOpen text with
  | case1 => cases waits
  | case2 => rfl
  | case3 d rest ih => simp [List.getLast?_cons, ih waits]
  | case4 c rest other ih => simp [List.getLast?_cons, ih waits]

theorem widthFrom_le_append (last : Option Char) (first second : List Char) :
    widthFrom last first ≤ widthFrom last (first ++ second) := by
  fun_induction isOpen first generalizing last with
  | case1 => exact Nat.zero_le _
  | case2 => exact Nat.zero_le _
  | case3 d rest ih => simpa [widthFrom] using ih last
  | case4 c rest other ih =>
      rw [List.cons_append, widthFrom_cons other, widthFrom_cons other]
      split_ifs
      · exact Nat.add_le_add_left (ih _) _
      · exact ih _
      · exact Nat.add_le_add_left (ih _) _

/-- A text that begins with a character of its own cell. -/
def BeginsWithCell (text : List Char) : Prop := ∃ c rest, text = c :: rest ∧ cellWidth c ≠ 0

theorem widthFrom_of_beginsWithCell {text : List Char} (begins : BeginsWithCell text)
    (last : Option Char) : widthFrom last text = width text := by
  obtain ⟨c, rest, rfl, cell⟩ := begins
  have plain := ne_emojiSelector_of_cell cell
  rw [width, widthFrom_cons (ne_joiner_of_cell cell), widthFrom_cons (ne_joiner_of_cell cell),
    if_neg plain, if_neg plain, if_neg cell, if_neg cell]

theorem width_append {first second : List Char} (closed : isOpen first = false)
    (begins : BeginsWithCell second) : width (first ++ second) = width first + width second := by
  rw [width, widthFrom_append closed, widthFrom_of_beginsWithCell begins]
  rfl

namespace Grapheme

/-- A grapheme that waits for nothing stands before one that begins with a cell. -/
def Before (first second : Grapheme) : Prop :=
  isOpen first.chars = false ∧ BeginsWithCell second.chars

end Grapheme

/-- Graphemes in a row, whose cells are their widths. -/
structure Laid (graphemes : List Grapheme) : Prop where
  row : graphemes.IsChain Grapheme.Before
  cells : ∀ grapheme ∈ graphemes, width grapheme.chars = grapheme.cells

section Graphemes

variable {held text : List Char} {cells : Nat} {last : Option Char}

theorem flatMap_graphemesFrom (held : List Char) (cells : Nat) (last : Option Char)
    (text : List Char) :
    (graphemesFrom held cells last text).flatMap Grapheme.chars = held.reverse ++ text := by
  fun_induction graphemesFrom held cells last text <;> simp_all

theorem flatMap_graphemes (text : List Char) : (graphemes text).flatMap Grapheme.chars = text := by
  cases text with
  | nil => rfl
  | cons c rest => exact flatMap_graphemesFrom [c] _ _ rest

theorem head_graphemesFrom (held : List Char) (cells : Nat) (last : Option Char)
    (text : List Char) : ∃ first more, graphemesFrom held cells last text = first :: more ∧
      held.reverse <+: first.chars := by
  fun_induction graphemesFrom held cells last text with
  | case1 => exact ⟨_, _, rfl, List.prefix_rfl⟩
  | case2 => exact ⟨_, _, rfl, by simp⟩
  | case3 held _ _ d rest ih =>
      obtain ⟨first, more, same, leads⟩ := ih
      exact ⟨first, more, same, .trans ⟨[joiner, d], by simp⟩ leads⟩
  | case4 held _ _ c rest _ _ ih =>
      obtain ⟨first, more, same, leads⟩ := ih
      exact ⟨first, more, same, .trans ⟨[c], by simp⟩ leads⟩
  | case5 held _ _ c rest _ _ _ ih =>
      obtain ⟨first, more, same, leads⟩ := ih
      exact ⟨first, more, same, .trans ⟨[c], by simp⟩ leads⟩
  | case6 => exact ⟨_, _, rfl, List.prefix_rfl⟩

/-- Whether what is held of a grapheme waits for nothing, takes the cells that are counted for it
and ends in a character that a selector widens if it widens `last`. -/
structure Counted (held : List Char) (cells : Nat) (last : Option Char) : Prop where
  closed : isOpen held.reverse = false
  size : width held.reverse = cells
  same : isSelectable last = isSelectable (lastFrom none held.reverse)

/-- Characters that wait for nothing add their width to what is held. -/
theorem Counted.extend (counted : Counted held cells last) {more : List Char}
    (closed : isOpen more = false) :
    Counted (more.reverse ++ held) (cells + widthFrom last more) (lastFrom last more) := by
  have joined : (more.reverse ++ held).reverse = held.reverse ++ more := by simp
  refine ⟨?_, ?_, ?_⟩ <;> rw [joined]
  · rw [isOpen_append counted.closed, closed]
  · rw [width, widthFrom_append counted.closed, ← width, counted.size,
      widthFrom_congr counted.same]
  · rw [lastFrom_append counted.closed, isSelectable_lastFrom_congr counted.same]

/-- A joiner takes the next character with it. -/
theorem Counted.joined (counted : Counted held cells last) (d : Char) :
    Counted (d :: joiner :: held) cells last :=
  @Counted.extend _ _ _ counted [joiner, d] rfl

/-- A selector adds a cell to a character that it widens. -/
theorem Counted.widened (counted : Counted held cells last) (selectable : isSelectable last) :
    Counted (emojiSelector :: held) (cells + 1) none := by
  have extended := @Counted.extend _ _ _ counted [emojiSelector] rfl
  have size : widthFrom last [emojiSelector] = 1 := by
    rw [widthFrom_cons (by decide), if_pos rfl, selectable]
    rfl
  rwa [size, lastFrom_cons (by decide), if_pos rfl] at extended

/-- A character without a cell that widens nothing leaves the count. -/
theorem Counted.zero (counted : Counted held cells last) {c : Char} (notJoiner : c ≠ joiner)
    (notWidened : ¬(c = emojiSelector ∧ isSelectable last)) (zero : cellWidth c = 0) :
    Counted (c :: held) cells last := by
  have unwidened (selector : c = emojiSelector) : isSelectable last = false := by
    simpa [selector] using notWidened
  have extended := @Counted.extend _ _ _ counted [c] (isOpen_cons notJoiner [])
  have size : widthFrom last [c] = 0 := by
    rw [widthFrom_cons notJoiner, if_pos zero]
    split
    · next selector => rw [unwidened selector]; rfl
    · rfl
  have same : isSelectable last = isSelectable (lastFrom last [c]) := by
    rw [lastFrom_cons notJoiner, if_pos zero]
    split
    · next selector => exact unwidened selector
    · rfl
  rw [size] at extended
  exact ⟨extended.closed, extended.size, same.trans extended.same⟩

theorem counted_singleton {c : Char} (notJoiner : c ≠ joiner) :
    Counted [c] (cellWidth c) (if cellWidth c = 0 then none else some c) := by
  refine ⟨isOpen_cons notJoiner [], ?_, ?_⟩ <;> rw [List.reverse_singleton]
  · rw [width, widthFrom_cons notJoiner]
    split
    · next selector => rw [selector, cellWidth_emojiSelector]; rfl
    · split
      · next zero => rw [zero]; rfl
      · rfl
  · rw [lastFrom_cons notJoiner]
    split
    · next zero => simp [lastFrom]
    · next cell => simp [lastFrom, ne_emojiSelector_of_cell cell]

/-- Graphemes are in a row, if what is held of the first one waits for nothing. -/
theorem laid_graphemesFrom (counted : Counted held cells last) (text : List Char) :
    Laid (graphemesFrom held cells last text) := by
  fun_induction graphemesFrom held cells last text with
  | case1 => exact ⟨List.isChain_singleton _, by simpa using counted.size⟩
  | case2 held cells last =>
      refine ⟨List.isChain_singleton _, List.forall_mem_singleton.mpr ?_⟩
      rw [List.reverse_cons, width, widthFrom_append counted.closed, ← width, counted.size]
      rfl
  | case3 held cells last d rest ih => exact ih (counted.joined d)
  | case4 held cells last c rest notJoiner widened ih =>
      obtain ⟨rfl, selectable⟩ := widened
      exact ih (counted.widened selectable)
  | case5 held cells last c rest notJoiner notWidened zero ih =>
      exact ih (counted.zero notJoiner notWidened zero)
  | case6 held cells last c rest notJoiner notWidened cell ih =>
      have single := counted_singleton notJoiner
      rw [if_neg cell] at single
      obtain ⟨row, cells⟩ := ih single
      obtain ⟨first, more, begins, leads⟩ := head_graphemesFrom [c] (cellWidth c) (some c) rest
      refine ⟨List.isChain_cons.mpr ⟨fun next isNext => ?_, row⟩,
        List.forall_mem_cons.mpr ⟨counted.size, cells⟩⟩
      obtain ⟨after, shape⟩ := leads
      rw [begins] at isNext
      obtain rfl : first = next := by simpa using isNext
      exact ⟨counted.closed, c, after, shape.symm, cell⟩

theorem laid_graphemes {text : List Char} (begins : text.head? ≠ some joiner) :
    Laid (graphemes text) := by
  cases text with
  | nil => exact ⟨List.isChain_nil, fun _ member => absurd member List.not_mem_nil⟩
  | cons c rest =>
      exact laid_graphemesFrom (counted_singleton fun same => begins (congrArg some same)) rest

/-- The cells of graphemes in a row are the width of their text. -/
theorem Laid.sum_cells {graphemes : List Grapheme} (laid : Laid graphemes) :
    (graphemes.map Grapheme.cells).sum = width (graphemes.flatMap Grapheme.chars) := by
  induction graphemes with
  | nil => rfl
  | cons first rest ih =>
      obtain ⟨row, cells⟩ := laid
      obtain ⟨size, others⟩ := List.forall_mem_cons.mp cells
      obtain ⟨next, rowRest⟩ := List.isChain_cons.mp row
      have sum := ih ⟨rowRest, others⟩
      rw [List.map_cons, List.sum_cons, List.flatMap_cons, sum, ← size]
      cases rest with
      | nil => simp [width, widthFrom]
      | cons second more =>
          obtain ⟨closed, c, after, shape, cell⟩ := next second rfl
          refine (width_append closed ⟨c, after ++ more.flatMap Grapheme.chars, ?_, cell⟩).symm
          rw [List.flatMap_cons, shape, List.cons_append]

/-- The cells of all graphemes of a text are its width. -/
theorem sum_cells_graphemes (begins : text.head? ≠ some joiner) :
    ((graphemes text).map Grapheme.cells).sum = width text := by
  rw [(laid_graphemes begins).sum_cells, flatMap_graphemes]

/-- No grapheme takes more than three cells. -/
theorem cells_graphemesFrom (bound : cells + (isSelectable last).toNat ≤ 3) :
    ∀ grapheme ∈ graphemesFrom held cells last text, grapheme.cells ≤ 3 := by
  fun_induction graphemesFrom held cells last text with
  | case1 => simpa using Nat.le_of_add_right_le bound
  | case2 => simpa using Nat.le_of_add_right_le bound
  | case3 _ _ _ _ _ ih => exact ih bound
  | case4 held cells last c rest _ widened ih =>
      rw [widened.2] at bound
      exact ih bound
  | case5 _ _ _ _ _ _ _ _ ih => exact ih bound
  | case6 held cells last c rest _ _ _ ih =>
      refine List.forall_mem_cons.mpr ⟨Nat.le_of_add_right_le bound, ih ?_⟩
      exact Nat.add_le_add (cellWidth_le c) (Bool.toNat_le _)

theorem cells_graphemes : ∀ grapheme ∈ graphemes text, grapheme.cells ≤ 3 := by
  cases text with
  | nil => exact fun _ member => absurd member List.not_mem_nil
  | cons c rest => exact cells_graphemesFrom (Nat.add_le_add (cellWidth_le c) (Bool.toNat_le _))

theorem graphemesFrom_cons {c : Char} (other : c ≠ joiner) (held : List Char) (cells : Nat)
    (last : Option Char) (rest : List Char) : graphemesFrom held cells last (c :: rest) =
      if c = emojiSelector ∧ isSelectable last then
        graphemesFrom (c :: held) (cells + 1) none rest
      else if cellWidth c = 0 then graphemesFrom (c :: held) cells last rest
      else ⟨held.reverse, cells⟩ :: graphemesFrom [c] (cellWidth c) (some c) rest := by
  cases rest <;> simp [graphemesFrom, other]

theorem graphemesFrom_append (closed : isOpen text = false) {second : List Char}
    (begins : BeginsWithCell second) (held : List Char) (cells : Nat) (last : Option Char) :
    graphemesFrom held cells last (text ++ second) =
      graphemesFrom held cells last text ++ graphemes second := by
  fun_induction isOpen text generalizing held cells last with
  | case1 =>
      obtain ⟨c, rest, rfl, cell⟩ := begins
      rw [List.nil_append, graphemesFrom_cons (ne_joiner_of_cell cell),
        if_neg fun widened => ne_emojiSelector_of_cell cell widened.1, if_neg cell, graphemes,
        if_neg cell]
      rfl
  | case2 => cases closed
  | case3 d rest ih => simp [graphemesFrom, ih closed]
  | case4 c rest other ih =>
      rw [List.cons_append, graphemesFrom_cons other, graphemesFrom_cons other]
      simp only [ih closed]
      split_ifs <;> rfl

/-- A text that waits for nothing and one that begins with a cell have their graphemes apart. -/
theorem graphemes_append {second : List Char} (nonempty : text ≠ [])
    (notJoiner : text.head? ≠ some joiner) (closed : isOpen text = false)
    (begins : BeginsWithCell second) :
    graphemes (text ++ second) = graphemes text ++ graphemes second := by
  cases text with
  | nil => exact absurd rfl nonempty
  | cons first more =>
      have other : first ≠ joiner := fun same => notJoiner (congrArg some same)
      rw [isOpen_cons other] at closed
      exact graphemesFrom_append closed begins _ _ _

end Graphemes

end Text

end MemberOrder
