import MemberOrder.Proofs.Terminal.Filling
import Mathlib.Data.List.SplitBy

/-!
# Lines that are wrapped

A text set in lines of the screen is broken after blanks and inside of words that are too long for a
line, and loses blanks at the ends of the new lines only (`Terminal.setText_wraps`).
-/

namespace MemberOrder

namespace Terminal

open Text

section Aligning

variable {width : Nat} {line blanks : List Char}

theorem isBlank_of_mem_cutGraphemes {graphemes : List Grapheme}
    (all : ∀ c ∈ graphemes.flatMap Grapheme.chars, isBlank c) :
    ∀ c ∈ cutGraphemes width graphemes, isBlank c := by
  induction graphemes generalizing width with
  | nil => exact fun _ member => absurd member List.not_mem_nil
  | cons first rest ih =>
      rw [List.flatMap_cons, List.forall_mem_append] at all
      rw [cutGraphemes]
      split
      · exact List.forall_mem_append.mpr ⟨all.1, ih all.2⟩
      · intro c member
        rw [List.eq_of_mem_replicate member]
        rfl

/-- Graphemes that fit are kept. -/
theorem cutGraphemes_append {first : List Grapheme} (second : List Grapheme)
    (room : (first.map Grapheme.cells).sum ≤ width) : cutGraphemes width (first ++ second) =
      first.flatMap Grapheme.chars ++
        cutGraphemes (width - (first.map Grapheme.cells).sum) second := by
  induction first generalizing width with
  | nil => rfl
  | cons next rest ih =>
      rw [List.map_cons, List.sum_cons] at room
      rw [List.cons_append, cutGraphemes, if_pos (by omega), ih (by omega), List.map_cons,
        List.sum_cons, List.flatMap_cons, List.append_assoc, Nat.sub_sub]

/-- A line that fits is cut within the blanks at its end. -/
theorem exists_cut (room : 3 ≤ width) (measured : Measured (line ++ blanks))
    (all : ∀ c ∈ blanks, isBlank c) (begins : line.head? ≠ some joiner)
    (size : Text.width line ≤ width) :
    ∃ kept, (∀ c ∈ kept, isBlank c) ∧
      truncate .fold width (line ++ blanks) = line ++ kept := by
  rw [truncate]
  split
  · exact ⟨blanks, all, rfl⟩
  · next wide =>
      simp only [cut]
      rw [if_neg (by omega)]
      cases blanks with
      | nil => exact absurd size (by rwa [List.append_nil] at wide)
      | cons c rest =>
          have blank : ∀ d ∈ (graphemes (c :: rest)).flatMap Grapheme.chars, isBlank d := by
            rwa [flatMap_graphemes]
          by_cases empty : line = []
          · rw [empty, List.nil_append]
            exact ⟨_, isBlank_of_mem_cutGraphemes blank, rfl⟩
          · have isFirst : isBlank c := all c List.mem_cons_self
            have cell : BeginsWithCell (c :: rest) :=
              ⟨c, rest, rfl, measured.cells c (by simp) isFirst⟩
            have sum := sum_cells_graphemes begins
            rw [graphemes_append empty begins (measured.closed_of_blank isFirst) cell,
              cutGraphemes_append _ (sum.trans_le size), flatMap_graphemes]
            exact ⟨_, isBlank_of_mem_cutGraphemes blank, rfl⟩

/-- A line loses blanks at its end only where they are beyond the last column. -/
theorem exists_trimExcess (width : Nat) (whole : line = trimEndChars line ++ blanks) :
    ∃ count, trimExcess width line = trimEndChars line ++ blanks.take count := by
  have size := congrArg List.length whole
  rw [List.length_append] at size
  rw [trimExcess]
  generalize excess : line.length - min _ _ = count
  refine ⟨count - (trimEndChars line).length, ?_⟩
  conv_lhs => rw [whole]
  rw [List.take_append, List.take_of_length_le (by omega)]

/-- A line that fits keeps all but blanks at its end. -/
theorem trimEndChars_align (room : 3 ≤ width) (measured : Measured line) (fits : Fits width line) :
    trimEndChars (align .free .fold width (trimExcess width line)) = trimEndChars line := by
  obtain ⟨blanks, whole, all⟩ := exists_blanks line
  obtain ⟨count, trimmed⟩ := exists_trimExcess width whole
  have fewer : ∀ c ∈ blanks.take count, isBlank c := fun c member =>
    all c (List.mem_of_mem_take member)
  have begins := head?_ne_of_prefix (List.rdropWhile_prefix isBlank line) fits.begins
  have measuredKept : Measured (trimEndChars line ++ blanks.take count) := by
    refine measured.of_infix (List.IsPrefix.isInfix ?_)
    conv_rhs => rw [whole]
    exact (List.prefix_append_right_inj _).mpr (List.take_prefix _ _)
  obtain ⟨kept, blank, cutOff⟩ := exists_cut room measuredKept fewer begins fits.size
  rw [align, trimmed, cutOff, trimEndChars_append_blanks _ blank, trimEndChars_trimEndChars]

end Aligning

section Words

variable {line : List Char}

/-- Whether two characters next to each other are within one word. -/
def within (c d : Char) : Bool := !(isBlank c && !isBlank d)

/-- The words of a line are the line itself, or its pieces, of which a first one without a word
goes to the second. -/
theorem lineWords_cases (line : List Char) :
    setText.lineWords line = [line] ∨ setText.lineWords line = line.splitBy within ∨
      ∃ first second more, first.all isBlank ∧ line.splitBy within = first :: second :: more ∧
        setText.lineWords line = (first ++ second) :: more := by
  have divided : (line.splitBy fun c d => !(isBlank c && !isBlank d)) = line.splitBy within := rfl
  simp only [setText.lineWords, words, divided]
  cases line.splitBy within with
  | nil => exact .inl rfl
  | cons first rest =>
      cases blank : first.all isBlank with
      | false => simp [blank]
      | true =>
          cases rest with
          | nil => simp [blank]
          | cons second more => exact .inr (.inr ⟨first, second, more, blank, rfl, by simp [blank]⟩)

/-- Words are divided after a blank and before what is neither blank nor a joiner. -/
theorem isChain_splitBy (joins : line.IsChain Joins) : (line.splitBy within).IsChain Follows := by
  have edges := List.isChain_getLast_head_splitBy within line
  rw [← List.flatten_splitBy within line] at joins
  have across := ((List.isChain_flatten (List.nil_notMem_splitBy _ _)).mp joins).2
  rw [List.isChain_iff_forall_rel_of_append_cons_cons] at edges across ⊢
  intro word next before after same
  obtain ⟨present, presentNext, divided⟩ := edges same
  have blank : isBlank (word.getLast present) := by
    simp only [within, Bool.not_eq_false', Bool.and_eq_true] at divided
    exact divided.1
  have isLast := List.getLast?_eq_some_getLast present
  refine ⟨fun c found => ?_, fun isJoiner => ?_⟩
  · rw [Option.mem_def, isLast] at found
    exact Option.some.inj found ▸ blank
  · exact (across same _ isLast joiner isJoiner).1 blank rfl

/-- The words of a line make it up. -/
theorem flatten_lineWords (line : List Char) : (setText.lineWords line).flatten = line := by
  have whole := List.flatten_splitBy within line
  obtain single | pieces | ⟨first, second, more, -, pieces, joined⟩ := lineWords_cases line
  · rw [single, List.flatten_singleton]
  · rw [pieces, whole]
  · rw [pieces, List.flatten_cons, List.flatten_cons, ← List.append_assoc] at whole
    rw [joined, List.flatten_cons, whole]

/-- The words of a line that begins as after a blank follow one another. -/
theorem isChain_lineWords (joins : (' ' :: line).IsChain Joins) :
    (([] : List Char) :: setText.lineWords line).IsChain Follows := by
  obtain ⟨begins, joinsLine⟩ := List.isChain_cons.mp joins
  have notJoiner : line.head? ≠ some joiner := fun same => (begins joiner same).1 rfl rfl
  have row : (setText.lineWords line).IsChain Follows := by
    have pieces := isChain_splitBy joinsLine
    obtain single | same | ⟨first, second, more, blank, same, joined⟩ := lineWords_cases line
    · rw [single]
      exact List.isChain_singleton _
    · rwa [same]
    · rw [same] at pieces
      have endsFirst : EndsBlank first := fun c isLast =>
        List.all_eq_true.mp blank c (List.mem_of_getLast? isLast)
      rw [joined]
      exact List.IsChain.imp_head
        (fun follows => ⟨endsBlank_append endsFirst follows.1, follows.2⟩) pieces.tail
  refine List.isChain_cons.mpr ⟨fun word isFirst => ⟨endsBlank_nil, ?_⟩, row⟩
  obtain ⟨rest, same⟩ := List.head?_eq_some_iff.mp isFirst
  refine head?_ne_of_prefix ⟨rest.flatten, ?_⟩ notJoiner
  rw [← List.flatten_cons, ← same, flatten_lineWords]

end Words

section Tabs

variable {pieces : List (List Char)}

section Joins

variable {mark c : Char} (blank : isBlank mark)

include blank

/-- All blanks are alike to the character after them. -/
theorem Joins.after_space (joins : Joins mark c) : Joins ' ' c :=
  ⟨fun _ => joins.1 blank, fun _ => by decide⟩

theorem Joins.before_space (joins : Joins c mark) : Joins c ' ' :=
  ⟨fun _ => by decide, fun _ => joins.2 blank⟩

/-- The pieces between blanks begin as after a blank. -/
theorem isChain_piece (joins : (' ' :: [mark].intercalate pieces).IsChain Joins) :
    ∀ piece ∈ pieces, (' ' :: piece).IsChain Joins := by
  induction pieces with
  | nil => exact fun _ member => absurd member List.not_mem_nil
  | cons piece rest ih =>
      cases rest with
      | nil =>
          refine List.forall_mem_singleton.mpr ?_
          simpa [List.intercalate] using joins
      | cons next others =>
          rw [intercalate_cons_cons, ← List.cons_append] at joins
          exact List.forall_mem_cons.mpr ⟨joins.left_of_append,
            ih (List.IsChain.imp_head (·.after_space blank) joins.right_of_append)⟩

end Joins

theorem isChain_spaces {line : List Char} (joins : (' ' :: line).IsChain Joins) (count : Nat) :
    (' ' :: (List.replicate count ' ' ++ line)).IsChain Joins := by
  induction count with
  | zero => exact joins
  | succ count ih => exact List.isChain_cons_cons.mpr ⟨by decide, ih⟩

theorem expandTabsFrom_cons_cons (column : Nat) (piece next : List Char)
    (rest : List (List Char)) : ∃ count stop, expandTabsFrom column (piece :: next :: rest) =
      piece ++ ' ' :: (List.replicate count ' ' ++ expandTabsFrom stop (next :: rest)) := by
  rw [expandTabsFrom]
  · exact ⟨_, _, List.append_assoc _ _ _⟩
  · exact fun none => by cases none

/-- Blanks in place of tabs join what the tabs joined. -/
theorem isChain_expandTabsFrom {c : Char}
    (joins : (c :: ['\t'].intercalate pieces).IsChain Joins) (column : Nat) :
    (c :: expandTabsFrom column pieces).IsChain Joins := by
  induction pieces generalizing c column with
  | nil => exact joins
  | cons piece rest ih =>
      cases rest with
      | nil => simpa [List.intercalate, expandTabsFrom] using joins
      | cons next others =>
          obtain ⟨count, stop, expanded⟩ := expandTabsFrom_cons_cons column piece next others
          rw [intercalate_cons_cons, List.isChain_cons_split] at joins
          obtain ⟨before, after⟩ := joins
          rw [expanded, List.isChain_cons_split]
          constructor
          · rw [← List.cons_append] at before ⊢
            obtain ⟨own, -, last⟩ := List.isChain_append.mp before
            refine List.isChain_append.mpr ⟨own, List.isChain_singleton _, ?_⟩
            rintro d isLast _ ⟨⟩
            exact (last d isLast '\t' rfl).before_space rfl
          · exact isChain_spaces (ih (List.IsChain.imp_head (·.after_space rfl) after) stop) count

theorem mem_expandTabsFrom {column : Nat} {c : Char} (member : c ∈ expandTabsFrom column pieces) :
    c = ' ' ∨ c ∈ pieces.flatten := by
  fun_induction expandTabsFrom column pieces with
  | case1 => cases member
  | case2 => exact .inr (by simpa using member)
  | case3 _ piece rest _ _ _ ih =>
      rw [List.flatten_cons, List.mem_append]
      simp only [List.mem_append, List.mem_cons, List.mem_replicate] at member
      tauto

end Tabs

/-- A text whose blanks have cells, but for tabs and line feeds, and whose joiners are inside of
words. -/
structure Settable (text : List Char) : Prop where
  cells : ∀ c ∈ text, isBlank c → c ≠ '\n' → c ≠ '\t' → cellWidth c ≠ 0
  joins : (' ' :: text).IsChain Joins

-- The blanks are looked for in the text, and not among all characters there are.
instance (text : List Char) : Decidable (Settable text) :=
  have := List.decidableBAll (fun c => isBlank c → c ≠ '\n' → c ≠ '\t' → cellWidth c ≠ 0) text
  decidable_of_iff (_ ∧ (' ' :: text).IsChain Joins)
    ⟨fun ⟨cells, joins⟩ => ⟨cells, joins⟩, fun ⟨cells, joins⟩ => ⟨cells, joins⟩⟩

/-- Lines are what another line is broken into, but for blanks at their ends. -/
def Wraps (lines : List (List Char)) (line : List Char) : Prop :=
  ∃ parts : List (List Char), parts.flatten = line ∧ lines.map trimEndChars = parts.map trimEndChars

section Texts

variable {text line : List Char}

/-- The characters of lines are those of the text but for tabs and line feeds, and blanks. -/
theorem mem_setFree (listed : line ∈ setFree text) {c : Char} (member : c ∈ line) :
    c = ' ' ∨ c ∈ text ∧ c ≠ '\n' ∧ c ≠ '\t' := by
  obtain ⟨given, isPiece, rfl⟩ := List.mem_map.mp listed
  refine (mem_expandTabsFrom member).imp_right fun inside => ?_
  rw [flatten_piecesBetween] at inside
  obtain ⟨ofGiven, notTab⟩ := List.mem_filter.mp inside
  obtain ⟨ofText, notFeed⟩ := mem_of_mem_piecesBetween isPiece ofGiven
  exact ⟨ofText, notFeed, by simpa using notTab⟩

/-- The lines of a text begin as after a blank. -/
theorem Settable.joins_line (settable : Settable text) (listed : line ∈ setFree text) :
    (' ' :: line).IsChain Joins := by
  obtain ⟨given, isPiece, rfl⟩ := List.mem_map.mp listed
  have whole := intercalate_piecesBetween '\n' text
  have joins := isChain_piece rfl (whole.symm ▸ settable.joins) given isPiece
  rw [← intercalate_piecesBetween '\t' given] at joins
  exact isChain_expandTabsFrom joins 0

/-- All blanks of lines have cells. -/
theorem Settable.measured_line (settable : Settable text) (listed : line ∈ setFree text) :
    Measured line := by
  refine ⟨fun c member blank => ?_, (settable.joins_line listed).tail⟩
  obtain rfl | ⟨ofText, notFeed, notTab⟩ := mem_setFree listed member
  · decide
  · exact settable.cells c ofText blank notFeed notTab

/-- **Wrapping.** A text set in lines of a width has each of its lines broken into some, and blanks
are all that these lose. -/
theorem setText_wraps (width : Nat) (room : 3 ≤ width) (settable : Settable text) :
    ∃ groups, setText .free .fold width text = groups.flatten ∧
      List.Forall₂ Wraps groups (setFree text) := by
  refine ⟨_, List.flatMap_def, ?_⟩
  rw [setFree, List.forall₂_map_left_iff, List.forall₂_map_right_iff, List.forall₂_same]
  intro given listed
  have joins := settable.joins_line (List.mem_map_of_mem listed)
  have measured := settable.measured_line (List.mem_map_of_mem listed)
  have whole := flatten_lineWords (expandTabs given)
  have fits := fits_fill room [] (by rwa [whole]) (isChain_lineWords joins)
    (fits_of_width_le (by simp) (Nat.zero_le _))
  refine ⟨_, (flatten_fill width [] 0 _).trans whole, ?_⟩
  rw [List.map_map]
  refine List.map_congr_left fun filled member => ?_
  refine trimEndChars_align room (measured.of_infix ?_) (fits filled member)
  rw [← whole, ← List.nil_append (setText.lineWords _).flatten, ← flatten_fill width [] 0]
  exact List.infix_of_mem_flatten member

-- After a joiner that begins a line the width of the line is less than that of its graphemes.
example : setText .free .fold 6 "\u200D漢漢漢漢 ".toList = ["\u200D漢漢漢".toList] := by
  decide +kernel

end Texts

end Terminal

end MemberOrder
