import Mathlib.Data.List.TakeWhile
import MemberOrder.Yaml.Token

/-!
# Scanning words

A word is a short row of letters, digits and underscores. Plain or in double quotes, it is scanned
as a scalar of its characters, whatever ends it: a mark on its line (`Yaml.readPlain_mark`), the end
of the line with the indentation of the next (`Yaml.readPlain_line`), or its closing quote
(`Yaml.readQuoted_word`). `Yaml.Scan.Leads` tells that cutting a text into tokens comes from one
state to another.
-/

namespace MemberOrder

namespace Yaml

/-- Characters of which words are made. -/
def wordChars : List Char :=
  "abcdefghijklmnopqrstuvwxyzABCDEFGHIJKLMNOPQRSTUVWXYZ0123456789_".toList

/-- Whether a text is a word, short enough for a key. -/
structure IsWord (text : List Char) : Prop where
  nonempty : text ≠ []
  made : ∀ c ∈ text, c ∈ wordChars
  short : text.length < 120

instance (text : List Char) : Decidable (IsWord text) :=
  decidable_of_iff (text ≠ [] ∧ text.all wordChars.contains ∧ text.length < 120) <| by
    rw [List.all_eq_true]
    simp only [List.contains_iff_mem]
    exact ⟨fun ⟨nonempty, made, short⟩ => ⟨nonempty, made, short⟩,
      fun ⟨nonempty, made, short⟩ => ⟨nonempty, made, short⟩⟩

/-- A test that all characters of words pass. -/
theorem test_of_mem_wordChars (test : Char → Bool) (all : wordChars.all test) {c : Char}
    (member : c ∈ wordChars) : test c :=
  List.all_eq_true.mp all c member

theorem IsWord.readable {text : List Char} (isWord : IsWord text) : text.all isReadable :=
  List.all_eq_true.mpr fun _ member =>
    test_of_mem_wordChars isReadable (by decide) (isWord.made _ member)

theorem readable_blanks (width : Nat) : (List.replicate width ' ').all isReadable :=
  List.all_eq_true.mpr fun c member => by
    rw [List.eq_of_mem_replicate member]
    rfl

/-- Whether a character takes one column of its line. -/
def isInline (c : Char) : Bool := !isBreak c && c.toNat != 0xFEFF

/-- Whether a character begins neither a gap nor the mark of a document. -/
def isSolid (c : Char) : Bool := isInline c && !" #-.".toList.contains c

/-- Whether something solid comes next, or nothing. -/
abbrev Solid (text : List Char) : Prop := isSolid (text.headD '\x00')

theorem ne_of_isSolid {c : Char} (solid : isSolid c) (other : Char)
    (empty : isSolid other = false) : c ≠ other := by
  rintro rfl
  rw [solid] at empty
  cases empty

theorem isBreak_of_isSolid {c : Char} (solid : isSolid c) : isBreak c = false := by
  have inline := (Bool.and_eq_true_iff.mp solid).1
  simpa using (Bool.and_eq_true_iff.mp inline).1

section Cursors

variable {word more rest : List Char} {c : Char} {width index line column : Nat}

theorem Cursor.step_inline (inline : isInline c) :
    (⟨c :: rest, index, line, column⟩ : Cursor).step = ⟨rest, index + 1, line, column + 1⟩ := by
  simp only [isInline, Bool.and_eq_true, Bool.not_eq_true', bne_iff_ne, ne_eq] at inline
  have carriage : c ≠ '\r' := by
    rintro rfl
    exact absurd inline.1 (by decide)
  simp [step, inline.1, inline.2, carriage]

theorem Cursor.forward_inline (inline : ∀ c ∈ word, isInline c) :
    (⟨word ++ rest, index, line, column⟩ : Cursor).forward word.length =
      ⟨rest, index + word.length, line, column + word.length⟩ := by
  induction word generalizing index column with
  | nil => rfl
  | cons c word ih =>
      obtain ⟨first, later⟩ := List.forall_mem_cons.mp inline
      rw [List.cons_append, List.length_cons, forward, step_inline first, ih later]
      congr 1 <;> omega

theorem inline_of_made (made : ∀ c ∈ word, c ∈ wordChars) : ∀ c ∈ word, isInline c :=
  fun c member => test_of_mem_wordChars isInline (by decide) (made c member)

theorem Cursor.forward_blanks :
    (⟨List.replicate width ' ' ++ more, index, line, column⟩ : Cursor).forward width =
      ⟨more, index + width, line, column + width⟩ := by
  have inline : ∀ c ∈ List.replicate width ' ', isInline c := fun c member => by
    rw [List.eq_of_mem_replicate member]
    decide
  have forward := @forward_inline _ more index line column inline
  rwa [List.length_replicate] at forward

theorem Cursor.lineBreak?_newline :
    (⟨'\n' :: rest, index, line, column⟩ : Cursor).lineBreak? =
      some ('\n', ⟨rest, index + 1, line + 1, 0⟩) := rfl

variable (solid : Solid more)
include solid

theorem Cursor.peek_beq_of_solid (other : Char) (empty : isSolid other = false) :
    ((⟨more, index, line, column⟩ : Cursor).peek == other) = false :=
  beq_false_of_ne (ne_of_isSolid solid other empty)

theorem Cursor.run_blanks :
    (⟨List.replicate width ' ' ++ more, index, line, column⟩ : Cursor).run (· == ' ') =
      List.replicate width ' ' := by
  have stops : more.takeWhile (· == ' ') = [] := by
    cases more with
    | nil => rfl
    | cons c more =>
        have other : c ≠ ' ' := ne_of_isSolid solid ' ' rfl
        simp [other]
  rw [run, List.takeWhile_append_of_pos (by simp), stops, List.append_nil]

theorem Cursor.skipSpaces_blanks :
    (⟨List.replicate width ' ' ++ more, index, line, column⟩ : Cursor).skipSpaces =
      ⟨more, index + width, line, column + width⟩ := by
  rw [skipSpaces, skip, run_blanks solid, List.length_replicate, forward_blanks]

theorem Cursor.skipComment_solid :
    (⟨more, index, line, column⟩ : Cursor).skipComment = ⟨more, index, line, column⟩ := by
  rw [skipComment, peek_beq_of_solid solid '#' rfl, if_neg Bool.false_ne_true]

theorem Cursor.lineBreak?_solid : (⟨more, index, line, column⟩ : Cursor).lineBreak? = none := by
  cases more with
  | nil => rfl
  | cons c more =>
      have inside : isBreak c = false := isBreak_of_isSolid solid
      have others := inside
      simp only [isBreak, Bool.or_eq_false_iff] at others
      unfold lineBreak?
      split
      · next listed =>
          cases listed
          exact absurd inside (by decide)
      · next listed =>
          cases listed
          simp only [others, inside, Bool.or_self, Bool.false_eq_true, ↓reduceIte]
      · rfl

/-- No document starts or ends on a line with something solid after its indentation. -/
theorem Cursor.atDocumentMarker_blanks :
    (⟨List.replicate width ' ' ++ more, index, line, column⟩ : Cursor).atDocumentMarker =
      false := by
  have first : (List.replicate width ' ' ++ more).headD '\x00' ≠ '-' ∧
      (List.replicate width ' ' ++ more).headD '\x00' ≠ '.' := by
    cases width with
    | zero => exact ⟨ne_of_isSolid solid '-' rfl, ne_of_isSolid solid '.' rfl⟩
    | succ width => exact ⟨(by decide : ' ' ≠ '-'), (by decide : ' ' ≠ '.')⟩
  unfold atDocumentMarker
  cases listed : List.replicate width ' ' ++ more with
  | nil => rfl
  | cons c rest =>
      rw [listed] at first
      simp [show c ≠ '-' from first.1, show c ≠ '.' from first.2]

end Cursors

/-! ### Plain words -/

section Plain

variable {word more rest : List Char} {mark : Char} {width index line column : Nat} {inFlow : Bool}
  {indent : Int}

theorem plainRun_word (made : ∀ c ∈ word, c ∈ wordChars)
    (ends : endsPlainRun inFlow mark (rest.headD '\x00')) :
    plainRun inFlow (word ++ mark :: rest) = word.length := by
  induction word with
  | nil => exact if_pos ends
  | cons c word ih =>
      obtain ⟨first, later⟩ := List.forall_mem_cons.mp made
      have inside : (!isGap c && c != ':' && !",?[]\x7b\x7d".toList.contains c) = true :=
        test_of_mem_wordChars
          (fun c => !isGap c && c != ':' && !",?[]\x7b\x7d".toList.contains c) (by decide) first
      simp only [Bool.and_eq_true, Bool.not_eq_true', bne_iff_ne, ne_eq] at inside
      obtain ⟨⟨gap, colon⟩, indicator⟩ := inside
      have goesOn (next : Char) : endsPlainRun inFlow c next = false := by
        rw [endsPlainRun, gap, indicator, beq_false_of_ne colon]
        simp
      rw [List.cons_append, plainRun, goesOn, ih later]
      rfl

theorem plainGap_mark (solid : isSolid mark) :
    plainGap ⟨mark :: rest, index, line, column⟩ =
      ([], ⟨mark :: rest, index, line, column⟩, false) := by
  have blanks : (⟨mark :: rest, index, line, column⟩ : Cursor).run (· == ' ') = [] :=
    @Cursor.run_blanks (mark :: rest) 0 index line column solid
  have broken : (⟨mark :: rest, index, line, column⟩ : Cursor).lineBreak? = none :=
    Cursor.lineBreak?_solid solid
  simp only [plainGap, blanks, List.length_nil, Cursor.forward, broken]

theorem plainBreaks_blanks (solid : Solid more) {fuel : Nat} (enough : width < fuel) :
    plainBreaks fuel [] ⟨List.replicate width ' ' ++ more, index, line, column⟩ =
      (some [], ⟨more, index + width, line, column + width⟩) := by
  induction width generalizing fuel index column with
  | zero =>
      obtain ⟨fuel, rfl⟩ := Nat.exists_eq_add_one.mpr enough
      rw [List.replicate_zero, List.nil_append, plainBreaks, Cursor.peek_beq_of_solid solid ' ' rfl,
        if_neg Bool.false_ne_true, Cursor.lineBreak?_solid solid]
      rfl
  | succ width ih =>
      obtain ⟨fuel, rfl⟩ := Nat.exists_eq_add_one.mpr (Nat.zero_lt_of_lt enough)
      rw [List.replicate_succ, List.cons_append, plainBreaks]
      refine (if_pos rfl).trans ?_
      rw [Cursor.step_inline (by decide), ih (by omega)]
      congr 2 <;> omega

theorem plainGap_line (solid : Solid more) :
    plainGap ⟨'\n' :: (List.replicate width ' ' ++ more), index, line, column⟩ =
      ([' '], ⟨more, index + 1 + width, line + 1, width⟩, true) := by
  have blanks : (⟨'\n' :: (List.replicate width ' ' ++ more), index, line, column⟩ : Cursor).run
      (· == ' ') = [] := rfl
  simp only [plainGap, blanks, List.length_nil, Cursor.forward, Cursor.lineBreak?_newline,
    Cursor.atDocumentMarker_blanks solid]
  rw [plainBreaks_blanks solid (by rw [List.length_append, List.length_replicate]; omega),
    Nat.zero_add]
  rfl

variable (isWord : IsWord word)
include isWord

/-- One run of a plain scalar is a word, and what ends it decides how the scalar goes on. -/
theorem plainRuns_word (ends : endsPlainRun inFlow mark (rest.headD '\x00')) (fuel : Nat) :
    plainRuns inFlow indent (fuel + 1) [] [] false ⟨word ++ mark :: rest, index, line, column⟩ =
      let (gap, after, broken) := plainGap
        ⟨mark :: rest, index + word.length, line, column + word.length⟩
      if gap.isEmpty || after.peek == '#' || (!inFlow && (after.column : Int) < indent) then
        (word, after, broken)
      else plainRuns inFlow indent fuel word gap broken after := by
  obtain ⟨first, others, listed⟩ := List.exists_cons_of_ne_nil isWord.nonempty
  have uncommented :
      ((⟨word ++ mark :: rest, index, line, column⟩ : Cursor).peek == '#') = false := by
    have other : first ≠ '#' := by
      rintro rfl
      exact absurd (isWord.made '#' (by simp [listed])) (by decide)
    rw [listed]
    exact beq_false_of_ne other
  rw [plainRuns, uncommented, if_neg Bool.false_ne_true, plainRun_word isWord.made ends]
  have some : word.length ≠ 0 := by simp [listed]
  simp only [some, ↓reduceIte, Cursor.forward_inline (inline_of_made isWord.made), List.nil_append,
    List.take_left']

theorem readPlain_mark (ends : endsPlainRun inFlow mark (rest.headD '\x00'))
    (solid : isSolid mark) :
    readPlain inFlow indent ⟨word ++ mark :: rest, index, line, column⟩ =
      (word, ⟨mark :: rest, index + word.length, line, column + word.length⟩, false) := by
  rw [readPlain, plainRuns_word isWord ends, plainGap_mark solid]
  rfl

/-- A plain word at the end of its line is a whole scalar if the next line does not go on with
it. -/
theorem readPlain_line (solid : Solid more)
    (last : if inFlow then plainRun true more = 0 else (width : Int) < indent) :
    readPlain inFlow indent
        ⟨word ++ '\n' :: (List.replicate width ' ' ++ more), index, line, column⟩ =
      (word, ⟨more, index + word.length + 1 + width, line + 1, width⟩, true) := by
  have ends : endsPlainRun inFlow '\n' ((List.replicate width ' ' ++ more).headD '\x00') := rfl
  rw [readPlain, plainRuns_word isWord ends, plainGap_line solid]
  simp only [Cursor.peek_beq_of_solid solid '#' rfl, List.isEmpty_cons, Bool.false_or]
  cases inFlow with
  | false => exact if_pos (by simpa using last)
  | true =>
      obtain ⟨count, length⟩ := Nat.exists_eq_add_one.mpr (show 0 < (word ++ '\n' ::
        (List.replicate width ' ' ++ more)).length by
          rw [List.length_append, List.length_cons]; omega)
      rw [length]
      simp only [Bool.not_true, Bool.false_and, Bool.false_eq_true, ↓reduceIte, plainRuns,
        Cursor.peek_beq_of_solid solid '#' rfl, show plainRun true more = 0 from last]

end Plain

/-! ### Words in quotes -/

section Quoted

variable {word rest : List Char} {index line column : Nat}

theorem quotedRun_word (made : ∀ c ∈ word, c ∈ wordChars) {fuel : Nat}
    (enough : word.length < fuel) :
    quotedRun true fuel ⟨word ++ '"' :: rest, index, line, column⟩ =
      .ok (word, ⟨'"' :: rest, index + word.length, line, column + word.length⟩) := by
  induction word generalizing fuel index column with
  | nil =>
      obtain ⟨fuel, rfl⟩ := Nat.exists_eq_add_one.mpr (Nat.zero_lt_of_lt enough)
      rfl
  | cons c word ih =>
      obtain ⟨fuel, rfl⟩ := Nat.exists_eq_add_one.mpr (Nat.zero_lt_of_lt enough)
      obtain ⟨first, later⟩ := List.forall_mem_cons.mp made
      have inside : (c != '\\' && !isGap c && c != '"') = true :=
        test_of_mem_wordChars (fun c => c != '\\' && !isGap c && c != '"') (by decide) first
      simp only [Bool.and_eq_true, Bool.not_eq_true', bne_iff_ne, ne_eq] at inside
      obtain ⟨⟨backslash, gap⟩, quote⟩ := inside
      have enough : word.length < fuel := Nat.lt_of_succ_lt_succ enough
      rw [List.cons_append, quotedRun]
      simp only [Bool.not_true, Bool.false_and, Bool.false_eq_true, ↓reduceIte, Bool.true_and,
        beq_false_of_ne backslash, gap, beq_false_of_ne quote, Bool.or_self]
      rw [Cursor.step_inline (test_of_mem_wordChars isInline (by decide) first), ih later enough]
      rw [List.length_cons, Nat.add_right_comm index, Nat.add_right_comm column]
      rfl

theorem readQuoted_word (made : ∀ c ∈ word, c ∈ wordChars) :
    readQuoted true ⟨'"' :: (word ++ '"' :: rest), index, line, column⟩ =
      .ok (word, ⟨rest, index + word.length + 2, line, column + word.length + 2⟩) := by
  have run : quotedRun true ((word ++ '"' :: rest).length + 1)
      ⟨word ++ '"' :: rest, index + 1, line, column + 1⟩ = _ :=
    quotedRun_word made (by rw [List.length_append]; omega)
  rw [readQuoted, Cursor.step_inline (by decide), quotedRest, run]
  change Except.ok _ = Except.ok _
  rw [Cursor.step_inline (by decide), List.nil_append]
  congr 3 <;> omega

end Quoted

end Yaml

end MemberOrder
