import MemberOrder.Proofs.Yaml.ScanSteps

/-!
# Tokens of block mappings

A piece of text at some column scans as some tokens if cutting the text goes through the whole
piece, whether the block at that column is open yet or begins with it (`Yaml.BlockScans`). A field
of plain words does, so do several pieces one below the other, and so does a word with a piece
further in below it. A whole text of such pieces has their tokens (`Yaml.tokens_block`).
-/

namespace MemberOrder

namespace Yaml

open Scan

/-- Whether a state stands at the start of a text on a line in a block, or before one that begins
there. -/
def BlockLine (opened : Bool) (column : Nat) (outer : Int) (outers : List Int) (text : List Char)
    (read : List Token) (s : Scan) : Prop :=
  ∃ index line, s = ⟨⟨text, index, line, column⟩, 0, if opened then column else outer,
    if opened then outer :: outers else outers, true, [], read.toArray⟩

/-- Whether a state stands behind a piece of a block, at the start of a later line. -/
def BlockLeft (column : Nat) (outer : Int) (outers : List Int) (width : Nat) (more : List Char)
    (read : List Token) (s : Scan) : Prop :=
  ∃ index line, s = ⟨⟨more, index, line, width⟩, 0, column, outer :: outers, true, [],
    read.toArray⟩

/-- The token that opens a block, unless it is open. -/
def openingOf (opened : Bool) : List Token := if opened then [] else [.blockMappingStart]

/-- Whether a piece of a block scans as some tokens. -/
structure BlockScans (column : Nat) (text : List Char) (tokens : List Token) : Prop where
  begins : ∃ c rest, text = c :: rest ∧ isSolid c
  readable : text.all isReadable
  reaches : ∀ (opened : Bool) ⦃outer : Int⦄ ⦃outers : List Int⦄ ⦃read : List Token⦄ ⦃width : Nat⦄
    ⦃more : List Char⦄ ⦃s : Scan⦄, outer < column → width ≤ column → Solid more →
      BlockLine opened column outer outers
        (text ++ '\n' :: (List.replicate width ' ' ++ more)) read s →
      s.Reaches (BlockLeft column outer outers width more (read ++ (openingOf opened ++ tokens)))

section Pieces

variable {column : Nat} {key value : List Char} {text : List Char} {tokens : List Token}

theorem BlockScans.solid (scans : BlockScans column text tokens) (more : List Char) :
    Solid (text ++ more) := by
  obtain ⟨c, rest, rfl, solid⟩ := scans.begins
  exact solid

theorem begins_word (isKey : IsWord key) (rest : List Char) :
    ∃ c more, key ++ rest = c :: more ∧ isSolid c := by
  obtain ⟨first, others, rfl⟩ := List.exists_cons_of_ne_nil isKey.nonempty
  have solid : Solid (first :: others ++ rest) := solid_of_isWord isKey
  exact ⟨first, others ++ rest, List.cons_append, solid⟩

/-- What comes after a key in a block, in a block that is open or opens with it. -/
theorem afterKey_eq {opened : Bool} {outer : Int} {outers : List Int}
    (inside : outer < (column : Int)) (cursor : Cursor) (read : List Token) (token : Token) :
    afterKey cursor 0 (if opened then column else outer)
        (if opened then outer :: outers else outers) column read token =
      ⟨cursor, 0, column, outer :: outers, false, [],
        (read ++ (openingOf opened ++ [.key, token, .value])).toArray⟩ := by
  cases opened with
  | true => simp [afterKey, openingOf]
  | false => simp [afterKey, openingOf, inside]

theorem indent_le (opened : Bool) {outer : Int} (inside : outer < (column : Int)) :
    (if opened then (column : Int) else outer) ≤ column := by
  split <;> omega

theorem blockScans_field (isKey : IsWord key) (isValue : IsWord value) :
    BlockScans column (key ++ ':' :: ' ' :: value)
      [.key, .scalar (String.ofList key) true, .value, .scalar (String.ofList value) true] := by
  refine ⟨begins_word isKey _, ?_, ?_⟩
  · rw [List.all_append, isKey.readable, List.all_cons, List.all_cons, isValue.readable]
    rfl
  rintro opened outer outers read width more s inside within solid ⟨index, line, rfl⟩
  rw [List.append_assoc, List.cons_append, List.cons_append]
  refine (leads_plainKey isKey rfl (indent_le opened inside)).reaches_of ?_
  rw [afterKey_eq inside]
  refine (leads_plainValue isValue solid (by omega) (by omega)).reaches ?_
  rw [List.append_assoc, List.append_assoc]
  exact ⟨_, _, rfl⟩

/-- A heading with a piece further in below it. -/
theorem blockScans_section {inner : Nat} (isKey : IsWord key) (further : column < inner)
    (scans : BlockScans inner text tokens) :
    BlockScans column (key ++ ':' :: '\n' :: (List.replicate inner ' ' ++ text))
      (.key :: .scalar (String.ofList key) true :: .value :: .blockMappingStart ::
        (tokens ++ [.blockEnd])) := by
  refine ⟨begins_word isKey _, ?_, ?_⟩
  · rw [List.all_append, isKey.readable, List.all_cons, List.all_cons, List.all_append,
      readable_blanks, scans.readable]
    rfl
  rintro opened outer outers read width more s inside within solid ⟨index, line, rfl⟩
  simp only [List.append_assoc, List.cons_append]
  refine (leads_plainKey isKey rfl (indent_le opened inside)).reaches_of ?_
  rw [afterKey_eq inside]
  refine (leads_line (scans.solid _)).reaches_of ?_
  have goesOn := @scans.reaches false column (outer :: outers)
  refine (goesOn (by omega) (by omega) solid ⟨_, _, rfl⟩).trans ?_
  rintro _ ⟨index, line, rfl⟩
  refine (leads_close solid (by omega)).reaches ?_
  simp only [List.push_toArray, List.append_assoc, List.cons_append]
  exact ⟨_, _, rfl⟩

/-- Pieces one below the other. -/
theorem blockScans_pieces {pieces : List (List Char × List Token)} (some : pieces ≠ [])
    (each : ∀ piece ∈ pieces, BlockScans column piece.1 piece.2) :
    BlockScans column
      (List.intercalate ('\n' :: List.replicate column ' ') (pieces.map Prod.fst))
      (pieces.map Prod.snd).flatten := by
  induction pieces with
  | nil => exact absurd rfl some
  | cons piece rest ih =>
      obtain ⟨first, later⟩ := List.forall_mem_cons.mp each
      cases rest with
      | nil => simpa using first
      | cons next rest =>
          have others := ih (List.cons_ne_nil _ _) later
          rw [List.map_cons, List.map_cons, List.intercalate_cons_cons, ← List.map_cons]
          change BlockScans column _ (piece.2 ++ ((next :: rest).map Prod.snd).flatten)
          refine ⟨?_, ?_, ?_⟩
          · obtain ⟨c, rest, begun, solid⟩ := first.begins
            exact ⟨c, _, by rw [begun]; rfl, solid⟩
          · rw [List.all_append, List.all_append, first.readable, others.readable, List.all_cons,
              readable_blanks]
            rfl
          rintro opened outer outers read width more s inside within solid line
          rw [List.append_assoc, List.append_assoc, List.cons_append] at line
          refine (first.reaches opened inside le_rfl (others.solid _) line).trans ?_
          rintro _ ⟨index, line, rfl⟩
          refine (others.reaches true inside within solid ⟨_, _, rfl⟩).trans ?_
          rintro _ ⟨index, line, rfl⟩
          refine (Leads.refl _).reaches ?_
          simp only [List.append_assoc]
          exact ⟨_, _, rfl⟩

/-- The tokens of a whole text in a block. -/
theorem tokens_block (scans : BlockScans 0 text tokens) :
    Yaml.tokens (text ++ ['\n']) =
      ((.blockMappingStart :: (tokens ++ [.blockEnd, .streamEnd])).toArray, none) := by
  have start : BlockLine false 0 (-1) [] (text ++ ['\n']) [] (Scan.ofText (text ++ ['\n'])) :=
    ⟨0, 0, rfl⟩
  obtain ⟨after, leads, index, line, rfl⟩ :=
    @scans.reaches false (-1) [] [] 0 [] _ (by decide) le_rfl rfl start
  have readable : (text ++ ['\n']).all isReadable := by
    rw [List.all_append, scans.readable]
    rfl
  have ends (read : List Token) : Scan.next ⟨⟨[], index, line, 0⟩, 0, (0 : Nat), [-1], true, [],
      read.toArray⟩ = .ok ⟨⟨[], index, line, 0⟩, 0, -1, [], false, [],
        (read ++ [Token.blockEnd, .streamEnd]).toArray⟩ := by
    refine (@next_of_dropStale [] 0 _ _ _ _ _ _ _ _ _ _ rfl rfl (.inr (Int.le_refl _))).trans ?_
    have twice : (read ++ [Token.blockEnd, .streamEnd]).toArray =
        (read.toArray.push .blockEnd).push .streamEnd := by simp
    rw [twice]
    rfl
  rw [tokens_of_leads readable (scans.solid _) leads (ends _)]
  · simp [openingOf]
  · simp [openingOf, List.getLast?_cons]

end Pieces

end Yaml

end MemberOrder
