import MemberOrder.Proofs.Yaml.ScanSteps

/-!
# Tokens of mappings between braces

A piece of text between braces scans as some tokens if cutting the text goes through the whole
piece, up to the comma or brace after it (`Yaml.FlowScans`). A word in quotes with a word as its
value does, so do several pieces with commas between them, and so does a word in quotes with braces
around a piece. A whole text between braces has the tokens of the piece inside (`Yaml.tokens_flow`).
-/

namespace MemberOrder

namespace Yaml

open Scan

/-- A word as it is written, plain or in double quotes. -/
def writtenWord (plain : Bool) (word : List Char) : List Char :=
  if plain then word else '"' :: (word ++ ['"'])

/-- A piece between braces, with the indentation of the piece and of the closing brace. -/
def braced (inner outer : Nat) (text : List Char) : List Char :=
  '\x7b' :: '\n' :: (List.replicate inner ' ' ++
    (text ++ '\n' :: (List.replicate outer ' ' ++ ['\x7d'])))

/-- Whether a state stands at the start of a text on a line between braces, where a key may
begin. -/
def FlowLine (level : Nat) (text : List Char) (read : List Token) (s : Scan) : Prop :=
  ∃ index line column starts,
    (∀ start ∈ starts, start.2.line < line ∧ start.2.required = false) ∧
      s = ⟨⟨text, index, line, column⟩, level, -1, [], true, starts, read.toArray⟩

/-- Whether a state stands at the start of a text behind a piece between braces. -/
def FlowLeft (level : Nat) (text : List Char) (read : List Token) (s : Scan) : Prop :=
  ∃ index line column allowed,
    s = ⟨⟨text, index, line, column⟩, level, -1, [], allowed, [], read.toArray⟩

/-- What comes after a piece between braces: a comma, or on the next line a brace. -/
inductive PieceEnd : List Char → List Char → Prop
  | entry (rest : List Char) : PieceEnd (',' :: rest) (',' :: rest)
  | close (width : Nat) (rest : List Char) :
      PieceEnd ('\n' :: (List.replicate width ' ' ++ '\x7d' :: rest)) ('\x7d' :: rest)

/-- Whether a piece between braces scans as some tokens. -/
structure FlowScans (text : List Char) (tokens : List Token) : Prop where
  solid : ∀ more, Solid (text ++ more)
  readable : text.all isReadable
  reaches : ∀ ⦃level : Nat⦄ ⦃read : List Token⦄ ⦃rest left : List Char⦄ ⦃s : Scan⦄,
    PieceEnd rest left → FlowLine (level + 1) (text ++ rest) read s →
      s.Reaches (FlowLeft (level + 1) left (read ++ tokens))

section Pieces

variable {key value text rest left more : List Char} {tokens read : List Token} {plain : Bool}
  {index line column level : Nat}

/-- A state behind a piece, before or after the end of its line. -/
theorem reaches_pieceEnd {allowed : Bool} (ends : PieceEnd rest left) :
    Reaches ⟨⟨rest, index, line, column⟩, level + 1, -1, [], allowed, [], read.toArray⟩
      (FlowLeft (level + 1) left read) := by
  cases ends with
  | entry rest => exact (Leads.refl _).reaches ⟨_, _, _, _, rfl⟩
  | close width rest => exact (leads_line rfl).reaches ⟨_, _, _, _, rfl⟩

/-- The value of a key between braces. -/
theorem reaches_value (isValue : IsWord value) (ends : PieceEnd rest left) :
    Reaches ⟨⟨' ' :: (writtenWord plain value ++ rest), index, line, column⟩, level + 1, -1, [],
        false, [], read.toArray⟩
      (FlowLeft (level + 1) left (read ++ [.scalar (String.ofList value) plain])) := by
  cases plain with
  | false =>
      obtain ⟨required, next⟩ := @next_quoted value rest index line column level (-1) [] false []
        read 1 isValue (List.forall_mem_nil _)
      have text : ' ' :: (writtenWord false value ++ rest) =
          ' ' :: '"' :: (value ++ '"' :: rest) := by
        simp [writtenWord]
      rw [text]
      refine (leads_of_next next ?_ ?_).reaches_of (reaches_pieceEnd ends)
      · simp
      · simp only [List.length_cons, List.length_append, List.length_replicate]
        omega
  | true =>
      cases ends with
      | entry rest =>
          obtain ⟨required, next⟩ := @next_plain value (',' :: rest) index line column (level + 1)
            (-1) [] false read 1 _ _ isValue (.inl (Nat.succ_ne_zero level))
            (readPlain_mark isValue rfl rfl)
          refine (leads_of_next next ?_ ?_).reaches ⟨_, _, _, _, rfl⟩
          · simp
          · simp only [List.length_cons, List.length_append, List.length_replicate]
            omega
      | close width rest =>
          obtain ⟨required, next⟩ := @next_plain value
            ('\n' :: (List.replicate width ' ' ++ '\x7d' :: rest)) index line column (level + 1)
            (-1) [] false read 1 _ _ isValue (.inl (Nat.succ_ne_zero level))
            (readPlain_line isValue rfl rfl)
          refine (leads_of_next next ?_ ?_).reaches ⟨_, _, _, _, rfl⟩
          · simp
          · simp only [List.length_cons, List.length_append, List.length_replicate]
            omega

theorem readable_writtenWord (isWord : IsWord value) (plain : Bool) :
    (writtenWord plain value).all isReadable := by
  cases plain with
  | true => exact isWord.readable
  | false =>
      rw [writtenWord, if_neg Bool.false_ne_true, List.all_cons, List.all_append, isWord.readable]
      rfl

theorem flowScans_field (isKey : IsWord key) (isValue : IsWord value) (plain : Bool) :
    FlowScans (writtenWord false key ++ ':' :: ' ' :: writtenWord plain value)
      [.key, .scalar (String.ofList key) false, .value, .scalar (String.ofList value) plain] := by
  refine ⟨fun _ => rfl, ?_, ?_⟩
  · rw [List.all_append, readable_writtenWord isKey, List.all_cons, List.all_cons,
      readable_writtenWord isValue]
    rfl
  rintro level read rest left s ends ⟨index, line, column, starts, idle, rfl⟩
  have text : writtenWord false key ++ ':' :: ' ' :: writtenWord plain value ++ rest =
      '"' :: (key ++ '"' :: ':' :: ' ' :: (writtenWord plain value ++ rest)) := by
    simp [writtenWord]
  have later : read ++ [.key, .scalar (String.ofList key) false, .value,
      .scalar (String.ofList value) plain] =
        read ++ [.key, .scalar (String.ofList key) false, .value] ++
          [.scalar (String.ofList value) plain] := by simp
  rw [text, later]
  exact (leads_quotedKey isKey idle).reaches_of (reaches_value isValue ends)

/-- Braces around a piece, after blanks. -/
theorem reaches_braced {width inner outer : Nat} {allowed : Bool} (scans : FlowScans text tokens) :
    Reaches ⟨⟨List.replicate width ' ' ++ (braced inner outer text ++ rest), index, line, column⟩,
        level, -1, [], allowed, [], read.toArray⟩
      (FlowLeft level rest (read ++ (.flowMappingStart :: (tokens ++ [.flowMappingEnd])))) := by
  have whole : braced inner outer text ++ rest = '\x7b' :: '\n' :: (List.replicate inner ' ' ++
      (text ++ '\n' :: (List.replicate outer ' ' ++ '\x7d' :: rest))) := by
    simp [braced]
  obtain ⟨starts, idle, opens⟩ := @leads_flowOpen ('\n' :: (List.replicate inner ' ' ++
    (text ++ '\n' :: (List.replicate outer ' ' ++ '\x7d' :: rest)))) index line column level (-1) []
    allowed read width (.inr (by omega))
  rw [whole]
  refine opens.reaches_of ((leads_line (scans.solid _)).reaches_of ?_)
  refine (scans.reaches (.close outer rest) ⟨_, _, _, _, idle, rfl⟩).trans ?_
  rintro _ ⟨index, line, column, allowed, rfl⟩
  refine leads_flowClose.reaches ?_
  simp only [List.append_assoc, List.cons_append, List.nil_append]
  exact ⟨_, _, _, _, rfl⟩

theorem readable_braced {inner outer : Nat} (readable : text.all isReadable) :
    (braced inner outer text).all isReadable := by
  simp only [braced, List.all_cons, List.all_append, readable_blanks, readable]
  rfl

/-- A heading with braces around a piece. -/
theorem flowScans_section {inner outer : Nat} (isKey : IsWord key) (scans : FlowScans text tokens) :
    FlowScans (writtenWord false key ++ ':' :: ' ' :: braced inner outer text)
      (.key :: .scalar (String.ofList key) false :: .value :: .flowMappingStart ::
        (tokens ++ [.flowMappingEnd])) := by
  refine ⟨fun _ => rfl, ?_, ?_⟩
  · rw [List.all_append, readable_writtenWord isKey, List.all_cons, List.all_cons,
      readable_braced scans.readable]
    rfl
  rintro level read rest left s ends ⟨index, line, column, starts, idle, rfl⟩
  have whole : writtenWord false key ++ ':' :: ' ' :: braced inner outer text ++ rest =
      '"' :: (key ++ '"' :: ':' :: ' ' :: (braced inner outer text ++ rest)) := by
    simp [writtenWord]
  have later : read ++ .key :: .scalar (String.ofList key) false :: .value :: .flowMappingStart ::
      (tokens ++ [.flowMappingEnd]) = read ++ [.key, .scalar (String.ofList key) false, .value] ++
        (.flowMappingStart :: (tokens ++ [.flowMappingEnd])) := by simp
  rw [whole, later]
  refine (leads_quotedKey isKey idle).reaches_of ?_
  refine (@reaches_braced _ _ _ _ _ _ _ _ 1 inner outer false scans).trans ?_
  rintro _ ⟨index, line, column, allowed, rfl⟩
  exact reaches_pieceEnd ends

/-- Pieces with commas between them. -/
theorem flowScans_pieces {pieces : List (List Char × List Token)} (width : Nat) (some : pieces ≠ [])
    (each : ∀ piece ∈ pieces, FlowScans piece.1 piece.2) :
    FlowScans
      (List.intercalate (',' :: '\n' :: List.replicate width ' ') (pieces.map Prod.fst))
      (List.intercalate [.flowEntry] (pieces.map Prod.snd)) := by
  induction pieces with
  | nil => exact absurd rfl some
  | cons piece rest ih =>
      obtain ⟨first, later⟩ := List.forall_mem_cons.mp each
      cases rest with
      | nil => simpa using first
      | cons next rest =>
          have others := ih (List.cons_ne_nil _ _) later
          have join {α : Type} (mark : List α) (part : List Char × List Token → List α) :
              List.intercalate mark ((piece :: next :: rest).map part) =
                part piece ++ mark ++ List.intercalate mark ((next :: rest).map part) :=
            List.intercalate_cons_cons
          rw [join, join]
          refine ⟨fun more => ?_, ?_, ?_⟩
          · rw [List.append_assoc, List.append_assoc]
            exact first.solid _
          · simp only [List.all_append, List.all_cons, first.readable, others.readable,
              readable_blanks]
            rfl
          rintro level read rest left s ends line
          rw [List.append_assoc, List.append_assoc] at line
          refine (first.reaches (.entry _) line).trans ?_
          rintro _ ⟨index, line, column, allowed, rfl⟩
          refine (leads_flowEntry.trans (leads_line (others.solid _))).reaches_of ?_
          refine (others.reaches ends ⟨_, _, _, [], List.forall_mem_nil _, rfl⟩).trans ?_
          rintro _ ⟨index, line, column, allowed, rfl⟩
          refine (Leads.refl _).reaches ?_
          simp only [List.append_assoc]
          exact ⟨_, _, _, _, rfl⟩

/-- The tokens of a whole text between braces. -/
theorem tokens_flow {inner outer : Nat} (scans : FlowScans text tokens) :
    Yaml.tokens (braced inner outer text) =
      ((.flowMappingStart :: (tokens ++ [.flowMappingEnd, .streamEnd])).toArray, none) := by
  have opened := @reaches_braced text [] tokens [] 0 0 0 0 0 inner outer true scans
  rw [List.append_nil] at opened
  obtain ⟨after, leads, index, line, column, allowed, rfl⟩ := opened
  have ends (read : List Token) : Scan.next ⟨⟨[], index, line, column⟩, 0, -1, [], allowed, [],
      read.toArray⟩ = .ok ⟨⟨[], index, line, column⟩, 0, -1, [], false, [],
        (read ++ [Token.streamEnd]).toArray⟩ := by
    have outside : (-1 : Int) ≤ (column : Nat) := by omega
    refine (@next_of_dropStale [] 0 _ _ _ _ _ _ _ _ _ _ rfl rfl (.inr outside)).trans ?_
    have pushed : (read ++ [Token.streamEnd]).toArray = read.toArray.push .streamEnd := by simp
    rw [pushed]
    rfl
  rw [tokens_of_leads (readable_braced scans.readable) rfl leads (ends _)]
  · simp
  · simp [List.getLast?_cons]

end Pieces

end Yaml

end MemberOrder
