import MemberOrder.Json.Reader
import MemberOrder.Json.Writer
import MemberOrder.Proofs.Outcome

/-!
# Strings of JSON texts

Reading a text gives a value and what is left of the text; where the reader stands only matters to
its faults (`Json.Gives`). What a string is written as is read as the string, whatever comes after
it (`Json.gives_readString`).
-/

namespace MemberOrder

namespace Json

section Gives

variable {α β : Type} {reading : Except Fault (α × Cursor)} {value : α} {result : β}
  {rest middle : List Char}

/-- Whether reading gives a value and leaves the rest of a text. -/
def Gives (reading : Except Fault (α × Cursor)) (value : α) (rest : List Char) : Prop :=
  ∃ offset, reading = .ok (value, ⟨rest, offset⟩)

theorem gives_ok {c : Cursor} (left : c.rest = rest) : Gives (.ok (value, c)) value rest :=
  ⟨c.offset, by rw [← left]⟩

theorem Gives.bind {next : α × Cursor → Except Fault (β × Cursor)}
    (first : Gives reading value middle)
    (second : ∀ offset, Gives (next (value, ⟨middle, offset⟩)) result rest) :
    Gives (reading >>= next) result rest := by
  obtain ⟨offset, read⟩ := first
  rw [read]
  exact second offset

end Gives

/-- What passes a test is taken up to what does not. -/
theorem takeWhile_append_of_stops {test : Char → Bool} {taken rest : List Char}
    (pass : ∀ c ∈ taken, test c) (stops : ∀ c ∈ rest.head?, test c = false) :
    (taken ++ rest).takeWhile test = taken := by
  rw [List.takeWhile_append_of_pos pass]
  cases rest with
  | nil => simp
  | cons c rest => simp [stops c rfl]

namespace Cursor

theorem advance_append (text rest : List Char) (offset : Nat) :
    advance ⟨text ++ rest, offset⟩ text.length = ⟨rest, offset + text.length⟩ := by
  simp [advance]

/-- Blanks are skipped up to what is none. -/
theorem skipSpace_append {blanks : List Char} (rest : List Char) (offset : Nat)
    (blank : ∀ c ∈ blanks, isSpace c) (stops : ∀ c ∈ rest.head?, isSpace c = false) :
    skipSpace ⟨blanks ++ rest, offset⟩ = ⟨rest, offset + blanks.length⟩ := by
  rw [skipSpace, takeWhile_append_of_stops blank stops, advance_append]

theorem skipSpace_of_stops (rest : List Char) (offset : Nat)
    (stops : ∀ c ∈ rest.head?, isSpace c = false) :
    skipSpace ⟨rest, offset⟩ = ⟨rest, offset⟩ :=
  @skipSpace_append [] rest offset nofun stops

end Cursor

section Strings

variable {start : Nat} {read more : List Char}

/-- Control characters are escaped by four hexadecimal digits that stand for them. -/
theorem unitEscape_of_control : ∀ unit < 32, ((unitEscape unit).take 2 = ['\\', 'u'] ∧
    (unitEscape unit).length = 6) ∧ fourHex? ((unitEscape unit).drop 2) = some unit := by
  decide

theorem exists_unitEscape_of_control {unit : Nat} (control : unit < 32) :
    ∃ a b c d, unitEscape unit = ['\\', 'u', a, b, c, d] ∧ fourHex? [a, b, c, d] = some unit := by
  obtain ⟨⟨marked, long⟩, value⟩ := unitEscape_of_control unit control
  match written : unitEscape unit, marked, long, value with
  | [x, y, a, b, c, d], marked, _, value =>
      simp only [List.take_succ_cons, List.take_zero, List.cons.injEq, and_true] at marked
      obtain ⟨rfl, rfl⟩ := marked
      exact ⟨a, b, c, d, rfl, value⟩

/-- The escape of a control character is read as the character, if the text does not end there. -/
theorem gives_readCode {c : Char} (control : c.toNat < 32) (goesOn : more ≠ []) (offset : Nat) :
    Gives (readCode ⟨(unitEscape c.toNat).drop 2 ++ more, offset⟩) c more := by
  obtain ⟨x, y, z, w, written, value⟩ := exists_unitEscape_of_control control
  rw [written]
  have hex : fourHex? (x :: y :: z :: w :: more) = some c.toNat := value
  have left : (x :: y :: z :: w :: more).drop 4 = more := rfl
  have nonempty : more.isEmpty = false := by
    cases more with
    | nil => exact (goesOn rfl).elim
    | cons _ _ => rfl
  have noPair : ¬ (0xD800 ≤ c.toNat ∧ c.toNat ≤ 0xDBFF ∧ False) := fun pair => pair.2.2
  refine ⟨offset + 4, ?_⟩
  simp only [List.drop_succ_cons, List.drop_zero, List.cons_append, List.nil_append, readCode, left,
    nonempty, Bool.false_eq_true, ↓reduceIte, hex, Cursor.advance]
  split
  · rw [if_neg (by omega), Char.ofNat_toNat]
  · rw [Char.ofNat_toNat]

/-- In a string a character is written by a letter that stands for it, by its code, or as it is. -/
theorem escapeChar_cases (c : Char) :
    (∃ letter, escapeChar false c = ['\\', letter] ∧ letter ≠ 'u' ∧
      letterEscape? letter = some c) ∨
    (c.toNat < 32 ∧ escapeChar false c = unitEscape c.toNat) ∨
    (32 ≤ c.toNat ∧ c ≠ '"' ∧ c ≠ '\\' ∧ escapeChar false c = [c]) := by
  unfold escapeChar
  by_cases quote : c = '"'
  · subst quote; exact .inl ⟨'"', rfl, by decide, rfl⟩
  by_cases slash : c = '\\'
  · subst slash; exact .inl ⟨'\\', rfl, by decide, rfl⟩
  by_cases feed : c = '\n'
  · subst feed; exact .inl ⟨'n', rfl, by decide, rfl⟩
  by_cases carriage : c = '\r'
  · subst carriage; exact .inl ⟨'r', rfl, by decide, rfl⟩
  by_cases tab : c = '\t'
  · subst tab; exact .inl ⟨'t', rfl, by decide, rfl⟩
  by_cases page : c = '\x0c'
  · subst page; exact .inl ⟨'f', rfl, by decide, rfl⟩
  by_cases back : c = '\x08'
  · subst back; exact .inl ⟨'b', rfl, by decide, rfl⟩
  rw [if_neg quote, if_neg slash, if_neg feed, if_neg carriage, if_neg tab, if_neg page,
    if_neg back]
  by_cases control : c.toNat < 0x20
  · rw [if_pos control, codeEscape, if_pos (by omega)]
    exact .inr (.inl ⟨control, rfl⟩)
  · rw [if_neg control, if_neg (by simp)]
    exact .inr (.inr ⟨by omega, quote, slash, rfl⟩)

theorem length_escapeChar_pos (c : Char) : 0 < (escapeChar false c).length := by
  obtain ⟨letter, written, -⟩ | ⟨control, written⟩ | ⟨-, -, -, written⟩ := escapeChar_cases c
  · rw [written]; exact Nat.succ_pos _
  · obtain ⟨x, y, z, w, code, -⟩ := exists_unitEscape_of_control control
    rw [written, code]
    exact Nat.succ_pos _
  · rw [written]; exact Nat.succ_pos _

/-- What a character is written as in a string is read as the character. -/
theorem exists_readString_escapeChar (c : Char) (goesOn : more ≠ []) (fuel offset : Nat) :
    ∃ later, readString start (fuel + 1) read ⟨escapeChar false c ++ more, offset⟩ =
      readString start fuel (c :: read) ⟨more, later⟩ := by
  obtain ⟨letter, written, notCode, meant⟩ | ⟨control, written⟩ | ⟨high, quote, slash, written⟩ :=
    escapeChar_cases c
  · refine ⟨offset + 2, ?_⟩
    rw [written, List.cons_append, List.cons_append, List.nil_append, readString]
    · simp only [meant]
      rfl
  · obtain ⟨later, code⟩ := gives_readCode control goesOn (offset + 2)
    obtain ⟨x, y, z, w, digits, -⟩ := exists_unitEscape_of_control control
    have steps (rest : List Char) :
        readString start (fuel + 1) read ⟨'\\' :: 'u' :: rest, offset⟩ =
          readCode ⟨rest, offset + 2⟩ >>= fun found =>
            readString start fuel (found.1 :: read) found.2 := rfl
    rw [digits] at code
    rw [written, digits]
    refine ⟨later, (steps _).trans ?_⟩
    change readCode ⟨x :: y :: z :: w :: more, offset + 2⟩ = _ at code
    change readCode ⟨x :: y :: z :: w :: more, offset + 2⟩ >>= _ = _
    rw [code]
    rfl
  · refine ⟨offset + 1, ?_⟩
    rw [written, List.singleton_append, readString]
    split
    · next impossible => cases impossible
    · next same => exact (quote (List.cons.inj same).1).elim
    · next same => exact (slash (List.cons.inj same).1).elim
    · next same => exact (slash (List.cons.inj same).1).elim
    · next same => exact (slash (List.cons.inj same).1).elim
    · next same =>
        obtain ⟨rfl, -⟩ := List.cons.inj same
        rw [if_neg (by omega)]
        rfl

/-- What characters are written as in a string is read as the characters, up to the quote. -/
theorem gives_readString (text : List Char) (fuel offset : Nat)
    (enough : (text.flatMap (escapeChar false)).length < fuel) :
    Gives (readString start fuel read ⟨text.flatMap (escapeChar false) ++ '"' :: more, offset⟩)
      (read.reverse ++ text) more := by
  induction text generalizing read fuel offset with
  | nil =>
      cases fuel with
      | zero => cases enough
      | succ fuel => exact ⟨offset + 1, by rw [List.append_nil]; rfl⟩
  | cons c rest ih =>
      rw [List.flatMap_cons, List.length_append] at enough
      have written := length_escapeChar_pos c
      cases fuel with
      | zero => omega
      | succ fuel =>
          have goesOn : rest.flatMap (escapeChar false) ++ '"' :: more ≠ [] := by simp
          obtain ⟨later, step⟩ := exists_readString_escapeChar c goesOn fuel offset
          rw [List.flatMap_cons, List.append_assoc, step]
          have given : Gives (readString start fuel (c :: read)
              ⟨rest.flatMap (escapeChar false) ++ '"' :: more, later⟩)
              ((c :: read).reverse ++ rest) more := ih fuel later (by omega)
          rwa [List.reverse_cons, List.append_assoc] at given

theorem not_mem_escapeChar (c : Char) : '\r' ∉ escapeChar false c := by
  obtain ⟨letter, written, -, meant⟩ | ⟨control, written⟩ | ⟨high, -, -, written⟩ :=
    escapeChar_cases c
  · rw [written, List.mem_cons, List.mem_singleton, not_or]
    refine ⟨by decide, ?_⟩
    rintro rfl
    cases meant
  · rw [written]
    exact (by decide : ∀ unit < 32, '\r' ∉ unitEscape unit) _ control
  · rw [written, List.mem_singleton]
    rintro rfl
    exact absurd high (by decide)

end Strings

end Json

end MemberOrder
