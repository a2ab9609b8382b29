import MemberOrder.Proofs.Json.Strings

/-!
# Numbers of JSON texts

A number stands in a text as the digits before and after its point and an exponent
(`Json.Numeral`). If no more of it can follow, it is read as the whole number or as the decimal
that it says (`Json.Numeral.gives_int`, `Json.Numeral.gives_float`).
-/

namespace MemberOrder

namespace Json

/-- Whether what follows a number cannot belong to it. -/
def Ends (rest : List Char) : Prop :=
  ∀ c ∈ rest.head?, c.isDigit = false ∧ c ≠ '.' ∧ c ≠ 'e' ∧ c ≠ 'E'

theorem Ends.stopsDigits {rest : List Char} (ends : Ends rest) :
    ∀ c ∈ rest.head?, c.isDigit = false :=
  fun c first => (ends c first).1

/-- Whether a text is read as a value, whatever follows that cannot belong to it. -/
structure Reads (text : List Char) (value : Value) : Prop where
  starts : ∃ c more, text = c :: more ∧ Cursor.isSpace c = false ∧ c ≠ ']' ∧ c ≠ '\uFEFF'
  oneKindOfBreak : '\r' ∉ text
  given : ∀ fuel offset rest, Ends rest → 2 * text.length < fuel →
    Gives (readValue fuel ⟨text ++ rest, offset⟩) value rest

/-- A number without its sign, as it stands in a text. -/
structure Numeral where
  whole : List Char
  fraction : List Char
  /-- Whether the exponent is negative, and its digits. -/
  power : Option (Bool × List Char)

namespace Numeral

variable (n : Numeral)

def fractionText : List Char :=
  match n.fraction with
  | [] => []
  | digits => '.' :: digits

def powerText : List Char :=
  match n.power with
  | none => []
  | some (negative, figures) => 'e' :: (if negative then '-' else '+') :: figures

def text : List Char := n.whole ++ (n.fractionText ++ n.powerText)

def digits : Nat := decimalValue (n.whole ++ n.fraction)

def scale : Int :=
  match n.power with
  | none => 0
  | some (true, figures) => -(decimalValue figures : Int)
  | some (false, figures) => decimalValue figures

def exponent : Int := n.scale - n.fraction.length

/-- Whether all that should be digits is, and no zero stands in front of other digits. -/
structure WellFormed : Prop where
  leading : n.whole = ['0'] ∨ n.whole.head? ≠ some '0'
  nonempty : n.whole ≠ []
  whole : ∀ c ∈ n.whole, c.isDigit
  fraction : ∀ c ∈ n.fraction, c.isDigit
  power : ∀ negative figures, n.power = some (negative, figures) →
    figures ≠ [] ∧ ∀ c ∈ figures, c.isDigit

variable {n} {negative : Bool} {start offset : Nat} {rest : List Char}

theorem powerText_ends (ends : Ends rest) (c : Char) (first : c ∈ (n.powerText ++ rest).head?) :
    c.isDigit = false ∧ c ≠ '.' := by
  unfold powerText at first
  split at first
  · exact ⟨(ends c first).1, (ends c first).2.1⟩
  · cases first
    decide

theorem fractionText_ends (ends : Ends rest) (c : Char)
    (first : c ∈ (n.fractionText ++ (n.powerText ++ rest)).head?) : c.isDigit = false := by
  unfold fractionText at first
  split at first
  · exact (powerText_ends ends c first).1
  · cases first
    decide

theorem fractionText_of_ne_nil (some : n.fraction ≠ []) : n.fractionText = '.' :: n.fraction := by
  unfold fractionText
  split
  · next none => exact (some none).elim
  · rfl

theorem wholeDigits_text (formed : n.WellFormed) (ends : Ends rest) :
    wholeDigits (n.text ++ rest) = n.whole := by
  have taken : (n.text ++ rest).takeWhile Char.isDigit = n.whole := by
    rw [text, List.append_assoc, List.append_assoc]
    exact takeWhile_append_of_stops formed.whole (fractionText_ends ends)
  unfold wholeDigits
  split
  · next more same =>
      rcases formed.leading with zero | other
      · exact zero.symm
      · rw [text, List.append_assoc] at same
        cases listed : n.whole with
        | nil => exact (formed.nonempty listed).elim
        | cons c digits =>
            rw [listed, List.cons_append] at same
            obtain ⟨rfl, -⟩ := List.cons.inj same
            exact (other (by rw [listed]; rfl)).elim
  · exact taken

theorem fractionDigits_text (formed : n.WellFormed) (ends : Ends rest) :
    fractionDigits (n.fractionText ++ (n.powerText ++ rest)) = n.fraction := by
  unfold fractionText
  split
  · next none =>
      rw [none, List.nil_append]
      unfold fractionDigits
      split
      · next same =>
          exact ((powerText_ends ends '.' (by rw [same]; rfl)).2 rfl).elim
      · rfl
  · exact takeWhile_append_of_stops formed.fraction
      fun c first => (powerText_ends ends c first).1

theorem exponentPart?_text (formed : n.WellFormed) (ends : Ends rest) :
    exponentPart? (n.powerText ++ rest) =
      n.power.map fun (negative, figures) => (negative, figures, n.powerText.length) := by
  unfold powerText
  match given : n.power with
  | none =>
      cases rest with
      | nil => rfl
      | cons c rest =>
          obtain ⟨-, -, small, capital⟩ := ends c rfl
          simp [exponentPart?, small, capital]
  | some (negative, figures) =>
      obtain ⟨some, digits⟩ := formed.power negative figures given
      have taken := takeWhile_append_of_stops digits ends.stopsDigits
      have nonempty : figures.isEmpty = false := List.isEmpty_eq_false_iff.mpr some
      cases negative <;>
        simp [exponentPart?, taken, nonempty, Nat.add_comm, Nat.add_left_comm]

/-- The cursor after the digits before and after the point. -/
theorem advance_fractionText :
    (if n.fraction.isEmpty then Cursor.mk (n.fractionText ++ (n.powerText ++ rest)) offset
      else (Cursor.mk (n.fractionText ++ (n.powerText ++ rest)) offset).advance
        (n.fraction.length + 1)) =
      ⟨n.powerText ++ rest, offset + n.fractionText.length⟩ := by
  unfold fractionText
  match n.fraction with
  | [] => rfl
  | c :: digits =>
      rw [if_neg (by simp)]
      exact Cursor.advance_append ('.' :: c :: digits) _ offset

theorem readNumber_text (formed : n.WellFormed) (ends : Ends rest) :
    readNumber negative start ⟨n.text ++ rest, offset⟩ =
      readAfterWhole negative ⟨n.text ++ rest, offset⟩ n.whole := by
  rw [readNumber]
  simp only [wholeDigits_text formed ends]
  exact if_neg (by simpa using formed.nonempty)

theorem advance_whole : (Cursor.mk (n.text ++ rest) offset).advance n.whole.length =
    ⟨n.fractionText ++ (n.powerText ++ rest), offset + n.whole.length⟩ := by
  rw [text, List.append_assoc, List.append_assoc, Cursor.advance_append]

/-- Digits without point and exponent are read as a whole number. -/
theorem gives_int (negative : Bool) (start offset : Nat) (formed : n.WellFormed) (ends : Ends rest)
    (noFraction : n.fraction = [])
    (noPower : n.power = none) (short : n.whole.length ≤ digitLimit) :
    Gives (readNumber negative start ⟨n.text ++ rest, offset⟩)
      (.int (if negative then -(n.digits : Int) else n.digits)) rest := by
  have fraction := fractionDigits_text formed ends
  have power := exponentPart?_text formed ends
  have left : n.fractionText ++ (n.powerText ++ rest) = rest := by
    simp [fractionText, powerText, noFraction, noPower]
  rw [readNumber_text formed ends, readAfterWhole]
  simp only [advance_whole, fraction, advance_fractionText, power]
  simp only [noFraction, noPower, Option.map_none]
  rw [if_neg (Nat.not_lt.mpr short), left, digits, noFraction, List.append_nil]
  exact ⟨_, rfl⟩

/-- Digits with a point or an exponent are read as the decimal that they say. -/
theorem gives_float (negative : Bool) (start offset : Nat) (formed : n.WellFormed)
    (ends : Ends rest) (fractional : n.fraction = [] → n.power ≠ none) :
    Gives (readNumber negative start ⟨n.text ++ rest, offset⟩)
      (.float (.ofDecimal negative n.digits n.exponent)) rest := by
  have fraction := fractionDigits_text formed ends
  have power := exponentPart?_text formed ends
  rw [readNumber_text formed ends, readAfterWhole]
  simp only [advance_whole, fraction, advance_fractionText, power]
  split
  · next none noPower =>
      exact (fractional none (Option.map_eq_none_iff.mp noPower)).elim
  · simp only [digits, exponent, scale, powerText]
    match n.power with
    | none => exact gives_ok rfl
    | some (true, figures) => exact gives_ok List.drop_left
    | some (false, figures) => exact gives_ok List.drop_left

end Numeral

section Signs

variable {n : Numeral} {negative : Bool} {value : Value} {offset : Nat} {rest : List Char}
  {c : Char}

theorem ne_of_isDigit {other : Char} (digit : c.isDigit) (noDigit : other.isDigit = false) :
    other ≠ c := by
  rintro rfl
  rw [digit] at noDigit
  cases noDigit

/-- What a number begins with begins no word. -/
theorem readScalar_of_isDigit (digit : c.isDigit) :
    readScalar ⟨c :: rest, offset⟩ = readNumber false offset ⟨c :: rest, offset⟩ := by
  rw [readScalar, List.find?_eq_none.mpr ?noWord]
  case noWord => simp [words, ne_of_isDigit digit]
  simp only
  split
  · next same => exact (ne_of_isDigit digit (by decide) (List.cons.inj same).1.symm).elim
  · rfl

theorem readScalar_of_minus (digit : c.isDigit) :
    readScalar ⟨'-' :: c :: rest, offset⟩ =
      readNumber true offset ⟨c :: rest, offset + 1⟩ := by
  rw [readScalar, List.find?_eq_none.mpr ?noWord]
  case noWord => simp [words, ne_of_isDigit digit]
  rfl

theorem readValue_of_scalar (fuel : Nat) (noQuote : c ≠ '"') (noBracket : c ≠ '[')
    (noBrace : c ≠ '\x7b') :
    readValue (fuel + 1) ⟨c :: rest, offset⟩ = readScalar ⟨c :: rest, offset⟩ := by
  rw [readValue]
  split
  · next same => exact (noQuote (List.cons.inj same).1).elim
  · next same => exact (noBracket (List.cons.inj same).1).elim
  · next same => exact (noBrace (List.cons.inj same).1).elim
  · rfl

/-- The sign of a number, as it stands in a text. -/
def signText (negative : Bool) : List Char := if negative then ['-'] else []

namespace Numeral

theorem exists_text_eq_cons (formed : n.WellFormed) :
    ∃ c more, n.text = c :: more ∧ c.isDigit := by
  cases listed : n.whole with
  | nil => exact (formed.nonempty listed).elim
  | cons c digits =>
      exact ⟨c, _, by rw [text, listed]; rfl, formed.whole c (by rw [listed]; exact .head _)⟩

theorem gives_signed (formed : n.WellFormed)
    (read : ∀ start offset, Gives (readNumber negative start ⟨n.text ++ rest, offset⟩) value rest)
    (fuel : Nat) :
    Gives (readValue (fuel + 1) ⟨signText negative ++ n.text ++ rest, offset⟩) value rest := by
  obtain ⟨c, more, starts, digit⟩ := exists_text_eq_cons formed
  rw [starts] at read ⊢
  have other {mark : Char} : mark.isDigit = false → mark ≠ c := ne_of_isDigit digit
  cases negative with
  | false =>
      have given := read offset offset
      rwa [List.cons_append, ← readScalar_of_isDigit digit, ← readValue_of_scalar fuel
        (other (by decide)).symm (other (by decide)).symm (other (by decide)).symm] at given
  | true =>
      have given := read offset (offset + 1)
      rwa [List.cons_append, ← readScalar_of_minus digit, ← readValue_of_scalar fuel
        (by decide) (by decide) (by decide)] at given

theorem not_mem_text (formed : n.WellFormed) : '\r' ∉ signText negative ++ n.text := by
  have digits {text : List Char} (all : ∀ c ∈ text, c.isDigit) : '\r' ∉ text :=
    fun member => absurd (all _ member) (by decide)
  have sign : '\r' ∉ signText negative := by cases negative <;> decide
  have fraction : '\r' ∉ n.fractionText := by
    unfold fractionText
    split
    · exact List.not_mem_nil
    · exact List.not_mem_cons_of_ne_of_not_mem (by decide) (digits formed.fraction)
  have power : '\r' ∉ n.powerText := by
    unfold powerText
    split
    · exact List.not_mem_nil
    · next negative figures given =>
        refine List.not_mem_cons_of_ne_of_not_mem (by decide) ?_
        refine List.not_mem_cons_of_ne_of_not_mem ?_ (digits (formed.power _ _ given).2)
        cases negative <;> decide
  rw [text]
  simp only [List.mem_append, not_or]
  exact ⟨sign, digits formed.whole, fraction, power⟩

/-- A number with its sign is read as what the number after the sign is read as. -/
theorem reads (formed : n.WellFormed) (read : ∀ start offset rest, Ends rest →
      Gives (readNumber negative start ⟨n.text ++ rest, offset⟩) value rest) :
    Reads (signText negative ++ n.text) value where
  starts := by
    obtain ⟨c, more, starts, digit⟩ := exists_text_eq_cons formed
    rw [starts]
    cases negative with
    | true => exact ⟨'-', c :: more, rfl, by decide⟩
    | false =>
        have other {mark : Char} : mark.isDigit = false → mark ≠ c := ne_of_isDigit digit
        refine ⟨c, more, rfl, ?_, (other (by decide)).symm, (other (by decide)).symm⟩
        simp [Cursor.isSpace, (other _).symm]
  oneKindOfBreak := not_mem_text formed
  given fuel offset rest ends enough := by
    cases fuel with
    | zero => cases enough
    | succ fuel => exact gives_signed formed (fun start offset => read start offset rest ends) fuel

end Numeral

end Signs

section WholeNumbers

theorem decimalValue_toDigits (n : Nat) : decimalValue (Nat.toDigits 10 n) = n := by
  have value : Nat.ofDigitChars 10 (Nat.toDigits 10 n) 0 = n :=
    Nat.ofDigitChars_toDigits (by decide) (by decide)
  rw [Nat.ofDigitChars_eq_foldl] at value
  simp only [Nat.mul_comm 10] at value
  exact value

/-- No zero stands in front of the digits of a number. -/
theorem head?_toDigits {n : Nat} (positive : 0 < n) :
    (Nat.toDigits 10 n).head? ≠ some '0' := by
  induction n using Nat.strongRecOn with
  | ind n ih =>
      by_cases small : n < 10
      · rw [Nat.toDigits_of_lt_base small]
        intro zero
        have digits : ∀ digit < 10, 0 < digit → digit.digitChar ≠ '0' := by decide
        exact digits n small positive (Option.some.inj zero)
      · have above := ih (n / 10) (by omega) (by omega)
        rw [Nat.toDigits_of_base_le (by decide) (by omega), List.head?_append]
        match listed : Nat.toDigits 10 (n / 10) with
        | [] => exact (Nat.toDigits_ne_nil listed).elim
        | c :: digits => rwa [listed] at above

/-- The digits of a natural number. -/
def Numeral.ofNat (n : Nat) : Numeral := ⟨Nat.toDigits 10 n, [], none⟩

theorem Numeral.wellFormed_ofNat (n : Nat) : (Numeral.ofNat n).WellFormed where
  leading := by
    rcases Nat.eq_zero_or_pos n with rfl | positive
    · exact .inl rfl
    · exact .inr (head?_toDigits positive)
  nonempty := Nat.toDigits_ne_nil
  whole _ member := Nat.isDigit_of_mem_toDigits (by decide) (by decide) member
  fraction _ member := by cases member
  power _ _ given := by cases given

theorem toList_toString_int (n : Int) :
    (toString n).toList = signText (n < 0) ++ Nat.toDigits 10 n.natAbs := by
  rw [Int.toString_eq_repr, Int.repr_eq_if]
  by_cases negative : 0 ≤ n
  · have same : n.toNat = n.natAbs := by omega
    rw [if_pos negative, Nat.toList_repr, same, signText, if_neg (by simpa using negative)]
    rfl
  · have same : (-n).toNat = n.natAbs := by omega
    rw [if_neg negative, String.toList_append, Nat.toList_repr, same, signText,
      if_pos (by simpa using negative)]
    rfl

theorem reads_wholeText {n : Int} {text : String} (written : wholeText n = .ok text) :
    Reads text.toList (.int n) := by
  simp only [wholeText] at written
  by_cases short : 4300 < (toString n).length - if n < 0 then 1 else 0
  · rw [if_pos short] at written
    cases written
  rw [if_neg short] at written
  cases written
  have formed := Numeral.wellFormed_ofNat n.natAbs
  have listed := toList_toString_int n
  have length : (Numeral.ofNat n.natAbs).whole.length ≤ digitLimit := by
    have sum : (toString n).length =
        (signText (n < 0)).length + (Nat.toDigits 10 n.natAbs).length := by
      rw [← String.length_toList, listed, List.length_append]
    change (Nat.toDigits 10 n.natAbs).length ≤ 4300
    by_cases negative : n < 0
    · simp [signText, negative] at sum short
      omega
    · simp [signText, negative] at sum short
      omega
  have digits : (Numeral.ofNat n.natAbs).digits = n.natAbs := by
    rw [Numeral.digits, Numeral.ofNat, List.append_nil, decimalValue_toDigits]
  have value : (if decide (n < 0) then -(n.natAbs : Int) else n.natAbs) = n := by
    by_cases negative : n < 0
    · rw [decide_eq_true negative, if_pos rfl]
      omega
    · rw [decide_eq_false negative, if_neg Bool.false_ne_true]
      omega
  have read := Numeral.reads formed fun start offset rest ends =>
    Numeral.gives_int (n < 0) start offset formed ends rfl rfl length
  rw [digits, value] at read
  rw [listed]
  simpa [Numeral.text, Numeral.ofNat, Numeral.fractionText, Numeral.powerText] using read

end WholeNumbers

end Json

end MemberOrder
