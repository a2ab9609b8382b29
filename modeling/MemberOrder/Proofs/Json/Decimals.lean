import MemberOrder.Proofs.Json.Numerals
import MemberOrder.Proofs.Number.Shortest

/-!
# Decimals of JSON texts

In every style the text of a decimal is a numeral that is read as the decimal
(`Json.exists_numeral_decimalText`), so that every number is read back from its text
(`Json.reads_float`).
-/

namespace MemberOrder

open Number Binary64

namespace Json

section Digits

theorem decimalValue_append (first second : List Char) :
    decimalValue (first ++ second) =
      second.foldl (fun n c => n * 10 + (c.toNat - 48)) (decimalValue first) :=
  List.foldl_append

theorem decimalValue_zeros_append (count : Nat) (digits : List Char) :
    decimalValue (List.replicate count '0' ++ digits) = decimalValue digits := by
  induction count with
  | zero => rfl
  | succ count ih => exact ih

theorem decimalValue_append_zeros (digits : List Char) (count : Nat) :
    decimalValue (digits ++ List.replicate count '0') = decimalValue digits * 10 ^ count := by
  induction count with
  | zero => simp
  | succ count ih =>
      rw [List.replicate_succ', ← List.append_assoc, decimalValue_append, ih, pow_succ, ← mul_assoc]
      rfl

theorem isDigit_of_mem_zeros {count : Nat} : ∀ c ∈ List.replicate count '0', c.isDigit := by
  intro c member
  rw [(List.mem_replicate.mp member).2]
  rfl

theorem isDigit_of_mem_toDigits (n : Nat) : ∀ c ∈ Nat.toDigits 10 n, c.isDigit :=
  fun _ member => Nat.isDigit_of_mem_toDigits (by decide) (by decide) member

theorem ofDecimal_mul_pow_ten (negative : Bool) (digits : Nat) (exponent : Int) (count : Nat) :
    ofDecimal negative (digits * 10 ^ count) exponent =
      ofDecimal negative digits (exponent + count) := by
  induction count generalizing exponent with
  | zero => simp
  | succ count ih =>
      rw [pow_succ, ← mul_assoc, ofDecimal_mul_ten, ih, add_assoc, Nat.cast_succ, add_comm 1]

end Digits

section Forms

variable {style : DecimalStyle} {digits : Nat} {exponent : Int} {c : Char} {rest : List Char}

/-- Whether a numeral has a point or an exponent and is read as a decimal. -/
structure Spells (n : Numeral) (digits : Nat) (exponent : Int) : Prop where
  formed : n.WellFormed
  fractional : n.fraction = [] → n.power ≠ none
  read : ∀ negative, ofDecimal negative n.digits n.exponent = ofDecimal negative digits exponent

theorem decimalValue_of_toDigits (listed : Nat.toDigits 10 digits = c :: rest) :
    decimalValue (c :: rest) = digits := by
  rw [← listed, decimalValue_toDigits]

theorem wellFormed_of_toDigits (positive : 0 < digits) {whole fraction : List Char}
    (listed : Nat.toDigits 10 digits = c :: rest) (starts : whole.head? = some c)
    (wholeDigits : ∀ c ∈ whole, c.isDigit) (fractionDigits : ∀ c ∈ fraction, c.isDigit) :
    (Numeral.mk whole fraction none).WellFormed where
  leading := .inr (by
    have first := head?_toDigits positive
    rwa [listed, List.head?_cons, ← starts] at first)
  nonempty := by
    rintro rfl
    cases starts
  whole := wholeDigits
  fraction := fractionDigits
  power _ _ given := by cases given

/-- One digit stands before the point, and an exponent after the digits. -/
theorem spells_scientific (positive : 0 < digits) (listed : Nat.toDigits 10 digits = c :: rest)
    {power : Int} (scale : power = rest.length + exponent) (zeros : Nat) :
    Spells ⟨[c], rest, some (power < 0,
      List.replicate zeros '0' ++ Nat.toDigits 10 power.natAbs)⟩ digits exponent where
  formed := by
    have all : ∀ c' ∈ c :: rest, c'.isDigit := listed ▸ isDigit_of_mem_toDigits digits
    rw [List.forall_mem_cons] at all
    have first : ∀ c' ∈ [c], c'.isDigit := by simpa using all.1
    have plain := wellFormed_of_toDigits positive listed rfl first all.2
    refine { plain with power := ?_ }
    rintro negative figures same
    cases same
    refine ⟨by simp [Nat.toDigits_ne_nil], ?_⟩
    exact List.forall_mem_append.mpr ⟨isDigit_of_mem_zeros, isDigit_of_mem_toDigits _⟩
  fractional _ := Option.some_ne_none _
  read negative := by
    have value : decimalValue ([c] ++ rest) = digits := decimalValue_of_toDigits listed
    have size : (decimalValue (List.replicate zeros '0' ++ Nat.toDigits 10 power.natAbs) : Int) =
        power.natAbs := by
      rw [decimalValue_zeros_append, decimalValue_toDigits]
    rw [Numeral.digits, value, Numeral.exponent, Numeral.scale]
    congr 1
    simp only
    by_cases below : power < 0
    · simp only [below, decide_true, size]
      omega
    · simp only [below, decide_false, size]
      omega

/-- A zero stands before the point, and zeros behind it in front of the digits. -/
theorem spells_small (listed : Nat.toDigits 10 digits = c :: rest) {zeros : Nat}
    (scale : exponent = -(zeros + (c :: rest).length : Nat)) :
    Spells ⟨['0'], List.replicate zeros '0' ++ c :: rest, none⟩ digits exponent where
  formed := {
    leading := .inl rfl
    nonempty := by simp
    whole := fun c' member => by rw [List.mem_singleton.mp member]; rfl
    fraction := List.forall_mem_append.mpr
      ⟨isDigit_of_mem_zeros, listed ▸ isDigit_of_mem_toDigits digits⟩
    power := fun _ _ given => by cases given }
  fractional empty := by simp at empty
  read negative := by
    have value : decimalValue (['0'] ++ (List.replicate zeros '0' ++ c :: rest)) = digits :=
      (decimalValue_zeros_append zeros _).trans (decimalValue_of_toDigits listed)
    rw [Numeral.digits, value, Numeral.exponent, Numeral.scale, scale]
    simp

/-- Zeros stand behind the digits up to the point. -/
theorem spells_large (positive : 0 < digits) (listed : Nat.toDigits 10 digits = c :: rest)
    {zeros : Nat} (scale : exponent = zeros) :
    Spells ⟨c :: rest ++ List.replicate zeros '0', ['0'], none⟩ digits exponent where
  formed := wellFormed_of_toDigits positive listed rfl
    (List.forall_mem_append.mpr ⟨listed ▸ isDigit_of_mem_toDigits digits, isDigit_of_mem_zeros⟩)
    (@isDigit_of_mem_zeros 1)
  fractional empty := by cases empty
  read negative := by
    have value : decimalValue (c :: rest ++ List.replicate zeros '0' ++ ['0']) =
        digits * 10 ^ (zeros + 1) := by
      rw [List.append_assoc, ← List.replicate_succ', decimalValue_append_zeros,
        decimalValue_of_toDigits listed]
    rw [Numeral.digits, value, Numeral.exponent, Numeral.scale, ofDecimal_mul_pow_ten, scale]
    simp

/-- The point stands among the digits. -/
theorem spells_mixed (positive : 0 < digits) (listed : Nat.toDigits 10 digits = c :: rest)
    {place : Nat} (inside : place < rest.length)
    (scale : exponent = (place : Int) - rest.length) :
    Spells ⟨(c :: rest).take (place + 1), (c :: rest).drop (place + 1), none⟩ digits exponent where
  formed := by
    have all : ∀ c' ∈ c :: rest, c'.isDigit := listed ▸ isDigit_of_mem_toDigits digits
    exact wellFormed_of_toDigits positive listed rfl
      (fun c' member => all c' (List.mem_of_mem_take member))
      (fun c' member => all c' (List.mem_of_mem_drop member))
  fractional empty := by
    have := List.drop_eq_nil_iff.mp empty
    simp at this
    omega
  read negative := by
    have value : decimalValue ((c :: rest).take (place + 1) ++ (c :: rest).drop (place + 1)) =
        digits := by
      rw [List.take_append_drop, decimalValue_of_toDigits listed]
    rw [Numeral.digits, value, Numeral.exponent, Numeral.scale, scale]
    congr 1
    simp
    omega

theorem toList_exponentText (style : DecimalStyle) (power : Int) :
    (exponentText style power).toList = 'e' :: (if power < 0 then '-' else '+') ::
      (List.replicate (style.exponentDigits - (toString power.natAbs).length) '0' ++
        Nat.toDigits 10 power.natAbs) := by
  simp only [exponentText, String.toList_append, String.toList_ofList, Nat.toString_eq_repr,
    Nat.toList_repr]
  split <;> rfl

/-- In every style the text of a decimal is a numeral that is read as the decimal. -/
theorem exists_spells_decimalText (style : DecimalStyle) (positive : 0 < digits) (exponent : Int) :
    ∃ n, Spells n digits exponent ∧ (decimalText style digits exponent).toList = n.text := by
  have nonempty : Nat.toDigits 10 digits ≠ [] := Nat.toDigits_ne_nil
  obtain ⟨c, rest, listed⟩ := List.exists_cons_of_ne_nil nonempty
  unfold decimalText
  simp only [listed, List.length_cons]
  generalize scale : ((rest.length + 1 : Nat) : Int) + exponent = point
  split
  · have spells := @spells_scientific digits exponent c rest positive listed (point - 1) (by omega)
    refine ⟨_, spells (style.exponentDigits - (toString (point - 1).natAbs).length), ?_⟩
    rw [String.toList_append, toList_exponentText]
    cases rest <;> simp [Numeral.text, Numeral.fractionText, Numeral.powerText]
  split
  · have spells := @spells_small digits exponent c rest listed (-point).toNat
      (by rw [List.length_cons]; omega)
    refine ⟨_, spells, ?_⟩
    rw [Numeral.text, Numeral.fractionText_of_ne_nil (by simp)]
    simp [Numeral.powerText]
  split
  · have spells := @spells_large digits exponent c rest positive listed
      (point.toNat - (rest.length + 1)) (by omega)
    refine ⟨_, spells, ?_⟩
    simp [Numeral.text, Numeral.fractionText, Numeral.powerText]
  · obtain ⟨place, rfl⟩ : ∃ place : Nat, point = place + 1 := ⟨point.toNat - 1, by omega⟩
    have inside : place < rest.length := by omega
    have spells := @spells_mixed digits exponent c rest positive listed place inside (by omega)
    refine ⟨_, spells, ?_⟩
    have same : ((place : Int) + 1).toNat = place + 1 := by omega
    have fraction : (c :: rest).drop (place + 1) ≠ [] := by
      rw [List.drop_succ_cons]
      intro none
      exact absurd (List.drop_eq_nil_iff.mp none) (by omega)
    rw [Numeral.text, Numeral.fractionText_of_ne_nil fraction]
    simp [Numeral.powerText, same]

end Forms

section Floats

variable {x : Binary64} {word : String} {value : Value}

/-- A word of the grammar is read as its value. -/
theorem reads_word (listed : (word, value) ∈ words) : Reads word.toList value := by
  have scalar (c : Char) (more : List Char) (text : word.toList = c :: more)
      (other : c ≠ '"' ∧ c ≠ '[' ∧ c ≠ '\x7b')
      (start : Cursor.isSpace c = false ∧ c ≠ ']' ∧ c ≠ '\uFEFF') (plain : '\r' ∉ c :: more)
      (read : ∀ offset rest, Gives (readScalar ⟨c :: more ++ rest, offset⟩) value rest) :
      Reads word.toList value := by
    rw [text]
    refine ⟨⟨c, more, rfl, start⟩, plain, fun fuel offset rest _ enough => ?_⟩
    cases fuel with
    | zero => cases enough
    | succ fuel =>
        rw [List.cons_append, readValue_of_scalar fuel other.1 other.2.1 other.2.2]
        exact read offset rest
  simp only [words, List.mem_cons, Prod.mk.injEq, List.not_mem_nil, or_false] at listed
  obtain ⟨rfl, rfl⟩ | ⟨rfl, rfl⟩ | ⟨rfl, rfl⟩ | ⟨rfl, rfl⟩ | ⟨rfl, rfl⟩ | ⟨rfl, rfl⟩ := listed
  all_goals
    apply scalar _ _ rfl (by decide) (by decide) (by decide)
    intro offset rest
    exact gives_ok rfl

theorem toList_sign (negative : Bool) :
    (if negative then "-" else "").toList = signText negative := by
  cases negative <;> rfl

/-- A decimal with its sign is read as the number that the decimal is. -/
theorem reads_of_spells {n : Numeral} {digits : Nat} {exponent : Int}
    (spells : Spells n digits exponent) (same : ofDecimal x.isNegative digits exponent = x) :
    Reads (signText x.isNegative ++ n.text) (.float x) := by
  apply Numeral.reads spells.formed
  intro start offset rest ends
  have given := Numeral.gives_float x.isNegative start offset spells.formed ends spells.fractional
  rwa [spells.read, same] at given

theorem spells_zero : Spells ⟨['0'], ['0'], none⟩ 0 0 where
  formed := ⟨.inl rfl, List.cons_ne_nil _ _, @isDigit_of_mem_zeros 1, @isDigit_of_mem_zeros 1,
    fun _ _ given => by cases given⟩
  fractional empty := by cases empty
  read negative := by
    have none : decimalValue ['0', '0'] = 0 := rfl
    simp [Numeral.digits, none, ofDecimal]

/-- A number is read back from its text, if what is no number has its usual form. -/
theorem reads_float (canonical : x.isNaN → x = .nan) :
    Reads (x.text .named).toList (.float x) := by
  unfold Binary64.text
  by_cases number : x.isNaN
  · rw [if_pos number, canonical number]
    exact @reads_word "NaN" _ (by simp [words])
  rw [if_neg number, String.toList_append, toList_sign]
  by_cases infinite : x.isInfinite
  · have magnitude : x.magnitude = infinityBits := eq_of_beq infinite
    have same : infinity x.isNegative = x := by
      rw [infinity, ← magnitude, ofMagnitude_magnitude]
    rw [if_pos infinite, ← same]
    cases x.isNegative
    · exact @reads_word "Infinity" _ (by simp [words])
    · exact @reads_word "-Infinity" _ (by simp [words])
  rw [if_neg infinite]
  by_cases zero : x.isZero
  · have magnitude : x.magnitude = 0 := eq_of_beq zero
    have same : Binary64.zero x.isNegative = x := by
      rw [Binary64.zero, ← magnitude, ofMagnitude_magnitude]
    rw [if_pos zero]
    exact reads_of_spells spells_zero same
  rw [if_neg zero]
  have finite : x.isFinite := by
    simp only [isNaN, isInfinite, isFinite, decide_eq_true_eq, beq_iff_eq] at number infinite ⊢
    omega
  have nonzero : x.isZero = false := Bool.eq_false_iff.mpr zero
  obtain ⟨n, spells, text⟩ :=
    exists_spells_decimalText .named (shortest_pos finite nonzero) x.shortest.2
  rw [text]
  exact reads_of_spells spells (ofDecimal_isNegative_shortest finite nonzero)

end Floats

end Json

end MemberOrder
