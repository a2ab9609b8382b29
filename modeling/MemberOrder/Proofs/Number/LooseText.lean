import MemberOrder.Number.Fraction
import MemberOrder.Proofs.Outcome
import MemberOrder.Proofs.Text.Lowercase

/-!
# Numbers in loose text that is strict

A row of digits in a base is the number it says, unless it is too long for a decimal number
(`Number.parseWhole_figures`), and a row of digits with a point and an exponent is a fraction
(`Number.isSome_parseFraction?`).
-/

namespace MemberOrder

theorem isDigit_iff {c : Char} : c.isDigit ↔ 48 ≤ c.toNat ∧ c.toNat ≤ 57 := by
  simp only [Char.isDigit, Bool.and_eq_true, decide_eq_true_eq, ge_iff_le,
    UInt32.le_iff_toNat_le]
  rfl

theorem char_le_iff {a c : Char} : a ≤ c ↔ a.toNat ≤ c.toNat := by
  rw [Char.le_def, UInt32.le_iff_toNat_le]
  rfl

namespace Text

theorem trimWhere_of_all {test : Char → Bool} {text : List Char}
    (none : ∀ c ∈ text, test c = false) : trimWhere test text = text := by
  have kept : ∀ text : List Char, (∀ c ∈ text, test c = false) → text.dropWhile test = text := by
    intro text none
    cases text with
    | nil => rfl
    | cons c rest => rw [List.dropWhile_cons, none c List.mem_cons_self]; rfl
  rw [trimWhere, kept text none, kept text.reverse fun c member => none c (by simpa using member),
    List.reverse_reverse]

end Text

namespace Number

/-- Whether a character is a letter or digit of ASCII. -/
def IsFigure (c : Char) : Prop :=
  48 ≤ c.toNat ∧ c.toNat ≤ 57 ∨ 65 ≤ c.toNat ∧ c.toNat ≤ 90 ∨ 97 ≤ c.toNat ∧ c.toNat ≤ 122

theorem isNumberBlank_of_visible {c : Char} (visible : 33 ≤ c.toNat ∧ c.toNat ≤ 126) :
    isNumberBlank c = false := by
  simp only [isNumberBlank, Text.isBlank, Bool.and_eq_false_iff, Bool.or_eq_false_iff,
    Bool.not_eq_false', beq_eq_false_iff_ne, Bool.and_eq_true, decide_eq_true_eq,
    decide_eq_false_iff_not]
  omega

theorem asciiDigit_of_visible {c : Char} (visible : 33 ≤ c.toNat ∧ c.toNat ≤ 126) :
    asciiDigit c = c := by
  rw [asciiDigit, if_pos (by omega)]

/-- A text of visible characters is neither trimmed nor changed in its digits. -/
theorem trimmed_of_visible {text : List Char}
    (visible : ∀ c ∈ text, 33 ≤ c.toNat ∧ c.toNat ≤ 126) :
    (Text.trimWhere isNumberBlank text).map asciiDigit = text := by
  rw [Text.trimWhere_of_all fun c member => isNumberBlank_of_visible (visible c member)]
  exact (List.map_congr_left fun c member => asciiDigit_of_visible (visible c member)).trans
    (List.map_id' text)

/-- Whether a character is a digit in a base. -/
def IsDigitIn (base : Nat) (c : Char) : Prop := (digitOf? base c).isSome

theorem IsDigitIn.figure {base : Nat} {c : Char} (digit : IsDigitIn base c) : IsFigure c := by
  unfold IsDigitIn digitOf? at digit
  unfold IsFigure
  simp only [char_le_iff] at digit
  split at digit
  · next decimal => exact .inl (isDigit_iff.mp decimal)
  · split at digit
    · next small => exact .inr (.inr small)
    · split at digit
      · next capital => exact .inr (.inl capital)
      · cases digit

theorem IsFigure.visible {c : Char} (figure : IsFigure c) : 33 ≤ c.toNat ∧ c.toNat ≤ 126 := by
  unfold IsFigure at figure
  omega

theorem isDigitIn_ten {c : Char} (decimal : c.isDigit) : IsDigitIn 10 c := by
  have bounds := isDigit_iff.mp decimal
  have small : c.toNat - 48 < 10 := by omega
  simp [IsDigitIn, digitOf?, decimal, Option.filter, small]

section Whole

variable {base : Nat} {digits : List Char}

theorem digitsOf?_figures (some : digits ≠ []) (all : ∀ c ∈ digits, IsDigitIn base c) :
    ∃ values, digitsOf? base digits = .some values ∧ values.length = digits.length := by
  induction digits with
  | nil => exact absurd rfl some
  | cons c rest ih =>
      obtain ⟨value, found⟩ := Option.isSome_iff_exists.mp (all c List.mem_cons_self)
      cases rest with
      | nil => exact ⟨[value], by rw [digitsOf?, found]; rfl, rfl⟩
      | cons next more =>
          have figure : next ≠ '_' := by
            rintro rfl
            exact absurd (all '_' (by simp)).figure (by unfold IsFigure; decide)
          obtain ⟨values, read, length⟩ := ih (by simp) fun other member =>
            all other (List.mem_cons_of_mem _ member)
          refine ⟨value :: values, ?_, by simp [length]⟩
          rw [digitsOf?, found, read]
          · rfl
          · exact nofun
          · intro again same
            exact figure (List.cons.inj same).1

/-- Digits do not begin with the prefix that names their base. -/
theorem dropBasePrefix_figures (all : ∀ c ∈ digits, IsDigitIn base c) :
    dropBasePrefix base digits = digits := by
  unfold dropBasePrefix
  simp only
  split
  · next letter rest =>
      have digit := all letter (by simp)
      split
      · next named =>
          simp only [Bool.or_eq_true, Bool.and_eq_true, beq_iff_eq] at named
          obtain (⟨rfl, rfl | rfl⟩ | ⟨rfl, rfl | rfl⟩) | ⟨rfl, rfl | rfl⟩ := named <;>
            exact absurd digit (by unfold IsDigitIn; decide)
      · rfl
  · rfl

theorem splitSign_figures (all : ∀ c ∈ digits, IsFigure c) :
    splitSign digits = (false, digits) := by
  unfold splitSign
  split
  · exact absurd (all '-' (by simp)) (by unfold IsFigure; decide)
  · exact absurd (all '+' (by simp)) (by unfold IsFigure; decide)
  · rfl

/-- A row of digits is a whole number, unless it is decimal and too long. -/
theorem parseWhole_figures (some : digits ≠ []) (all : ∀ c ∈ digits, IsDigitIn base c) :
    (∃ n, parseWhole base (String.ofList digits) = .ok n) ∨
      base = 10 ∧ digitLimit < digits.length ∧
        parseWhole base (String.ofList digits) = .error (.tooManyDigits digits.length) := by
  obtain ⟨values, read, length⟩ := digitsOf?_figures some all
  unfold parseWhole
  rw [String.toList_ofList, trimmed_of_visible fun c member => (all c member).figure.visible]
  simp only [splitSign_figures fun c member => (all c member).figure, dropBasePrefix_figures all,
    read]
  split
  · next long =>
      rw [length] at long ⊢
      exact .inr ⟨long.1, long.2, rfl⟩
  · exact .inl ⟨_, rfl⟩

end Whole

section Fraction

theorem digitRow_digits {digits rest : List Char} (all : ∀ c ∈ digits, c.isDigit)
    (ends : ∀ c ∈ rest.head?, c.isDigit = false ∧ c ≠ '_') :
    ∃ values, digitRow (digits ++ rest) = (values, rest) ∧ values.length = digits.length := by
  induction digits with
  | nil =>
      refine ⟨[], ?_, rfl⟩
      rw [List.nil_append]
      cases rest with
      | nil => rw [digitRow]
      | cons c more =>
          have stops := (ends c rfl).1
          unfold digitRow
          split <;> simp_all
  | cons c more ih =>
      obtain ⟨values, read, length⟩ := ih fun other member =>
        all other (List.mem_cons_of_mem _ member)
      have decimal := all c List.mem_cons_self
      refine ⟨(c.toNat - 48) :: values, ?_, by simp [length]⟩
      rw [List.cons_append, digitRow]
      · simp [decimal, read]
      · intro next later same
        cases more with
        | nil => exact (ends '_' (by rw [List.nil_append] at same; rw [same]; rfl)).2 rfl
        | cons digit _ =>
            obtain rfl := (List.cons.inj same).1
            exact absurd (all '_' (by simp)) (by decide)

/-- The exponent of a fraction: nothing, or a letter, a sign and digits. -/
inductive IsPower : List Char → Prop
  | none : IsPower []
  | some {e sign : Char} {figures : List Char} (letter : e = 'e' ∨ e = 'E')
      (signed : sign = '-' ∨ sign = '+') (nonempty : figures ≠ [])
      (all : ∀ c ∈ figures, c.isDigit) : IsPower (e :: sign :: figures)

theorem IsPower.visible {text : List Char} (power : IsPower text) :
    ∀ c ∈ text, 33 ≤ c.toNat ∧ c.toNat ≤ 126 := by
  cases power with
  | none => exact nofun
  | some letter signed nonempty all =>
      intro c member
      obtain rfl | rfl | member := by simpa using member
      · obtain rfl | rfl := letter <;> decide
      · obtain rfl | rfl := signed <;> decide
      · have := isDigit_iff.mp (all c member)
        omega

theorem IsPower.ends {text : List Char} (power : IsPower text) :
    ∀ c ∈ text.head?, c.isDigit = false ∧ c ≠ '_' ∧ c ≠ '.' := by
  cases power with
  | none => exact nofun
  | some letter signed nonempty all =>
      rintro c ⟨⟩
      obtain rfl | rfl := letter <;> decide

theorem isSome_exponentOf? {text : List Char} (power : IsPower text) :
    (exponentOf? text).isSome := by
  cases power with
  | none => rfl
  | @some e sign figures letter signed nonempty all =>
      obtain ⟨values, read, length⟩ := @digitRow_digits figures [] all nofun
      rw [List.append_nil] at read
      have others : values ≠ [] := by
        rintro rfl
        exact nonempty (List.eq_nil_of_length_eq_zero length.symm)
      have split : ∃ negative, splitSign (sign :: figures) = (negative, figures) := by
        obtain rfl | rfl := signed
        · exact ⟨true, rfl⟩
        · exact ⟨false, rfl⟩
      obtain ⟨negative, split⟩ := split
      simp only [exponentOf?, letter, ↓reduceIte, split, read]
      cases values with
      | nil => exact absurd rfl others
      | cons value more => rfl

/-- A text that begins with a digit or a point is no word. -/
theorem lower_ne_word {c : Char} {rest : List Char} (first : c.isDigit ∨ c = '.') {word : String}
    {letter : Char} {letters : List Char} (spelled : word.toList = letter :: letters)
    (other : letter = 'i' ∨ letter = 'n') :
    String.ofList ((c :: rest).map Char.toLower) ≠ word := by
  intro same
  have listed := congrArg String.toList same
  rw [String.toList_ofList, spelled, List.map_cons] at listed
  have head := (List.cons.inj listed).1
  have kept : c.toLower = c := by
    obtain digit | rfl := first
    · have bounds := isDigit_iff.mp digit
      exact toLower_of_not_capital (by omega)
    · decide
  rw [kept] at head
  obtain digit | rfl := first
  · obtain rfl | rfl := other <;> (rw [head] at digit; exact absurd digit (by decide))
  · obtain rfl | rfl := other <;> exact absurd head (by decide)

theorem isEmpty_eq_false {values : List Nat} {digits : List Char}
    (length : values.length = digits.length) (some : digits ≠ []) : values.isEmpty = false := by
  cases values with
  | nil => exact absurd (List.eq_nil_of_length_eq_zero length.symm) some
  | cons value rest => rfl

theorem splitSign_of_begins {first : Char} {rest : List Char}
    (begins : first.isDigit ∨ first = '.') :
    splitSign (first :: rest) = (false, first :: rest) := by
  have unsigned : first ≠ '-' ∧ first ≠ '+' := by
    obtain digit | rfl := begins
    · constructor <;> (rintro rfl; exact absurd digit (by decide))
    · decide
  unfold splitSign
  split
  · next same => exact absurd (List.cons.inj same).1 unsigned.1
  · next same => exact absurd (List.cons.inj same).1 unsigned.2
  · rfl

variable {whole point fraction power : List Char}

theorem visible_of_fraction (wholeDigits : ∀ c ∈ whole, c.isDigit)
    (fractionDigits : ∀ c ∈ fraction, c.isDigit) (exponent : IsPower power)
    (pointed : point = '.' :: fraction ∨ point = [] ∧ fraction = []) :
    ∀ c ∈ whole ++ (point ++ power), 33 ≤ c.toNat ∧ c.toNat ≤ 126 := by
  have decimal {c : Char} (digit : c.isDigit) : 33 ≤ c.toNat ∧ c.toNat ≤ 126 := by
    have := isDigit_iff.mp digit
    omega
  simp only [List.forall_mem_append]
  refine ⟨fun c member => decimal (wholeDigits c member), ?_, exponent.visible⟩
  obtain rfl | ⟨rfl, -⟩ := pointed
  · exact List.forall_mem_cons.mpr ⟨by decide, fun c member => decimal (fractionDigits c member)⟩
  · exact nofun

/-- A fraction begins with a digit or with its point. -/
theorem begins_of_fraction (wholeDigits : ∀ c ∈ whole, c.isDigit)
    (some : whole ≠ [] ∨ fraction ≠ [])
    (pointed : point = '.' :: fraction ∨ point = [] ∧ fraction = []) :
    ∃ first rest, whole ++ (point ++ power) = first :: rest ∧ (first.isDigit ∨ first = '.') := by
  cases whole with
  | cons c more => exact ⟨c, _, rfl, .inl (wholeDigits c List.mem_cons_self)⟩
  | nil =>
      obtain rfl | ⟨rfl, rfl⟩ := pointed
      · exact ⟨'.', _, rfl, .inr rfl⟩
      · simp at some

/-- The digits before the point are read up to it, and those after it up to the power. -/
theorem isSome_unsignedFraction? {negative : Bool} (wholeDigits : ∀ c ∈ whole, c.isDigit)
    (fractionDigits : ∀ c ∈ fraction, c.isDigit) (some : whole ≠ [] ∨ fraction ≠ [])
    (exponent : IsPower power)
    (pointed : point = '.' :: fraction ∨ point = [] ∧ fraction = []) :
    (unsignedFraction? negative (whole ++ (point ++ power))).isSome := by
  obtain ⟨first, rest, started, begins⟩ :=
    @begins_of_fraction _ _ _ power wholeDigits some pointed
  have noWord {word : String} {letter : Char} {letters : List Char}
      (spelled : word.toList = letter :: letters) (other : letter = 'i' ∨ letter = 'n') :
      String.ofList ((whole ++ (point ++ power)).map Char.toLower) ≠ word :=
    started ▸ lower_ne_word begins spelled other
  have ends : ∀ c ∈ power.head?, c.isDigit = false ∧ c ≠ '_' := fun c head =>
    ⟨(exponent.ends c head).1, (exponent.ends c head).2.1⟩
  obtain ⟨values, read, length⟩ := @digitRow_digits whole (point ++ power) wholeDigits (by
    obtain rfl | ⟨rfl, -⟩ := pointed
    · rintro c ⟨⟩
      decide
    · exact ends)
  obtain ⟨more, readMore, lengthMore⟩ := @digitRow_digits fraction power fractionDigits ends
  obtain ⟨exponentValue, raised⟩ := Option.isSome_iff_exists.mp (isSome_exponentOf? exponent)
  have nonempty : (values.isEmpty && more.isEmpty) = false := by
    rw [Bool.and_eq_false_iff]
    exact some.imp (isEmpty_eq_false length) (isEmpty_eq_false lengthMore)
  unfold unsignedFraction?
  rw [if_neg (not_or.mpr ⟨noWord rfl (.inl rfl), noWord rfl (.inl rfl)⟩),
    if_neg (noWord rfl (.inr rfl))]
  simp only [read]
  obtain rfl | ⟨rfl, rfl⟩ := pointed
  · simp only [List.cons_append, readMore, nonempty, raised]
    rfl
  · have none : more = [] := List.eq_nil_of_length_eq_zero lengthMore
    subst none
    rw [List.nil_append]
    split
    · exact absurd rfl (exponent.ends '.' rfl).2.2
    · simp only [nonempty, raised]
      rfl

/-- A row of digits, with or without a point and more of them, is a fraction; a power may follow. -/
theorem isSome_parseFraction? (wholeDigits : ∀ c ∈ whole, c.isDigit)
    (fractionDigits : ∀ c ∈ fraction, c.isDigit) (some : whole ≠ [] ∨ fraction ≠ [])
    (exponent : IsPower power)
    (pointed : point = '.' :: fraction ∨ point = [] ∧ fraction = []) :
    (parseFraction? (String.ofList (whole ++ (point ++ power)))).isSome := by
  obtain ⟨first, rest, started, begins⟩ :=
    @begins_of_fraction _ _ _ power wholeDigits some pointed
  have unsigned : splitSign (whole ++ (point ++ power)) = (false, whole ++ (point ++ power)) :=
    started ▸ splitSign_of_begins begins
  unfold parseFraction?
  rw [String.toList_ofList,
    trimmed_of_visible (visible_of_fraction wholeDigits fractionDigits exponent pointed)]
  simp only [unsigned]
  exact isSome_unsignedFraction? wholeDigits fractionDigits some exponent pointed

theorem isSome_parseFraction?_digits {digits : List Char} (some : digits ≠ [])
    (all : ∀ c ∈ digits, c.isDigit) : (parseFraction? (String.ofList digits)).isSome := by
  have read := @isSome_parseFraction? digits [] [] [] all nofun (.inl some) .none (.inr ⟨rfl, rfl⟩)
  rwa [List.append_nil, List.append_nil] at read

end Fraction

end Number

end MemberOrder
