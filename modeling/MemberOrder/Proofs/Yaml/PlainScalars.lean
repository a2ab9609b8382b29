import MemberOrder.Proofs.Number.LooseText
import MemberOrder.Proofs.Text.Blanks
import MemberOrder.Proofs.Yaml.ScanFaults
import MemberOrder.Yaml.Scalar

/-!
# Scalars under the tag that their spelling means

A scalar without a tag of its own is read by the tag that its spelling means. It has a value under
that tag, unless it is a whole number with too many digits or with none after its prefix, a number
in too many groups of sixty, or a date or time that does not exist (`Yaml.settles_implicit`).
-/

namespace MemberOrder

namespace Yaml

open Number (IsDigitIn IsPower)

/-- Why a spelling has no value under the tag that it means. -/
inductive Meaningless (spelling : List Char) : Fault → Prop
  /-- A whole number has more digits than it may have. -/
  | long {count : Nat} (whole : isInteger spelling) (many : Number.digitLimit < count)
      (within : count ≤ spelling.length) : Meaningless spelling (.whole (.tooManyDigits count))
  /-- A whole number has no digits after the prefix that names its base. -/
  | bare {base : Nat} {letter : Char} {rest : List Char}
      (named : base = 2 ∧ letter = 'b' ∨ base = 16 ∧ letter = 'x')
      (spelled : dropSign spelling = '0' :: letter :: rest) (empty : ∀ c ∈ rest, c = '_') :
      Meaningless spelling (.whole (.notWhole base ""))
  /-- A number has more groups of sixty than a fraction can weigh. -/
  | great (fraction : isFloat spelling)
      (weight : (Number.Binary64.ofRatio false (Nat.pow 60 (spelling.count ':')) 1).isInfinite) :
      Meaningless spelling .tooGreat
  /-- A date or time does not exist. -/
  | calendar (written : isTimestamp spelling) (fault : CalendarFault) :
      Meaningless spelling (.calendar fault)

/-- The text without underscores. -/
abbrev withoutLines (text : List Char) : List Char := text.filter (· != '_')

/-- One or more groups of sixty and what stands after them. -/
inductive Groups : List Char → List Char → Prop
  | last {digits rest : List Char} (some : digits ≠ []) (all : ∀ c ∈ digits, c.isDigit) :
      Groups (':' :: (digits ++ rest)) rest
  | more {digits later rest : List Char} (some : digits ≠ []) (all : ∀ c ∈ digits, c.isDigit)
      (groups : Groups later rest) : Groups (':' :: (digits ++ later)) rest

theorem not_mem_of_digits {digits : List Char} (all : ∀ c ∈ digits, c.isDigit) {mark : Char}
    (other : mark.isDigit = false) : mark ∉ digits := by
  intro member
  rw [all mark member] at other
  cases other

theorem groups_of_afterSixties {fuel : Nat} {text rest : List Char}
    (found : afterSixties fuel text = some rest) : Groups text rest := by
  induction fuel generalizing text with
  | zero => cases found
  | succ fuel ih =>
      unfold afterSixties at found
      split at found
      · cases found
      · next first later more same =>
          cases same
          obtain ⟨digits, taken⟩ : ∃ digits, digits = more.takeWhile Char.isDigit := ⟨_, rfl⟩
          have all : ∀ c ∈ digits, c.isDigit := fun c member =>
            List.mem_takeWhile_imp (taken ▸ member)
          have split : more = digits ++ more.drop digits.length := by
            have leads : digits <+: more := taken ▸ List.takeWhile_prefix _
            exact (List.prefix_iff_eq_append.mp leads).symm
          simp only [← taken] at found
          have nonempty : digits ≠ [] := by
            rintro rfl
            simp at found
          have goesOn {after : List Char} (found : afterSixties fuel after = some rest) :
              Groups (':' :: (digits ++ after)) rest := .more nonempty all (ih found)
          rw [split]
          split at found
          · simp only [Bool.not_true, Bool.false_eq_true, ↓reduceIte] at found
            split at found
            · exact goesOn found
            · cases found
              exact .last nonempty all
          · split at found
            · cases found
            · split at found
              · exact goesOn found
              · cases found
                exact .last nonempty all
          · cases found
      · cases found

/-- The pieces between the colons are the first digits, the groups, and the last group with what
follows it. -/
theorem Groups.pieces {text rest : List Char} (groups : Groups text rest) (absent : ':' ∉ rest)
    {first : List Char} (digits : ':' ∉ first) :
    ∃ middle last, Text.piecesBetween ':' (first ++ text) = first :: (middle ++ [last ++ rest]) ∧
      (∀ piece ∈ last :: middle, piece ≠ [] ∧ (∀ c ∈ piece, c.isDigit) ∧
        piece.length ≤ text.length) ∧
      text.count ':' = middle.length + 1 := by
  induction groups generalizing first with
  | @last last rest some all =>
      have whole : ':' ∉ last ++ rest := fun member =>
        (List.mem_append.mp member).elim (not_mem_of_digits all rfl) absent
      refine ⟨[], last, ?_, ?_, ?_⟩
      · rw [Text.piecesBetween_append digits, Text.piecesBetween_of_not_mem whole]
        rfl
      · simp only [List.mem_singleton, forall_eq]
        exact ⟨some, all, by simp; omega⟩
      · rw [List.count_cons_self, List.count_eq_zero_of_not_mem whole]
        rfl
  | @more group later rest some all groups ih =>
      obtain ⟨middle, last, pieces, held, counted⟩ := ih absent (not_mem_of_digits all rfl)
      refine ⟨group :: middle, last, ?_, ?_, ?_⟩
      · rw [Text.piecesBetween_append digits, pieces]
        rfl
      · intro piece member
        simp only [List.mem_cons] at member
        obtain rfl | rfl | member := member
        · obtain ⟨nonempty, digit, short⟩ := held piece List.mem_cons_self
          exact ⟨nonempty, digit, by simp; omega⟩
        · exact ⟨some, all, by simp; omega⟩
        · obtain ⟨nonempty, digit, short⟩ := held piece (List.mem_cons_of_mem _ member)
          exact ⟨nonempty, digit, by simp; omega⟩
      · rw [List.count_cons_self, List.count_append, counted,
          List.count_eq_zero_of_not_mem (not_mem_of_digits all rfl)]
        simp

/-! ### Whole numbers -/

section Whole

/-- Why a row of characters is no whole number: it has too many digits. -/
def TooLong (limit : Nat) (fault : Fault) : Prop :=
  ∃ count, fault = .whole (.tooManyDigits count) ∧ Number.digitLimit < count ∧ count ≤ limit

theorem settles_wholeOf {base : Nat} {digits : List Char} (some : digits ≠ [])
    (all : ∀ c ∈ digits, IsDigitIn base c) {limit : Nat} (short : digits.length ≤ limit) :
    Settles (fun _ => True) (TooLong limit) (wholeOf base digits) := by
  unfold wholeOf
  obtain ⟨n, read⟩ | ⟨-, long, read⟩ := Number.parseWhole_figures some all
  · rw [read]
    exact .ok trivial
  · rw [read]
    exact .error ⟨_, rfl, long, short⟩

theorem unsignedInt_of_nonzero {first : Char} {rest : List Char} (nonzero : first ≠ '0') :
    unsignedInt (first :: rest) =
      if (first :: rest).contains ':' then do
        let groups ← (Text.piecesBetween ':' (first :: rest)).mapM (wholeOf 10)
        return groups.foldl (fun n group => n * 60 + group) 0
      else wholeOf 10 (first :: rest) := by
  rw [unsignedInt]
  · exact nofun
  · exact fun same => nonzero (List.cons.inj same).1
  · exact fun _ same => nonzero (List.cons.inj same).1
  · exact fun _ same => nonzero (List.cons.inj same).1
  · exact fun _ same => nonzero (List.cons.inj same).1

theorem unsignedInt_of_zero {c : Char} {rest : List Char} (other : c ≠ 'b' ∧ c ≠ 'x') :
    unsignedInt ('0' :: c :: rest) = wholeOf 8 ('0' :: c :: rest) := by
  rw [unsignedInt]
  · exact nofun
  · exact fun _ same => other.1 (List.cons.inj same).1
  · exact fun _ same => other.2 (List.cons.inj same).1

/-- Decimal digits that do not begin with a zero, and groups of sixty after them if there are. -/
theorem settles_unsignedInt {first : Char} {digits text : List Char} (nonzero : first ≠ '0')
    (all : ∀ c ∈ first :: digits, c.isDigit) (groups : text = [] ∨ Groups text []) :
    Settles (fun _ => True) (TooLong (first :: digits ++ text).length)
      (unsignedInt (first :: digits ++ text)) := by
  have lead : ':' ∉ first :: digits := not_mem_of_digits all rfl
  have figures : ∀ c ∈ first :: digits, IsDigitIn 10 c := fun c member =>
    Number.isDigitIn_ten (all c member)
  rw [List.cons_append, unsignedInt_of_nonzero nonzero, ← List.cons_append]
  obtain rfl | groups := groups
  · rw [List.append_nil, if_neg (by simpa using lead)]
    exact settles_wholeOf (List.cons_ne_nil _ _) figures le_rfl
  · obtain ⟨middle, last, pieces, held, counted⟩ := groups.pieces nofun lead
    have colon : ':' ∈ text := List.count_pos_iff.mp (by omega)
    rw [if_pos (by simp [colon]), pieces, List.append_nil]
    refine Settles.bind (settles_mapM fun piece member => ?_) fun _ _ => .ok trivial
    have listed : piece = first :: digits ∨ piece ∈ last :: middle := by
      simp only [List.mem_cons, List.mem_append, List.not_mem_nil, or_false] at member ⊢
      tauto
    obtain rfl | inner := listed
    · exact settles_wholeOf (List.cons_ne_nil _ _) figures (by simp)
    · obtain ⟨some, digit, short⟩ := held piece inner
      exact settles_wholeOf some (fun c member => Number.isDigitIn_ten (digit c member))
        (by simp; omega)

/-- A number with a sign or none in front, and a digit or a point after it. -/
theorem bareNumber_eq {text rest : List Char} {first : Char}
    (unsigned : dropSign text = first :: rest) (begins : first.isDigit ∨ first = '.') :
    ∃ negative, bareNumber text = .ok (negative, first :: withoutLines rest) := by
  have plain : first ≠ '-' ∧ first ≠ '+' ∧ first ≠ '_' := by
    obtain digit | rfl := begins
    · refine ⟨?_, ?_, ?_⟩ <;> (rintro rfl; exact absurd digit (by decide))
    · decide
  have kept : List.filter (· != '_') (first :: rest) = first :: withoutLines rest := by
    simp [withoutLines, plain.2.2]
  unfold dropSign at unsigned
  unfold bareNumber
  split at unsigned
  · rw [unsigned, List.filter_cons_of_pos (by decide), kept]
    exact ⟨true, rfl⟩
  · rw [unsigned, List.filter_cons_of_pos (by decide), kept]
    exact ⟨false, rfl⟩
  · rw [unsigned, kept]
    refine ⟨false, ?_⟩
    split
    · next empty => cases empty
    · next same => exact absurd (List.cons.inj same).1 plain.1
    · next same => exact absurd (List.cons.inj same).1 plain.2.1
    · rfl

theorem length_withoutLines_le (text : List Char) : (withoutLines text).length ≤ text.length :=
  List.length_filter_le _ _

theorem length_dropSign_le (text : List Char) : (dropSign text).length ≤ text.length := by
  unfold dropSign
  split <;> simp

theorem mem_withoutLines {text : List Char} {c : Char} :
    c ∈ withoutLines text ↔ c ∈ text ∧ c ≠ '_' := by
  simp [withoutLines]

theorem forall_mem_withoutLines {P : Char → Prop} {text : List Char} :
    (∀ c ∈ withoutLines text, P c) ↔ ∀ c ∈ text, c ≠ '_' → P c := by
  simp only [mem_withoutLines, and_imp]

/-- Digits after the prefix of a base make a number, unless there are none. -/
theorem settles_prefixed {base : Nat} {rest : List Char} (other : base ≠ 10)
    (all : ∀ c ∈ rest, c ≠ '_' → IsDigitIn base c) :
    Settles (fun _ => True)
      (fun fault => fault = .whole (.notWhole base "") ∧ ∀ c ∈ rest, c = '_')
      (wholeOf base (withoutLines rest)) := by
  by_cases empty : withoutLines rest = []
  · rw [empty]
    refine .error ⟨rfl, fun c member => ?_⟩
    by_contra line
    exact absurd (mem_withoutLines.mpr ⟨member, line⟩) (empty ▸ List.not_mem_nil)
  · obtain ⟨n, read⟩ | ⟨ten, -⟩ := Number.parseWhole_figures empty (forall_mem_withoutLines.mpr all)
    · unfold wholeOf
      rw [read]
      exact .ok trivial
    · exact absurd ten other

theorem settles_octal {rest : List Char} (all : ∀ c ∈ rest, c ≠ '_' → IsDigitIn 8 c) :
    Settles (fun _ => True) (fun _ => False) (unsignedInt ('0' :: withoutLines rest)) := by
  have digits : ∀ c ∈ withoutLines rest, IsDigitIn 8 c := forall_mem_withoutLines.mpr all
  have zero : IsDigitIn 8 '0' := by unfold IsDigitIn; decide
  cases listed : withoutLines rest with
  | nil => exact .ok trivial
  | cons c more =>
      rw [listed] at digits
      have other : c ≠ 'b' ∧ c ≠ 'x' := by
        have digit := digits c List.mem_cons_self
        constructor <;> (rintro rfl; exact absurd digit (by unfold IsDigitIn; decide))
      rw [unsignedInt_of_zero other, wholeOf]
      obtain ⟨n, read⟩ | ⟨ten, -⟩ := Number.parseWhole_figures (List.cons_ne_nil _ _)
        (List.forall_mem_cons.mpr ⟨zero, digits⟩)
      · rw [read]
        exact .ok trivial
      · cases ten

theorem isDigitIn_of_le {base : Nat} {c : Char} (decimal : c.isDigit)
    (small : c.toNat < 48 + base) : IsDigitIn base c := by
  have bounds := isDigit_iff.mp decimal
  have below : c.toNat - 48 < base := by omega
  simp [IsDigitIn, Number.digitOf?, decimal, Option.filter, below]

theorem isDigitIn_sixteen {c : Char}
    (hexadecimal : c.isDigit ∨ 'a' ≤ c ∧ c ≤ 'f' ∨ 'A' ≤ c ∧ c ≤ 'F') : IsDigitIn 16 c := by
  obtain decimal | small | capital := hexadecimal
  · exact isDigitIn_of_le decimal (by have := isDigit_iff.mp decimal; omega)
  · simp only [char_le_iff] at small
    have bounds : 97 ≤ c.toNat ∧ c.toNat ≤ 102 := small
    have other : ¬c.isDigit := fun decimal => by have := isDigit_iff.mp decimal; omega
    have letter : 'a' ≤ c ∧ c ≤ 'z' := by
      simp only [char_le_iff]
      change 97 ≤ c.toNat ∧ c.toNat ≤ 122
      omega
    simp [IsDigitIn, Number.digitOf?, other, letter, Option.filter]
    omega
  · simp only [char_le_iff] at capital
    have bounds : 65 ≤ c.toNat ∧ c.toNat ≤ 70 := capital
    have other : ¬c.isDigit := fun decimal => by have := isDigit_iff.mp decimal; omega
    have small : ¬('a' ≤ c ∧ c ≤ 'z') := by
      simp only [char_le_iff]
      change ¬(97 ≤ c.toNat ∧ c.toNat ≤ 122)
      omega
    have letter : 'A' ≤ c ∧ c ≤ 'Z' := by
      simp only [char_le_iff]
      change 65 ≤ c.toNat ∧ c.toNat ≤ 90
      omega
    simp [IsDigitIn, Number.digitOf?, other, small, letter, Option.filter]
    omega

/-- The text after decimal digits and underscores. -/
theorem afterDigits?_spec {text rest : List Char} (found : afterDigits? text = some rest) :
    ∃ first digits, text = first :: (digits ++ rest) ∧ first.isDigit ∧
      ∀ c ∈ digits, c ≠ '_' → c.isDigit := by
  cases text with
  | nil => cases found
  | cons first more =>
      rw [afterDigits?] at found
      split at found
      · next digit =>
          cases found
          refine ⟨first, more.takeWhile isDigitOrLine, by rw [List.takeWhile_append_dropWhile],
            digit, fun c member line => ?_⟩
          have kept := List.mem_takeWhile_imp member
          simpa [isDigitOrLine, line] using kept
      · cases found

theorem ne_line_of_digit {c : Char} (digit : c.isDigit) : c ≠ '_' := by
  rintro rfl
  exact absurd digit (by decide)

/-- Groups of sixty keep their digits when the underscores behind them go. -/
theorem Groups.filtered {text rest : List Char} (groups : Groups text rest) :
    Groups (withoutLines text) (withoutLines rest) := by
  have kept {digits : List Char} (all : ∀ c ∈ digits, c.isDigit) : withoutLines digits = digits :=
    List.filter_eq_self.mpr fun c member => by simpa using ne_line_of_digit (all c member)
  have split (digits later : List Char) : withoutLines (':' :: (digits ++ later)) =
      ':' :: (withoutLines digits ++ withoutLines later) := by
    rw [withoutLines, List.filter_cons_of_pos (by decide), List.filter_append]
  induction groups with
  | last some all =>
      rw [split, kept all]
      exact .last some all
  | more some all _ ih =>
      rw [split, kept all]
      exact .more some all ih

variable {text : String} {first : Char} {rest : List Char}

/-- A whole number is read from its characters without sign and underscores. -/
theorem settles_intOf_unsigned {bad : Fault → Prop}
    (unsigned : dropSign text.toList = first :: rest) (begins : first.isDigit)
    (settled : Settles (fun _ => True) bad (unsignedInt (first :: withoutLines rest))) :
    Settles (fun _ => True) bad (intOf text) := by
  obtain ⟨negative, bare⟩ := bareNumber_eq unsigned (.inl begins)
  unfold intOf
  rw [bare]
  exact settled.bind fun _ _ => .ok trivial

/-- A whole number whose base is named in front has a value, unless no digit follows the name. -/
theorem settles_intOf_named {base : Nat} {letter : Char}
    (named : base = 2 ∧ letter = 'b' ∨ base = 16 ∧ letter = 'x')
    (unsigned : dropSign text.toList = '0' :: letter :: rest)
    (all : ∀ c ∈ rest, c ≠ '_' → IsDigitIn base c) :
    Settles (fun _ => True) (Meaningless text.toList) (intOf text) := by
  have kept : withoutLines (letter :: rest) = letter :: withoutLines rest := by
    obtain ⟨-, rfl⟩ | ⟨-, rfl⟩ := named <;> exact List.filter_cons_of_pos (by decide)
  have prefixed : unsignedInt ('0' :: letter :: withoutLines rest) =
      wholeOf base (withoutLines rest) := by
    obtain ⟨rfl, rfl⟩ | ⟨rfl, rfl⟩ := named <;> rw [unsignedInt]
  have other : base ≠ 10 := by
    obtain ⟨rfl, -⟩ | ⟨rfl, -⟩ := named <;> decide
  refine settles_intOf_unsigned unsigned rfl ?_
  rw [kept, prefixed]
  refine (settles_prefixed other all).excuse ?_
  rintro _ ⟨rfl, empty⟩
  exact .bare named unsigned empty

/-- A decimal whole number that does not begin with a zero has a value, unless it is too long. -/
theorem settles_intOf_decimal (whole : isInteger text.toList)
    (nonzero : ∀ rest, dropSign text.toList ≠ '0' :: rest)
    (after : afterDigits? (dropSign text.toList) = some rest) (ends : rest = [] ∨ Groups rest []) :
    Settles (fun _ => True) (Meaningless text.toList) (intOf text) := by
  obtain ⟨first, digits, unsigned, digit, all⟩ := afterDigits?_spec after
  have length :
      (first :: withoutLines digits ++ withoutLines rest).length ≤ text.toList.length := by
    have signed := length_dropSign_le text.toList
    have shorter := length_withoutLines_le digits
    have shorter' := length_withoutLines_le rest
    rw [unsigned] at signed
    simp only [List.length_cons, List.length_append] at signed ⊢
    omega
  have figures : ∀ c ∈ first :: withoutLines digits, c.isDigit :=
    List.forall_mem_cons.mpr ⟨digit, forall_mem_withoutLines.mpr all⟩
  refine settles_intOf_unsigned unsigned digit ?_
  have groups : withoutLines rest = [] ∨ Groups (withoutLines rest) [] :=
    ends.imp (fun empty => by rw [empty]; rfl) Groups.filtered
  rw [withoutLines, List.filter_append]
  refine (settles_unsignedInt ?_ figures groups).excuse ?_
  · rintro rfl
    exact nonzero _ unsigned
  · rintro _ ⟨count, rfl, many, within⟩
    exact .long whole many (within.trans length)

theorem settles_intOf (whole : isInteger text.toList) :
    Settles (fun _ => True) (Meaningless text.toList) (intOf text) := by
  have plain := whole
  unfold isInteger at plain
  split at plain
  · next zero => exact settles_intOf_unsigned zero rfl (.ok trivial)
  · next rest binary =>
      simp only [Bool.and_eq_true, List.all_eq_true, Bool.or_eq_true, beq_iff_eq] at plain
      refine settles_intOf_named (.inl ⟨rfl, rfl⟩) binary fun c member line => ?_
      obtain (rfl | rfl) | line' := plain.2 c member
      · unfold IsDigitIn; decide
      · unfold IsDigitIn; decide
      · exact absurd line' line
  · next rest hexadecimal =>
      simp only [Bool.and_eq_true, List.all_eq_true, Bool.or_eq_true, isDigitOrLine, beq_iff_eq,
        decide_eq_true_eq] at plain
      refine settles_intOf_named (.inr ⟨rfl, rfl⟩) hexadecimal fun c member line => ?_
      refine isDigitIn_sixteen ?_
      obtain ((decimal | line') | small) | capital := plain.2 c member
      · exact .inl decimal
      · exact absurd line' line
      · exact .inr (.inl small)
      · exact .inr (.inr capital)
  · next rest _ _ octal =>
      simp only [Bool.and_eq_true, List.all_eq_true, Bool.or_eq_true, beq_iff_eq,
        decide_eq_true_eq, char_le_iff] at plain
      refine settles_intOf_unsigned octal rfl
        ((settles_octal fun c member line => ?_).excuse fun _ => False.elim)
      obtain ⟨low, high⟩ | line' := plain.2 c member
      · have bounds : 48 ≤ c.toNat ∧ c.toNat ≤ 55 := ⟨low, high⟩
        exact isDigitIn_of_le (isDigit_iff.mpr (by omega)) (by omega)
      · exact absurd line' line
  · next nonzero =>
      split at plain
      · next after => exact settles_intOf_decimal whole nonzero after (.inl rfl)
      · next after =>
          exact settles_intOf_decimal whole nonzero after
            (.inr (groups_of_afterSixties (by simpa using plain)))
      · cases plain

end Whole

/-! ### Fractions -/

section Fraction

/-- A text in small letters without underscores. -/
abbrev prepared (text : List Char) : List Char := (withoutLines text).map Char.toLower

theorem looseFraction_eq {text : String} (ascii : ∀ c ∈ text.toList, c.toNat < 0x80) :
    looseFraction text = prepared text.toList := by
  unfold looseFraction Text.lowercase
  rw [String.toList_ofList, String.toList_ofList, Text.lowercaseFrom_of_ascii]
  exact fun c member => ascii c (mem_withoutLines.mp member).1

theorem toLower_ne_line {c : Char} (other : c ≠ '_') : c.toLower ≠ '_' := by
  by_cases capital : 65 ≤ c.toNat ∧ c.toNat ≤ 90
  · intro same
    have lower := toNat_toLower capital
    rw [same] at lower
    have : '_'.toNat = 95 := rfl
    omega
  · rwa [toLower_of_not_capital capital]

theorem withoutLines_prepared (text : List Char) :
    withoutLines (prepared text) = prepared text := by
  refine List.filter_eq_self.mpr fun c member => ?_
  obtain ⟨before, kept, rfl⟩ := List.mem_map.mp member
  simpa using toLower_ne_line (mem_withoutLines.mp kept).2

theorem prepared_append (first second : List Char) :
    prepared (first ++ second) = prepared first ++ prepared second := by
  simp [prepared, withoutLines]

theorem prepared_of_small {text : List Char}
    (small : ∀ c ∈ text, ¬(65 ≤ c.toNat ∧ c.toNat ≤ 90)) : prepared text = withoutLines text :=
  (List.map_congr_left fun c member =>
    toLower_of_not_capital (small c (mem_withoutLines.mp member).1)).trans (List.map_id' _)

theorem small_of_digitOrLine {digits : List Char} (all : ∀ c ∈ digits, c ≠ '_' → c.isDigit) :
    ∀ c ∈ digits, ¬(65 ≤ c.toNat ∧ c.toNat ≤ 90) := fun c member => by
  by_cases line : c = '_'
  · subst line
    decide
  · have := isDigit_iff.mp (all c member line)
    omega

theorem prepared_digits {digits : List Char} (all : ∀ c ∈ digits, c ≠ '_' → c.isDigit) :
    prepared digits = withoutLines digits :=
  prepared_of_small (small_of_digitOrLine all)

/-- What a fraction may begin with. -/
theorem plain_of_begins {first : Char} (begins : first.isDigit ∨ first = '.') :
    first ≠ '-' ∧ first ≠ '+' ∧ first ≠ '_' ∧ first ≠ ':' ∧ first.toLower = first := by
  obtain digit | rfl := begins
  · have bounds := isDigit_iff.mp digit
    refine ⟨?_, ?_, ?_, ?_, toLower_of_not_capital (by omega)⟩ <;>
      (rintro rfl; exact absurd digit (by decide))
  · decide

theorem prepared_cons {rest : List Char} {first : Char} (begins : first.isDigit ∨ first = '.') :
    prepared (first :: rest) = first :: prepared rest := by
  obtain ⟨-, -, noLine, -, kept⟩ := plain_of_begins begins
  rw [prepared, withoutLines, List.filter_cons_of_pos (by simpa using noLine), List.map_cons, kept]

theorem dropSign_prepared {text rest : List Char} {first : Char}
    (unsigned : dropSign text = first :: rest) (begins : first.isDigit ∨ first = '.') :
    dropSign (prepared text) = first :: prepared rest := by
  obtain ⟨noMinus, noPlus, -⟩ := plain_of_begins begins
  have head : prepared (first :: rest) = first :: prepared rest := prepared_cons begins
  unfold dropSign at unsigned
  split at unsigned
  · rw [unsigned, prepared, withoutLines, List.filter_cons_of_pos (by decide), List.map_cons]
    exact head
  · rw [unsigned, prepared, withoutLines, List.filter_cons_of_pos (by decide), List.map_cons]
    exact head
  · rw [unsigned, head]
    unfold dropSign
    split
    · next same => exact absurd (List.cons.inj same).1 noMinus
    · next same => exact absurd (List.cons.inj same).1 noPlus
    · rfl

variable {text : String} {first : Char} {rest : List Char}

/-- A fraction is read from its characters in small letters, without sign and underscores. -/
theorem settles_floatOf_unsigned {bad : Fault → Prop} (ascii : ∀ c ∈ text.toList, c.toNat < 0x80)
    (unsigned : dropSign text.toList = first :: rest) (begins : first.isDigit ∨ first = '.')
    (settled : first :: prepared rest ≠ ".inf".toList → first :: prepared rest ≠ ".nan".toList →
      Settles (fun _ => True) bad (if (first :: prepared rest).contains ':' then do
          sixties (← (Text.piecesBetween ':' (first :: prepared rest)).mapM fractionOf)
        else fractionOf (first :: prepared rest))) :
    Settles (fun _ => True) bad (floatOf text) := by
  obtain ⟨negative, bare⟩ := bareNumber_eq (dropSign_prepared unsigned begins) begins
  rw [withoutLines_prepared] at bare
  unfold floatOf
  rw [looseFraction_eq ascii, bare]
  refine Settles.bind (.ok rfl : Settles (· = (negative, first :: prepared rest)) bad _) ?_
  rintro _ rfl
  simp only
  split
  · exact .ok trivial
  · next noInfinity =>
      split
      · exact .ok trivial
      · next noNumber =>
          have whole := settled noInfinity noNumber
          split
          · next colon =>
              rw [if_pos colon] at whole
              rw [← bind_assoc]
              exact whole.bind fun _ _ => .ok trivial
          · next plain =>
              rw [if_neg plain] at whole
              exact whole.bind fun _ _ => .ok trivial

theorem settles_fractionOf {bad : Fault → Prop} {text : List Char}
    (read : (Number.parseFraction? (String.ofList text)).isSome) :
    Settles (fun _ => True) bad (fractionOf text) := by
  obtain ⟨x, found⟩ := Option.isSome_iff_exists.mp read
  unfold fractionOf
  rw [found]
  exact .ok trivial

theorem isPower_prepared {text : List Char} (exponent : isExponent text) :
    IsPower (prepared text) := by
  unfold isExponent at exponent
  split at exponent
  · exact .none
  · next e sign digit rest =>
      simp only [Bool.and_eq_true, Bool.or_eq_true, beq_iff_eq, List.all_eq_true] at exponent
      obtain ⟨⟨⟨letter, signed⟩, first⟩, others⟩ := exponent
      have digits : ∀ c ∈ digit :: rest, c.isDigit := List.forall_mem_cons.mpr ⟨first, others⟩
      have kept : prepared (e :: sign :: digit :: rest) = 'e' :: sign :: digit :: rest := by
        have same : prepared (digit :: rest) = digit :: rest := by
          rw [prepared_digits fun c member _ => digits c member]
          exact List.filter_eq_self.mpr fun c member => by
            simpa using ne_line_of_digit (digits c member)
        rw [show e :: sign :: digit :: rest = [e, sign] ++ (digit :: rest) from rfl,
          prepared_append, same]
        obtain rfl | rfl := letter <;> obtain rfl | rfl := signed <;> rfl
      rw [kept]
      exact .some (.inl rfl) signed (List.cons_ne_nil _ _) digits
  · cases exponent

/-- A number with a point is a fraction, whatever underscores stand in it. -/
theorem isSome_parseFraction?_pointed {whole fraction power : List Char}
    (wholeDigits : ∀ c ∈ whole, c ≠ '_' → c.isDigit)
    (fractionDigits : ∀ c ∈ fraction, c ≠ '_' → c.isDigit)
    (some : (∃ c ∈ whole, c.isDigit) ∨ ∃ c ∈ fraction, c.isDigit) (exponent : isExponent power) :
    (Number.parseFraction?
      (String.ofList (prepared (whole ++ '.' :: (fraction ++ power))))).isSome := by
  have nonempty {digits : List Char} (held : ∃ c ∈ digits, c.isDigit) :
      withoutLines digits ≠ [] := by
    obtain ⟨c, member, digit⟩ := held
    exact List.ne_nil_of_mem (mem_withoutLines.mpr ⟨member, ne_line_of_digit digit⟩)
  have spelled : prepared (whole ++ '.' :: (fraction ++ power)) =
      withoutLines whole ++ ('.' :: withoutLines fraction ++ prepared power) := by
    rw [show '.' :: (fraction ++ power) = ['.'] ++ (fraction ++ power) from rfl, prepared_append,
      prepared_append, prepared_append, prepared_digits wholeDigits, prepared_digits fractionDigits]
    rfl
  rw [spelled]
  exact Number.isSome_parseFraction? (forall_mem_withoutLines.mpr wholeDigits)
    (forall_mem_withoutLines.mpr fractionDigits) (some.imp nonempty nonempty)
    (isPower_prepared exponent) (.inl rfl)

theorem isAscii_of_dropSign {text : List Char} (ascii : ∀ c ∈ dropSign text, c.toNat < 0x80) :
    ∀ c ∈ text, c.toNat < 0x80 := by
  unfold dropSign at ascii
  split at ascii
  · exact List.forall_mem_cons.mpr ⟨by decide, ascii⟩
  · exact List.forall_mem_cons.mpr ⟨by decide, ascii⟩
  · exact ascii

theorem isAscii_of_digit {c : Char} (digit : c.isDigit) : c.toNat < 0x80 ∧ c ≠ ':' := by
  refine ⟨by have := isDigit_iff.mp digit; omega, ?_⟩
  rintro rfl
  exact absurd digit (by decide)

theorem isAscii_of_digitOrLine {digits : List Char} (all : ∀ c ∈ digits, c ≠ '_' → c.isDigit) :
    ∀ c ∈ digits, c.toNat < 0x80 ∧ c ≠ ':' := fun c member => by
  by_cases line : c = '_'
  · subst line
    decide
  · exact isAscii_of_digit (all c member line)

theorem isAscii_of_isExponent {text : List Char} (exponent : isExponent text) :
    ∀ c ∈ text, c.toNat < 0x80 ∧ c ≠ ':' := by
  unfold isExponent at exponent
  split at exponent
  · exact nofun
  · next e sign digit rest =>
      simp only [Bool.and_eq_true, Bool.or_eq_true, beq_iff_eq, List.all_eq_true] at exponent
      obtain ⟨⟨⟨letter, signed⟩, first⟩, others⟩ := exponent
      have digits : ∀ c ∈ digit :: rest, c.toNat < 0x80 ∧ c ≠ ':' := fun c member =>
        isAscii_of_digit ((List.forall_mem_cons.mpr ⟨first, others⟩ : ∀ c ∈ digit :: rest,
          c.isDigit = true) c member)
      refine List.forall_mem_cons.mpr ⟨?_, List.forall_mem_cons.mpr ⟨?_, digits⟩⟩
      · obtain rfl | rfl := letter <;> decide
      · obtain rfl | rfl := signed <;> decide
  · cases exponent

theorem colon_of_mem_prepared {text : List Char} (member : ':' ∈ prepared text) : ':' ∈ text := by
  obtain ⟨c, kept, same⟩ := List.mem_map.mp member
  have colon : c = ':' := by
    by_cases capital : 65 ≤ c.toNat ∧ c.toNat ≤ 90
    · have lower := toNat_toLower capital
      rw [same] at lower
      have : ':'.toNat = 58 := rfl
      omega
    · rwa [toLower_of_not_capital capital] at same
  exact colon ▸ (mem_withoutLines.mp kept).1

/-- A number with a point and without groups of sixty has a value. -/
theorem settles_floatOf_pointed {bad : Fault → Prop} {whole fraction power : List Char}
    (unsigned : dropSign text.toList = whole ++ '.' :: (fraction ++ power))
    (begins : ∀ c ∈ whole.head?, c.isDigit) (wholeDigits : ∀ c ∈ whole, c ≠ '_' → c.isDigit)
    (fractionDigits : ∀ c ∈ fraction, c ≠ '_' → c.isDigit)
    (some : (∃ c ∈ whole, c.isDigit) ∨ ∃ c ∈ fraction, c.isDigit) (exponent : isExponent power) :
    Settles (fun _ => True) bad (floatOf text) := by
  have plain : ∀ c ∈ dropSign text.toList, c.toNat < 0x80 ∧ c ≠ ':' := by
    rw [unsigned]
    simp only [List.forall_mem_append, List.forall_mem_cons]
    exact ⟨isAscii_of_digitOrLine wholeDigits, by decide, isAscii_of_digitOrLine fractionDigits,
      isAscii_of_isExponent exponent⟩
  obtain ⟨first, rest, split, start⟩ : ∃ first rest,
      dropSign text.toList = first :: rest ∧ (first.isDigit ∨ first = '.') := by
    cases whole with
    | nil => exact ⟨'.', _, unsigned, .inr rfl⟩
    | cons first more => exact ⟨first, _, unsigned, .inl (begins first rfl)⟩
  refine settles_floatOf_unsigned (isAscii_of_dropSign fun c member => (plain c member).1) split
    start fun _ _ => ?_
  rw [← prepared_cons start, ← split]
  have noColon : ':' ∉ prepared (dropSign text.toList) := fun member =>
    (plain ':' (colon_of_mem_prepared member)).2 rfl
  rw [if_neg (by simpa using noColon), unsigned]
  exact settles_fractionOf (isSome_parseFraction?_pointed wholeDigits fractionDigits some exponent)

theorem takeWhile_isDigitOrLine {text : List Char} :
    ∀ c ∈ text.takeWhile isDigitOrLine, c ≠ '_' → c.isDigit := fun c member line => by
  simpa [isDigitOrLine, line] using List.mem_takeWhile_imp member

theorem Groups.mem {text rest : List Char} (groups : Groups text rest) :
    ∀ c ∈ text, c.isDigit ∨ c = ':' ∨ c ∈ rest := by
  induction groups with
  | last some all =>
      intro c member
      obtain rfl | member | member := by simpa using member
      · exact .inr (.inl rfl)
      · exact .inl (all c member)
      · exact .inr (.inr member)
  | more some all groups ih =>
      intro c member
      obtain rfl | member | member := by simpa using member
      · exact .inr (.inl rfl)
      · exact .inl (all c member)
      · exact ih c member

theorem Groups.colon_mem {text rest : List Char} (groups : Groups text rest) : ':' ∈ text := by
  cases groups with
  | last => exact List.mem_cons_self
  | more => exact List.mem_cons_self

theorem count_dropSign {text : List Char} {mark : Char} (other : mark ≠ '-' ∧ mark ≠ '+') :
    (dropSign text).count mark = text.count mark := by
  unfold dropSign
  split
  · rw [List.count_cons_of_ne other.1.symm]
  · rw [List.count_cons_of_ne other.2.symm]
  · rfl

theorem settles_sixties {groups : List Number.Binary64} :
    Settles (fun _ => True) (fun fault => fault = .tooGreat ∧
      (Number.Binary64.ofRatio false (Nat.pow 60 (groups.length - 1)) 1).isInfinite)
      (sixties groups) := by
  unfold sixties
  simp only
  split
  · next weight => exact .error ⟨rfl, weight⟩
  · exact .ok trivial

/-- Digits and points are in ASCII and none of them is a capital letter. -/
theorem plain_of_digitOrPoint {text : List Char}
    (all : ∀ c ∈ text, c ≠ '_' → c.isDigit ∨ c = ':' ∨ c = '.') :
    ∀ c ∈ text, c.toNat < 0x80 ∧ ¬(65 ≤ c.toNat ∧ c.toNat ≤ 90) := fun c member => by
  by_cases line : c = '_'
  · subst line
    decide
  · obtain digit | rfl | rfl := all c member line
    · have := isDigit_iff.mp digit
      omega
    · decide
    · decide

/-- The pieces of a number in groups of sixty are fractions, one more than the number has colons. -/
theorem Groups.fractions {first groups fraction : List Char}
    (grouped : Groups groups ('.' :: fraction)) (some : first ≠ [])
    (digits : ∀ c ∈ first, c.isDigit) (fractionDigits : ∀ c ∈ fraction, c.isDigit) :
    (Text.piecesBetween ':' (first ++ groups)).length = groups.count ':' + 1 ∧
      ∀ piece ∈ Text.piecesBetween ':' (first ++ groups),
        (Number.parseFraction? (String.ofList piece)).isSome := by
  have ends : ':' ∉ '.' :: fraction := fun member =>
    not_mem_of_digits fractionDigits rfl (by simpa using member)
  obtain ⟨middle, last, pieces, held, counted⟩ := grouped.pieces ends (not_mem_of_digits digits rfl)
  rw [pieces]
  refine ⟨by simp [counted], fun piece member => ?_⟩
  obtain rfl | inner | rfl : piece = first ∨ piece ∈ middle ∨ piece = last ++ '.' :: fraction := by
    simpa using member
  · exact Number.isSome_parseFraction?_digits some digits
  · obtain ⟨some, all, -⟩ := held piece (List.mem_cons_of_mem _ inner)
    exact Number.isSome_parseFraction?_digits some all
  · obtain ⟨some, all, -⟩ := held last List.mem_cons_self
    have read := Number.isSome_parseFraction? all fractionDigits (.inl some) .none (.inl rfl)
    rwa [List.append_nil] at read

/-- A number in groups of sixty has a value, unless the weight of its first group is too great. -/
theorem settles_floatOf_groups (isFraction : isFloat text.toList) {first : Char}
    {digits groups fraction : List Char}
    (unsigned : dropSign text.toList = first :: (digits ++ groups)) (begins : first.isDigit)
    (wholeDigits : ∀ c ∈ digits, c ≠ '_' → c.isDigit)
    (grouped : Groups groups ('.' :: fraction))
    (fractionDigits : ∀ c ∈ fraction, c ≠ '_' → c.isDigit) :
    Settles (fun _ => True) (Meaningless text.toList) (floatOf text) := by
  have written : ∀ c ∈ digits ++ groups, c ≠ '_' → c.isDigit ∨ c = ':' ∨ c = '.' := by
    refine List.forall_mem_append.mpr ⟨fun c member line => .inl (wholeDigits c member line), ?_⟩
    intro c member line
    obtain digit | colon | member := grouped.mem c member
    · exact .inl digit
    · exact .inr (.inl colon)
    · obtain rfl | member := List.mem_cons.mp member
      · exact .inr (.inr rfl)
      · exact .inl (fractionDigits c member line)
  have ascii : ∀ c ∈ dropSign text.toList, c.toNat < 0x80 := by
    rw [unsigned]
    exact List.forall_mem_cons.mpr ⟨(isAscii_of_digit begins).1,
      fun c member => (plain_of_digitOrPoint written c member).1⟩
  have start : ∀ c ∈ first :: withoutLines digits, c.isDigit :=
    List.forall_mem_cons.mpr ⟨begins, forall_mem_withoutLines.mpr wholeDigits⟩
  have sixtyfold : Groups (withoutLines groups) ('.' :: withoutLines fraction) := grouped.filtered
  obtain ⟨length, fractions⟩ :=
    sixtyfold.fractions (List.cons_ne_nil _ _) start (forall_mem_withoutLines.mpr fractionDigits)
  -- The digits and the groups are read as they are written, without their underscores.
  have spelled : first :: prepared (digits ++ groups) =
      first :: withoutLines digits ++ withoutLines groups := by
    rw [prepared_of_small fun c member => (plain_of_digitOrPoint written c member).2,
      withoutLines, List.filter_append]
    rfl
  have colons : text.toList.count ':' = (withoutLines groups).count ':' := by
    have lead : ':' ∉ first :: digits := fun member =>
      (isAscii_of_digitOrLine (List.forall_mem_cons.mpr ⟨fun _ => begins, wholeDigits⟩)
        ':' member).2 rfl
    rw [← count_dropSign (by decide), unsigned, ← List.cons_append, List.count_append,
      List.count_eq_zero_of_not_mem lead, Nat.zero_add, List.count_filter (by decide)]
  refine settles_floatOf_unsigned (isAscii_of_dropSign ascii) unsigned (.inl begins) fun _ _ => ?_
  have colon : ':' ∈ withoutLines groups := sixtyfold.colon_mem
  rw [spelled, if_pos (by simp [colon])]
  refine Settles.bind (settles_mapM fun piece member => settles_fractionOf (fractions piece member))
    fun values counted => settles_sixties.excuse ?_
  rintro _ ⟨rfl, weight⟩
  refine .great isFraction ?_
  rw [colons]
  rwa [counted, length, Nat.add_sub_cancel] at weight

/-- A number whose digits stand before a point, or before groups of sixty and a point. -/
theorem settles_floatOf_digits (isFraction : isFloat text.toList) {first : Char}
    {digits rest : List Char} (unsigned : dropSign text.toList = first :: (digits ++ rest))
    (begins : first.isDigit) (wholeDigits : ∀ c ∈ digits, c ≠ '_' → c.isDigit)
    (ends : (∃ after, rest = '.' :: after ∧ isExponent (after.dropWhile isDigitOrLine)) ∨
      ∃ fraction, Groups rest ('.' :: fraction) ∧ fraction.all isDigitOrLine) :
    Settles (fun _ => True) (Meaningless text.toList) (floatOf text) := by
  have lead : ∀ c ∈ first :: digits, c ≠ '_' → c.isDigit :=
    List.forall_mem_cons.mpr ⟨fun _ => begins, wholeDigits⟩
  obtain ⟨after, rfl, exponent⟩ | ⟨fraction, grouped, all⟩ := ends
  · rw [← @List.takeWhile_append_dropWhile _ isDigitOrLine after, ← List.cons_append] at unsigned
    refine settles_floatOf_pointed unsigned ?_ lead takeWhile_isDigitOrLine
      (.inl ⟨first, List.mem_cons_self, begins⟩) exponent
    rintro c ⟨⟩
    exact begins
  · refine settles_floatOf_groups isFraction unsigned begins wholeDigits grouped
      fun c member line => ?_
    simpa [isDigitOrLine, line] using List.all_eq_true.mp all c member

/-- A number that begins with its point. -/
theorem settles_floatOf_point {bad : Fault → Prop} {rest after : List Char}
    (spelled : text.toList = '.' :: rest) (found : afterDigits? rest = some after)
    (exponent : isExponent after) : Settles (fun _ => True) bad (floatOf text) := by
  obtain ⟨first, digits, rfl, digit, all⟩ := afterDigits?_spec found
  have unsigned : dropSign text.toList = [] ++ '.' :: (first :: digits ++ after) := by
    rw [spelled]
    rfl
  exact settles_floatOf_pointed unsigned nofun nofun
    (List.forall_mem_cons.mpr ⟨fun _ => digit, all⟩)
    (.inr ⟨first, List.mem_cons_self, digit⟩) exponent

/-- A word for what is greater than every number has a value. -/
theorem settles_floatOf_infinity {bad : Fault → Prop} {rest : List Char}
    (unsigned : dropSign text.toList = '.' :: rest) (ascii : ('.' :: rest).all (·.toNat < 0x80))
    (means : prepared ('.' :: rest) = ".inf".toList) :
    Settles (fun _ => True) bad (floatOf text) := by
  have small : ∀ c ∈ dropSign text.toList, c.toNat < 0x80 := by
    rw [unsigned]
    simpa only [List.all_eq_true, decide_eq_true_eq] using ascii
  refine settles_floatOf_unsigned (isAscii_of_dropSign small) unsigned (.inr rfl)
    fun other => absurd ?_ other
  rw [← prepared_cons (.inr rfl), means]

theorem settles_floatOf (fraction : isFloat text.toList) :
    Settles (fun _ => True) (Meaningless text.toList) (floatOf text) := by
  have written := fraction
  unfold isFloat at written
  simp only [Bool.or_eq_true] at written
  obtain ((digits | point) | infinity) | noNumber := written
  · split at digits
    · next after =>
        obtain ⟨first, row, unsigned, digit, all⟩ := afterDigits?_spec after
        exact settles_floatOf_digits fraction unsigned digit all (.inl ⟨_, rfl, digits⟩)
    · next after =>
        obtain ⟨first, row, unsigned, digit, all⟩ := afterDigits?_spec after
        split at digits
        · next found =>
            exact settles_floatOf_digits fraction unsigned digit all
              (.inr ⟨_, groups_of_afterSixties found, digits⟩)
        · cases digits
    · cases digits
  · split at point
    · next spelled =>
        split at point
        · next found => exact settles_floatOf_point spelled found point
        · cases point
    · cases point
  · have spelled {word : String} (same : String.ofList (dropSign text.toList) = word) :
        dropSign text.toList = word.toList := by
      rw [← same, String.toList_ofList]
    simp only [List.contains_eq_mem, List.mem_cons, List.not_mem_nil, or_false,
      decide_eq_true_eq] at infinity
    obtain same | same | same := infinity
    · exact settles_floatOf_infinity (spelled same) rfl rfl
    · exact settles_floatOf_infinity (spelled same) rfl rfl
    · exact settles_floatOf_infinity (spelled same) rfl rfl
  · have word : text = ".nan" ∨ text = ".NaN" ∨ text = ".NAN" := by
      simpa using noNumber
    obtain rfl | rfl | rfl := word
    · exact .ok trivial
    · exact .ok trivial
    · exact .ok trivial

end Fraction

/-! ### Every tag -/

section Implicit

variable {text : String}

theorem dropFinalBreak_of_unbroken {text : List Char} (unbroken : Unbroken text) :
    dropFinalBreak text = text := by
  rw [dropFinalBreak, if_neg (by simpa [Unbroken] using unbroken)]

theorem settles_boolOf (word : boolWords.contains text) :
    Settles (fun _ => True) (Meaningless text.toList) (boolOf text) := by
  have listed : ∀ word ∈ boolWords, (boolOf word).isOk := by decide
  have read := listed text (by simpa using word)
  cases outcome : boolOf text with
  | ok _ => exact .ok trivial
  | error fault =>
      rw [outcome] at read
      cases read

theorem settles_timestampOf (unbroken : Unbroken text.toList) (written : isTimestamp text.toList) :
    Settles (fun _ => True) (Meaningless text.toList) (timestampOf text) := by
  have some := written
  unfold isTimestamp at some
  unfold timestampOf
  rw [dropFinalBreak_of_unbroken unbroken]
  split at some
  · next time found =>
      rw [found]
      simp only
      split
      · split
        · next fault _ => exact .error (.calendar written fault)
        · exact .ok trivial
      · split
        · next fault _ => exact .error (.calendar written fault)
        · exact .ok trivial
  · cases some

/-- **Plain scalars.** A scalar that does not end in a line feed has a value under the tag that its
spelling means, unless the tag is none of scalars or the spelling is without meaning. -/
theorem settles_implicit (unbroken : Unbroken text.toList) :
    Settles (fun _ => True) (fun fault => fault = .malformed ∨ Meaningless text.toList fault)
      (scalarValue (implicitTag text) text) := by
  have lift {α : Type} {outcome : Except Fault α} {value : α → Value}
      (settled : Settles (fun _ => True) (Meaningless text.toList) outcome) :
      Settles (fun _ => True) (fun fault => fault = .malformed ∨ Meaningless text.toList fault)
        (value <$> outcome) := by
    cases settled with
    | ok _ => exact .ok trivial
    | error fault => exact .error (.inr fault)
  unfold implicitTag
  simp only [dropFinalBreak_of_unbroken unbroken, String.ofList_toList]
  split
  · exact .ok trivial
  split
  · next word => exact lift (settles_boolOf word)
  split
  · next fraction => exact lift (settles_floatOf fraction)
  split
  · next whole => exact lift (settles_intOf whole)
  split
  · exact .error (.inl rfl)
  split
  · exact .ok trivial
  split
  · next written => exact (settles_timestampOf unbroken written).excuse fun _ => .inr
  split
  · exact .error (.inl rfl)
  split
  · exact .error (.inl rfl)
  · exact .ok trivial

end Implicit

end Yaml

end MemberOrder
