import MemberOrder.Proofs.Json.Decimals
import MemberOrder.Proofs.Json.Reading
import MemberOrder.Proofs.Value.Entries

/-!
# Long rows of digits in JSON texts

Reading a text fails for the digits of a whole number only if the text holds a row of more digits
than a whole number may have, and no whole number of a value that is read has more of them
(`Json.settles_read`).
-/

namespace MemberOrder

namespace Json

theorem decimalValue_lt {digits : List Char} (all : ∀ c ∈ digits, c.isDigit) :
    decimalValue digits < 10 ^ digits.length := by
  induction digits using List.reverseRecOn with
  | nil => decide
  | append_singleton init last ih =>
      have small : last.toNat - 48 < 10 := by
        have digit := all last (by simp)
        simp only [Char.isDigit, Bool.and_eq_true, decide_eq_true_eq] at digit
        have : last.toNat ≤ 57 := digit.2
        omega
      have before := ih fun c member => all c (by simp [member])
      rw [decimalValue_append, List.length_append, List.length_singleton, Nat.pow_succ]
      change decimalValue init * 10 + (last.toNat - 48) < _
      omega

/-- A row of digits is no more than the power of ten with no fewer zeros. -/
theorem not_pow_le_decimalValue {digits : List Char} (all : ∀ c ∈ digits, c.isDigit) {limit : Nat}
    (fits : digits.length ≤ limit) : ¬Nat.pow 10 limit ≤ decimalValue digits :=
  Nat.not_le.mpr ((decimalValue_lt all).trans_le (Nat.pow_le_pow_right (by decide) fits))

/-- Whether the whole numbers of a value are short enough to be written. -/
def Short (value : Value) : Prop := value.exceedsDigits = false

theorem short_int {whole : List Char} (all : ∀ c ∈ whole, c.isDigit) (negative : Bool)
    (fits : whole.length ≤ digitLimit) :
    Short (.int (if negative then -(decimalValue whole : Int) else decimalValue whole)) := by
  have size : (if negative then -(decimalValue whole : Int) else decimalValue whole).natAbs =
      decimalValue whole := by
    split <;> simp
  -- The limit gets a name, so that its power of ten is nowhere computed.
  obtain ⟨limit, same⟩ : ∃ limit, limit = 4300 := ⟨_, rfl⟩
  have few : whole.length ≤ limit := same ▸ fits
  unfold Short
  rw [Value.exceedsDigits, size, ← same]
  exact decide_eq_false (not_pow_le_decimalValue all few)

theorem IsScalar.short {value : Value} (scalar : IsScalar value) : Short value := by
  cases scalar with
  | word listed =>
      have all : ∀ pair ∈ words, pair.2.exceedsDigits = false := by decide
      exact all _ listed
  | whole negative all fits => exact short_int all negative fits
  | fraction negative digits exponent => rfl

theorem short_list {items : List Value} :
    Short (.list none items) ↔ ∀ item ∈ items, Short item := by
  unfold Short
  rw [Value.exceedsDigits, Bool.eq_false_iff, Ne, Value.anyExceedsDigits_iff]
  simp

theorem short_map_put {entries : Entries} {value : Value} (name : String)
    (before : Short (.map none entries)) (added : Short value) :
    Short (.map none (entries.put (.str name) value)) := by
  unfold Short at *
  rw [Value.exceedsDigits] at before ⊢
  induction entries with
  | nil => simp [Entries.put, Value.anyEntryExceedsDigits, Value.exceedsDigits, added]
  | cons entry rest ih =>
      obtain ⟨key, given⟩ := entry
      rw [Value.anyEntryExceedsDigits, Bool.or_eq_false_iff, Bool.or_eq_false_iff] at before
      obtain ⟨⟨shortKey, shortGiven⟩, later⟩ := before
      rw [Entries.put]
      split
      · simp [Value.anyEntryExceedsDigits, shortKey, added, later]
      · simp [Value.anyEntryExceedsDigits, shortKey, shortGiven, ih later]

theorem inherited_short : Inherited Short where
  scalar _ scalar := scalar.short
  str _ := rfl
  list _ held := short_list.mpr held
  empty := rfl
  put _ name _ before added := short_map_put name before added

/-- What is read has no whole number that is too long to be written, and reading stops at one only
if its digits stand in the text. -/
theorem settles_read (text : String) : Settles Short (Fault.Shows text.toList) (read text) :=
  inherited_short.settles_read text

end Json

end MemberOrder
