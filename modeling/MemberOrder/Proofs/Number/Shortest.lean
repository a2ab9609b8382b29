import MemberOrder.Number.Shortest
import MemberOrder.Proofs.Number.Rounding

/-!
# The shortest decimal reads back

A decimal is read by its value (`Number.Binary64.ofDecimal_mul_ten`), and one nearer to a number
than a part in `2 ^ 54` of it is read as the number. Seventeen digits come that near, so that what
`shortest` finds is read as the number (`Number.Binary64.ofDecimal_shortest`).
-/

namespace MemberOrder

namespace Number

namespace Binary64

section Digits

theorem digitCount_of_pos {n : ℕ} (positive : 0 < n) :
    digitCount n = (Nat.toDigits 10 n).length :=
  if_neg positive.ne'

theorem digitCount_pos {n : ℕ} (positive : 0 < n) : 0 < digitCount n :=
  digitCount_of_pos positive ▸ Nat.length_toDigits_pos

theorem digitCount_mul_ten {n : ℕ} (positive : 0 < n) : digitCount (n * 10) = digitCount n + 1 := by
  rw [digitCount_of_pos positive, digitCount_of_pos (by omega),
    Nat.toDigits_of_base_le (by decide) (by omega), Nat.mul_div_cancel _ (by decide),
    List.length_append, List.length_singleton]

theorem lt_pow_digitCount {n : ℕ} (positive : 0 < n) : n < 10 ^ digitCount n := by
  rw [digitCount_of_pos positive]
  exact (Nat.length_toDigits_le_iff (by decide) Nat.length_toDigits_pos).mp le_rfl

theorem pow_digitCount_le {n : ℕ} (positive : 0 < n) : 10 ^ (digitCount n - 1) ≤ n := by
  rw [digitCount_of_pos positive]
  by_contra less
  rcases Nat.eq_zero_or_pos ((Nat.toDigits 10 n).length - 1) with none | some
  · rw [none] at less
    omega
  · have shorter := (Nat.length_toDigits_le_iff (by decide) some).mpr (Nat.not_le.mp less)
    omega

end Digits

section Decimals

variable {digits : ℕ} {exponent : ℤ} {negative : Bool}

/-- Within the range a decimal is read as the quotient that it is. -/
theorem exists_ofDecimal_eq (positive : 0 < digits)
    (high : (digitCount digits : ℤ) + exponent ≤ 310)
    (low : -330 ≤ (digitCount digits : ℤ) + exponent) :
    ∃ num den : ℕ, 0 < den ∧ (num : ℚ) / den = digits * 10 ^ exponent ∧
      ∀ negative, ofDecimal negative digits exponent = ofRatio negative num den := by
  cases exponent with
  | ofNat e =>
      refine ⟨digits * Nat.pow 10 e, 1, Nat.one_pos, ?_, fun negative => ?_⟩
      · simp [Nat.pow_eq]
      · simp only [ofDecimal]
        rw [if_neg positive.ne', if_neg (by omega), if_neg (by omega)]
  | negSucc e =>
      refine ⟨digits, Nat.pow 10 (e + 1), Nat.pow_pos (by decide), ?_, fun negative => ?_⟩
      · rw [Nat.pow_eq, zpow_negSucc, div_eq_mul_inv]
        push_cast
        rfl
      · simp only [ofDecimal]
        rw [if_neg positive.ne', if_neg (by omega), if_neg (by omega)]

theorem ofDecimal_of_high (positive : 0 < digits)
    (high : 310 < (digitCount digits : ℤ) + exponent) :
    ofDecimal negative digits exponent = infinity negative := by
  simp only [ofDecimal]
  rw [if_neg positive.ne', if_pos high]

theorem ofDecimal_of_low (positive : 0 < digits)
    (low : (digitCount digits : ℤ) + exponent < -330) :
    ofDecimal negative digits exponent = zero negative := by
  simp only [ofDecimal]
  rw [if_neg positive.ne', if_neg (by omega), if_pos low]

/-- A zero at the end of the digits stands for a higher exponent. -/
theorem ofDecimal_mul_ten (digits : ℕ) (exponent : ℤ) :
    ofDecimal negative (digits * 10) exponent = ofDecimal negative digits (exponent + 1) := by
  rcases Nat.eq_zero_or_pos digits with rfl | positive
  · rfl
  have positiveMul : 0 < digits * 10 := by omega
  have top := digitCount_mul_ten positive
  by_cases high : (digitCount digits : ℤ) + (exponent + 1) ≤ 310
  · by_cases low : -330 ≤ (digitCount digits : ℤ) + (exponent + 1)
    · obtain ⟨num, den, posDen, value, read⟩ := exists_ofDecimal_eq positive high low
      obtain ⟨num', den', posDen', value', read'⟩ :=
        @exists_ofDecimal_eq (digits * 10) exponent positiveMul (by omega) (by omega)
      rw [read, read']
      refine ofRatio_congr posDen' posDen ?_
      have same : (num' : ℚ) / den' = num / den := by
        rw [value, value', zpow_add_one₀ (by norm_num)]
        push_cast
        ring
      rw [div_eq_div_iff (by positivity) (by positivity)] at same
      exact_mod_cast same
    · rw [ofDecimal_of_low positiveMul (by omega), ofDecimal_of_low positive (by omega)]
  · rw [ofDecimal_of_high positiveMul (by omega), ofDecimal_of_high positive (by omega)]

end Decimals

/-- Powers of ten compare with powers of two as `2 ^ 63 < 10 ^ 19` and `10 ^ 3 < 2 ^ 10` tell. -/
theorem zpow_ten_le_zpow_two {k j : ℤ} (up : 0 ≤ k → 10 * k ≤ 3 * j)
    (down : k < 0 → 63 * k ≤ 19 * j) : (10 : ℚ) ^ k ≤ 2 ^ j := by
  have powers (n : ℕ) : ((10 : ℚ) ^ k) ^ n = (10 ^ n) ^ k ∧ ((2 : ℚ) ^ j) ^ n = 2 ^ (n * j) := by
    simp only [← zpow_natCast, ← zpow_mul, mul_comm, and_self]
  rcases le_or_gt 0 k with nonneg | neg
  · refine (pow_le_pow_iff_left₀ (by positivity) (by positivity) three_ne_zero).mp ?_
    rw [(powers 3).1, (powers 3).2]
    calc
      ((10 : ℚ) ^ 3) ^ k ≤ (2 ^ (10 : ℤ)) ^ k :=
        zpow_le_zpow_left₀ nonneg (by norm_num) (by norm_num)
      _ = 2 ^ (10 * k) := (zpow_mul _ _ _).symm
      _ ≤ 2 ^ (3 * j) := zpow_le_zpow_right₀ one_le_two (up nonneg)
  · refine (pow_le_pow_iff_left₀ (by positivity) (by positivity) (by decide : 19 ≠ 0)).mp ?_
    rw [(powers 19).1, (powers 19).2]
    calc
      ((10 : ℚ) ^ 19) ^ k ≤ (2 ^ (63 : ℤ)) ^ k := by
        rw [← neg_neg k, zpow_neg, zpow_neg _ (-k)]
        exact inv_anti₀ (by positivity)
          (zpow_le_zpow_left₀ (by omega) (by norm_num) (by norm_num))
      _ = 2 ^ (63 * k) := (zpow_mul _ _ _).symm
      _ ≤ 2 ^ (19 * j) := zpow_le_zpow_right₀ one_le_two (down neg)

section Range

variable {x : Binary64} {digits : ℕ} {exponent : ℤ} {negative : Bool}

theorem parts_snd_le (finite : x.isFinite) : x.parts.2 ≤ 971 := by
  have below : x.magnitude < infinityBits := by simpa [isFinite] using finite
  have limit : infinityBits = 2047 * fractionUnit := rfl
  have together := magnitude_eq_parts x
  rcases parts_full x with full | bottom
  · rw [limit, fractionUnit_eq] at below
    rw [fractionUnit_eq] at together
    omega
  · omega

theorem value_lt (finite : x.isFinite) : x.value < 2 ^ (1024 : ℤ) := by
  have bits : (x.parts.1 : ℚ) < 2 ^ (53 : ℤ) := by exact_mod_cast parts_fst_lt x
  calc
    x.value < 2 ^ (53 : ℤ) * 2 ^ x.parts.2 := mul_lt_mul_of_pos_right bits (by positivity)
    _ = 2 ^ (53 + x.parts.2) := (zpow_add₀ two_ne_zero _ _).symm
    _ ≤ 2 ^ (1024 : ℤ) := zpow_le_zpow_right₀ one_le_two (by have := parts_snd_le finite; omega)

theorem le_value (positive : 0 < x.value) : 2 ^ (-1074 : ℤ) ≤ x.value := by
  have some : 0 < x.parts.1 := by
    apply Nat.pos_of_ne_zero
    intro none
    rw [value, none, Nat.cast_zero, zero_mul] at positive
    exact positive.false
  have one : (1 : ℚ) ≤ x.parts.1 := by exact_mod_cast some
  calc
    (2 : ℚ) ^ (-1074 : ℤ) ≤ 2 ^ x.parts.2 := zpow_le_zpow_right₀ one_le_two (le_parts_snd x)
    _ ≤ x.parts.1 * 2 ^ x.parts.2 := le_mul_of_one_le_left (by positivity) one

/-- A decimal near to a finite number is within the range. -/
theorem top_of_close (finite : x.isFinite)
    (close : |(digits : ℚ) * 10 ^ exponent - x.value| * 2 ^ 54 < x.value) :
    0 < digits ∧ (digitCount digits : ℤ) + exponent ≤ 310 ∧
      -330 ≤ (digitCount digits : ℤ) + exponent := by
  have scale : (0 : ℚ) < 10 ^ exponent := by positivity
  have positiveValue : 0 < x.value := lt_of_le_of_lt (by positivity) close
  have near := abs_lt.mp ((lt_div_iff₀ (by norm_num : (0 : ℚ) < 2 ^ 54)).mpr close)
  have positive : 0 < digits := by
    apply Nat.pos_of_ne_zero
    intro none
    rw [none, Nat.cast_zero, zero_mul] at near
    linarith
  have low : (10 : ℚ) ^ ((digitCount digits : ℤ) - 1 + exponent) ≤ digits * 10 ^ exponent := by
    have count : ((digitCount digits - 1 : ℕ) : ℤ) = (digitCount digits : ℤ) - 1 := by
      have := digitCount_pos positive
      omega
    rw [zpow_add₀ (by norm_num), ← count, zpow_natCast]
    exact mul_le_mul_of_nonneg_right (by exact_mod_cast pow_digitCount_le positive) scale.le
  have high : (digits : ℚ) * 10 ^ exponent < 10 ^ ((digitCount digits : ℤ) + exponent) := by
    rw [zpow_add₀ (by norm_num), zpow_natCast]
    exact mul_lt_mul_of_pos_right (by exact_mod_cast lt_pow_digitCount positive) scale
  refine ⟨positive, ?_, ?_⟩
  · have bound : (10 : ℚ) ^ ((digitCount digits : ℤ) - 1 + exponent) < 10 ^ (310 : ℤ) := by
      calc
        (10 : ℚ) ^ ((digitCount digits : ℤ) - 1 + exponent) ≤ digits * 10 ^ exponent := low
        _ < x.value * 2 := by linarith
        _ < 2 ^ (1024 : ℤ) * 2 := mul_lt_mul_of_pos_right (value_lt finite) two_pos
        _ = 2 ^ (1025 : ℤ) := (zpow_add_one₀ two_ne_zero 1024).symm
        _ ≤ 10 ^ (310 : ℤ) := by
          have inverse : (10 : ℚ) ^ (-310 : ℤ) ≤ 2 ^ (-1025 : ℤ) :=
            zpow_ten_le_zpow_two (by omega) (by omega)
          rwa [zpow_neg, zpow_neg, inv_le_inv₀ (by positivity) (by positivity)] at inverse
    have below := (zpow_lt_zpow_iff_right₀ (by norm_num : (1 : ℚ) < 10)).mp bound
    omega
  · have bound : (10 : ℚ) ^ (-330 : ℤ) < 10 ^ ((digitCount digits : ℤ) + exponent) := by
      calc
        (10 : ℚ) ^ (-330 : ℤ) ≤ 2 ^ (-1075 : ℤ) := zpow_ten_le_zpow_two (by omega) (by omega)
        _ = 2 ^ (-1074 : ℤ) / 2 := zpow_sub_one₀ two_ne_zero (-1074)
        _ ≤ x.value / 2 := div_le_div_of_nonneg_right (le_value positiveValue) zero_le_two
        _ < digits * 10 ^ exponent := by linarith
        _ < 10 ^ ((digitCount digits : ℤ) + exponent) := high
    exact ((zpow_lt_zpow_iff_right₀ (by norm_num : (1 : ℚ) < 10)).mp bound).le

/-- A decimal nearer to a number than a part in `2 ^ 54` of it is read as the number. -/
theorem ofDecimal_eq_of_close (finite : x.isFinite)
    (close : |(digits : ℚ) * 10 ^ exponent - x.value| * 2 ^ 54 < x.value) :
    ofDecimal negative digits exponent = ofMagnitude negative x.magnitude := by
  obtain ⟨positive, high, low⟩ := top_of_close finite close
  obtain ⟨num, den, positiveDen, same, read⟩ := exists_ofDecimal_eq positive high low
  rw [read]
  exact ofRatio_eq_of_close finite positiveDen (by rwa [same])

end Range

section Search

variable {x : Binary64} {num den : ℕ}

/-- The search for the point starts so low that the value is not below it, and stops at the first
power of ten above the value. -/
theorem zpow_decimalPoint_le (positiveDen : 0 < den) (steps : ℕ) (k : ℤ)
    (start : (10 : ℚ) ^ (k - 1) ≤ num / den) :
    (10 : ℚ) ^ (decimalPoint num den steps k - 1) ≤ num / den := by
  have size : (0 : ℚ) < den := by exact_mod_cast positiveDen
  induction steps generalizing k with
  | zero => exact start
  | succ steps ih =>
      have next := ih (k + 1)
      rw [add_sub_cancel_right] at next
      cases k with
      | ofNat e =>
          simp only [decimalPoint, decide_eq_true_eq]
          split
          · exact start
          · next notBelow =>
              refine next ?_
              rw [Int.ofNat_eq_natCast, zpow_natCast, le_div_iff₀ size, mul_comm]
              exact_mod_cast Nat.not_lt.mp notBelow
      | negSucc e =>
          simp only [decimalPoint, decide_eq_true_eq]
          split
          · exact start
          · next notBelow =>
              refine next ?_
              rw [zpow_negSucc, le_div_iff₀ size, ← div_eq_inv_mul, div_le_iff₀ (by positivity)]
              exact_mod_cast Nat.not_lt.mp notBelow

/-- The search for the point starts below the logarithm to base two, scaled to base ten. -/
theorem zpow_start_le {bits : ℤ} (low : -1074 ≤ bits) (high : bits ≤ 1024) :
    (10 : ℚ) ^ (bits * 30103 / 100000 - 1 - 1) ≤ 2 ^ (bits - 1) :=
  zpow_ten_le_zpow_two (by omega) (by omega)

theorem ratio_spec (x : Binary64) : 0 < x.ratio.2 ∧ (x.ratio.1 : ℚ) / x.ratio.2 = x.value := by
  unfold ratio value
  match x.parts with
  | (significand, .ofNat e) => simp [Nat.pow_eq]
  | (significand, .negSucc e) =>
      refine ⟨Nat.pow_pos (by decide), ?_⟩
      simp only [Nat.pow_eq, zpow_negSucc, div_eq_mul_inv]
      push_cast
      rfl

theorem value_pos (nonzero : x.isZero = false) : 0 < x.value := by
  have some : x.magnitude ≠ 0 := by simpa [isZero] using nonzero
  have together := magnitude_eq_parts x
  have bits : 0 < x.parts.1 := by
    rcases parts_full x with full | bottom
    · omega
    · rw [bottom, neg_add_cancel, Int.toNat_zero, zero_mul, zero_add] at together
      omega
  exact mul_pos (by exact_mod_cast bits) (by positivity)

/-- Seventeen digits come so near to a number that they are read as the number. -/
theorem ofDecimal_roundQuotient (finite : x.isFinite) {exponent : ℤ}
    (reached : (10 : ℚ) ^ (exponent + 16) ≤ x.value) (positiveDen : 0 < den)
    (scaled : (num : ℚ) / den = x.value / 10 ^ exponent) (negative : Bool) :
    ofDecimal negative (roundQuotient num den) exponent = ofMagnitude negative x.magnitude := by
  refine ofDecimal_eq_of_close finite ?_
  have scale : (0 : ℚ) < 10 ^ exponent := by positivity
  have close := (nearest_roundQuotient num positiveDen).close
  obtain ⟨n, rounded⟩ : ∃ n, roundQuotient num den = n := ⟨_, rfl⟩
  rw [rounded, scaled] at close
  rw [rounded]
  have distance : |(n : ℚ) * 10 ^ exponent - x.value| =
      |x.value / 10 ^ exponent - n| * 10 ^ exponent := by
    rw [abs_sub_comm, ← abs_of_pos scale, ← abs_mul, abs_of_pos scale, sub_mul,
      div_mul_cancel₀ _ scale.ne']
  have room : (10 : ℚ) ^ exponent * 10 ^ 16 ≤ x.value := by
    rw [zpow_add₀ (by norm_num)] at reached
    exact_mod_cast reached
  have half : |(n : ℚ) * 10 ^ exponent - x.value| ≤ 1 / 2 * 10 ^ exponent := by
    rw [distance]
    exact mul_le_mul_of_nonneg_right close scale.le
  linarith

/-- The nearer of the neighbours of a quotient on a grid that reads back. -/
def pick (x : Binary64) (exponent : ℤ) (num den : ℕ) : Option (ℕ × ℤ) :=
  let low := num / den
  let readsBack (digits : ℕ) := ofDecimal false digits exponent == ofMagnitude false x.magnitude
  let nearest := roundQuotient num den
  let other := if nearest = low then low + 1 else low
  if readsBack nearest then some (nearest, exponent)
  else if readsBack other then some (other, exponent)
  else none

/-- A candidate is picked beside the number's multiple of the grid. -/
theorem exists_candidate?_eq (x : Binary64) (point : ℤ) (count : ℕ) :
    ∃ num den : ℕ, 0 < den ∧ (num : ℚ) / den = x.value / 10 ^ (point - count) ∧
      candidate? x point count = pick x (point - count) num den := by
  obtain ⟨positiveDen, same⟩ := ratio_spec x
  unfold candidate?
  generalize point - (count : ℤ) = exponent
  cases exponent with
  | ofNat e =>
      refine ⟨x.ratio.1, x.ratio.2 * Nat.pow 10 e, Nat.mul_pos positiveDen ?_, ?_, rfl⟩
      · exact Nat.pow_pos (by decide)
      · rw [Nat.cast_mul, ← div_div, same, Int.ofNat_eq_natCast, zpow_natCast]
        exact congrArg (x.value / ·) (Nat.cast_pow 10 e)
  | negSucc e =>
      refine ⟨x.ratio.1 * Nat.pow 10 (e + 1), x.ratio.2, positiveDen, ?_, rfl⟩
      rw [Nat.cast_mul, mul_div_right_comm, same, zpow_negSucc, div_inv_eq_mul]
      exact congrArg (x.value * ·) (Nat.cast_pow 10 (e + 1))

theorem candidate?_ne_none (finite : x.isFinite) {point : ℤ}
    (reached : (10 : ℚ) ^ (point - 1) ≤ x.value) : candidate? x point 17 ≠ none := by
  obtain ⟨num, den, positiveDen, scaled, picked⟩ := exists_candidate?_eq x point 17
  have far : (10 : ℚ) ^ (point - (17 : ℕ) + 16) ≤ x.value := by
    rwa [show point - ((17 : ℕ) : ℤ) + 16 = point - 1 by push_cast; omega]
  have read := ofDecimal_roundQuotient finite far positiveDen scaled false
  rw [picked, pick]
  simp only
  rw [read, if_pos (beq_self_eq_true _)]
  exact Option.some_ne_none _

theorem ofDecimal_of_candidate? {point : ℤ} {count : ℕ} {found : ℕ × ℤ}
    (candidate : candidate? x point count = some found) :
    ofDecimal false found.1 found.2 = ofMagnitude false x.magnitude := by
  obtain ⟨num, den, -, -, picked⟩ := exists_candidate?_eq x point count
  rw [picked] at candidate
  unfold pick at candidate
  extract_lets low readsBack nearest other at candidate
  split at candidate
  · next read =>
      cases candidate
      exact eq_of_beq read
  · split at candidate
    · next read =>
        cases candidate
        exact eq_of_beq read
    · cases candidate

/-- Of the grids up to seventeen digits the search finds one that reads back. -/
theorem ofDecimal_shortestFrom {point : ℤ} (found : candidate? x point 17 ≠ none) (tries count : ℕ)
    (reaches : count + tries = 17) :
    ofDecimal false (shortestFrom x point (tries + 1) count).1
      (shortestFrom x point (tries + 1) count).2 = ofMagnitude false x.magnitude := by
  induction tries generalizing count with
  | zero =>
      obtain rfl : count = 17 := reaches
      rw [shortestFrom]
      match candidate : candidate? x point 17 with
      | none => exact (found candidate).elim
      | some decimal => exact ofDecimal_of_candidate? candidate
  | succ tries ih =>
      rw [shortestFrom]
      match candidate : candidate? x point count with
      | none => exact ih (count + 1) (by omega)
      | some decimal => exact ofDecimal_of_candidate? candidate

theorem ofDecimal_dropZeros {negative : Bool} (steps digits : ℕ) (exponent : ℤ) :
    ofDecimal negative (dropZeros steps digits exponent).1 (dropZeros steps digits exponent).2 =
      ofDecimal negative digits exponent := by
  induction steps generalizing digits exponent with
  | zero => rfl
  | succ steps ih =>
      rw [dropZeros]
      split
      · next zero =>
          rw [ih, ← ofDecimal_mul_ten, Nat.div_mul_cancel (Nat.dvd_of_mod_eq_zero zero)]
      · rfl

/-- **The shortest decimal reads back.** -/
theorem ofDecimal_shortest (finite : x.isFinite) (nonzero : x.isZero = false) :
    ofDecimal false x.shortest.1 x.shortest.2 = ofMagnitude false x.magnitude := by
  obtain ⟨positiveDen, same⟩ := ratio_spec x
  have positive := value_pos nonzero
  have positiveNum : 0 < x.ratio.1 := by
    apply Nat.pos_of_ne_zero
    intro none
    rw [← same, none, Nat.cast_zero, zero_div] at positive
    exact positive.false
  have lower := zpow_le_ratio positiveNum positiveDen
  have upper := ratio_lt_zpow x.ratio.1 positiveDen
  unfold shortest
  simp only
  generalize (Nat.log2 x.ratio.1 : ℤ) - Nat.log2 x.ratio.2 = bits at lower upper
  rw [same] at lower upper
  have low : -1074 ≤ bits := by
    have less := (le_value positive).trans_lt upper
    have := (zpow_lt_zpow_iff_right₀ one_lt_two).mp less
    omega
  have high : bits ≤ 1024 := by
    have less := lower.trans_lt (value_lt finite)
    have := (zpow_lt_zpow_iff_right₀ one_lt_two).mp less
    omega
  have start : (10 : ℚ) ^ (bits * 30103 / 100000 - 1 - 1) ≤ x.ratio.1 / x.ratio.2 := by
    rw [same]
    exact (zpow_start_le low high).trans lower
  have reached := zpow_decimalPoint_le positiveDen 8 _ start
  rw [same] at reached
  rw [ofDecimal_dropZeros]
  exact ofDecimal_shortestFrom (candidate?_ne_none finite reached) 16 1 rfl

end Search

section Signs

/-- The sign plays no part in what a decimal is rounded to. -/
theorem exists_ofDecimal_eq_ofMagnitude (digits : ℕ) (exponent : ℤ) :
    ∃ magnitude < Nat.pow 2 63, ∀ negative,
      ofDecimal negative digits exponent = ofMagnitude negative magnitude := by
  have ratio (num den : ℕ) : ∃ magnitude < Nat.pow 2 63, ∀ negative,
      ofRatio negative num den = ofMagnitude negative magnitude := by
    unfold ofRatio
    split
    · exact ⟨0, by decide, fun _ => rfl⟩
    · exact ⟨_, lt_of_le_of_lt (Nat.min_le_left _ _) infinityBits_lt, fun _ => rfl⟩
  unfold ofDecimal
  simp only
  split
  · exact ⟨0, by decide, fun _ => rfl⟩
  split
  · exact ⟨infinityBits, infinityBits_lt, fun _ => rfl⟩
  split
  · exact ⟨0, by decide, fun _ => rfl⟩
  · cases exponent <;> exact ratio _ _

variable {x : Binary64}

/-- The shortest decimal of a number reads back with the number's sign. -/
theorem ofDecimal_isNegative_shortest (finite : x.isFinite) (nonzero : x.isZero = false) :
    ofDecimal x.isNegative x.shortest.1 x.shortest.2 = x := by
  obtain ⟨magnitude, small, read⟩ := exists_ofDecimal_eq_ofMagnitude x.shortest.1 x.shortest.2
  have unsigned := ofDecimal_shortest finite nonzero
  rw [read] at unsigned
  have same : magnitude = x.magnitude := by
    have equal := congrArg Binary64.magnitude unsigned
    rwa [magnitude_ofMagnitude small, magnitude_ofMagnitude (magnitude_lt x)] at equal
  rw [read, same, ofMagnitude_magnitude]

theorem shortest_pos (finite : x.isFinite) (nonzero : x.isZero = false) : 0 < x.shortest.1 := by
  apply Nat.pos_of_ne_zero
  intro none
  have read := ofDecimal_isNegative_shortest finite nonzero
  rw [none] at read
  have magnitude : x.magnitude = 0 := by
    rw [← read]
    exact magnitude_ofMagnitude (by decide)
  rw [isZero, magnitude] at nonzero
  cases nonzero

end Signs

end Binary64

end Number

end MemberOrder
