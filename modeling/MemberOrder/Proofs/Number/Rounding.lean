import Mathlib.Algebra.Order.Field.Power
import Mathlib.Data.Int.Log
import Mathlib.Data.Rat.Floor
import Mathlib.Tactic.FieldSimp
import Mathlib.Tactic.Linarith
import Mathlib.Tactic.NormNum
import Mathlib.Tactic.Positivity
import MemberOrder.Proofs.Number.Magnitude

/-!
# Rounding quotients

What a quotient is rounded to depends on its value alone (`Number.Binary64.ofRatio_eq_of_nearest`),
and a value nearer to a number than a part in `2 ^ 54` of it is rounded to the number
(`Number.Binary64.ofRatio_eq_of_close`).
-/

namespace MemberOrder

namespace Number

namespace Binary64

section Nearest

/-- Whether a whole number is nearest to a value, and even where another is as near. -/
structure Nearest (value : ℚ) (n : ℕ) : Prop where
  close : |value - n| ≤ 1 / 2
  even : |value - n| = 1 / 2 → n % 2 = 0

variable {value : ℚ} {m n : ℕ}

theorem Nearest.not_lt (first : Nearest value m) (second : Nearest value n) : ¬ m < n := by
  intro less
  have left := (abs_le.mp first.close).2
  have right := (abs_le.mp second.close).1
  -- Both are a half away, so they are neighbours and cannot both be even.
  have next : n = m + 1 := by
    have close : (n : ℚ) ≤ (m : ℚ) + 1 := by linarith
    have : n ≤ m + 1 := by exact_mod_cast close
    omega
  subst next
  push_cast at right
  have above : value - m = 1 / 2 := by linarith
  have below : value - (m + 1 : ℕ) = -(1 / 2) := by push_cast; linarith
  have even : m % 2 = 0 := first.even (by rw [above]; norm_num)
  have evenNext : (m + 1) % 2 = 0 := second.even (by rw [below]; norm_num)
  omega

theorem Nearest.eq (first : Nearest value m) (second : Nearest value n) : m = n :=
  Nat.le_antisymm (Nat.not_lt.mp (second.not_lt first)) (Nat.not_lt.mp (first.not_lt second))

theorem nearest_of_lt (close : |value - n| < 1 / 2) : Nearest value n :=
  ⟨close.le, fun tie => absurd tie close.ne⟩

theorem nearest_roundQuotient (num : ℕ) {den : ℕ} (positive : 0 < den) :
    Nearest ((num : ℚ) / den) (roundQuotient num den) := by
  have size : (0 : ℚ) < den := by exact_mod_cast positive
  have left : num % den < den := Nat.mod_lt _ positive
  have split : (num : ℚ) / den = (num / den : ℕ) + ((num % den : ℕ) : ℚ) / den := by
    have whole : (num : ℚ) = den * (num / den : ℕ) + (num % den : ℕ) := by
      exact_mod_cast (Nat.div_add_mod num den).symm
    rw [div_eq_iff size.ne', add_mul, div_mul_cancel₀ _ size.ne', mul_comm, ← whole]
  unfold roundQuotient
  simp only
  rcases Nat.lt_trichotomy (2 * (num % den)) den with down | tie | up
  · rw [if_pos down]
    have small : ((num % den : ℕ) : ℚ) / den < 1 / 2 := by
      rw [div_lt_div_iff₀ size two_pos]
      exact_mod_cast (by omega : num % den * 2 < 1 * den)
    have nonneg : (0 : ℚ) ≤ ((num % den : ℕ) : ℚ) / den := by positivity
    refine nearest_of_lt (abs_lt.mpr ⟨?_, ?_⟩) <;> linarith
  · rw [if_neg (by omega), if_neg (by omega)]
    have half : ((num % den : ℕ) : ℚ) / den = 1 / 2 := by
      rw [div_eq_div_iff size.ne' two_ne_zero]
      exact_mod_cast (by omega : num % den * 2 = 1 * den)
    refine ⟨?_, fun _ => by omega⟩
    rcases Nat.mod_two_eq_zero_or_one (num / den) with even | odd
    · rw [split, half, even, Nat.add_zero, add_sub_cancel_left]
      norm_num
    · rw [split, half, odd]
      push_cast
      rw [add_sub_add_left_eq_sub]
      norm_num
  · rw [if_neg (by omega), if_pos up]
    have large : 1 / 2 < ((num % den : ℕ) : ℚ) / den := by
      rw [div_lt_div_iff₀ two_pos size]
      exact_mod_cast (by omega : 1 * den < num % den * 2)
    have below : ((num % den : ℕ) : ℚ) / den < 1 := by
      rw [div_lt_one size]
      exact_mod_cast left
    refine nearest_of_lt (abs_lt.mpr ⟨?_, ?_⟩) <;> push_cast <;> linarith

theorem exists_nearest (nonneg : 0 ≤ value) : ∃ n, Nearest value n := by
  have rounded := nearest_roundQuotient value.num.toNat value.den_pos
  have whole : ((value.num.toNat : ℤ) : ℚ) = value.num := by
    rw [Int.toNat_of_nonneg (Rat.num_nonneg.mpr nonneg)]
  rw [Int.cast_natCast] at whole
  rw [whole, Rat.num_div_den] at rounded
  exact ⟨_, rounded⟩

end Nearest

section Units

variable {num den : ℕ} {value : ℚ}

/-- The exponent of two of the last place that a value is rounded to. -/
def unitOf (value : ℚ) : ℤ := max (-1074) (Int.log 2 value - 52)

theorem log_eq {k : ℤ} (low : (2 : ℚ) ^ k ≤ value) (high : value < 2 ^ (k + 1)) :
    Int.log 2 value = k := by
  have positive : 0 < value := (zpow_pos two_pos k).trans_le low
  have least : k ≤ Int.log 2 value :=
    (Int.zpow_le_iff_le_log Nat.one_lt_two positive).mp (by exact_mod_cast low)
  have most : Int.log 2 value < k + 1 :=
    (Int.lt_zpow_iff_log_lt Nat.one_lt_two positive).mp (by exact_mod_cast high)
  omega

theorem zpow_log2_le {n : ℕ} (positive : 0 < n) : (2 : ℚ) ^ (Nat.log2 n : ℤ) ≤ n := by
  rw [zpow_natCast]
  exact_mod_cast Nat.log2_self_le positive.ne'

theorem lt_zpow_log2 (n : ℕ) : (n : ℚ) < 2 ^ ((Nat.log2 n : ℤ) + 1) := by
  have below : n < 2 ^ (Nat.log2 n + 1) := Nat.lt_log2_self
  exact_mod_cast below

theorem max_guess_eq {guess : ℤ} {low : Prop} [Decidable low]
    (test : low ↔ value < 2 ^ (guess + 52)) (lower : 2 ^ (guess + 51) ≤ value)
    (upper : value < 2 ^ (guess + 53)) :
    max (-1074) (if low then guess - 1 else guess) = unitOf value := by
  rw [unitOf]
  by_cases small : low
  · have log : Int.log 2 value = guess + 51 :=
      log_eq lower (by rw [add_assoc]; exact test.mp small)
    rw [if_pos small, log, show guess + 51 - 52 = guess - 1 by omega]
  · have log : Int.log 2 value = guess + 52 :=
      log_eq (not_lt.mp fun less => small (test.mpr less)) (by rw [add_assoc]; exact upper)
    rw [if_neg small, log, add_sub_cancel_right]

theorem zpow_le_ratio (positive : 0 < num) (positiveDen : 0 < den) :
    (2 : ℚ) ^ ((Nat.log2 num : ℤ) - Nat.log2 den - 1) ≤ num / den := by
  have size : (0 : ℚ) < den := by exact_mod_cast positiveDen
  rw [sub_sub, zpow_sub₀ two_ne_zero]
  exact div_le_div₀ (Nat.cast_nonneg _) (zpow_log2_le positive) size (lt_zpow_log2 den).le

theorem ratio_lt_zpow (num : ℕ) (positiveDen : 0 < den) :
    (num : ℚ) / den < 2 ^ ((Nat.log2 num : ℤ) - Nat.log2 den + 1) := by
  rw [sub_add_eq_add_sub, zpow_sub₀ two_ne_zero]
  exact div_lt_div₀ (lt_zpow_log2 num) (zpow_log2_le positiveDen) (by positivity) (by positivity)

theorem unitExponent_eq (positive : 0 < num) (positiveDen : 0 < den) :
    unitExponent num den = unitOf (num / den) := by
  have size : (0 : ℚ) < den := by exact_mod_cast positiveDen
  have lower := zpow_le_ratio positive positiveDen
  have upper := ratio_lt_zpow num positiveDen
  unfold unitExponent
  simp only
  generalize guessed : (Nat.log2 num : ℤ) - Nat.log2 den - 52 = guess
  rw [show (Nat.log2 num : ℤ) - Nat.log2 den - 1 = guess + 51 by omega] at lower
  rw [show (Nat.log2 num : ℤ) - Nat.log2 den + 1 = guess + 53 by omega] at upper
  cases guess with
  | ofNat e =>
      simp only [decide_eq_true_eq]
      refine max_guess_eq ?_ lower upper
      rw [zpow_add₀ two_ne_zero, div_lt_iff₀ size, Int.ofNat_eq_natCast, zpow_natCast, mul_comm den,
        Nat.pow_eq, pow_add]
      exact_mod_cast Iff.rfl
  | negSucc e =>
      simp only [decide_eq_true_eq]
      refine max_guess_eq ?_ lower upper
      have scale : (0 : ℚ) < 2 ^ (e + 1) := by positivity
      rw [zpow_add₀ two_ne_zero, div_lt_iff₀ size, zpow_negSucc, mul_assoc, ← div_eq_inv_mul,
        lt_div_iff₀ scale, mul_comm den]
      exact_mod_cast Iff.rfl

end Units

section Ratios

variable {num den num' den' : ℕ} {negative : Bool}

/-- The place value of a number's last place and the whole number of them nearest to a quotient make
the number that the quotient is rounded to. -/
theorem ofRatio_eq_of_nearest (positive : 0 < num) (positiveDen : 0 < den) {unit : ℤ} {n : ℕ}
    (place : unitOf (num / den) = unit) (nearest : Nearest ((num : ℚ) / den / 2 ^ unit) n) :
    ofRatio negative num den =
      ofMagnitude negative (min infinityBits ((unit + 1074).toNat * fractionUnit + n)) := by
  rw [ofRatio, if_neg positive.ne']
  simp only [unitExponent_eq positive positiveDen, place]
  cases unit with
  | ofNat e =>
      have positiveScaled : 0 < den * Nat.pow 2 e := Nat.mul_pos positiveDen (Nat.pow_pos two_pos)
      have rounded := nearest_roundQuotient num positiveScaled
      rw [Nat.cast_mul, ← div_div, Nat.pow_eq, Nat.cast_pow] at rounded
      rw [← rounded.eq nearest]
      rfl
  | negSucc e =>
      have rounded := nearest_roundQuotient (num * Nat.pow 2 (e + 1)) positiveDen
      rw [zpow_negSucc, div_inv_eq_mul, div_mul_eq_mul_div] at nearest
      rw [Nat.cast_mul, Nat.pow_eq, Nat.cast_pow] at rounded
      rw [← rounded.eq nearest]
      rfl

/-- A quotient is rounded by its value. -/
theorem ofRatio_congr (positiveDen : 0 < den) (positiveDen' : 0 < den')
    (same : num * den' = num' * den) : ofRatio negative num den = ofRatio negative num' den' := by
  rcases Nat.eq_zero_or_pos num with rfl | positive
  · have zero : num' = 0 := by
      rw [Nat.zero_mul] at same
      exact (Nat.mul_eq_zero.mp same.symm).resolve_right positiveDen.ne'
    rw [zero, ofRatio, if_pos rfl, ofRatio, if_pos rfl]
  · have positive' : 0 < num' := by
      have product : 0 < num' * den := same ▸ Nat.mul_pos positive positiveDen'
      exact Nat.pos_of_mul_pos_right product
    have value : (num : ℚ) / den = num' / den' := by
      rw [div_eq_div_iff (by positivity) (by positivity)]
      exact_mod_cast same
    have nonneg : (0 : ℚ) ≤ num / den / 2 ^ unitOf (num / den) := by positivity
    obtain ⟨n, nearest⟩ := exists_nearest nonneg
    rw [ofRatio_eq_of_nearest positive positiveDen rfl nearest]
    rw [value] at nearest ⊢
    rw [ofRatio_eq_of_nearest positive' positiveDen' rfl nearest]

end Ratios

section Closeness

variable {value : ℚ} {m : ℕ} {u : ℤ}

theorem unitOf_of_normal (bottom : -1074 ≤ u) (lower : (2 : ℚ) ^ (u + 52) ≤ value)
    (upper : value < 2 ^ (u + 52 + 1)) : unitOf value = u := by
  rw [unitOf, log_eq lower upper]
  omega

theorem unitOf_of_low (positive : 0 < value) (upper : value < (2 : ℚ) ^ (-1074 + 53 : ℤ)) :
    unitOf value = -1074 := by
  have log : Int.log 2 value < -1074 + 53 :=
    (Int.lt_zpow_iff_log_lt Nat.one_lt_two positive).mp (by exact_mod_cast upper)
  rw [unitOf]
  omega

/-- The bounds of a value in its places are bounds of the value. -/
theorem zpow_le_iff_div {n : ℤ} : (2 : ℚ) ^ (u + n) ≤ value ↔ 2 ^ n ≤ value / 2 ^ u := by
  have unit : (0 : ℚ) < 2 ^ u := zpow_pos two_pos u
  rw [le_div_iff₀ unit, zpow_add₀ two_ne_zero, mul_comm]

theorem lt_zpow_iff_div {n : ℤ} : value < (2 : ℚ) ^ (u + n) ↔ value / 2 ^ u < 2 ^ n := by
  rw [← not_le, zpow_le_iff_div, not_le]

/-- Just below a power of two the places are half as wide. -/
theorem place_below_power (bottom : -1074 < u) (close : |value / 2 ^ u - 2 ^ 52| * 2 ^ 54 < 2 ^ 52)
    (below : value / 2 ^ u < 2 ^ 52) :
    unitOf value = u - 1 ∧ Nearest (value / 2 ^ (u - 1)) (2 ^ 53) := by
  have near := abs_lt.mp (lt_div_iff₀ (by norm_num : (0 : ℚ) < 2 ^ 54) |>.mpr close)
  have halved : value / 2 ^ (u - 1) = 2 * (value / 2 ^ u) := by
    rw [zpow_sub_one₀ two_ne_zero]
    field_simp
  refine ⟨unitOf_of_normal (by omega) ?_ ?_, ?_⟩
  · rw [show u - 1 + 52 = u + 51 by omega, zpow_le_iff_div]
    norm_num at near ⊢
    linarith
  · rw [show u - 1 + 52 + 1 = u + 52 by omega, lt_zpow_iff_div]
    exact_mod_cast below
  · rw [halved]
    refine nearest_of_lt (abs_lt.mpr ⟨?_, ?_⟩) <;> push_cast <;> norm_num at near ⊢ <;> linarith

/-- A value near to `m * 2 ^ u` has its last place where `m * 2 ^ u` has it, or, just below a power
of two, one place lower. -/
theorem place_of_close (small : m < 2 ^ 53) (bottom : -1074 ≤ u) (full : 2 ^ 52 ≤ m ∨ u = -1074)
    (close : |value / 2 ^ u - m| * 2 ^ 54 < m) :
    (unitOf value = u ∧ Nearest (value / 2 ^ u) m) ∨
      (m = 2 ^ 52 ∧ -1074 < u ∧ unitOf value = u - 1 ∧
        Nearest (value / 2 ^ (u - 1)) (2 ^ 53)) := by
  have bound : (m : ℚ) + 1 ≤ 2 ^ 53 := by exact_mod_cast small
  have near := abs_lt.mp (lt_div_iff₀ (by norm_num : (0 : ℚ) < 2 ^ 54) |>.mpr close)
  have nearest : Nearest (value / 2 ^ u) m :=
    nearest_of_lt (abs_lt.mpr ⟨by linarith, by linarith⟩)
  have high : value < 2 ^ (u + 53) := by
    rw [lt_zpow_iff_div]
    norm_num at near bound ⊢
    linarith
  by_cases low : u = -1074
  · subst low
    have positive : 0 < value := by
      have scaled : 0 < value / 2 ^ (-1074 : ℤ) := by linarith
      exact (div_pos_iff_of_pos_right (zpow_pos two_pos _)).mp scaled
    exact .inl ⟨unitOf_of_low positive high, nearest⟩
  have normal : 2 ^ 52 ≤ m := full.resolve_right low
  by_cases above : 2 ^ 52 ≤ value / 2 ^ u
  · have lower : (2 : ℚ) ^ (u + 52) ≤ value := zpow_le_iff_div.mpr (by exact_mod_cast above)
    refine .inl ⟨unitOf_of_normal bottom lower ?_, nearest⟩
    rw [add_assoc]
    exact high
  · right
    have below : value / 2 ^ u < 2 ^ 52 := not_le.mp above
    have least : m = 2 ^ 52 := by
      have bounded : (m : ℚ) < 2 ^ 52 + 1 := by linarith
      have : m < 2 ^ 52 + 1 := by exact_mod_cast bounded
      omega
    subst least
    exact ⟨rfl, by omega, place_below_power (by omega) (by exact_mod_cast close) below⟩

end Closeness

section Values

variable {x : Binary64} {num den : ℕ} {negative : Bool}

theorem fractionUnit_eq : fractionUnit = 4503599627370496 := rfl

/-- A number at the bottom of the range has its bits as they are, any other one bit more. -/
theorem parts_cases (x : Binary64) :
    (x.magnitude < fractionUnit ∧ x.parts = (x.magnitude, -1074)) ∨
      (fractionUnit ≤ x.magnitude ∧ x.parts = (fractionUnit + x.magnitude % fractionUnit,
        ((x.magnitude / fractionUnit : ℕ) : ℤ) - 1075)) := by
  have positive : 0 < fractionUnit := by decide
  unfold parts
  by_cases bottom : x.magnitude < fractionUnit
  · have none : x.magnitude / fractionUnit = 0 := Nat.div_eq_of_lt bottom
    rw [if_pos none, Nat.mod_eq_of_lt bottom]
    exact .inl ⟨bottom, rfl⟩
  · have some : x.magnitude / fractionUnit ≠ 0 :=
      (Nat.div_pos (Nat.not_lt.mp bottom) positive).ne'
    rw [if_neg some]
    exact .inr ⟨Nat.not_lt.mp bottom, rfl⟩

theorem parts_fst_lt (x : Binary64) : x.parts.1 < 2 ^ 53 := by
  obtain ⟨bottom, same⟩ | ⟨above, same⟩ := parts_cases x
  all_goals
    rw [fractionUnit_eq] at *
    simp only [same]
    omega

theorem le_parts_snd (x : Binary64) : -1074 ≤ x.parts.2 := by
  obtain ⟨bottom, same⟩ | ⟨above, same⟩ := parts_cases x
  all_goals
    rw [fractionUnit_eq] at *
    simp only [same]
    omega

/-- Only the numbers at the bottom of the range have fewer than 53 bits. -/
theorem parts_full (x : Binary64) : 2 ^ 52 ≤ x.parts.1 ∨ x.parts.2 = -1074 := by
  obtain ⟨bottom, same⟩ | ⟨above, same⟩ := parts_cases x
  · exact .inr (by rw [same])
  · exact .inl (by rw [same]; exact Nat.le_add_right _ _)

theorem magnitude_eq_parts (x : Binary64) :
    x.magnitude = (x.parts.2 + 1074).toNat * fractionUnit + x.parts.1 := by
  obtain ⟨bottom, same⟩ | ⟨above, same⟩ := parts_cases x
  all_goals
    rw [fractionUnit_eq] at *
    simp only [same]
    omega

/-- The value of a finite number without its sign. -/
def value (x : Binary64) : ℚ := x.parts.1 * 2 ^ x.parts.2

/-- What is nearer to a number than a part in `2 ^ 54` of it is rounded to the number. -/
theorem ofRatio_eq_of_close (finite : x.isFinite) (positiveDen : 0 < den)
    (close : |(num : ℚ) / den - x.value| * 2 ^ 54 < x.value) :
    ofRatio negative num den = ofMagnitude negative x.magnitude := by
  have below : x.magnitude < infinityBits := by simpa [isFinite] using finite
  have unit : (0 : ℚ) < 2 ^ x.parts.2 := zpow_pos two_pos _
  have scaled : |(num : ℚ) / den / 2 ^ x.parts.2 - x.parts.1| * 2 ^ 54 < x.parts.1 := by
    have shifted : (num : ℚ) / den / 2 ^ x.parts.2 - x.parts.1 =
        (num / den - x.value) / 2 ^ x.parts.2 := by
      rw [value, sub_div, mul_div_cancel_right₀ _ unit.ne']
    rw [shifted, abs_div, abs_of_pos unit, div_mul_eq_mul_div, div_lt_iff₀ unit]
    exact close
  have positive : 0 < num := by
    apply Nat.pos_of_ne_zero
    intro zero
    have nonneg : 0 ≤ x.value := mul_nonneg (Nat.cast_nonneg _) unit.le
    rw [zero, Nat.cast_zero, zero_div, zero_sub, abs_neg, abs_of_nonneg nonneg] at close
    linarith
  have together := magnitude_eq_parts x
  obtain ⟨place, nearest⟩ | ⟨least, above, place, nearest⟩ :=
    place_of_close (parts_fst_lt x) (le_parts_snd x) (parts_full x) scaled
  · rw [ofRatio_eq_of_nearest positive positiveDen place nearest, ← together,
      Nat.min_eq_right below.le]
  · have same : (x.parts.2 - 1 + 1074).toNat * fractionUnit + 2 ^ 53 = x.magnitude := by
      rw [together, least, fractionUnit_eq]
      omega
    rw [ofRatio_eq_of_nearest positive positiveDen place nearest, same, Nat.min_eq_right below.le]

end Values

end Binary64

end Number

end MemberOrder
