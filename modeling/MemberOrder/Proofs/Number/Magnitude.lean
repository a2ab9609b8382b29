import MemberOrder.Number.Binary64

/-!
# Sign and magnitude

A number is its sign and the bits below it (`Number.Binary64.ofMagnitude_magnitude`), and what is
rounded or read is never what is no number (`Number.Binary64.isNaN_ofDecimal`).
-/

namespace MemberOrder

namespace Number

namespace Binary64

variable {negative : Bool} {magnitude : Nat}

theorem pow_signBit : Nat.pow 2 63 = 9223372036854775808 := rfl

theorem infinityBits_lt : infinityBits < Nat.pow 2 63 := by
  decide

theorem toNat_bits_ofMagnitude (small : magnitude < Nat.pow 2 63) :
    (ofMagnitude negative magnitude).bits.toNat =
      magnitude + if negative then Nat.pow 2 63 else 0 := by
  rw [pow_signBit] at small ⊢
  rw [ofMagnitude, UInt64.toNat_ofNat', pow_signBit]
  refine Nat.mod_eq_of_lt ?_
  cases negative <;> simp <;> omega

theorem magnitude_ofMagnitude (small : magnitude < Nat.pow 2 63) :
    (ofMagnitude negative magnitude).magnitude = magnitude := by
  rw [Binary64.magnitude, toNat_bits_ofMagnitude small]
  rw [pow_signBit] at small ⊢
  cases negative <;> simp <;> omega

theorem magnitude_lt (x : Binary64) : x.magnitude < Nat.pow 2 63 :=
  Nat.mod_lt _ (by decide)

theorem ofMagnitude_magnitude (x : Binary64) : ofMagnitude x.isNegative x.magnitude = x := by
  obtain ⟨bits⟩ := x
  have below := bits.toNat_lt
  refine congrArg Binary64.mk (UInt64.toNat_inj.mp ?_)
  refine (toNat_bits_ofMagnitude (magnitude_lt ⟨bits⟩)).trans ?_
  simp only [Binary64.magnitude, Binary64.isNegative, pow_signBit, decide_eq_true_eq]
  split <;> omega

theorem isNaN_ofMagnitude (small : magnitude ≤ infinityBits) :
    (ofMagnitude negative magnitude).isNaN = false := by
  have below : magnitude < Nat.pow 2 63 := Nat.lt_of_le_of_lt small infinityBits_lt
  rw [isNaN, magnitude_ofMagnitude below, decide_eq_false_iff_not, Nat.not_lt]
  exact small

theorem isNaN_ofRatio (num den : Nat) : (ofRatio negative num den).isNaN = false := by
  unfold ofRatio
  split
  · exact isNaN_ofMagnitude (Nat.zero_le _)
  · exact isNaN_ofMagnitude (Nat.min_le_left _ _)

theorem isNaN_ofDecimal (digits : Nat) (exponent : Int) :
    (ofDecimal negative digits exponent).isNaN = false := by
  unfold ofDecimal
  simp only
  split
  · exact isNaN_ofMagnitude (Nat.zero_le _)
  split
  · exact isNaN_ofMagnitude (Nat.le_refl _)
  split
  · exact isNaN_ofMagnitude (Nat.zero_le _)
  · split <;> exact isNaN_ofRatio _ _

end Binary64

end Number

end MemberOrder
