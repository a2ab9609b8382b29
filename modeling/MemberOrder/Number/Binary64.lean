/-!
# Binary floating point of 64 bits

A number is kept as its bits, so equality of numbers is equality of bits. `ofRatio` rounds an exact
quotient to the nearest number, a tie to the even one, and `ofDecimal` reads a decimal through it.
-/

namespace MemberOrder

namespace Number

/-- A binary floating-point number of 64 bits: one sign bit, eleven of exponent, 52 of fraction. -/
structure Binary64 where
  bits : UInt64
deriving DecidableEq, Repr

namespace Binary64

/-- The weight of the lowest exponent bit. -/
def fractionUnit : Nat := Nat.pow 2 52

/-- The bits of positive infinity. -/
def infinityBits : Nat := 0x7FF * fractionUnit

/-- The number with the given sign and the given bits below the sign. -/
def ofMagnitude (negative : Bool) (magnitude : Nat) : Binary64 :=
  ⟨UInt64.ofNat (magnitude + if negative then Nat.pow 2 63 else 0)⟩

def infinity (negative : Bool) : Binary64 := ofMagnitude negative infinityBits

def zero (negative : Bool) : Binary64 := ofMagnitude negative 0

def nan : Binary64 := ofMagnitude false (infinityBits + fractionUnit / 2)

/-- The bits below the sign. -/
def magnitude (x : Binary64) : Nat := x.bits.toNat % Nat.pow 2 63

def isNegative (x : Binary64) : Bool := Nat.pow 2 63 ≤ x.bits.toNat

def isNaN (x : Binary64) : Bool := infinityBits < x.magnitude

def isInfinite (x : Binary64) : Bool := x.magnitude == infinityBits

def isZero (x : Binary64) : Bool := x.magnitude == 0

def isFinite (x : Binary64) : Bool := x.magnitude < infinityBits

/-- Significand and exponent of two of a finite number without its sign. -/
def parts (x : Binary64) : Nat × Int :=
  let exponent := x.magnitude / fractionUnit
  let fraction := x.magnitude % fractionUnit
  if exponent = 0 then (fraction, -1074) else (fractionUnit + fraction, (exponent : Int) - 1075)

/-- A finite number without its sign, as a quotient. -/
def ratio (x : Binary64) : Nat × Nat :=
  match x.parts with
  | (significand, .ofNat e) => (significand * Nat.pow 2 e, 1)
  | (significand, .negSucc e) => (significand, Nat.pow 2 (e + 1))

/-- The whole part of a quotient, with a half rounded to the even neighbour. -/
def roundQuotient (num den : Nat) : Nat :=
  let whole := num / den
  let twice := 2 * (num % den)
  if twice < den then whole
  else if den < twice then whole + 1
  else whole + whole % 2

/-- The exponent of two that leaves 53 bits, or fewer at the bottom of the range, before the point
of `num / den`. -/
def unitExponent (num den : Nat) : Int :=
  let guess : Int := (Nat.log2 num : Int) - Nat.log2 den - 52
  let low : Bool := match guess with
    | .ofNat e => num < den * Nat.pow 2 (e + 52)
    | .negSucc e => num * Nat.pow 2 (e + 1) < den * Nat.pow 2 52
  max (-1074) (if low then guess - 1 else guess)

/-- The number nearest to `num / den`. -/
def ofRatio (negative : Bool) (num den : Nat) : Binary64 :=
  if num = 0 then zero negative
  else
    let unit := unitExponent num den
    let significand := match unit with
      | .ofNat e => roundQuotient num (den * Nat.pow 2 e)
      | .negSucc e => roundQuotient (num * Nat.pow 2 (e + 1)) den
    ofMagnitude negative (min infinityBits ((unit + 1074).toNat * fractionUnit + significand))

/-- Number of decimal digits of a natural number; zero has none. -/
def digitCount (n : Nat) : Nat := if n = 0 then 0 else (Nat.toDigits 10 n).length

/-- The number nearest to `digits · 10 ^ exponent`. Beyond the range on either side the answer is
known without the power. -/
def ofDecimal (negative : Bool) (digits : Nat) (exponent : Int) : Binary64 :=
  let top := (digitCount digits : Int) + exponent
  if digits = 0 then zero negative
  else if 310 < top then infinity negative
  else if top < -330 then zero negative
  else match exponent with
    | .ofNat e => ofRatio negative (digits * Nat.pow 10 e) 1
    | .negSucc e => ofRatio negative digits (Nat.pow 10 (e + 1))

/-- Whether a number equals a whole number exactly. -/
def equalsInt (x : Binary64) (n : Int) : Bool :=
  x.isFinite && (let (num, den) := x.ratio
    (if x.isNegative then -(num : Int) else num) == n * den)

/-- Equality of numbers: the two zeros are equal and a NaN equals nothing. -/
def sameNumber (x y : Binary64) : Bool :=
  !x.isNaN && !y.isNaN && (x == y || (x.isZero && y.isZero))

/-- The magnitude with the sign: it grows with the number. -/
def signedMagnitude (x : Binary64) : Int :=
  if x.isNegative then -(x.magnitude : Int) else x.magnitude

/-- Whether a number is less than another. A NaN is neither less nor greater than any. -/
def isLess (x y : Binary64) : Bool :=
  !x.isNaN && !y.isNaN && x.signedMagnitude < y.signedMagnitude

/-- Whether a number is less than a whole number. -/
def isBelow (x : Binary64) (n : Int) : Bool :=
  if x.isFinite then
    let (num, den) := x.ratio
    (if x.isNegative then -(num : Int) else num) < n * den
  else x.isInfinite && x.isNegative

/-- Whether a number is greater than a whole number. -/
def isAbove (x : Binary64) (n : Int) : Bool :=
  !x.isNaN && !x.isBelow n && !x.equalsInt n

end Binary64

end Number

end MemberOrder
