import MemberOrder.Number.Binary64

/-!
# The shortest decimal that reads back

Of all decimals that round to a given number, the text of the number uses one with the fewest
digits, and of those the nearest. `DecimalStyle` holds what is left to taste: where positional
writing ends and how an exponent looks.
-/

namespace MemberOrder

namespace Number

namespace Binary64

/-- The least `k` with `x < 10 ^ k`, found from a lower bound by at most `steps` steps. -/
def decimalPoint (num den : Nat) : Nat → Int → Int
  | 0, k => k
  | steps + 1, k =>
    let below : Bool := match k with
      | .ofNat e => num < den * Nat.pow 10 e
      | .negSucc e => num * Nat.pow 10 (e + 1) < den
    if below then k else decimalPoint num den steps (k + 1)

/-- The candidate of `count` digits for a positive finite number whose point stands after `point`
digits: the nearer of its two neighbours on that grid that reads back. -/
def candidate? (x : Binary64) (point : Int) (count : Nat) : Option (Nat × Int) :=
  let (num, den) := x.ratio
  let exponent := point - count
  let (scaledNum, scaledDen) := match exponent with
    | .ofNat e => (num, den * Nat.pow 10 e)
    | .negSucc e => (num * Nat.pow 10 (e + 1), den)
  let low := scaledNum / scaledDen
  let readsBack (digits : Nat) := ofDecimal false digits exponent == ofMagnitude false x.magnitude
  let nearest := roundQuotient scaledNum scaledDen
  let other := if nearest = low then low + 1 else low
  if readsBack nearest then some (nearest, exponent)
  else if readsBack other then some (other, exponent)
  else none

/-- The first of the grids of `count`, `count + 1`, … digits on which a candidate reads back. -/
def shortestFrom (x : Binary64) (point : Int) : Nat → Nat → Nat × Int
  | 0, _ => x.parts
  | tries + 1, count => (candidate? x point count).getD (shortestFrom x point tries (count + 1))

/-- Digits without closing zeros, with the exponent that keeps their value. -/
def dropZeros : Nat → Nat → Int → Nat × Int
  | 0, digits, exponent => (digits, exponent)
  | steps + 1, digits, exponent =>
    if digits % 10 = 0 then dropZeros steps (digits / 10) (exponent + 1) else (digits, exponent)

/-- Digits and exponent of ten of the shortest decimal that reads back as a positive finite `x`. -/
def shortest (x : Binary64) : Nat × Int :=
  let (num, den) := x.ratio
  let bits : Int := (Nat.log2 num : Int) - Nat.log2 den
  let point := decimalPoint num den 8 (bits * 30103 / 100000 - 1)
  let (digits, exponent) := shortestFrom x point 17 1
  dropZeros 17 digits exponent

end Binary64

/-- How a decimal is written once its digits are known. -/
structure DecimalStyle where
  /-- The point may stand at most this many zeros before the first digit. -/
  zerosBefore : Nat
  /-- The point may stand at most this many places after the first digit's left. -/
  placesAfter : Nat
  /-- Digits that an exponent has at least. -/
  exponentDigits : Nat
  infinityText : String
  nanText : String

/-- Positional from `0.0001` to below `10 ^ 16`, otherwise an exponent of two or more digits. -/
def DecimalStyle.plain : DecimalStyle := ⟨3, 16, 2, "inf", "nan"⟩

/-- The style of a text format that names the values that are not finite. -/
def DecimalStyle.named : DecimalStyle := { DecimalStyle.plain with
  infinityText := "Infinity", nanText := "NaN" }

namespace Binary64

/-- An exponent with its sign. -/
def exponentText (style : DecimalStyle) (exponent : Int) : String :=
  let digits := toString exponent.natAbs
  let padding := String.ofList (List.replicate (style.exponentDigits - digits.length) '0')
  (if exponent < 0 then "e-" else "e+") ++ padding ++ digits

/-- The text of a positive decimal `digits · 10 ^ exponent`. -/
def decimalText (style : DecimalStyle) (digits : Nat) (exponent : Int) : String :=
  let figures := Nat.toDigits 10 digits
  let point := (figures.length : Int) + exponent
  let zeros (n : Nat) := String.ofList (List.replicate n '0')
  if point ≤ -(style.zerosBefore + 1 : Int) ∨ (style.placesAfter : Int) < point then
    let rest := figures.tail
    String.ofList (figures.take 1) ++ (if rest.isEmpty then "" else "." ++ String.ofList rest) ++
      exponentText style (point - 1)
  else if point ≤ 0 then "0." ++ zeros (-point).toNat ++ String.ofList figures
  else if figures.length ≤ point.toNat then
    String.ofList figures ++ zeros (point.toNat - figures.length) ++ ".0"
  else String.ofList (figures.take point.toNat) ++ "." ++ String.ofList (figures.drop point.toNat)

/-- The text of a number in a style. -/
def text (style : DecimalStyle) (x : Binary64) : String :=
  if x.isNaN then style.nanText
  else
    (if x.isNegative then "-" else "") ++
      (if x.isInfinite then style.infinityText
      else if x.isZero then "0.0"
      else decimalText style x.shortest.1 x.shortest.2)

end Binary64

end Number

end MemberOrder
