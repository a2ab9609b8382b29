import MemberOrder.Number.Binary64
import MemberOrder.Number.Whole

/-!
# Reading fractions from loose text

A decimal fraction with an optional exponent, or one of the words for infinity and for no number.
-/

namespace MemberOrder

namespace Number

/-- A row of digits with single underscores between them, and the text after it. -/
def digitRow : List Char → List Nat × List Char
  | [] => ([], [])
  | c :: '_' :: next :: rest =>
    if c.isDigit && next.isDigit then
      let (digits, after) := digitRow (next :: rest)
      ((c.toNat - 48) :: digits, after)
    else if c.isDigit then ([c.toNat - 48], '_' :: next :: rest)
    else ([], c :: '_' :: next :: rest)
  | c :: rest =>
    if c.isDigit then
      let (digits, after) := digitRow rest
      ((c.toNat - 48) :: digits, after)
    else ([], c :: rest)

/-- The exponent of a fraction, if what is left is one or nothing. -/
def exponentOf? (text : List Char) : Option Int :=
  match text with
  | [] => some 0
  | e :: rest =>
    if e = 'e' ∨ e = 'E' then
      let (negative, unsigned) := splitSign rest
      match digitRow unsigned with
      | ([], _) => none
      | (digits, []) =>
        let value : Int := valueOf 10 digits
        some (if negative then -value else value)
      | _ => none
    else none

/-- A fraction without its sign. -/
def unsignedFraction? (negative : Bool) (text : List Char) : Option Binary64 :=
  let word := String.ofList (text.map Char.toLower)
  if word = "inf" ∨ word = "infinity" then some (.infinity negative)
  else if word = "nan" then some .nan
  else
    let (whole, rest) := digitRow text
    let (fraction, rest) := match rest with
      | '.' :: rest => digitRow rest
      | rest => ([], rest)
    if whole.isEmpty && fraction.isEmpty then none
    else (exponentOf? rest).map fun exponent =>
      .ofDecimal negative (valueOf 10 (whole ++ fraction)) (exponent - fraction.length)

/-- The number that a text stands for. -/
def parseFraction? (text : String) : Option Binary64 :=
  let (negative, unsigned) :=
    splitSign ((Text.trimWhere isNumberBlank text.toList).map asciiDigit)
  unsignedFraction? negative unsigned

namespace Binary64

/-- The number nearest to a sum. -/
def add (x y : Binary64) : Binary64 := ⟨(Float.ofBits x.bits + Float.ofBits y.bits).toBits⟩

/-- The number nearest to a product. -/
def mul (x y : Binary64) : Binary64 := ⟨(Float.ofBits x.bits * Float.ofBits y.bits).toBits⟩

/-- The number with the other sign; what is no number has none. -/
def negate (x : Binary64) : Binary64 :=
  if x.isNaN then x else ofMagnitude (!x.isNegative) x.magnitude

end Binary64

end Number

end MemberOrder
