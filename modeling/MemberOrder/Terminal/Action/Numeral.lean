import MemberOrder.Number.Fraction

/-!
# Numerals in arguments

A numeral is a whole number in one of four bases, a fraction, or a multiple of the imaginary unit.
`numeral?` reads the numeral that a text begins with.
-/

namespace MemberOrder

namespace Terminal

/-- A number without a sign. -/
inductive Numeral
  | whole (value : Nat)
  | fraction
  | imaginary
deriving DecidableEq, Repr

namespace Numeral

/-- Whether a numeral is a real number that has a nearest binary fraction. -/
def isAddend : Numeral → Bool
  | .whole value => value < Nat.pow 2 1024 - Nat.pow 2 970
  | .fraction => true
  | .imaginary => false

end Numeral

/-- The base that two characters in front of a numeral name. -/
def baseOf? : List Char → Option Nat
  | '0' :: letter :: _ =>
    match letter.toLower with
    | 'x' => some 16
    | 'o' => some 8
    | 'b' => some 2
    | _ => none
  | _ => none

/-- Whether a text begins with an exponent, and the text after it. -/
def exponentRow (text : List Char) : Bool × List Char :=
  match text with
  | [] => (false, [])
  | e :: rest =>
    if e.toLower = 'e' then
      match Number.digitRow (Number.splitSign rest).2 with
      | ([], _) => (false, text)
      | (_, after) => (true, after)
    else (false, text)

/-- A whole number in decimal digits. Only zero begins with a zero. -/
def wholeOf? (digits : List Nat) : Option Numeral :=
  if digits.head? = some 0 && !digits.all (· = 0) then none
  else if Number.digitLimit < digits.length then none
  else some (.whole (Number.valueOf 10 digits))

/-- The decimal numeral that a text begins with, and the text after it. -/
def decimalNumeral? (text : List Char) : Option (Numeral × List Char) :=
  let (whole, afterWhole) := Number.digitRow text
  let (pointed, fraction, afterFraction) := match afterWhole with
    | '.' :: rest => (true, Number.digitRow rest)
    | rest => (false, [], rest)
  let (scaled, rest) := exponentRow afterFraction
  if whole.isEmpty && fraction.isEmpty then none
  else
    match rest with
    | c :: after =>
      if c.toLower = 'j' then some (.imaginary, after)
      else if pointed || scaled then some (.fraction, rest)
      else (wholeOf? whole).map (·, rest)
    | [] => if pointed || scaled then some (.fraction, []) else (wholeOf? whole).map (·, [])

/-- The numeral that a text begins with, and the text after it. -/
def numeral? (text : List Char) : Option (Numeral × List Char) :=
  match baseOf? text with
  | some base =>
    let word := text.takeWhile fun c => c.isAlphanum || c == '_'
    (Number.digitsOf? base (Number.dropBasePrefix base word)).map fun digits =>
      (.whole (Number.valueOf base digits), text.drop word.length)
  | none => decimalNumeral? text

end Terminal

end MemberOrder
