import MemberOrder.Text.Blank
import MemberOrder.Text.Digit

/-!
# Reading numbers from loose text

Whole numbers in any base up to sixteen and decimal fractions, as people type them: blanks around,
a sign, digits of any script, and single underscores between digits.
-/

namespace MemberOrder

namespace Number

/-- Why a text is no whole number. -/
inductive WholeFault
  | notWhole (base : Nat) (text : String)
  | tooManyDigits (count : Nat)
deriving DecidableEq, Repr

/-- Digits that a decimal number may have. -/
def digitLimit : Nat := 4300

/-- Blanks that may stand around a number; the information separators may not. -/
def isNumberBlank (c : Char) : Bool := Text.isBlank c && !(28 ≤ c.toNat && c.toNat ≤ 31)

/-- A decimal digit of any script as the ASCII digit of its value; other characters stay. -/
def asciiDigit (c : Char) : Char :=
  if c.toNat < 0x80 then c
  else match Text.digitValue? c with
    | some value => Char.ofNat (48 + value)
    | none => c

/-- The value of a digit or of a letter that stands for one. -/
def digitOf? (base : Nat) (c : Char) : Option Nat :=
  let value :=
    if c.isDigit then some (c.toNat - 48)
    else if 'a' ≤ c ∧ c ≤ 'z' then some (c.toNat - 87)
    else if 'A' ≤ c ∧ c ≤ 'Z' then some (c.toNat - 55)
    else none
  value.filter (· < base)

/-- A sign in front of a text: whether it is a minus, and the text after it. -/
def splitSign : List Char → Bool × List Char
  | '-' :: rest => (true, rest)
  | '+' :: rest => (false, rest)
  | text => (false, text)

/-- The text after the prefix that names a base, and after one underscore behind that. -/
def dropBasePrefix (base : Nat) (text : List Char) : List Char :=
  let named : Bool := match text with
    | '0' :: letter :: _ =>
      (base == 16 && (letter == 'x' || letter == 'X')) ||
        (base == 8 && (letter == 'o' || letter == 'O')) ||
        (base == 2 && (letter == 'b' || letter == 'B'))
    | _ => false
  if named then
    match text.drop 2 with
    | '_' :: rest => rest
    | rest => rest
  else text

/-- The values of a row of digits with single underscores between them. -/
def digitsOf? (base : Nat) : List Char → Option (List Nat)
  | [] => none
  | [c] => (digitOf? base c).map ([·])
  | c :: '_' :: rest => do return (← digitOf? base c) :: (← digitsOf? base rest)
  | c :: rest => do return (← digitOf? base c) :: (← digitsOf? base rest)

/-- The value of digits in a base. -/
def valueOf (base : Nat) (digits : List Nat) : Nat :=
  digits.foldl (fun n digit => n * base + digit) 0

/-- A whole number in a base. Only bases that are no power of two limit the digits. -/
def parseWhole (base : Nat) (text : String) : Except WholeFault Int :=
  let chars := (Text.trimWhere isNumberBlank text.toList).map asciiDigit
  let (negative, unsigned) := splitSign chars
  match digitsOf? base (dropBasePrefix base unsigned) with
  | none => .error (.notWhole base text)
  | some digits =>
    if base = 10 ∧ digitLimit < digits.length then .error (.tooManyDigits digits.length)
    else
      let value : Int := valueOf base digits
      .ok (if negative then -value else value)

end Number

end MemberOrder
