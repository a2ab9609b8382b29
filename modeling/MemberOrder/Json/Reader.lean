import MemberOrder.Number.Binary64
import MemberOrder.Value.Basic

/-!
# Reading JSON

A text is read by descent over its characters with the number of characters already read beside
them, so that a fault can name its line, column and offset. A key that is repeated keeps its first
place and takes its last value. `read` reads a whole text.
-/

namespace MemberOrder

namespace Json

/-- What is wrong at one place of a text. -/
inductive Cause
  | value
  | propertyName
  | colon
  | comma
  | unterminatedString
  | controlCharacter
  | escape
  | codeEscape
  | extraData
  | byteOrderMark
deriving DecidableEq, Repr

/-- Why a text could not be read. -/
inductive Fault
  /-- The text breaks the grammar after `offset` characters. -/
  | malformed (cause : Cause) (offset : Nat)
  /-- A whole number has more digits than the limit. -/
  | tooManyDigits (count : Nat)
deriving DecidableEq, Repr

/-- Digits that a whole number may have in decimal. -/
def digitLimit : Nat := 4300

/-- What is left of a text, and how many characters stand before it. -/
structure Cursor where
  rest : List Char
  offset : Nat

namespace Cursor

def fail {α : Type} (c : Cursor) (cause : Cause) : Except Fault α :=
  .error (.malformed cause c.offset)

/-- The cursor after the next `n` characters. -/
def advance (c : Cursor) (n : Nat) : Cursor := ⟨c.rest.drop n, c.offset + n⟩

def isSpace (c : Char) : Bool := c == ' ' || c == '\t' || c == '\n' || c == '\r'

/-- The cursor after blanks. -/
def skipSpace (c : Cursor) : Cursor := c.advance (c.rest.takeWhile isSpace).length

end Cursor

/-- The value of a hexadecimal digit. -/
def hexValue? (c : Char) : Option Nat :=
  if c.isDigit then some (c.toNat - 48)
  else if 'a' ≤ c ∧ c ≤ 'f' then some (c.toNat - 87)
  else if 'A' ≤ c ∧ c ≤ 'F' then some (c.toNat - 55)
  else none

/-- The value of four hexadecimal digits at the start of a text. -/
def fourHex? : List Char → Option Nat
  | a :: b :: c :: d :: _ => do
    return (((← hexValue? a) * 16 + (← hexValue? b)) * 16 + (← hexValue? c)) * 16 + (← hexValue? d)
  | _ => none

/-- The character that a single-letter escape stands for. -/
def letterEscape? : Char → Option Char
  | '"' => some '"'
  | '\\' => some '\\'
  | '/' => some '/'
  | 'b' => some '\x08'
  | 'f' => some '\x0c'
  | 'n' => some '\n'
  | 'r' => some '\r'
  | 't' => some '\t'
  | _ => none

/-- A code point escaped after `\u`, as two halves where a pair of them follows. The cursor stands
after the `u`. -/
def readCode (c : Cursor) : Except Fault (Char × Cursor) :=
  if (c.rest.drop 4).isEmpty then .error (.malformed .codeEscape (c.offset - 1))
  else
    match fourHex? c.rest with
    | none => .error (.malformed .codeEscape (c.offset - 1))
    | some high =>
      let after := c.advance 4
      match after.rest with
      | '\\' :: 'u' :: low =>
        if 0xD800 ≤ high ∧ high ≤ 0xDBFF ∧ !(low.drop 4).isEmpty then
          match fourHex? low with
          | none => .error (.malformed .codeEscape (after.offset + 1))
          | some second =>
            if 0xDC00 ≤ second ∧ second ≤ 0xDFFF then
              .ok (Char.ofNat (0x10000 + (high - 0xD800) * 1024 + (second - 0xDC00)),
                after.advance 6)
            else .ok (Char.ofNat high, after)
        else .ok (Char.ofNat high, after)
      | _ => .ok (Char.ofNat high, after)

/-- The rest of a string whose first quote stands at `start`, with the characters read so far
backwards. `fuel` is no less than the number of characters left. -/
def readString (start : Nat) : Nat → List Char → Cursor → Except Fault (List Char × Cursor)
  | 0, _, _ => .error (.malformed .unterminatedString start)
  | fuel + 1, text, c =>
    match c.rest with
    | [] => .error (.malformed .unterminatedString start)
    | '"' :: _ => .ok (text.reverse, c.advance 1)
    | '\\' :: 'u' :: _ => do
      let (letter, after) ← readCode (c.advance 2)
      readString start fuel (letter :: text) after
    | '\\' :: letter :: _ =>
      match letterEscape? letter with
      | some meant => readString start fuel (meant :: text) (c.advance 2)
      | none => .error (.malformed .escape c.offset)
    | '\\' :: [] => .error (.malformed .unterminatedString start)
    | letter :: _ =>
      if letter.toNat ≤ 0x1F then c.fail .controlCharacter
      else readString start fuel (letter :: text) (c.advance 1)

/-- The value of a row of decimal digits. -/
def decimalValue (digits : List Char) : Nat :=
  digits.foldl (fun n c => n * 10 + (c.toNat - 48)) 0

/-- The digits after a point, if a point and a digit are next. -/
def fractionDigits : List Char → List Char
  | '.' :: rest => rest.takeWhile Char.isDigit
  | _ => []

/-- Sign, digits and length of an exponent, if a whole one is next. -/
def exponentPart? (text : List Char) : Option (Bool × List Char × Nat) :=
  match text with
  | e :: rest =>
    if e = 'e' ∨ e = 'E' then
      let (negative, digits, signs) := match rest with
        | '-' :: rest => (true, rest.takeWhile Char.isDigit, 1)
        | '+' :: rest => (false, rest.takeWhile Char.isDigit, 1)
        | rest => (false, rest.takeWhile Char.isDigit, 0)
      if digits.isEmpty then none else some (negative, digits, 1 + signs + digits.length)
    else none
  | [] => none

/-- The digits of a number before its point. A zero stands alone. -/
def wholeDigits : List Char → List Char
  | '0' :: _ => ['0']
  | text => text.takeWhile Char.isDigit

/-- A number whose sign and first digits have been read; the cursor stands after the sign. -/
def readAfterWhole (negative : Bool) (c : Cursor) (whole : List Char) :
    Except Fault (Value × Cursor) :=
  let afterWhole := c.advance whole.length
  let fraction := fractionDigits afterWhole.rest
  let afterFraction :=
    if fraction.isEmpty then afterWhole else afterWhole.advance (fraction.length + 1)
  match fraction, exponentPart? afterFraction.rest with
  | [], none =>
    if digitLimit < whole.length then .error (.tooManyDigits whole.length)
    else
      let n := decimalValue whole
      .ok (.int (if negative then -(n : Int) else n), afterWhole)
  | _, exponent =>
    let digits := decimalValue (whole ++ fraction)
    let (scale, length) := match exponent with
      | none => ((0 : Int), 0)
      | some (true, figures, length) => (-(decimalValue figures : Int), length)
      | some (false, figures, length) => ((decimalValue figures : Int), length)
    .ok (.float (Number.Binary64.ofDecimal negative digits (scale - fraction.length)),
      afterFraction.advance length)

/-- A number, whose sign has been read. -/
def readNumber (negative : Bool) (start : Nat) (c : Cursor) : Except Fault (Value × Cursor) :=
  let whole := wholeDigits c.rest
  if whole.isEmpty then .error (.malformed .value start) else readAfterWhole negative c whole

/-- The words of the grammar, with their values. -/
def words : List (String × Value) :=
  [("null", .null), ("true", .bool true), ("false", .bool false),
    ("NaN", .float .nan), ("Infinity", .float (.infinity false)),
    ("-Infinity", .float (.infinity true))]

/-- A word or a number. -/
def readScalar (c : Cursor) : Except Fault (Value × Cursor) :=
  match words.find? fun (word, _) => word.toList.isPrefixOf c.rest with
  | some (word, value) => .ok (value, c.advance word.length)
  | none =>
    match c.rest with
    | '-' :: _ => readNumber true c.offset (c.advance 1)
    | _ => readNumber false c.offset c

mutual

/-- One value, at the cursor. `fuel` is no less than twice the number of characters left. -/
def readValue : Nat → Cursor → Except Fault (Value × Cursor)
  | 0, c => c.fail .value
  | fuel + 1, c =>
    match c.rest with
    | '"' :: _ => do
      let (text, after) ← readString c.offset fuel [] (c.advance 1)
      return (.str (String.ofList text), after)
    | '[' :: _ =>
      let inside := (c.advance 1).skipSpace
      match inside.rest with
      | ']' :: _ => .ok (.list none [], inside.advance 1)
      | _ => do
        let (items, after) ← readItems fuel inside
        return (.list none items, after)
    | '\x7b' :: _ =>
      let inside := (c.advance 1).skipSpace
      match inside.rest with
      | '\x7d' :: _ => .ok (.map none [], inside.advance 1)
      | _ => do
        let (entries, after) ← readEntries fuel [] inside
        return (.map none entries, after)
    | _ => readScalar c

/-- The items of a list up to its bracket. -/
def readItems : Nat → Cursor → Except Fault (List Value × Cursor)
  | 0, c => c.fail .value
  | fuel + 1, c => do
    let (item, after) ← readValue fuel c
    let after := after.skipSpace
    match after.rest with
    | ']' :: _ => return ([item], after.advance 1)
    | ',' :: _ => do
      let (items, last) ← readItems fuel (after.advance 1).skipSpace
      return (item :: items, last)
    | _ => after.fail .comma

/-- The entries of a map up to its brace, added to those read before. -/
def readEntries : Nat → Entries → Cursor → Except Fault (Entries × Cursor)
  | 0, _, c => c.fail .value
  | fuel + 1, entries, c =>
    match c.rest with
    | '"' :: _ => do
      let (name, afterName) ← readString c.offset fuel [] (c.advance 1)
      let afterName := afterName.skipSpace
      match afterName.rest with
      | ':' :: _ => do
        let (value, after) ← readValue fuel (afterName.advance 1).skipSpace
        let entries := entries.put (.str (String.ofList name)) value
        let after := after.skipSpace
        match after.rest with
        | '\x7d' :: _ => return (entries, after.advance 1)
        | ',' :: _ => readEntries fuel entries (after.advance 1).skipSpace
        | _ => after.fail .comma
      | _ => afterName.fail .colon
    | _ => c.fail .propertyName

end

/-- The value that a whole text holds, blanks around it aside. -/
def read (text : String) : Except Fault Value :=
  let chars := text.toList
  match chars with
  | '\uFEFF' :: _ => .error (.malformed .byteOrderMark 0)
  | _ => do
    let (value, after) ← readValue (2 * chars.length + 2) (Cursor.mk chars 0).skipSpace
    let after := after.skipSpace
    if after.rest.isEmpty then return value else after.fail .extraData

/-- The wording of each cause. -/
def Cause.message : Cause → String
  | .value => "Expecting value"
  | .propertyName => "Expecting property name enclosed in double quotes"
  | .colon => "Expecting ':' delimiter"
  | .comma => "Expecting ',' delimiter"
  | .unterminatedString => "Unterminated string starting at"
  | .controlCharacter => "Invalid control character at"
  | .escape => "Invalid \\escape"
  | .codeEscape => "Invalid \\uXXXX escape"
  | .extraData => "Extra data"
  | .byteOrderMark => "Unexpected UTF-8 BOM (decode using utf-8-sig)"

/-- A cause with its line and column, both from one, and its offset from zero. -/
def placedMessage (text : String) (cause : Cause) (offset : Nat) : String :=
  let before := text.toList.take offset
  let line := before.count '\n' + 1
  let column := (before.reverse.takeWhile (· != '\n')).length + 1
  cause.message ++ ": line " ++ toString line ++ " column " ++ toString column ++
    " (char " ++ toString offset ++ ")"

end Json

end MemberOrder
