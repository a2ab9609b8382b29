/-!
# A place in YAML text

A cursor is what is left of a text with the line and column it stands at. Reading past the end gives
a null character, which no readable text holds.
-/

namespace MemberOrder

namespace Yaml

/-- Why a text could not be read. -/
inductive ReadFault
  /-- The text breaks the rules of the format. -/
  | malformed
  /-- An escape names a code point above the last one. -/
  | codePoint (code : Nat)
  /-- A number of a directive has too many digits. -/
  | tooManyDigits (count : Nat)
deriving DecidableEq, Repr

/-- What is left of a text, and where that starts. -/
structure Cursor where
  rest : List Char
  index : Nat
  line : Nat
  column : Nat

/-- Characters that a text may hold. -/
def isReadable (c : Char) : Bool :=
  let code := c.toNat
  code == 9 || code == 10 || code == 13 || (0x20 ≤ code && code ≤ 0x7E) || code == 0x85 ||
    (0xA0 ≤ code && code ≤ 0xD7FF) || (0xE000 ≤ code && code ≤ 0xFFFD) || 0x10000 ≤ code

/-- Characters that end a line. -/
def isBreak (c : Char) : Bool :=
  c == '\n' || c == '\r' || c.toNat == 0x85 || c.toNat == 0x2028 || c.toNat == 0x2029

/-- A line break or the end of the text. -/
def isLineEnd (c : Char) : Bool := isBreak c || c == '\x00'

/-- A blank, a line break or the end of the text. -/
def isGapNoTab (c : Char) : Bool := c == ' ' || isLineEnd c

/-- A blank, a tab, a line break or the end of the text. -/
def isGap (c : Char) : Bool := c == '\t' || isGapNoTab c

/-- Letters, digits, hyphen and underscore, of which names are made. -/
def isNameChar (c : Char) : Bool := c.isAlphanum || c == '-' || c == '_'

def isHexDigit (c : Char) : Bool :=
  c.isDigit || ('a' ≤ c && c ≤ 'f') || ('A' ≤ c && c ≤ 'F')

/-- The value of a hexadecimal digit. -/
def hexDigitValue (c : Char) : Nat :=
  if c.isDigit then c.toNat - 48 else if 'a' ≤ c then c.toNat - 87 else c.toNat - 55

/-- The value of a row of hexadecimal digits. -/
def hexValue (digits : List Char) : Nat :=
  digits.foldl (fun n c => n * 16 + hexDigitValue c) 0

namespace Cursor

def ofText (text : List Char) : Cursor := ⟨text, 0, 0, 0⟩

/-- The character `n` places ahead. -/
def peek (c : Cursor) (n : Nat := 0) : Char := (c.rest.drop n).headD '\x00'

/-- The cursor after one character. A carriage return ends a line only without a line feed, and a
byte order mark takes no column. -/
def step (c : Cursor) : Cursor :=
  match c.rest with
  | [] => c
  | ch :: rest =>
    if (isBreak ch && ch != '\r') || (ch == '\r' && rest.head? != some '\n') then
      ⟨rest, c.index + 1, c.line + 1, 0⟩
    else ⟨rest, c.index + 1, c.line, if ch.toNat = 0xFEFF then c.column else c.column + 1⟩

/-- The cursor after `n` characters. -/
def forward (c : Cursor) : Nat → Cursor
  | 0 => c
  | n + 1 => c.step.forward n

/-- Characters from the cursor on that satisfy a test. -/
def run (c : Cursor) (test : Char → Bool) : List Char := c.rest.takeWhile test

/-- The cursor after all characters from it on that satisfy a test. -/
def skip (c : Cursor) (test : Char → Bool) : Cursor := c.forward (c.run test).length

def skipSpaces (c : Cursor) : Cursor := c.skip (· == ' ')

/-- The cursor after a comment, if one starts here. -/
def skipComment (c : Cursor) : Cursor :=
  if c.peek == '#' then c.skip (fun ch => !isLineEnd ch) else c

/-- A line break at the cursor as the text it stands for, and the cursor after it. The separators
of lines and paragraphs stand for themselves, all other breaks for a line feed. -/
def lineBreak? (c : Cursor) : Option (Char × Cursor) :=
  match c.rest with
  | '\r' :: '\n' :: _ => some ('\n', c.forward 2)
  | ch :: _ =>
    if ch == '\r' || ch == '\n' || ch.toNat == 0x85 then some ('\n', c.step)
    else if isBreak ch then some (ch, c.step)
    else none
  | [] => none

/-- Whether a marker of the start or end of a document stands at the cursor. -/
def atDocumentMarker (c : Cursor) : Bool :=
  (c.rest.take 3 == ['-', '-', '-'] || c.rest.take 3 == ['.', '.', '.']) && isGap (c.peek 3)

/-- The cursor after the rest of a line that may hold nothing but a comment. -/
def finishLine (c : Cursor) : Except ReadFault Cursor :=
  let after := c.skipSpaces.skipComment
  if isLineEnd after.peek then .ok ((after.lineBreak?.map Prod.snd).getD after)
  else .error .malformed

end Cursor

end Yaml

end MemberOrder
