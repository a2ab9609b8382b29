import MemberOrder.Number.Shortest
import MemberOrder.Number.Whole
import MemberOrder.Text.Printable
import MemberOrder.Value.Basic

/-!
# The literal text of a value

Messages show a value as a literal: texts in quotes with escapes, collections in brackets. A text
is quoted by apostrophes unless it holds an apostrophe and no quotation mark.
-/

namespace MemberOrder

namespace Value

/-- The quote around a text. -/
def quoteFor (text : List Char) : Char :=
  if text.contains '\'' && !text.contains '"' then '"' else '\''

/-- A number in hexadecimal with a least number of places. -/
def hexText (places n : Nat) : List Char :=
  let figures := Nat.toDigits 16 n
  List.replicate (places - figures.length) '0' ++ figures

/-- The escape of a character by its code point, in the shortest of the three lengths. -/
def codeEscape (c : Char) : List Char :=
  if c.toNat ≤ 0xFF then ['\\', 'x'] ++ hexText 2 c.toNat
  else if c.toNat ≤ 0xFFFF then ['\\', 'u'] ++ hexText 4 c.toNat
  else ['\\', 'U'] ++ hexText 8 c.toNat

/-- One character of a quoted text. -/
def escapeChar (quote : Char) (printable : Char → Bool) (c : Char) : List Char :=
  if c = quote ∨ c = '\\' then ['\\', c]
  else if c = '\t' then ['\\', 't']
  else if c = '\n' then ['\\', 'n']
  else if c = '\r' then ['\\', 'r']
  else if printable c then [c]
  else codeEscape c

/-- A text in quotes. -/
def quoted (printable : Char → Bool) (text : List Char) : String :=
  let quote := quoteFor text
  String.ofList (quote :: text.flatMap (escapeChar quote printable) ++ [quote])

/-- A text in quotes, with characters of all scripts shown as themselves. -/
def quotedText (text : String) : String :=
  quoted Text.isPrintable text.toList

/-- Octets in quotes, the visible ones of ASCII shown as characters. -/
def quotedOctets (octets : List UInt8) : String :=
  "b" ++ quoted (fun c => 0x20 ≤ c.toNat && c.toNat < 0x7F)
    (octets.map fun octet => Char.ofNat octet.toNat)

/-- The literal of a date. -/
def dateLiteral (d : Date) : String :=
  "datetime.date(" ++ String.intercalate ", " ([d.year, d.month, d.day].map toString) ++ ")"

/-- The literal of an offset from universal time. -/
def offsetLiteral (seconds : Int) : String :=
  if seconds = 0 then "datetime.timezone.utc"
  else "datetime.timezone(" ++ intervalText seconds ++ ")"

/-- The literal of a moment, without closing zero seconds. -/
def momentLiteral (m : Moment) : String :=
  let clock := if m.micro ≠ 0 then [m.second, m.micro] else if m.second ≠ 0 then [m.second] else []
  let parts := [m.date.year, m.date.month, m.date.day, m.hour, m.minute] ++ clock
  "datetime.datetime(" ++ String.intercalate ", " (parts.map toString) ++
    (m.offset.map fun seconds => ", tzinfo=" ++ offsetLiteral seconds).getD "" ++ ")"

/-- The word for a truth value. -/
def boolText (b : Bool) : String := if b then "True" else "False"

mutual

/-- The literal of a value inside the collections with the marks `path`; one of these within itself
is only hinted at. -/
def literalIn (path : List Nat) : Value → String
  | .null => "None"
  | .bool b => boolText b
  | .int n => toString n
  | .float x => x.text .plain
  | .str s => quotedText s
  | .bytes octets => quotedOctets octets
  | .date _ d => dateLiteral d
  | .moment _ m => momentLiteral m
  | .list mark items =>
    if mark.any path.contains then "[...]"
    else "[" ++ String.intercalate ", " (literalsIn (mark.toList ++ path) items) ++ "]"
  | .pair first second => "(" ++ literalIn path first ++ ", " ++ literalIn path second ++ ")"
  | .set _ items =>
    if items.isEmpty then "set()"
    else "\x7b" ++ String.intercalate ", " (literalsIn path items) ++ "\x7d"
  | .map mark entries =>
    if mark.any path.contains then "\x7b...\x7d"
    else
      "\x7b" ++ String.intercalate ", " (entryLiteralsIn (mark.toList ++ path) entries) ++ "\x7d"
  | .back _ keyed => if keyed then "\x7b...\x7d" else "[...]"

def literalsIn (path : List Nat) : List Value → List String
  | [] => []
  | item :: rest => literalIn path item :: literalsIn path rest

def entryLiteralsIn (path : List Nat) : List (Value × Value) → List String
  | [] => []
  | (key, value) :: rest =>
    (literalIn path key ++ ": " ++ literalIn path value) :: entryLiteralsIn path rest

end

/-- The literal of a value. -/
def literal (value : Value) : String := literalIn [] value

/-- The plain text of a value: its literal, but texts and dates without quotes. -/
def display : Value → String
  | .str s => s
  | .date _ d => d.text
  | .moment _ m => m.text
  | value => value.literal

/-- The literal of a list of texts. -/
def listLiteral (texts : List String) : String :=
  "[" ++ String.intercalate ", " (texts.map quotedText) ++ "]"

end Value

/-- Why a text is no whole number, in words. -/
def Number.WholeFault.message : Number.WholeFault → String
  | .notWhole base text =>
    "invalid literal for int() with base " ++ toString base ++ ": " ++
      String.ofList ((Value.quotedText text).toList.take 200)
  | .tooManyDigits count =>
    "Exceeds the limit (4300 digits) for integer string conversion: value has " ++
      toString count ++ " digits; use sys.set_int_max_str_digits() to increase the limit"

end MemberOrder
