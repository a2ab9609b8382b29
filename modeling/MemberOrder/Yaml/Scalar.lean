import MemberOrder.Number.Fraction
import MemberOrder.Text.Base64
import MemberOrder.Text.Lowercase
import MemberOrder.Value.Literal
import MemberOrder.Yaml.Resolve

/-!
# The values of YAML scalars

The value that a scalar has under its tag. A tag may be written on a text that does not fit it, and
then each tag fails in its own way.
-/

namespace MemberOrder

namespace Yaml

/-- Why a text has no value. -/
inductive Fault
  /-- The text breaks the rules of the format or of a tag. -/
  | malformed
  /-- A date or time that does not exist. -/
  | calendar (fault : CalendarFault)
  | whole (fault : Number.WholeFault)
  | fraction (text : String)
  /-- An escape names a code point above the last one. -/
  | codePoint (code : Nat)
  /-- A truth value that is no word for one. -/
  | unknownWord
  /-- A number without a character. -/
  | emptyNumber
  /-- A time that is not written as one. -/
  | notTime
  /-- A mapping in place of the text of a time. -/
  | notText
  /-- A group of sixty has a weight beyond all fractions. -/
  | tooGreat
  /-- A mapping lends itself as its text. -/
  | endless
deriving DecidableEq, Repr

/-- The truth value of a word in any case. -/
def boolOf (text : String) : Except Fault Bool :=
  let word := Text.lowercase text
  if ["yes", "true", "on"].contains word then .ok true
  else if ["no", "false", "off"].contains word then .ok false
  else .error .unknownWord

def wholeOf (base : Nat) (text : List Char) : Except Fault Int :=
  match Number.parseWhole base (String.ofList text) with
  | .ok n => .ok n
  | .error fault => .error (.whole fault)

def fractionOf (text : List Char) : Except Fault Number.Binary64 :=
  match Number.parseFraction? (String.ofList text) with
  | some x => .ok x
  | none => .error (.fraction (String.ofList text))

/-- A number without underscores and sign, and whether the sign was a minus. -/
def bareNumber (text : List Char) : Except Fault (Bool × List Char) :=
  match text.filter (· != '_') with
  | [] => .error .emptyNumber
  | '-' :: rest => .ok (true, rest)
  | '+' :: rest => .ok (false, rest)
  | rest => .ok (false, rest)

/-- A whole number without its sign: in base two, sixteen or eight by its first characters, in
groups of sixty, or decimal. -/
def unsignedInt (text : List Char) : Except Fault Int :=
  match text with
  | [] => .error .emptyNumber
  | ['0'] => .ok 0
  | '0' :: 'b' :: rest => wholeOf 2 rest
  | '0' :: 'x' :: rest => wholeOf 16 rest
  | '0' :: _ => wholeOf 8 text
  | _ =>
    if text.contains ':' then do
      let groups ← (Text.piecesBetween ':' text).mapM (wholeOf 10)
      return groups.foldl (fun n group => n * 60 + group) 0
    else wholeOf 10 text

def intOf (text : String) : Except Fault Int := do
  let (negative, unsigned) ← bareNumber text.toList
  let n ← unsignedInt unsigned
  return if negative then -n else n

/-- Groups of sixty as one number, from the last group on, each weighted by the next power. Every
weight has to be a finite fraction. -/
def sixties (groups : List Number.Binary64) : Except Fault Number.Binary64 :=
  let greatest := Nat.pow 60 (groups.length - 1)
  if (Number.Binary64.ofRatio false greatest 1).isInfinite then .error .tooGreat
  else
    .ok (groups.reverse.foldl (fun (total, base) group =>
      (total.add (group.mul (.ofRatio false base 1)), base * 60))
      (Number.Binary64.zero false, 1)).1

/-- A text without underscores, in small letters. -/
def looseFraction (text : String) : List Char :=
  (Text.lowercase (String.ofList (text.toList.filter (· != '_')))).toList

/-- Whether a text is the word for what is no number. -/
def isNoNumberWord (text : String) : Bool :=
  match bareNumber (looseFraction text) with
  | .ok (_, unsigned) => unsigned == ".nan".toList
  | .error _ => false

def floatOf (text : String) : Except Fault Number.Binary64 := do
  let (negative, unsigned) ← bareNumber (looseFraction text)
  if unsigned = ".inf".toList then return .infinity negative
  if unsigned = ".nan".toList then return .nan
  let x ← if unsigned.contains ':' then do
      sixties (← (Text.piecesBetween ':' unsigned).mapM fractionOf)
    else fractionOf unsigned
  return if negative then x.negate else x

/-- The octets of a text in base 64. -/
def binaryOf (text : String) : Except Fault (List UInt8) :=
  if text.toList.all (·.toNat < 0x80) then
    match Text.decodeBase64? text.toList with
    | some octets => .ok octets
    | none => .error .malformed
  else .error .malformed

/-- The number of a row of decimal digits. -/
def figure (digits : List Char) : Nat := digits.foldl (fun n c => n * 10 + (c.toNat - 48)) 0

/-- The microseconds of a fraction of a second; further places are cut off. -/
def microsOf (fraction : List Char) : Nat :=
  figure ((fraction ++ List.replicate 6 '0').take 6)

/-- The offset from universal time in seconds. -/
def offsetSeconds : Option Char × List Char × List Char → Int
  | (none, _, _) => 0
  | (some sign, hours, minutes) =>
    let seconds : Int := figure hours * 3600 + figure minutes * 60
    if sign = '-' then -seconds else seconds

/-- The date or time of a text that is written as one. -/
def timestampOf (text : String) : Except Fault Value :=
  match writtenTime? (dropFinalBreak text.toList) with
  | none => .error .notTime
  | some time =>
    let day : Date := ⟨figure time.year, figure time.month, figure time.day⟩
    match time.clock with
    | none =>
      match day.fault? with
      | some fault => .error (.calendar fault)
      | none => .ok (.date none day)
    | some (hour, minute, second, fraction) =>
      let moment : Moment := ⟨day, figure hour, figure minute, figure second, microsOf fraction,
        time.offset.map offsetSeconds⟩
      match moment.fault? with
      | some fault => .error (.calendar fault)
      | none => .ok (.moment none moment)

/-- The value of a scalar, for the tags that scalars have. -/
def scalarValue (tag : NodeTag) (text : String) : Except Fault Value :=
  match tag with
  | .null => .ok .null
  | .bool => Value.bool <$> boolOf text
  | .int => Value.int <$> intOf text
  | .float => Value.float <$> floatOf text
  | .binary => Value.bytes <$> binaryOf text
  | .timestamp => timestampOf text
  | .str => .ok (.str text)
  | _ => .error .malformed

/-- The wording of the faults that are said in words. -/
def Fault.message : Fault → String
  | .calendar fault => fault.message
  | .whole fault => fault.message
  | .fraction text => "could not convert string to float: " ++ Value.quotedText text
  | .codePoint _ => "chr() arg not in range(0x110000)"
  | _ => ""

end Yaml

end MemberOrder
