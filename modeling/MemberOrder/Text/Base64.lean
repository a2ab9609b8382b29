/-!
# Base 64

Octets as text in the standard alphabet of sixty-four characters, in lines of seventy-six. Reading
skips characters outside the alphabet and stops where padding completes a group of four.
-/

namespace MemberOrder

namespace Text

/-- The character for a value below sixty-four. -/
def base64Char (value : Nat) : Char :=
  if value < 26 then Char.ofNat (65 + value)
  else if value < 52 then Char.ofNat (71 + value)
  else if value < 62 then Char.ofNat (value - 4)
  else if value = 62 then '+' else '/'

/-- The value of a character of the alphabet. -/
def base64Value? (c : Char) : Option Nat :=
  if c.isUpper then some (c.toNat - 65)
  else if c.isLower then some (c.toNat - 71)
  else if c.isDigit then some (c.toNat + 4)
  else if c = '+' then some 62
  else if c = '/' then some 63
  else none

/-- Octets as groups of four characters. -/
def base64Groups : List UInt8 → List Char
  | [] => []
  | [a] => [base64Char (a.toNat / 4), base64Char (a.toNat % 4 * 16), '=', '=']
  | [a, b] =>
    [base64Char (a.toNat / 4), base64Char (a.toNat % 4 * 16 + b.toNat / 16),
      base64Char (b.toNat % 16 * 4), '=']
  | a :: b :: c :: rest =>
    base64Char (a.toNat / 4) :: base64Char (a.toNat % 4 * 16 + b.toNat / 16) ::
      base64Char (b.toNat % 16 * 4 + c.toNat / 64) :: base64Char (c.toNat % 64) ::
      base64Groups rest

/-- A text in lines of seventy-six characters, each with its break. -/
def base64Lines : Nat → List Char → List Char
  | 0, _ => []
  | _, [] => []
  | fuel + 1, text => text.take 76 ++ '\n' :: base64Lines fuel (text.drop 76)

def encodeBase64 (octets : List UInt8) : String :=
  let groups := base64Groups octets
  String.ofList (base64Lines groups.length groups)

/-- The octets of a text; `held` are the values of the group that is being read, latest first, and
`pads` counts the padding just before. A group that stays incomplete has no octets. -/
def decodeBase64From (held : List Nat) (pads : Nat) : List Char → Option (List UInt8)
  | [] => if held.isEmpty then some [] else none
  | '=' :: rest =>
    if 2 ≤ held.length then
      if 4 ≤ held.length + pads + 1 then
        some (match held with
          | [c, b, a] => [UInt8.ofNat (a * 4 + b / 16), UInt8.ofNat (b % 16 * 16 + c / 4)]
          | [b, a] => [UInt8.ofNat (a * 4 + b / 16)]
          | _ => [])
      else decodeBase64From held (pads + 1) rest
    else decodeBase64From held pads rest
  | ch :: rest =>
    match base64Value? ch, held with
    | none, _ => decodeBase64From held pads rest
    | some d, [c, b, a] => do
      let octets ← decodeBase64From [] 0 rest
      return UInt8.ofNat (a * 4 + b / 16) :: UInt8.ofNat (b % 16 * 16 + c / 4) ::
        UInt8.ofNat (c % 4 * 64 + d) :: octets
    | some value, _ => decodeBase64From (value :: held) 0 rest

def decodeBase64? (text : List Char) : Option (List UInt8) :=
  decodeBase64From [] 0 text

end Text

end MemberOrder
