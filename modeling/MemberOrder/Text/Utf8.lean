/-!
# UTF-8

Octets and the characters they encode. Reading refuses overlong forms, surrogates, code points above
the last one and sequences that are cut short.
-/

namespace MemberOrder

namespace Text

/-- The value of a continuation octet. -/
def continuation? (octet : UInt8) : Option Nat :=
  if octet.toNat / 64 = 2 then some (octet.toNat % 64) else none

/-- A code point that needs at least `least`, as a character. -/
def charAbove? (least code : Nat) : Option Char :=
  if least ≤ code ∧ code < 0x110000 ∧ ¬(0xD800 ≤ code ∧ code ≤ 0xDFFF) then some (Char.ofNat code)
  else none

/-- The characters that octets encode, if they encode any. -/
def decodeUtf8? : List UInt8 → Option (List Char)
  | [] => some []
  | a :: rest =>
    let lead := a.toNat
    if lead < 0x80 then (decodeUtf8? rest).map (Char.ofNat lead :: ·)
    else match rest with
      | b :: rest =>
        if 0xC0 ≤ lead ∧ lead < 0xE0 then do
          let ch ← charAbove? 0x80 (lead % 32 * 64 + (← continuation? b))
          return ch :: (← decodeUtf8? rest)
        else match rest with
          | c :: rest =>
            if 0xE0 ≤ lead ∧ lead < 0xF0 then do
              let ch ← charAbove? 0x800
                ((lead % 16 * 64 + (← continuation? b)) * 64 + (← continuation? c))
              return ch :: (← decodeUtf8? rest)
            else match rest with
              | d :: rest =>
                if 0xF0 ≤ lead ∧ lead < 0xF8 then do
                  let ch ← charAbove? 0x10000
                    (((lead % 8 * 64 + (← continuation? b)) * 64 + (← continuation? c)) * 64 +
                      (← continuation? d))
                  return ch :: (← decodeUtf8? rest)
                else none
              | [] => none
          | [] => none
      | [] => none

/-- The octets of one character. -/
def encodeChar (c : Char) : List UInt8 :=
  let code := c.toNat
  let tail (shift : Nat) := UInt8.ofNat (0x80 + code / shift % 64)
  if code < 0x80 then [UInt8.ofNat code]
  else if code < 0x800 then [UInt8.ofNat (0xC0 + code / 64), tail 1]
  else if code < 0x10000 then [UInt8.ofNat (0xE0 + code / 4096), tail 64, tail 1]
  else [UInt8.ofNat (0xF0 + code / 262144), tail 4096, tail 64, tail 1]

/-- The octets of a text. -/
def encodeUtf8 (text : String) : List UInt8 :=
  text.toList.flatMap encodeChar

end Text

end MemberOrder
