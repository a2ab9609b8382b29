import MemberOrder.Yaml.Cursor
import MemberOrder.Yaml.Resolve

/-!
# The written form of a scalar

A text is looked through once for what its characters allow. From that follows the plainest form
that reads back: without quotes, in single quotes, as a block, or in double quotes.
-/

namespace MemberOrder

namespace Yaml

/-- What the characters of a text allow. -/
structure TextTraits where
  empty : Bool
  multiline : Bool
  plain : Bool
  singleQuoted : Bool
  block : Bool
deriving DecidableEq, Repr

/-- Line breaks that a written text may keep; a carriage return is not among them. -/
def isWrittenBreak (c : Char) : Bool :=
  c == '\n' || c.toNat == 0x85 || c.toNat == 0x2028 || c.toNat == 0x2029

/-- Characters beyond ASCII that a text may show as themselves. -/
def isWideChar (c : Char) : Bool :=
  let code := c.toNat
  (code == 0x85 || (0xA0 ≤ code && code ≤ 0xD7FF) || (0xE000 ≤ code && code ≤ 0xFFFD) ||
    (0x10000 ≤ code && code < 0x10FFFF)) && code != 0xFEFF

/-- Whether a character can only be written as an escape. -/
def isSpecial (wide : Bool) (c : Char) : Bool :=
  !(c == '\n' || (' ' ≤ c && c ≤ '~')) && !(wide && isWideChar c)

/-- A character with its neighbours; past the ends of the text stand null characters. -/
structure Neighbours where
  before : Char
  here : Char
  after : Char

/-- The characters of a text after the first, with their neighbours. -/
def neighboursFrom (before : Char) : List Char → List Neighbours
  | [] => []
  | c :: rest => ⟨before, c, rest.headD '\x00'⟩ :: neighboursFrom c rest

/-- Whether a first character would be taken for an indicator. -/
def startsIndicator (first after : Char) : Bool :=
  "#,[]\x7b\x7d&*!|>'\"%@\x60".toList.contains first ||
    ((first == '?' || first == ':' || first == '-') && isGap after)

/-- Whether a later character would be taken for an indicator. -/
def isIndicator (n : Neighbours) : Bool :=
  (n.here == ':' && isGap n.after) || (n.here == '#' && isGap n.before)

/-- The traits of a text. `wide` lets characters beyond ASCII show as themselves. -/
def TextTraits.of (wide : Bool) (text : List Char) : TextTraits :=
  match text with
  | [] => ⟨true, false, true, true, false⟩
  | first :: rest =>
    let later := neighboursFrom first rest
    let marker := ["---".toList, "...".toList].contains (text.take 3)
    let indicators := marker || startsIndicator first (rest.headD '\x00') || later.any isIndicator
    let multiline := text.any isWrittenBreak
    let special := text.any (isSpecial wide)
    let last := text.getLast?.getD '\x00'
    let edges := first == ' ' || isWrittenBreak first || last == ' ' || isWrittenBreak last
    let breakSpace := later.any fun n => isWrittenBreak n.before && n.here == ' '
    let spaceBreak := later.any fun n => n.before == ' ' && isWrittenBreak n.here
    let needsEscapes := spaceBreak || special
    { empty := false
      multiline
      plain := !(edges || breakSpace || needsEscapes || multiline || indicators)
      singleQuoted := !(breakSpace || needsEscapes)
      block := !(last == ' ' || needsEscapes) }

/-- The written forms of a scalar. -/
inductive ScalarStyle
  | plain
  | singleQuoted
  | doubleQuoted
  | literal
deriving DecidableEq, Repr

/-- The form of a scalar. A key on one line may be neither empty without quotes nor of several
lines. -/
def ScalarStyle.choose (traits : TextTraits) (tag : NodeTag) (text : String) (simpleKey : Bool) :
    ScalarStyle :=
  if tag = .binary then
    if !simpleKey && traits.block then .literal else .doubleQuoted
  else if implicitTag text = tag && traits.plain &&
      !(simpleKey && (traits.empty || traits.multiline)) then .plain
  else if traits.singleQuoted && !(simpleKey && traits.multiline) then .singleQuoted
  else .doubleQuoted

end Yaml

end MemberOrder
