import MemberOrder.Number.Whole
import MemberOrder.Text.Utf8
import MemberOrder.Yaml.ScalarText

/-!
# Tokens of YAML text

A text is cut into tokens from left to right. Collections written by indentation get tokens for
their start and end, and a key that is known as one only when its colon is met gets its token
inserted where the key began. `tokens` gives the tokens that are settled before the first fault,
with the fault.
-/

namespace MemberOrder

namespace Yaml

/-- A tag as written: a handle, unless the tag is verbatim, and a suffix. -/
structure WrittenTag where
  handle : Option String
  suffix : String
deriving DecidableEq, Repr

inductive Directive
  | version (major minor : Nat)
  | handle (name expansion : String)
  | other
deriving DecidableEq, Repr

inductive Token
  | directive (content : Directive)
  | documentStart
  | documentEnd
  | blockSequenceStart
  | blockMappingStart
  | blockEnd
  | flowSequenceStart
  | flowSequenceEnd
  | flowMappingStart
  | flowMappingEnd
  | blockEntry
  | flowEntry
  | key
  | value
  | alias (name : String)
  | anchor (name : String)
  | tag (content : WrittenTag)
  | scalar (text : String) (plain : Bool)
  | streamEnd
deriving DecidableEq, Repr

/-! ### Names, tags and directives -/

/-- The name of an anchor or alias; the cursor stands after its indicator. -/
def readAnchorName (c : Cursor) : Except ReadFault (String × Cursor) :=
  let name := c.run isNameChar
  let after := c.forward name.length
  if name.isEmpty || !(isGap after.peek || "?:,]\x7d%@\x60".toList.contains after.peek) then
    .error .malformed
  else .ok (String.ofList name, after)

/-- The octets of a row of percent escapes. -/
def readOctets : Nat → Cursor → Except ReadFault (List UInt8 × Cursor)
  | 0, c => .ok ([], c)
  | fuel + 1, c =>
    if c.peek == '%' then
      let digits := c.step.rest.take 2
      if digits.length = 2 ∧ digits.all isHexDigit then do
        let (octets, after) ← readOctets fuel (c.forward 3)
        return (UInt8.ofNat (hexValue digits) :: octets, after)
      else .error .malformed
    else .ok ([], c)

/-- Characters that stand for themselves in a tag. -/
def isTagChar (c : Char) : Bool := c.isAlphanum || "-;/?:@&=+$,_.!~*'()[]".toList.contains c

/-- The characters of a tag, with its percent escapes replaced by what they stand for. -/
def readTagText : Nat → Cursor → Except ReadFault (List Char × Cursor)
  | 0, c => .ok ([], c)
  | fuel + 1, c =>
    if isTagChar c.peek then do
      let (text, after) ← readTagText fuel c.step
      return (c.peek :: text, after)
    else if c.peek == '%' then do
      let (octets, next) ← readOctets c.rest.length c
      match Text.decodeUtf8? octets with
      | none => throw .malformed
      | some chars => do
        let (text, after) ← readTagText fuel next
        return (chars ++ text, after)
    else .ok ([], c)

/-- A tag's text, which may not be empty. -/
def readTagSuffix (c : Cursor) : Except ReadFault (String × Cursor) :=
  let start := c.peek
  if isTagChar start || start == '%' then do
    let (text, after) ← readTagText c.rest.length c
    return (String.ofList text, after)
  else .error .malformed

/-- A tag handle: one exclamation mark, or two around a name. -/
def readTagHandle (c : Cursor) : Except ReadFault (String × Cursor) :=
  if c.peek != '!' then .error .malformed
  else
    let name := c.step.run isNameChar
    let after := c.forward (1 + name.length)
    if c.peek 1 == ' ' then .ok ("!", c.step)
    else if after.peek == '!' then .ok ("!" ++ String.ofList name ++ "!", after.step)
    else .error .malformed

/-- A tag in front of a node. -/
def readTag (c : Cursor) : Except ReadFault (WrittenTag × Cursor) := do
  let (tag, after) ←
    if c.peek 1 == '<' then do
      let (suffix, after) ← readTagSuffix (c.forward 2)
      if after.peek == '>' then pure (WrittenTag.mk none suffix, after.step) else throw .malformed
    else if isGap (c.peek 1) then pure (WrittenTag.mk none "!", c.step)
    else do
      let ahead := c.step.run fun ch => !isGapNoTab ch && ch != '!'
      let hasHandle := c.peek (1 + ahead.length) == '!'
      let (handle, next) ← if hasHandle then readTagHandle c else pure ("!", c.step)
      let (suffix, after) ← readTagSuffix next
      pure (WrittenTag.mk (some handle) suffix, after)
  if isGapNoTab after.peek then return (tag, after) else throw .malformed

/-- A number of a version directive. -/
def readVersionNumber (c : Cursor) : Except ReadFault (Nat × Cursor) :=
  let digits := c.run Char.isDigit
  if digits.isEmpty then .error .malformed
  else if Number.digitLimit < digits.length then .error (.tooManyDigits digits.length)
  else .ok (digits.foldl (fun n d => n * 10 + (d.toNat - 48)) 0, c.forward digits.length)

/-- What follows the name of a directive. -/
def readDirectiveValue (name : String) (c : Cursor) : Except ReadFault (Directive × Cursor) :=
  if name == "YAML" then do
    let (major, c) ← readVersionNumber c.skipSpaces
    if c.peek != '.' then throw .malformed
    let (minor, c) ← readVersionNumber c.step
    if isGapNoTab c.peek then return (.version major minor, c) else throw .malformed
  else if name == "TAG" then do
    let (handle, c) ← readTagHandle c.skipSpaces
    if c.peek != ' ' then throw .malformed
    let (expansion, c) ← readTagSuffix c.skipSpaces
    if isGapNoTab c.peek then return (.handle handle expansion, c) else throw .malformed
  else .ok (.other, c.skip fun ch => !isLineEnd ch)

/-- A directive line, from its indicator on. -/
def readDirective (c : Cursor) : Except ReadFault (Directive × Cursor) := do
  let name := c.step.run isNameChar
  let c := c.forward (1 + name.length)
  if name.isEmpty || !isGapNoTab c.peek then throw .malformed
  let (content, c) ← readDirectiveValue (String.ofList name) c
  return (content, ← c.finishLine)

/-! ### The state between tokens -/

/-- A place where a key may have begun. -/
structure KeyStart where
  /-- The number of tokens before it. -/
  position : Nat
  /-- Whether nothing but a key can stand there. -/
  required : Bool
  index : Nat
  line : Nat
  column : Nat

/-- Everything that the next token depends on. -/
structure Scan where
  cursor : Cursor
  flowLevel : Nat
  /-- The column of the innermost block collection, `-1` outside of all. -/
  indent : Int
  /-- The columns around it, innermost first. -/
  outerIndents : List Int
  /-- Whether a key without an indicator may begin here. -/
  keyAllowed : Bool
  /-- Where a key may have begun, by the nesting of flow collections. -/
  keyStarts : List (Nat × KeyStart)
  tokens : Array Token

/-- A step of reading tokens. -/
abbrev Step := Scan → Except ReadFault Scan

namespace Scan

def ofText (text : List Char) : Scan := ⟨.ofText text, 0, -1, [], true, [], #[]⟩

def push (s : Scan) (token : Token) : Scan := { s with tokens := s.tokens.push token }

def insertAt (s : Scan) (position : Nat) (token : Token) : Scan :=
  { s with tokens := s.tokens.toList.insertIdx position token |>.toArray }

/-- Blanks, comments and line breaks before the next token; a line break outside flow collections
allows a key. -/
def skipGaps : Nat → Scan → Scan
  | 0, s => s
  | fuel + 1, s =>
    let c := s.cursor.skipSpaces.skipComment
    match c.lineBreak? with
    | some (_, after) =>
      skipGaps fuel { s with cursor := after, keyAllowed := s.keyAllowed || s.flowLevel == 0 }
    | none => { s with cursor := c }

/-- Whether a key that began at a place can no longer end here. -/
def isStale (s : Scan) (start : KeyStart) : Bool :=
  start.line != s.cursor.line || 1024 < s.cursor.index - start.index

/-- Forgets the key starts that are out of reach. -/
def dropStale : Step := fun s =>
  if s.keyStarts.any fun (_, start) => s.isStale start && start.required then .error .malformed
  else .ok { s with keyStarts := s.keyStarts.filter fun (_, start) => !s.isStale start }

/-- Forgets the key start of the innermost flow collection. -/
def dropKeyStart : Step := fun s =>
  match s.keyStarts.lookup s.flowLevel with
  | none => .ok s
  | some start =>
    if start.required then .error .malformed
    else .ok { s with keyStarts := s.keyStarts.filter fun (level, _) => level != s.flowLevel }

/-- Notes that a key may begin here. -/
def noteKeyStart : Step := fun s =>
  if s.keyAllowed then do
    let required := s.flowLevel == 0 && s.indent == s.cursor.column
    let s ← s.dropKeyStart
    let c := s.cursor
    let start := KeyStart.mk s.tokens.size required c.index c.line c.column
    return { s with keyStarts := (s.flowLevel, start) :: s.keyStarts }
  else .ok s

/-- Ends the block collections that are indented further than a column. -/
def closeBlocks (column : Int) : List Int → Scan → Scan
  | [], s => s
  | outer :: rest, s =>
    if column < s.indent then
      closeBlocks column rest { s with
        indent := outer, outerIndents := rest, tokens := s.tokens.push .blockEnd }
    else s

def unwind (s : Scan) (column : Int) : Scan :=
  if s.flowLevel = 0 then closeBlocks column s.outerIndents s else s

/-- Opens a block collection at a column, if that is further in than the innermost one. -/
def openBlock (s : Scan) (column : Nat) (position : Nat) (token : Token) : Scan :=
  if s.indent < column then
    { s.insertAt position token with
      indent := column, outerIndents := s.indent :: s.outerIndents }
  else s

def disallowKey (s : Scan) : Scan := { s with keyAllowed := false }

def forward (s : Scan) (n : Nat) : Scan := { s with cursor := s.cursor.forward n }

/-! ### One token -/

def fetchStreamEnd : Step := fun s => do
  let s ← (s.unwind (-1)).dropKeyStart
  return ({ s with keyAllowed := false, keyStarts := [] }).push .streamEnd

def fetchDirective : Step := fun s => do
  let s ← (s.unwind (-1)).dropKeyStart
  let (content, after) ← readDirective s.cursor
  return ({ s with keyAllowed := false, cursor := after }).push (.directive content)

def fetchDocumentMarker (token : Token) : Step := fun s => do
  let s ← (s.unwind (-1)).dropKeyStart
  return (s.disallowKey.forward 3).push token

def fetchFlowStart (token : Token) : Step := fun s => do
  let s ← s.noteKeyStart
  return ({ s with flowLevel := s.flowLevel + 1, keyAllowed := true }.forward 1).push token

def fetchFlowEnd (token : Token) : Step := fun s => do
  let s ← s.dropKeyStart
  return ({ s with flowLevel := s.flowLevel - 1, keyAllowed := false }.forward 1).push token

def fetchFlowEntry : Step := fun s => do
  let s ← { s with keyAllowed := true }.dropKeyStart
  return (s.forward 1).push .flowEntry

/-- Opens a block collection for an indicator at the cursor, where one may begin. -/
def openForIndicator (token : Token) : Step := fun s =>
  if s.flowLevel ≠ 0 then .ok s
  else if s.keyAllowed then .ok (s.openBlock s.cursor.column s.tokens.size token)
  else .error .malformed

def fetchBlockEntry : Step := fun s => do
  let s ← s.openForIndicator .blockSequenceStart
  let s ← { s with keyAllowed := true }.dropKeyStart
  return (s.forward 1).push .blockEntry

def fetchKey : Step := fun s => do
  let s ← s.openForIndicator .blockMappingStart
  let s ← { s with keyAllowed := s.flowLevel == 0 }.dropKeyStart
  return (s.forward 1).push .key

/-- A colon: the key may have begun earlier, and then its tokens go there. -/
def fetchValue : Step := fun s =>
  match s.keyStarts.lookup s.flowLevel with
  | some start =>
    let s := { s with keyStarts := s.keyStarts.filter fun (level, _) => level != s.flowLevel }
    let s := s.insertAt start.position .key
    let s := if s.flowLevel = 0 then
        s.openBlock start.column start.position .blockMappingStart
      else s
    .ok ((s.disallowKey.forward 1).push .value)
  | none => do
    let s ← s.openForIndicator .blockMappingStart
    let s ← { s with keyAllowed := s.flowLevel == 0 }.dropKeyStart
    return (s.forward 1).push .value

def fetchAnchor (token : String → Token) : Step := fun s => do
  let s ← s.noteKeyStart
  let (name, after) ← readAnchorName s.cursor.step
  return ({ s with keyAllowed := false, cursor := after }).push (token name)

def fetchTag : Step := fun s => do
  let s ← s.noteKeyStart
  let (tag, after) ← readTag s.cursor
  return ({ s with keyAllowed := false, cursor := after }).push (.tag tag)

def fetchBlockScalar (folded : Bool) : Step := fun s => do
  let s ← { s with keyAllowed := true }.dropKeyStart
  let (text, after) ← readBlock folded s.indent s.cursor
  return ({ s with cursor := after }).push (.scalar (String.ofList text) false)

def fetchQuoted (double : Bool) : Step := fun s => do
  let s ← s.noteKeyStart
  let (text, after) ← readQuoted double s.cursor
  return ({ s with keyAllowed := false, cursor := after }).push
    (.scalar (String.ofList text) false)

def fetchPlain : Step := fun s => do
  let s ← s.noteKeyStart
  let (text, after, broken) := readPlain (s.flowLevel != 0) (s.indent + 1) s.cursor
  return ({ s with keyAllowed := broken, cursor := after }).push
    (.scalar (String.ofList text) true)

/-- Whether a plain scalar may begin at the cursor. -/
def startsPlain (s : Scan) : Bool :=
  let ch := s.cursor.peek
  !(isGap ch || "-?:,[]\x7b\x7d#&*!|>'\"%@\x60".toList.contains ch) ||
    (!isGap (s.cursor.peek 1) && (ch == '-' || (s.flowLevel == 0 && (ch == '?' || ch == ':'))))

/-- The token at the cursor, by its first characters. -/
def fetch : Step := fun s =>
  let c := s.cursor
  let gapFollows := isGap (c.peek 1)
  let inFlow := s.flowLevel != 0
  if c.rest.isEmpty then s.fetchStreamEnd
  else if c.peek == '%' && c.column == 0 then s.fetchDirective
  else if c.peek == '-' && c.column == 0 && c.atDocumentMarker then
    s.fetchDocumentMarker .documentStart
  else if c.peek == '.' && c.column == 0 && c.atDocumentMarker then
    s.fetchDocumentMarker .documentEnd
  else match c.peek with
    | '[' => s.fetchFlowStart .flowSequenceStart
    | '\x7b' => s.fetchFlowStart .flowMappingStart
    | ']' => s.fetchFlowEnd .flowSequenceEnd
    | '\x7d' => s.fetchFlowEnd .flowMappingEnd
    | ',' => s.fetchFlowEntry
    | '*' => s.fetchAnchor .alias
    | '&' => s.fetchAnchor .anchor
    | '!' => s.fetchTag
    | '\'' => s.fetchQuoted false
    | '"' => s.fetchQuoted true
    | ch =>
      if ch == '-' && gapFollows then s.fetchBlockEntry
      else if ch == '?' && (inFlow || gapFollows) then s.fetchKey
      else if ch == ':' && (inFlow || gapFollows) then s.fetchValue
      else if ch == '|' && !inFlow then s.fetchBlockScalar false
      else if ch == '>' && !inFlow then s.fetchBlockScalar true
      else if s.startsPlain then s.fetchPlain
      else .error .malformed

/-- Skips to the next token and reads it. -/
def next : Step := fun s => do
  let s ← (skipGaps (s.cursor.rest.length + 1) s).dropStale
  (s.unwind s.cursor.column).fetch

end Scan

namespace Scan

/-- The tokens in front of every place where a key may still have begun. What comes after such a
place is not settled before more of the text is read. -/
def settled (s : Scan) : Array Token :=
  let open? := s.keyStarts.filter fun (_, start) => !s.isStale start
  s.tokens.take (open?.foldl (fun least (_, start) => min least start.position) s.tokens.size)

end Scan

/-- The settled tokens up to the end of the text or the first fault. -/
def tokensFrom : Nat → Scan → Array Token × Option ReadFault
  | 0, s => (s.settled, some .malformed)
  | fuel + 1, s =>
    match s.next with
    | .error fault => (s.settled, some fault)
    | .ok after =>
      if after.tokens.back? == some .streamEnd then (after.tokens, none) else tokensFrom fuel after

/-- The tokens of a text, and the fault that ended them if one did. -/
def tokens (text : List Char) : Array Token × Option ReadFault :=
  if text.all isReadable then
    let text := match text with
      | '\uFEFF' :: rest => rest
      | text => text
    tokensFrom (text.length + 2) (.ofText text)
  else (#[], some .malformed)

end Yaml

end MemberOrder
