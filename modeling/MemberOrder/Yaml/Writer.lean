import MemberOrder.Yaml.Presentation
import MemberOrder.Yaml.ScalarStyle

/-!
# Writing YAML

A pen writes characters and knows its column and whether it stands in a fresh place. Collections are
written by indentation of two, sequences inside mappings without any; a text that runs past column
eighty is broken at its next blank.
-/

namespace MemberOrder

namespace Yaml

/-- What has been written, and where the pen stands. -/
structure Pen where
  /-- The text so far, backwards. -/
  written : List Char
  column : Nat
  /-- Whether the pen stands after a blank. -/
  afterBlank : Bool
  /-- Whether only indentation and indicators stand before the pen on its line. -/
  onlyIndented : Bool
  /-- Whether characters beyond ASCII are written as themselves. -/
  wide : Bool

/-- Columns after which a text is broken. -/
def bestWidth : Nat := 80

/-- Columns of one level of indentation. -/
def bestIndent : Nat := 2

namespace Pen

def start (wide : Bool) : Pen := ⟨[], 0, true, true, wide⟩

/-- Writes characters on the line. -/
def put (pen : Pen) (text : List Char) : Pen :=
  { pen with written := text.reverse ++ pen.written, column := pen.column + text.length }

def lineBreak (pen : Pen) (c : Char := '\n') : Pen :=
  { pen with written := c :: pen.written, column := 0, afterBlank := true, onlyIndented := true }

/-- Writes an indicator, after a blank if it needs one. -/
def indicator (pen : Pen) (text : String) (needsBlank : Bool) (leavesBlank : Bool := false)
    (indents : Bool := false) : Pen :=
  let gap := if pen.afterBlank || !needsBlank then [] else [' ']
  { pen.put (gap ++ text.toList) with
    afterBlank := leavesBlank, onlyIndented := pen.onlyIndented && indents }

/-- Goes to the start of a line with some indentation, on a new line unless it is there already. -/
def indentTo (pen : Pen) (indent : Nat) : Pen :=
  let pen :=
    if !pen.onlyIndented || indent < pen.column || (pen.column == indent && !pen.afterBlank) then
      pen.lineBreak
    else pen
  if pen.column < indent then
    { pen.put (List.replicate (indent - pen.column) ' ') with afterBlank := true }
  else pen

/-- Leaves no blank and no fresh line behind. -/
def inside (pen : Pen) : Pen := { pen with afterBlank := false, onlyIndented := false }

end Pen

/-- A row of equal kind in a text: blanks, line breaks, or neither. -/
inductive Stretch
  | blanks (count : Nat)
  | breaks (chars : List Char)
  | word (chars : List Char)
deriving DecidableEq, Repr

/-- The stretches of a text, in order. -/
def stretches : List Char → List Stretch
  | [] => []
  | c :: rest =>
    match stretches rest with
    | .blanks count :: more => if c = ' ' then .blanks (count + 1) :: more
        else if isWrittenBreak c then .breaks [c] :: .blanks count :: more
        else .word [c] :: .blanks count :: more
    | .breaks chars :: more => if c = ' ' then .blanks 1 :: .breaks chars :: more
        else if isWrittenBreak c then .breaks (c :: chars) :: more
        else .word [c] :: .breaks chars :: more
    | .word chars :: more => if c = ' ' then .blanks 1 :: .word chars :: more
        else if isWrittenBreak c then .breaks [c] :: .word chars :: more
        else .word (c :: chars) :: more
    | [] => if c = ' ' then [.blanks 1] else if isWrittenBreak c then [.breaks [c]] else [.word [c]]

/-- Writes a plain text; a single blank past the best width becomes a line break. -/
def writePlain (indent : Nat) (split : Bool) (text : List Char) (pen : Pen) : Pen :=
  let pen := (if pen.afterBlank || text.isEmpty then pen else pen.put [' ']).inside
  (stretches text).foldl (fun pen stretch =>
    match stretch with
    | .blanks count =>
      if count = 1 ∧ bestWidth < pen.column ∧ split then (pen.indentTo indent).inside
      else pen.put (List.replicate count ' ')
    | .breaks chars => pen.put chars
    | .word chars => pen.put chars) pen

/-- Writes the line breaks inside a quoted text: the first line feed is doubled, as one alone would
read as a blank. -/
def writeBreaks (indent : Nat) (chars : List Char) (pen : Pen) : Pen :=
  let pen := if chars.head? == some '\n' then pen.lineBreak else pen
  (chars.foldl (fun pen c => pen.lineBreak c) pen).indentTo indent

/-- Writes a text in single quotes; `first` tells the start of the text, where it is not broken. -/
def writeSingleQuoted (indent : Nat) (split : Bool) (text : List Char) (pen : Pen) : Pen :=
  let rec go (first : Bool) (pen : Pen) : List Stretch → Pen
    | [] => pen
    | .blanks count :: rest =>
      let pen :=
        if count = 1 ∧ bestWidth < pen.column ∧ split ∧ !first ∧ !rest.isEmpty then
          pen.indentTo indent
        else pen.put (List.replicate count ' ')
      go false pen rest
    | .breaks chars :: rest => go false (writeBreaks indent chars pen) rest
    | .word chars :: rest =>
      go false (pen.put (chars.flatMap fun c => if c = '\'' then ['\'', '\''] else [c])) rest
  (go true (pen.indicator "'" true) (stretches text)).indicator "'" false

/-- The letter of a short escape. -/
def shortEscape? (c : Char) : Option Char :=
  match c.toNat with
  | 0 => some '0'
  | 7 => some 'a'
  | 8 => some 'b'
  | 9 => some 't'
  | 10 => some 'n'
  | 11 => some 'v'
  | 12 => some 'f'
  | 13 => some 'r'
  | 0x1B => some 'e'
  | 0x22 => some '"'
  | 0x5C => some '\\'
  | 0x85 => some 'N'
  | 0xA0 => some '_'
  | 0x2028 => some 'L'
  | 0x2029 => some 'P'
  | _ => none

/-- A code point in capital hexadecimal with a number of places. -/
def hexPlaces (places n : Nat) : List Char :=
  let figures := (Nat.toDigits 16 n).map Char.toUpper
  List.replicate (places - figures.length) '0' ++ figures

/-- The escape of a character in double quotes. -/
def escape (c : Char) : List Char :=
  match shortEscape? c with
  | some letter => ['\\', letter]
  | none =>
    if c.toNat ≤ 0xFF then ['\\', 'x'] ++ hexPlaces 2 c.toNat
    else if c.toNat ≤ 0xFFFF then ['\\', 'u'] ++ hexPlaces 4 c.toNat
    else ['\\', 'U'] ++ hexPlaces 8 c.toNat

/-- Whether a character stands for itself in double quotes. -/
def isVerbatim (wide : Bool) (c : Char) : Bool :=
  let code := c.toNat
  (' ' ≤ c && c ≤ '~' && c != '"' && c != '\\') ||
    (wide && ((0xA0 ≤ code && code ≤ 0xD7FF) || (0xE000 ≤ code && code ≤ 0xFFFD)) &&
      code != 0x2028 && code != 0x2029 && code != 0xFEFF)

/-- Breaks a double-quoted text in front of `rest`: a backslash ends the line, and another one keeps
a blank that would begin the next. -/
def breakDoubleQuoted (indent : Nat) (rest : List Char) (pen : Pen) : Pen :=
  let pen := ((pen.put ['\\']).indentTo indent).inside
  if rest.head? == some ' ' then pen.put ['\\'] else pen

/-- Writes a text in double quotes. Characters that stand for themselves are held back until it is
known whether a break comes before them; `held` are those, backwards, and `first` tells the start of
the text. -/
def writeDoubleQuoted (indent : Nat) (split : Bool) (text : List Char) (pen : Pen) : Pen :=
  let rec go (first : Bool) (held : List Char) (pen : Pen) : List Char → Pen
    | [] => pen.put held.reverse
    | c :: rest =>
      let breakable := split && !first && !rest.isEmpty
      if isVerbatim pen.wide c then
        if breakable && (c == ' ' || held.isEmpty) && bestWidth < pen.column + held.length then
          go false [c] (breakDoubleQuoted indent (c :: rest) (pen.put held.reverse)) rest
        else go false (c :: held) pen rest
      else
        let pen := (pen.put held.reverse).put (escape c)
        if breakable && bestWidth + 1 < pen.column then
          go false [] (breakDoubleQuoted indent rest pen) rest
        else go false [] pen rest
  (go true [] (pen.indicator "\"" true) text).indicator "\"" false

/-- Writes a text of whole lines as a literal block; `line` holds the current line backwards. -/
def writeLiteral (indent : Nat) (text : List Char) (pen : Pen) : Pen :=
  let rec go (line : List Char) (pen : Pen) : List Char → Pen
    | [] => if line.isEmpty then pen else (pen.indentTo indent).put line.reverse
    | c :: rest =>
      if c = '\n' then go [] ((pen.indentTo indent).put line.reverse).lineBreak rest
      else go (c :: line) pen rest
  go [] (pen.indicator "|" true).lineBreak text

/-- The short name of a tag. -/
def tagWord (tag : NodeTag) : String :=
  match NodeTag.known.find? fun (_, known) => known == tag with
  | some (word, _) => "!!" ++ word
  | none => ""

/-- The short name of the tag of pairs. -/
def pairWord : String := "!!python/tuple"

/-- An anchor's name: three places at least. -/
def anchorName (anchor : Nat) : String :=
  let figures := toString anchor
  "id" ++ String.ofList (List.replicate (3 - figures.length) '0') ++ figures

namespace Presented

/-- Characters of an anchor in front of a key. -/
def anchorLength (anchor : Option Nat) : Nat := (anchor.map fun n => (anchorName n).length).getD 0

/-- Whether a node may be a key that is followed by its colon on one line. -/
def isSimpleKey (wide : Bool) : Presented → Bool
  | .alias anchor => (anchorName anchor).length < 128
  | .scalar anchor tag text =>
    let traits := TextTraits.of wide text.toList
    anchorLength anchor + (tagWord tag).length + text.length < 128 && !traits.empty &&
      !traits.multiline
  | .sequence anchor _ items => anchorLength anchor + 5 < 128 && items.isEmpty
  | .mapping anchor _ entries => anchorLength anchor + 5 < 128 && entries.isEmpty

end Presented

/-- Writes the anchor of a node. -/
def writeAnchor (anchor : Option Nat) (pen : Pen) : Pen :=
  match anchor with
  | some n => pen.indicator ("&" ++ anchorName n) true
  | none => pen

/-- Writes a scalar. `outer` is the indentation around it. -/
def writeScalar (outer : Nat) (simpleKey : Bool) (tag : NodeTag) (text : String) (pen : Pen) :
    Pen :=
  let traits := TextTraits.of pen.wide text.toList
  let style := ScalarStyle.choose traits tag text simpleKey
  let pen := if style ≠ .plain ∧ tag ≠ .str then pen.indicator (tagWord tag) true else pen
  let split := !simpleKey
  let indent := outer + bestIndent
  match style with
  | .plain => writePlain indent split text.toList pen
  | .singleQuoted => writeSingleQuoted indent split text.toList pen
  | .doubleQuoted => writeDoubleQuoted indent split text.toList pen
  | .literal => writeLiteral indent text.toList pen

/-- What a node stands in: nothing, a sequence or a mapping. -/
inductive Context
  | root
  | sequence
  | mapping
deriving DecidableEq, Repr

/-- The indentation of a block collection: none at the root, and none for a sequence in a mapping
that begins on the line of its key. -/
def innerIndent (context : Context) (isSequence : Bool) (outer : Nat) (pen : Pen) : Nat :=
  match context with
  | .root => 0
  | .sequence => outer + bestIndent
  | .mapping => if isSequence && !pen.onlyIndented then outer else outer + bestIndent

mutual

/-- Writes a node. -/
def writeNode (context : Context) (outer : Nat) (simpleKey : Bool) (pen : Pen) : Presented → Pen
  | .alias anchor => pen.indicator ("*" ++ anchorName anchor) true
  | .scalar anchor tag text => writeScalar outer simpleKey tag text (writeAnchor anchor pen)
  | .sequence anchor _ [] => ((writeAnchor anchor pen).indicator "[" true true).indicator "]" false
  | .sequence anchor isPair items =>
    let pen := writeAnchor anchor pen
    let pen := if isPair then pen.indicator pairWord true else pen
    writeItems (innerIndent context true outer pen) pen items
  | .mapping anchor isSet entries =>
    let pen := writeAnchor anchor pen
    let pen := if isSet then pen.indicator (tagWord .set) true else pen
    match entries with
    | [] => (pen.indicator "\x7b" true true).indicator "\x7d" false
    | entries => writeEntries (innerIndent context false outer pen) pen entries

/-- Writes the items of a sequence, one a line. -/
def writeItems (indent : Nat) (pen : Pen) : List Presented → Pen
  | [] => pen
  | item :: rest =>
    let pen := (pen.indentTo indent).indicator "-" true false true
    writeItems indent (writeNode .sequence indent false pen item) rest

/-- Writes the entries of a mapping; a key that is no simple one gets a line of its own. -/
def writeEntries (indent : Nat) (pen : Pen) : List (Presented × Presented) → Pen
  | [] => pen
  | (key, value) :: rest =>
    let pen := pen.indentTo indent
    let pen :=
      if key.isSimpleKey pen.wide then
        (writeNode .mapping indent true pen key).indicator ":" false
      else
        let pen := writeNode .mapping indent false (pen.indicator "?" true false true) key
        (pen.indentTo indent).indicator ":" true false true
    writeEntries indent (writeNode .mapping indent false pen value) rest

end

/-- How a document is written. -/
structure Manner where
  /-- Whether characters beyond ASCII are shown as themselves. -/
  wide : Bool
  /-- Whether pairs are told from other sequences by a tag. -/
  tagged : Bool

/-- The text of a value. -/
def write (manner : Manner) (value : Value) : String :=
  let presented := presentDocument manner.tagged value
  let page := writeNode .root 0 false (.start manner.wide) presented
  String.ofList (page.indentTo 0).written.reverse

end Yaml

end MemberOrder
