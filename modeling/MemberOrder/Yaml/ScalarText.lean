import MemberOrder.Yaml.Cursor

/-!
# The texts of scalars

The characters that a scalar stands for, in each of its written forms: plain, in one of two kinds
of quotes, or as a block. Line breaks inside the first three fold to blanks.
-/

namespace MemberOrder

namespace Yaml

/-- A piece of text, with the cursor after it. -/
abbrev Reading := Except ReadFault (List Char × Cursor)

/-- The text of folded line breaks: the first one counts as a blank unless more follow, and a
separator of lines or paragraphs stands for itself. -/
def foldBreaks (first : Char) (others : List Char) : List Char :=
  (if first ≠ '\n' then [first] else if others.isEmpty then [' '] else []) ++ others

/-! ### Plain scalars -/

/-- Whether a character ends a run of a plain scalar; `next` is the character after it. -/
def endsPlainRun (inFlow : Bool) (c next : Char) : Bool :=
  isGap c ||
    (c == ':' && (isGap next || (inFlow && ",[]\x7b\x7d".toList.contains next))) ||
    (inFlow && ",?[]\x7b\x7d".toList.contains c)

/-- Length of the run of a plain scalar at the start of a text. -/
def plainRun (inFlow : Bool) : List Char → Nat
  | [] => 0
  | c :: rest => if endsPlainRun inFlow c (rest.headD '\x00') then 0 else plainRun inFlow rest + 1

/-- Further line breaks and blanks after a plain scalar's first line break. Nothing is left of them
where a document ends. -/
def plainBreaks : Nat → List Char → Cursor → Option (List Char) × Cursor
  | 0, breaks, c => (some breaks, c)
  | fuel + 1, breaks, c =>
    if c.peek == ' ' then plainBreaks fuel breaks c.step
    else match c.lineBreak? with
      | none => (some breaks, c)
      | some (ch, after) =>
        if after.atDocumentMarker then (none, after)
        else plainBreaks fuel (breaks ++ [ch]) after

/-- What separates two runs of a plain scalar, empty if the scalar ends; and whether a line ended.
-/
def plainGap (c : Cursor) : List Char × Cursor × Bool :=
  let blanks := c.run (· == ' ')
  let after := c.forward blanks.length
  match after.lineBreak? with
  | none => (blanks, after, false)
  | some (first, next) =>
    if next.atDocumentMarker then ([], next, true)
    else match plainBreaks (next.rest.length + 1) [] next with
      | (none, last) => ([], last, true)
      | (some others, last) => (foldBreaks first others, last, true)

/-- The runs of a plain scalar; `gap` separates the next run from those read, and `newLine` tells
whether the scalar's last gap holds a line break. -/
def plainRuns (inFlow : Bool) (indent : Int) :
    Nat → List Char → List Char → Bool → Cursor → List Char × Cursor × Bool
  | 0, text, _, newLine, c => (text, c, newLine)
  | fuel + 1, text, gap, newLine, c =>
    let length := if c.peek == '#' then 0 else plainRun inFlow c.rest
    if length = 0 then (text, c, newLine)
    else
      let text := text ++ gap ++ c.rest.take length
      let (next, after, broken) := plainGap (c.forward length)
      if next.isEmpty || after.peek == '#' || (!inFlow && (after.column : Int) < indent) then
        (text, after, broken)
      else plainRuns inFlow indent fuel text next broken after

/-- A plain scalar, and whether a line ended after its last run. -/
def readPlain (inFlow : Bool) (indent : Int) (c : Cursor) : List Char × Cursor × Bool :=
  plainRuns inFlow indent (c.rest.length + 1) [] [] false c

/-! ### Quoted scalars -/

/-- The character that a one-letter escape stands for. -/
def escapeLetter? : Char → Option Char
  | '0' => some '\x00'
  | 'a' => some '\x07'
  | 'b' => some '\x08'
  | 't' | '\t' => some '\t'
  | 'n' => some '\n'
  | 'v' => some '\x0b'
  | 'f' => some '\x0c'
  | 'r' => some '\r'
  | 'e' => some '\x1b'
  | ' ' => some ' '
  | '"' => some '"'
  | '\\' => some '\\'
  | '/' => some '/'
  | 'N' => some (Char.ofNat 0x85)
  | '_' => some (Char.ofNat 0xA0)
  | 'L' => some (Char.ofNat 0x2028)
  | 'P' => some (Char.ofNat 0x2029)
  | _ => none

/-- Number of digits of an escape by code point. -/
def escapeDigits? : Char → Option Nat
  | 'x' => some 2
  | 'u' => some 4
  | 'U' => some 8
  | _ => none

/-- Line breaks of a quoted scalar after its first one, with the blanks around them. -/
def quotedBreaks : Nat → List Char → Cursor → Reading
  | 0, breaks, c => .ok (breaks, c)
  | fuel + 1, breaks, c =>
    if c.atDocumentMarker then .error .malformed
    else
      let c := c.skip fun ch => ch == ' ' || ch == '\t'
      match c.lineBreak? with
      | some (ch, after) => quotedBreaks fuel (breaks ++ [ch]) after
      | none => .ok (breaks, c)

/-- An escape of a double-quoted scalar; the cursor stands after the backslash. -/
def readEscape (c : Cursor) : Reading :=
  match escapeLetter? c.peek, escapeDigits? c.peek, c.lineBreak? with
  | some letter, _, _ => .ok ([letter], c.step)
  | none, some count, _ =>
    let digits := c.step.rest.take count
    if digits.length = count ∧ digits.all isHexDigit then
      let code := hexValue digits
      if code < 0x110000 then .ok ([Char.ofNat code], c.step.forward count)
      else .error (.codePoint code)
    else .error .malformed
  | none, none, some (_, after) => quotedBreaks (after.rest.length + 1) [] after
  | none, none, none => .error .malformed

/-- The characters of a quoted scalar up to a blank, a line break or a quote that ends it. -/
def quotedRun (double : Bool) : Nat → Cursor → Reading
  | 0, c => .ok ([], c)
  | fuel + 1, c =>
    match c.rest with
    | [] => .ok ([], c)
    | ch :: _ =>
      if !double && ch == '\'' && c.peek 1 == '\'' then do
        let (text, after) ← quotedRun double fuel (c.forward 2)
        return ('\'' :: text, after)
      else if double && ch == '\\' then do
        let (escaped, next) ← readEscape c.step
        let (text, after) ← quotedRun double fuel next
        return (escaped ++ text, after)
      else if isGap ch || ch == (if double then '"' else '\'') then .ok ([], c)
      else do
        let (text, after) ← quotedRun double fuel c.step
        return (ch :: text, after)

/-- Blanks inside a quoted scalar: as they are on one line, folded where lines end. -/
def quotedGap (c : Cursor) : Reading :=
  let blanks := c.run fun ch => ch == ' ' || ch == '\t'
  let after := c.forward blanks.length
  match after.lineBreak? with
  | some (first, next) => do
    let (others, last) ← quotedBreaks (next.rest.length + 1) [] next
    return (foldBreaks first others, last)
  | none => if after.rest.isEmpty then .error .malformed else .ok (blanks, after)

/-- The rest of a quoted scalar. -/
def quotedRest (double : Bool) : Nat → List Char → Cursor → Reading
  | 0, _, _ => .error .malformed
  | fuel + 1, text, c => do
    let (run, c) ← quotedRun double (c.rest.length + 1) c
    if c.peek == (if double then '"' else '\'') then return (text ++ run, c.step)
    let (gap, after) ← quotedGap c
    quotedRest double fuel (text ++ run ++ gap) after

/-- A quoted scalar, from its opening quote on. -/
def readQuoted (double : Bool) (c : Cursor) : Reading :=
  quotedRest double (c.rest.length + 1) [] c.step

/-! ### Block scalars -/

/-- What becomes of the line breaks that end a block. -/
inductive Chomping
  | strip
  | clip
  | keep
deriving DecidableEq, Repr

def chompingOf? : Char → Option Chomping
  | '+' => some .keep
  | '-' => some .strip
  | _ => none

/-- An indentation indicator, if a digit stands here. -/
def readIncrement (c : Cursor) : Except ReadFault (Option Nat × Cursor) :=
  if c.peek.isDigit then
    if c.peek == '0' then .error .malformed else .ok (some (c.peek.toNat - 48), c.step)
  else .ok (none, c)

/-- The header of a block after its indicator: chomping and indentation in either order. -/
def readBlockHeader (c : Cursor) : Except ReadFault (Chomping × Option Nat × Cursor) := do
  let (chomping, increment, c) ← match chompingOf? c.peek with
    | some chomping => do
      let (increment, after) ← readIncrement c.step
      pure (chomping, increment, after)
    | none => do
      let (increment, after) ← readIncrement c
      match increment, chompingOf? after.peek with
      | some _, some chomping => pure (chomping, increment, after.step)
      | _, _ => pure (.clip, increment, after)
  if isGapNoTab c.peek then return (chomping, increment, ← c.finishLine) else throw .malformed

/-- Blank lines before a block, with the widest indentation among them. -/
def leadingBreaks : Nat → List Char → Nat → Cursor → List Char × Nat × Cursor
  | 0, breaks, widest, c => (breaks, widest, c)
  | fuel + 1, breaks, widest, c =>
    if c.peek == ' ' then leadingBreaks fuel breaks (max widest c.step.column) c.step
    else match c.lineBreak? with
      | some (ch, after) => leadingBreaks fuel (breaks ++ [ch]) widest after
      | none => (breaks, widest, c)

/-- The cursor after blanks up to a column. -/
def skipToColumn (column : Nat) (c : Cursor) : Cursor :=
  c.forward (min (c.run (· == ' ')).length (column - c.column))

/-- Blank lines inside a block. -/
def blockBreaks (indent : Nat) : Nat → List Char → Cursor → List Char × Cursor
  | 0, breaks, c => (breaks, c)
  | fuel + 1, breaks, c =>
    let c := skipToColumn indent c
    match c.lineBreak? with
    | some (ch, after) => blockBreaks indent fuel (breaks ++ [ch]) after
    | none => (breaks, c)

/-- What separates a block's line from the next: a blank if it folds, else its break. -/
def blockJoin (folded leadingText nextIndented : Bool) (lineBreak breaks : List Char) : List Char :=
  if folded && lineBreak == ['\n'] && leadingText && !nextIndented then
    if breaks.isEmpty then [' '] else []
  else lineBreak

/-- The lines of a block; `breaks` are the blank lines before the next one. Gives the text, the last
line's break, the blank lines after it and the cursor behind. -/
def blockLines (folded : Bool) (indent : Nat) :
    Nat → List Char → List Char → Cursor → List Char × List Char × List Char × Cursor
  | 0, text, breaks, c => (text, [], breaks, c)
  | fuel + 1, text, breaks, c =>
    let leadingText := !(c.peek == ' ' || c.peek == '\t')
    let line := c.run fun ch => !isLineEnd ch
    let text := text ++ breaks ++ line
    let c := c.forward line.length
    let (lineBreak, c) := match c.lineBreak? with
      | some (ch, after) => ([ch], after)
      | none => ([], c)
    let (breaks, c) := blockBreaks indent (c.rest.length + 1) [] c
    if c.column = indent ∧ !c.rest.isEmpty then
      let nextIndented := c.peek == ' ' || c.peek == '\t'
      blockLines folded indent fuel
        (text ++ blockJoin folded leadingText nextIndented lineBreak breaks) breaks c
    else (text, lineBreak, breaks, c)

/-- A block scalar, from its indicator on, inside a collection of the given indentation. -/
def readBlock (folded : Bool) (outer : Int) (c : Cursor) : Reading := do
  let (chomping, increment, c) ← readBlockHeader c.step
  let least := max 1 (outer + 1).toNat
  let (breaks, indent, c) := match increment with
    | none =>
      let (breaks, widest, c) := leadingBreaks (c.rest.length + 1) [] 0 c
      (breaks, max least widest, c)
    | some increment =>
      let indent := least + increment - 1
      let (breaks, c) := blockBreaks indent (c.rest.length + 1) [] c
      (breaks, indent, c)
  let (text, lineBreak, breaks, c) :=
    if c.column = indent ∧ !c.rest.isEmpty then
      blockLines folded indent (c.rest.length + 1) [] breaks c
    else ([], [], breaks, c)
  let ending := match chomping with
    | .strip => []
    | .clip => lineBreak
    | .keep => lineBreak ++ breaks
  return (text ++ ending, c)

end Yaml

end MemberOrder
