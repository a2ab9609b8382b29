import MemberOrder.Text.Blank
import MemberOrder.Text.Width

/-!
# Filling lines

Texts are set in lines of a number of cells. Words keep the blanks after them and go to the next
line if they do not fit; a word longer than a line is chopped, or cut with an ellipsis.
-/

namespace MemberOrder

namespace Terminal

/-- The characters that a terminal would act on instead of showing them. -/
def isControl (c : Char) : Bool := c.toNat ∈ [7, 8, 11, 12, 13]

def withoutControls (text : List Char) : List Char := text.filter (!isControl ·)

/-- Cells from one tab stop to the next. -/
def tabSize : Nat := 8

/-- A line with blanks in place of its tabs, given the pieces between them. A tab is one blank and
those up to the next stop. `column` is where the pieces begin. -/
def expandTabsFrom (column : Nat) : List (List Char) → List Char
  | [] => []
  | [last] => last
  | piece :: rest =>
    let column := column + Text.width (piece ++ [' '])
    let stop := (column + tabSize - 1) / tabSize * tabSize
    piece ++ ' ' :: List.replicate (stop - column) ' ' ++ expandTabsFrom stop rest

/-- A line with blanks in place of each tab, up to the next stop. -/
def expandTabs (line : List Char) : List Char :=
  expandTabsFrom 0 (Text.piecesBetween '\t' line)

/-- The words of a line, each with the blanks before the first and after each. A line of blanks has
none. -/
def words (line : List Char) : List (List Char) :=
  let ends := line.splitBy fun c d => !(Text.isBlank c && !Text.isBlank d)
  match ends with
  | [] => []
  | first :: rest =>
    if !first.all Text.isBlank then first :: rest
    else
      match rest with
      | [] => []
      | second :: rest => (first ++ second) :: rest

/-- Graphemes in pieces of no more than `width` cells. `used` cells of the piece `held` are
taken. -/
def chopFrom (width used : Nat) (held : List Char) : List Text.Grapheme → List (List Char)
  | [] => [held]
  | next :: rest =>
    if width < used + next.cells then held :: chopFrom width next.cells next.chars rest
    else chopFrom width (used + next.cells) (held ++ next.chars) rest

/-- A word in pieces of no more than `width` cells. -/
def chop (width : Nat) (word : List Char) : List (List Char) :=
  chopFrom width 0 [] (Text.graphemes word)

/-- What happens to a text that is too long for a line. -/
inductive Overflow
  | fold
  | ellipsis
deriving DecidableEq, Repr

/-- Lines filled with words. `line` is the line so far and takes `used` cells. -/
def fill (overflow : Overflow) (width : Nat) (line : List Char) (used : Nat) :
    List (List Char) → List (List Char)
  | [] => [line]
  | word :: rest =>
    let length := Text.width (Text.trimEndChars word)
    if used + length ≤ width then
      fill overflow width (line ++ word) (used + Text.width word) rest
    else
      let parts := if width < length ∧ overflow = .fold then chop width word else [word]
      let begun := if line.isEmpty then parts.dropWhile List.isEmpty else line :: parts
      let last := begun.getLast?.getD []
      begun.dropLast ++ fill overflow width last (Text.width last) rest

/-- A line without those blanks at its end that are beyond the last column. -/
def trimExcess (width : Nat) (line : List Char) : List Char :=
  let blanks := line.length - (Text.trimEndChars line).length
  line.take (line.length - min blanks (line.length - width))

/-- As many graphemes as take no more than `width` cells. One that would cross the edge leaves a
blank. -/
def cutGraphemes (width : Nat) : List Text.Grapheme → List Char
  | [] => []
  | first :: rest =>
    if first.cells ≤ width then first.chars ++ cutGraphemes (width - first.cells) rest
    else List.replicate width ' '

/-- The longest beginning of a text that takes no more than `width` cells. -/
def cut (width : Nat) (text : List Char) : List Char :=
  if width = 0 then [] else cutGraphemes width (Text.graphemes text)

/-- A line that takes no more than `width` cells. -/
def truncate (overflow : Overflow) (width : Nat) (line : List Char) : List Char :=
  if Text.width line ≤ width then line
  else
    match overflow with
    | .fold => cut width line
    | .ellipsis => cut (width - 1) line ++ ['…']

/-- Where the text of a line goes. -/
inductive Alignment
  /-- At the left, with nothing after it. -/
  | free
  | left
  | center
deriving DecidableEq, Repr

/-- A text with blanks up to `width` cells. -/
def padRight (width : Nat) (line : List Char) : List Char :=
  line ++ List.replicate (width - Text.width line) ' '

/-- A text with blanks up to `width` cells. A joiner at its end takes the first blank with it, and
so needs one more. -/
def padCell (width : Nat) (line : List Char) : List Char :=
  padRight width (padRight width line)

/-- A line set in `width` cells. -/
def align (alignment : Alignment) (overflow : Overflow) (width : Nat) (line : List Char) :
    List Char :=
  match alignment with
  | .free => truncate overflow width line
  | .left => padCell width (truncate overflow width line)
  | .center =>
    let line := truncate overflow width (Text.trimEndChars line)
    padRight width (List.replicate ((width - Text.width line) / 2) ' ' ++ line)

/-- A text in lines of `width` cells. -/
def setText (alignment : Alignment) (overflow : Overflow) (width : Nat) (text : List Char) :
    List (List Char) :=
  (Text.piecesBetween '\n' text).flatMap fun line =>
    (fill overflow width [] 0 (lineWords (expandTabs line))).map fun line =>
      align alignment overflow width (trimExcess width line)
where
  /-- The words of a line; a line of blanks counts as one. -/
  lineWords (line : List Char) : List (List Char) :=
    match words line with
    | [] => [line]
    | found => found

/-- A text in lines as long as they are. -/
def setFree (text : List Char) : List (List Char) :=
  (Text.piecesBetween '\n' text).map expandTabs

end Terminal

end MemberOrder
