/-!
# Blanks and lines

Which characters count as blank, which end a line, and the trimming and splitting built on them.
-/

namespace MemberOrder

namespace Text

/-- Blank characters of Unicode, the four information separators among them. -/
def isBlank (c : Char) : Bool :=
  let code := c.toNat
  (9 ≤ code && code ≤ 13) || (28 ≤ code && code ≤ 32) || code == 0x85 || code == 0xA0 ||
    code == 0x1680 || (0x2000 ≤ code && code ≤ 0x200A) || code == 0x2028 || code == 0x2029 ||
    code == 0x202F || code == 0x205F || code == 0x3000

/-- Characters that end a line of text; a carriage return and a line feed together end one. -/
def isLineEnd (c : Char) : Bool :=
  let code := c.toNat
  (10 ≤ code && code ≤ 13) || (28 ≤ code && code ≤ 30) || code == 0x85 || code == 0x2028 ||
    code == 0x2029

/-- The characters without those that satisfy a test before and after them. -/
def trimWhere (test : Char → Bool) (text : List Char) : List Char :=
  ((text.dropWhile test).reverse.dropWhile test).reverse

/-- The characters without the blanks before and after them. -/
def trimChars (text : List Char) : List Char := trimWhere isBlank text

/-- The characters without the blanks after them. -/
def trimEndChars (text : List Char) : List Char :=
  (text.reverse.dropWhile isBlank).reverse

/-- The text without the blanks before and after it. -/
def trim (text : String) : String :=
  String.ofList (trimChars text.toList)

/-- The text without the blanks after it. -/
def trimEnd (text : String) : String :=
  String.ofList (trimEndChars text.toList)

/-- The lines of `text`, where `line` holds the current line backwards. A line end at the very end
of the text opens no further line. -/
def linesFrom (line : List Char) : List Char → List (List Char)
  | [] => if line.isEmpty then [] else [line.reverse]
  | '\r' :: '\n' :: rest => line.reverse :: linesFrom [] rest
  | c :: rest =>
    if isLineEnd c then line.reverse :: linesFrom [] rest else linesFrom (c :: line) rest

/-- The lines of a text, without their ends. -/
def lines (text : String) : List String :=
  (linesFrom [] text.toList).map String.ofList

/-- The pieces of a text between the copies of `mark`. -/
def piecesBetween (mark : Char) (text : List Char) : List (List Char) :=
  text.foldr (fun c pieces =>
    if c = mark then [] :: pieces
    else
      match pieces with
      | piece :: rest => (c :: piece) :: rest
      | [] => [[c]]) [[]]

/-- The text after every leading copy of `mark`. -/
def dropLeading (mark : Char) (text : String) : String :=
  String.ofList (text.toList.dropWhile (· == mark))

end Text

end MemberOrder
