import MemberOrder.Terminal.Fill

/-!
# Tables

A table is a title over columns. `framed` draws one with a frame, no wider than the screen;
`Table.ruled` draws it with dashes, as wide as it is.
-/

namespace MemberOrder

namespace Terminal

structure Table where
  title : String
  columns : List String
  rows : List (List String)
deriving DecidableEq, Repr

namespace Table

/-- The table on lines that end where they end, with a rule under the title and one under the names
of the columns. -/
def ruled (table : Table) : List String :=
  let rule (text : String) : String := String.ofList (List.replicate text.length '-')
  let bar := String.intercalate " | "
  ["", table.title, rule table.title, bar table.columns, rule (bar table.columns)] ++
    table.rows.map bar ++ [""]

/-- The number of columns; a long row makes more of them. -/
def width (table : Table) : Nat :=
  (table.rows.map List.length).foldl max table.columns.length

/-- All rows, the names of the columns first, each with a cell for every column. -/
def grid (table : Table) : List (List String) :=
  (table.columns :: table.rows).map fun row =>
    row ++ List.replicate (table.width - row.length) ""

end Table

/-- Texts in rows and columns, the first row being the head. -/
abbrev Grid := List (List (List Char))

/-- Cells on each side of a text in its column. -/
def padding : Nat := 1

/-- The cells that the longest line of a text takes. -/
def longestLine (text : List Char) : Nat :=
  ((Text.linesFrom [] text).map Text.width).foldl max 0

/-- The cells that a text wants in a column when there are `room`. -/
def wanted (room : Nat) (text : List Char) : Nat :=
  if room ≤ 2 * padding then room else min room (longestLine text + 2 * padding)

/-- The cells that a column wants when there are `room`. -/
def columnWanted (room : Nat) (texts : List (List Char)) : Nat :=
  (texts.map (wanted room)).foldl max 0

/-- A quotient rounded to the nearest whole number, a half to the even one. -/
def roundedQuotient (n d : Nat) : Nat :=
  let twice := 2 * (n % d)
  if twice < d ∨ (twice = d ∧ n / d % 2 = 0) then n / d else n / d + 1

/-- Takes cells from the columns that are marked, in equal shares but at most `most` from each. -/
def reduce (most : Nat → Nat) (excess shares : Nat) : List (Nat × Bool) → List Nat
  | [] => []
  | (width, false) :: rest => width :: reduce most excess shares rest
  | (width, true) :: rest =>
    let taken := min (most width) (roundedQuotient excess shares)
    (width - taken) :: reduce most (excess - taken) (shares - 1) rest

/-- The width of columns together. -/
def total (widths : List Nat) : Nat := widths.foldr (· + ·) 0

/-- Makes the widest columns as narrow as the next widest, and so on until all fit. `fuel` bounds
the number of rounds. -/
def collapse (fuel room : Nat) (widths : List Nat) : List Nat :=
  match fuel with
  | 0 => widths
  | fuel + 1 =>
    let widest := widths.foldl max 0
    let second := (widths.filter (· ≠ widest)).foldl max 0
    if total widths ≤ room ∨ widest = second then widths
    else
      let excess := total widths - room
      let most := min excess (widest - second)
      collapse fuel room (reduce (fun _ => most) excess (widths.count widest)
        (widths.map fun width => (width, width = widest)))

/-- The widths of columns in `room` cells. -/
def columnWidths (room : Nat) (columns : List (List (List Char))) : List Nat :=
  let natural := columns.map fun texts => max 1 (columnWanted room texts)
  if total natural ≤ room then natural
  else
    let collapsed := collapse (total natural + 1) room natural
    let reduced :=
      if total collapsed ≤ room then collapsed
      else
        reduce id (total collapsed - room) (collapsed.countP (· ≠ 0))
          (collapsed.map fun width => (width, width ≠ 0))
    (reduced.zip columns).map fun (width, texts) => columnWanted width texts

/-- The lines of a cell of a column with some width. -/
def cellLines (width : Nat) (text : List Char) : List (List Char) :=
  let inner := width - 2 * padding
  let edge := List.replicate padding ' '
  if inner = 0 then []
  else (setText .left .ellipsis inner text).map fun line => edge ++ line ++ edge

/-- The cells of a row made equally high, with blank lines below, or above in the head. -/
def levelled (head : Bool) (widths : List Nat) (cells : List (List (List Char))) :
    List (List (List Char)) :=
  let height := (cells.map List.length).foldl max 1
  (widths.zip cells).map fun (width, lines) =>
    let blank := List.replicate (height - lines.length) (List.replicate width ' ')
    if head then blank ++ lines else lines ++ blank

/-- Lines of cells side by side, with bars between and around them. -/
def barred (bar : Char) : List (List (List Char)) → List (List Char)
  | [] => []
  | [last] => last.map fun line => bar :: line ++ [bar]
  | first :: rest => List.zipWith (fun line others => bar :: line ++ others) first (barred bar rest)

/-- The lines of a row. -/
def rowLines (head : Bool) (bar : Char) (widths : List Nat) (row : List (List Char)) :
    List (List Char) :=
  barred bar (levelled head widths (List.zipWith cellLines widths row))

/-- A line of the frame. -/
def frameLine (left fill between right : Char) (widths : List Nat) : List Char :=
  let pieces := widths.map fun width => List.replicate width fill
  left :: List.intercalate [between] pieces ++ [right]

/-- The columns of a grid, from the left. -/
def columnsOf (count : Nat) (grid : Grid) : List (List (List Char)) :=
  (List.range count).map fun index => grid.map fun row => row[index]?.getD []

/-- A grid with a frame in a screen of `room` cells, under its title if it has one. -/
def framed (room : Nat) (title : Option (List Char)) (count : Nat) (grid : Grid) :
    List (List Char) :=
  if count = 0 then [[]]
  else
    let widths := columnWidths (room - (count + 1)) (columnsOf count grid)
    let heading := (title.map (setText .center .fold (total widths + count + 1))).getD []
    let head := (grid.head?.map (rowLines true '┃' widths)).getD []
    let body := grid.tail.flatMap (rowLines false '│' widths)
    (heading ++ [frameLine '┏' '━' '┳' '┓' widths] ++ head ++
      [frameLine '┡' '━' '╇' '┩' widths] ++ body ++ [frameLine '└' '─' '┴' '┘' widths]).map
      (cut room)

end Terminal

end MemberOrder
