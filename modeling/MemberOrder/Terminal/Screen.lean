import MemberOrder.Json.Writer
import MemberOrder.Terminal.Markup
import MemberOrder.Terminal.Table

/-!
# What the screen shows

Messages, tables and values as text. In the marked manner texts are marked up and set in the width
of the screen; in the plain manner they are shown as they are. A text whose marks do not fit
together cannot be shown in the marked manner.
-/

namespace MemberOrder

namespace Terminal

inductive Manner
  | marked
  | plain
deriving DecidableEq, Repr

inductive MessageKind
  | success
  | warning
  | error
  | info
deriving DecidableEq, Repr

namespace MessageKind

/-- The sign that a message begins with. -/
def sign : MessageKind → String
  | .success => "✓"
  | .warning => "⚠"
  | .error => "✗"
  | .info => "ℹ"

/-- The colour of the sign. -/
def color : MessageKind → String
  | .success => "green"
  | .warning => "yellow"
  | .error => "red"
  | .info => "blue"

end MessageKind

/-- Cells in a line of the screen. -/
def screenWidth : Nat := 80

/-- Lines as a text, each with its end. -/
def joinLines (lines : List (List Char)) : String :=
  String.ofList (lines.flatMap (· ++ ['\n']))

/-- A text as it is, without what a terminal would act on. -/
def freeText (text : String) : String := joinLines (setFree (withoutControls text.toList))

/-- A marked text without its marks and without what a terminal would act on. -/
def shownText (text : String) : Except MarkupFault (List Char) :=
  (plainText text.toList).map withoutControls

/-- A message. -/
def message (manner : Manner) (kind : MessageKind) (text : String) : Except MarkupFault String :=
  match manner with
  | .marked => do
    let marked := "[" ++ kind.color ++ "]" ++ kind.sign ++ "[/" ++ kind.color ++ "] " ++ text
    let shown ← shownText marked
    checkStyles marked.toList
    return joinLines (setText .free .fold screenWidth shown)
  | .plain => .ok (freeText (kind.sign ++ " " ++ text))

/-- The texts of the cells of a table, which is read column by column. -/
def shownGrid (grid : List (List String)) : Except MarkupFault Grid := do
  let count := (grid.head?.map List.length).getD 0
  let columns ← (List.range count).mapM fun index =>
    grid.mapM fun row => shownText (row[index]?.getD "")
  return (List.range grid.length).map fun index => columns.map fun column => column[index]?.getD []

/-- A table in the marked manner. Its title comes after the cells, and their styles after that. A
table without columns is an empty line, whatever its title. -/
def markedTable (table : Table) : Except MarkupFault String :=
  if table.width = 0 then .ok (joinLines [[]])
  else do
    let grid ← shownGrid table.grid
    let title ←
      if table.title.isEmpty then pure none
      else do
        let title ← shownText table.title
        checkStyles table.title.toList
        pure (some title)
    table.grid.flatten.forM fun cell => checkStyles cell.toList
    return joinLines (framed screenWidth title table.width grid)

/-- A table. -/
def tableText (manner : Manner) (table : Table) : Except MarkupFault String :=
  match manner with
  | .marked => markedTable table
  | .plain => .ok (String.join (table.ruled.map freeText))

/-- A value. -/
def valueText (value : Value) : Except Json.WriteFault String :=
  (Json.write .portable value).map freeText

end Terminal

end MemberOrder
