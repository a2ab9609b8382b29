import MemberOrder.CommandLine.Grammar

/-!
# Help on command lines

The usage of a grammar and the help on all of it, set in lines of seventy-eight columns.
-/

namespace MemberOrder

namespace CommandLine

/-- Columns in a line. -/
def lineWidth : Nat := 78

/-- The rightmost column at which explanations can begin. -/
def latestColumn : Nat := 24

def blanks (count : Nat) : String := String.ofList (List.replicate count ' ')

/-- Parts on lines, each with a blank in front. A line begins after `margin` columns, and `used` are
taken on the line that is begun. -/
def partLines (margin : Nat) (line : List String) (used : Nat) : List String → List String
  | [] => if line.isEmpty then [] else [String.intercalate " " line]
  | part :: rest =>
    if lineWidth < used + 1 + part.length && !line.isEmpty then
      String.intercalate " " line :: partLines margin [part] (margin + 1 + part.length) rest
    else partLines margin (line ++ [part]) (used + 1 + part.length) rest

/-- The options of a grammar as usage shows them, the exclusive ones together. -/
def optionParts (face : Face) : List String :=
  let written (spec : OptionSpec) : String := spec.invocation spec.name
  let together := face.options.filter OptionSpec.exclusive
  let group := "[" ++ String.intercalate " | " (together.map written) ++ "]"
  face.options.filterMap fun spec =>
    if !spec.exclusive then some ("[" ++ written spec ++ "]")
    else if together.head? = some spec then some group
    else none

/-- The commands of a grammar in braces. -/
def commandSet (choices : List (String × String × Grammar)) : String :=
  "\x7b" ++ String.intercalate "," (choices.map Prod.fst) ++ "\x7d"

/-- What comes after the options, as usage shows it. -/
def operandParts : Grammar → List String
  | .plain _ none => []
  | .plain _ (some operand) =>
    if operand.many then [operand.name, "[" ++ operand.name ++ " ...]"] else [operand.name]
  | .commands _ _ _ choices => [commandSet choices, "..."]

/-- How a grammar is used, in one line if it fits; else the operands have lines of their own. -/
def usage (grammar : Grammar) : String :=
  let face := grammar.face
  let before := "usage: "
  let whole := String.intercalate " "
    (face.program :: optionParts face ++ operandParts grammar)
  if before.length + whole.length ≤ lineWidth then before ++ whole ++ "\n"
  else
    let margin := before.length + face.program.length
    let lines :=
      partLines margin [] (before.length - 1) (face.program :: optionParts face) ++
        partLines margin [] margin (operandParts grammar)
    before ++ String.intercalate ("\n" ++ blanks (margin + 1)) lines ++ "\n"

/-- Something that help explains: how it is written and what it is, at some depth. -/
structure Entry where
  depth : Nat
  title : String
  help : Option String

/-- The words of a text. -/
def wordsOf (text : String) : List String :=
  ((text.toList.splitBy fun c d => c ≠ ' ' ∧ d ≠ ' ').filter (· ≠ [' '])).map String.ofList

/-- The column at which explanations begin. -/
def helpColumn (entries : List (Nat × String)) : Nat :=
  min latestColumn ((entries.map fun (depth, title) => depth + title.length).foldl max 0 + 2)

/-- A text in lines of a number of columns. -/
def fillText (columns : Nat) (text : String) : List String :=
  let rec go (line : String) : List String → List String
    | [] => [line]
    | word :: rest =>
      if line.length + 1 + word.length ≤ columns then go (line ++ " " ++ word) rest
      else line :: go word rest
  match wordsOf text with
  | [] => []
  | first :: rest => go first rest

/-- The lines of an entry, with explanations from a column on. -/
def entryLines (column : Nat) (entry : Entry) : List String :=
  let title := blanks entry.depth ++ entry.title
  match entry.help.map (fillText (lineWidth - column)) with
  | none | some [] => [title]
  | some (first :: others) =>
    let others := others.map fun line => blanks column ++ line
    if title.length + 2 ≤ column then
      (title ++ blanks (column - title.length) ++ first) :: others
    else title :: (blanks column ++ first) :: others

/-- The entries for what comes after the options. -/
def operandEntries : Grammar → List Entry
  | .plain _ none => []
  | .plain _ (some operand) => [⟨2, operand.name, some operand.help⟩]
  | .commands _ _ help choices =>
    ⟨2, commandSet choices, help⟩ :: choices.map fun (name, help, _) => ⟨4, name, some help⟩

/-- The entries for the options. -/
def optionEntries (face : Face) : List Entry :=
  face.options.map fun spec =>
    ⟨2, String.intercalate ", " (spec.names.map spec.invocation), some spec.help⟩

/-- The width that an entry counts with; a command counts as if it stood where its set does. -/
def counted (entry : Entry) : Nat × String := (min 2 entry.depth, entry.title)

/-- A list of entries under a title, unless it is empty. -/
def block (column : Nat) (title : String) (entries : List Entry) : List String :=
  if entries.isEmpty then []
  else [String.join ((title :: entries.flatMap (entryLines column)).map (· ++ "\n"))]

/-- The help on a grammar. -/
def help (grammar : Grammar) : String :=
  let face := grammar.face
  let operands := operandEntries grammar
  let options := optionEntries face
  let column := helpColumn ((operands ++ options).map counted)
  let paragraphs (text : Option String) : List String :=
    text.toList.map fun text => String.join ((fillText lineWidth text).map (· ++ "\n"))
  String.intercalate "\n" <|
    [usage grammar] ++ paragraphs face.about ++ block column "positional arguments:" operands ++
      block column "options:" options ++ paragraphs face.ending

end CommandLine

end MemberOrder
