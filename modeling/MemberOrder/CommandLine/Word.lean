import MemberOrder.CommandLine.Grammar
import MemberOrder.Text.Digit

/-!
# Words of a command line

A word is an operand, the separator after which all words are operands, or an option. An option may
be abbreviated to what only one option begins with, and may have its text attached.
-/

namespace MemberOrder

namespace CommandLine

inductive Role
  | operand
  | separator
  /-- An option, with the text that is attached to it if there is one. -/
  | option (spec : OptionSpec) (name : String) (attached : Option (List Char))
  /-- An option that the grammar does not have. -/
  | unknown
deriving DecidableEq, Repr

structure Word where
  text : String
  role : Role
deriving DecidableEq, Repr

/-- An abbreviation of more than one option. -/
structure Ambiguity where
  word : String
  names : List String
deriving DecidableEq, Repr

/-- The name before the first equals sign, with the text after it if there is one. -/
def splitEquals (word : List Char) : String × Option (List Char) :=
  let name := word.takeWhile (· != '=')
  match word.drop name.length with
  | '=' :: text => (String.ofList name, some text)
  | _ => (String.ofList name, none)

/-- Whether a word is a negative number. A newline after it does not count. -/
def isNegativeNumber (word : List Char) : Bool :=
  let isDigit (c : Char) : Bool := (Text.digitValue? c).isSome
  match if word.getLast? = some '\n' then word.dropLast else word with
  | '-' :: rest =>
    let whole := rest.takeWhile isDigit
    match rest.drop whole.length with
    | [] => !whole.isEmpty
    | '.' :: places => !places.isEmpty && places.all isDigit
    | _ => false
  | _ => false

/-- The options that a word may abbreviate, each with its name. -/
def abbreviated (face : Face) (word : List Char) : List (String × Role) :=
  match word with
  | '-' :: '-' :: _ =>
    let (start, attached) := splitEquals word
    face.names.filterMap fun (name, spec) =>
      if name.startsWith start then some (name, .option spec name attached) else none
  | '-' :: letter :: text =>
    face.names.filterMap fun (name, spec) =>
      if name = String.ofList ['-', letter] then
        some (name, .option spec name (some text))
      else if name.startsWith (String.ofList word) then some (name, .option spec name none)
      else none
  | _ => []

/-- The role of a word that begins with a dash and is longer. -/
def dashedRole (face : Face) (word : String) : Except Ambiguity Role :=
  match face.find? word with
  | some spec => .ok (.option spec word none)
  | none =>
    let (name, attached) := splitEquals word.toList
    match attached, face.find? name with
    | some attached, some spec => .ok (.option spec name (some attached))
    | _, _ =>
      match abbreviated face word.toList with
      | [(_, role)] => .ok role
      | [] =>
        let isOperand := isNegativeNumber word.toList || word.toList.contains ' '
        .ok (if isOperand then .operand else .unknown)
      | several => .error ⟨word, several.map Prod.fst⟩

/-- The role of a word. -/
def role (face : Face) (word : String) : Except Ambiguity Role :=
  match word.toList with
  | '-' :: _ :: _ => dashedRole face word
  | _ => .ok .operand

/-- The words of a command line with their roles. -/
def classify (face : Face) : List String → Except Ambiguity (List Word)
  | [] => .ok []
  | word :: rest =>
    if word = "--" then .ok (⟨word, .separator⟩ :: rest.map (⟨·, .operand⟩))
    else do
      let role ← role face word
      return ⟨word, role⟩ :: (← classify face rest)

end CommandLine

end MemberOrder
