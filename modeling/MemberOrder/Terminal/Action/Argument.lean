import MemberOrder.Terminal.Action.Token
import MemberOrder.Text.Newline
import MemberOrder.Text.WordCharacter

/-!
# Arguments of actions

The parameter of an action is a call, of which the part in brackets is the argument, or it is the
argument itself. `isArgument` says which texts are arguments: numbers, texts, octets and the
collections of them. A member of a set and a key of a map are no collections that can change.
-/

namespace MemberOrder

namespace Terminal

/-- What is known of a value in an argument. -/
inductive Literal
  | number (signed : Bool) (numeral : Numeral)
  | other (isFixed : Bool)
deriving DecidableEq, Repr

namespace Literal

/-- Whether a value cannot change, so that it can be found again. -/
def isFixed : Literal → Bool
  | .number .. => true
  | .other isFixed => isFixed

/-- Whether a value can be the first part of a sum. -/
def isAddend : Literal → Bool
  | .number _ numeral => numeral.isAddend
  | .other _ => false

/-- The value of entries in round brackets: one value without a comma is that value. -/
def ofRound (commas : Nat) (entries : List (Literal × Option Literal)) : Option Literal :=
  match commas, entries with
  | 0, [(value, none)] => some value
  | _, entries =>
    if entries.all (·.2.isNone) then some (.other (entries.all (·.1.isFixed))) else none

/-- The value of entries in curly brackets, a map or a set. -/
def ofCurly (entries : List (Literal × Option Literal)) : Option Literal :=
  if (entries.all (·.2.isSome) || entries.all (·.2.isNone)) && entries.all (·.1.isFixed) then
    some (.other false)
  else none

end Literal

mutual

/-- The value that tokens begin with, no sum and without a sign, and the tokens after it. -/
def atom? (fuel : Nat) (tokens : List ArgumentToken) : Option (Literal × List ArgumentToken) :=
  match fuel, tokens with
  | _, .numeral numeral :: rest => some (.number false numeral, rest)
  | _, .text :: rest => some (.other true, rest.dropWhile (· = .text)) |>.filter
      (·.2.head? ≠ some .octets)
  | _, .octets :: rest => some (.other true, rest.dropWhile (· = .octets)) |>.filter
      (·.2.head? ≠ some .text)
  | _, .constant :: rest => some (.other true, rest)
  | _, .setWord :: .mark '(' :: .mark ')' :: rest => some (.other false, rest)
  | fuel + 1, .mark '(' :: rest => do
    let (commas, entries, rest) ← entries? fuel ')' rest
    return (← Literal.ofRound commas entries, rest)
  | fuel + 1, .mark '{' :: rest => do
    let (_, entries, rest) ← entries? fuel '}' rest
    return (← Literal.ofCurly entries, rest)
  | _, _ => none

/-- The value that tokens begin with, and the tokens after it. -/
def literal? (fuel : Nat) (tokens : List ArgumentToken) : Option (Literal × List ArgumentToken) :=
  match fuel with
  | 0 => none
  | fuel + 1 => do
    let (first, rest) ← match tokens with
      | .mark c :: rest =>
        if c = '+' ∨ c = '-' then
          match atom? fuel rest with
          | some (.number false numeral, rest) => some (.number true numeral, rest)
          | _ => none
        else atom? fuel tokens
      | tokens => atom? fuel tokens
    match rest with
    | .mark c :: after =>
      if c = '+' ∨ c = '-' then
        match atom? fuel after with
        | some (.number false .imaginary, rest) =>
          if first.isAddend then some (.other true, rest) else none
        | _ => none
      else some (first, rest)
    | rest => some (first, rest)

/-- The entries up to a closing bracket, with the number of commas between and after them, and the
tokens after the bracket. -/
def entries? (fuel : Nat) (closing : Char) (tokens : List ArgumentToken) :
    Option (Nat × List (Literal × Option Literal) × List ArgumentToken) :=
  match fuel with
  | 0 => none
  | fuel + 1 =>
    if tokens.head? = some (.mark closing) then some (0, [], tokens.tail)
    else do
      let (first, rest) ← literal? fuel tokens
      let (value, rest) ← match rest with
        | .mark ':' :: rest => (literal? fuel rest).map fun (value, rest) => (some value, rest)
        | rest => some (none, rest)
      match rest with
      | .mark c :: rest =>
        if c = ',' then
          let (commas, others, rest) ← entries? fuel closing rest
          return (commas + 1, (first, value) :: others, rest)
        else if c = closing then return (0, [(first, value)], rest)
        else none
      | _ => none

end

/-- Whether tokens are one value, or several with commas between them. Lines may end behind them. -/
def isArgumentOf (tokens : List ArgumentToken) : Bool :=
  let tokens := (tokens.reverse.dropWhile (· = .lineEnd)).reverse
  match atom? (3 * tokens.length + 6) (.mark '(' :: tokens ++ [.mark ')']) with
  | some (_, rest) => !tokens.isEmpty && rest.isEmpty
  | none => false

/-- Whether a line holds nothing but blanks and a comment. -/
def isIdleLine (line : List Char) : Bool :=
  let rest := line.dropWhile fun c => c = ' ' ∨ c = '\t' ∨ c = '\x0c'
  rest.isEmpty || rest.head? == some '#'

/-- Whether a text without blanks around it is an argument. -/
def isArgument (text : List Char) : Bool :=
  let lines := Text.piecesBetween '\n' (Text.unifyNewlines text)
  let code := List.intercalate ['\n'] (lines.dropWhile isIdleLine)
  !text.contains '\x00' && !(code.head?.any fun c => c = ' ' ∨ c = '\t') &&
    (argumentTokens? code.length 0 code).any isArgumentOf

/-- The argument in a parameter: what a name is called with, or nothing for a bare name. -/
def argumentOf (parameter : List Char) : List Char :=
  let name := parameter.takeWhile fun c => Text.isWordCharacter c || c == '.'
  match parameter.drop name.length with
  | [] => ['(', ')']
  | '(' :: rest =>
    if rest.getLast? == some ')' && !rest.contains '\n' then '(' :: rest else parameter
  | _ => parameter

/-- Whether the parameter of an action makes sense. -/
def isParameter (parameter : List Char) : Bool :=
  parameter.isEmpty || isArgument (argumentOf (Text.trimChars parameter))

end Terminal

end MemberOrder
