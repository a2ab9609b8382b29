import MemberOrder.Terminal.Action.Numeral

/-!
# Tokens of arguments

The argument of an action is read as numerals, quoted texts, words and marks. Comments and, within
brackets, the ends of lines stand for nothing.
-/

namespace MemberOrder

namespace Terminal

/-- A token of an argument. -/
inductive ArgumentToken
  | numeral (numeral : Numeral)
  | text
  | octets
  /-- A word that stands for a value. -/
  | constant
  /-- The word in front of the brackets of the empty set. -/
  | setWord
  | mark (c : Char)
  | lineEnd
deriving DecidableEq, Repr

/-- A text up to the quote that closes it, and the text after that. A backslash keeps the character
behind it from closing the text; a text in single quotes ends on its line. -/
def quotedBody (tripled : Bool) (quote : Char) : List Char → Option (List Char × List Char)
  | [] => none
  | '\\' :: c :: rest => do
    let (body, after) ← quotedBody tripled quote rest
    return ('\\' :: c :: body, after)
  | c :: rest =>
    let further := (quotedBody tripled quote rest).map fun (body, after) => (c :: body, after)
    if c = quote then
      if tripled then
        match rest with
        | second :: third :: after =>
          if second = quote ∧ third = quote then some ([], after) else further
        | _ => none
      else some ([], rest)
    else if c = '\n' ∧ !tripled then none
    else further

/-- Whether a text begins with a number of hexadecimal digits. -/
def beginsHex (count : Nat) (text : List Char) : Bool :=
  let digits := text.take count
  digits.length == count && digits.all fun c => (Number.digitOf? 16 c).isSome

/-- Whether a text begins with the name of a character in curly brackets. -/
def beginsName (text : List Char) : Bool :=
  match text with
  | '{' :: rest =>
    let name := rest.takeWhile fun c => c.isAlphanum || c == ' ' || c == '-'
    !name.isEmpty && (rest.drop name.length).head? == some '}'
  | _ => false

/-- Whether the escapes in a text, or in octets, are whole ones. -/
def escapesFit (octets : Bool) : List Char → Bool
  | [] => true
  | '\\' :: c :: rest =>
    (match c with
      | 'x' => beginsHex 2 rest
      | 'u' => octets || beginsHex 4 rest
      | 'U' => octets || (beginsHex 8 rest &&
        Number.valueOf 16 ((rest.take 8).filterMap (Number.digitOf? 16)) < 0x110000)
      | 'N' => octets || beginsName rest
      | _ => true) && escapesFit octets rest
  | _ :: rest => escapesFit octets rest

/-- Whether letters can stand in front of a quote, and then whether they make the text octets and
whether escapes count for nothing. -/
def quoteManner? (letters : List Char) : Option (Bool × Bool) :=
  match letters.map Char.toLower with
  | [] | ['u'] => some (false, false)
  | ['r'] => some (false, true)
  | ['b'] => some (true, false)
  | ['b', 'r'] | ['r', 'b'] => some (true, true)
  | _ => none

/-- The quoted text after some letters, from its quote on, and the text after it. -/
def quotedToken? (letters text : List Char) : Option (ArgumentToken × List Char) := do
  let (octets, raw) ← quoteManner? letters
  let (body, after) ← match text with
    | '\'' :: '\'' :: '\'' :: rest => quotedBody true '\'' rest
    | '"' :: '"' :: '"' :: rest => quotedBody true '"' rest
    | quote :: rest => quotedBody false quote rest
    | [] => none
  if (octets && !body.all fun c => c.toNat < 0x80) || !(raw || escapesFit octets body) then none
  else return (if octets then .octets else .text, after)

/-- The token of a word. -/
def wordToken? (word : List Char) : Option ArgumentToken :=
  match String.ofList word with
  | "True" | "False" | "None" => some .constant
  | "set" => some .setWord
  | _ => none

/-- The characters that are marks by themselves. -/
def argumentMarks : List Char := ['(', ')', '{', '}', ',', ':', '+', '-']

/-- The token that a text begins with, and the text after it. -/
def argumentToken? (text : List Char) : Option (ArgumentToken × List Char) :=
  match text with
  | [] => none
  | '.' :: '.' :: '.' :: rest => some (.constant, rest)
  | c :: rest =>
    if c.isDigit || c == '.' then do
      let (numeral, after) ← numeral? text
      if after.head?.any fun c => c.isAlphanum || c == '_' then none
      else return (.numeral numeral, after)
    else if c ∈ argumentMarks then some (.mark c, rest)
    else
      let word := text.takeWhile fun c => c.isAlphanum || c == '_'
      let after := text.drop word.length
      if after.head? = some '\'' ∨ after.head? = some '"' then quotedToken? word after
      else (wordToken? word).map (·, after)

/-- How many brackets are open after a token. -/
def depthAfter (depth : Nat) : ArgumentToken → Nat
  | .mark c =>
    if c = '(' ∨ c = '{' then depth + 1 else if c = ')' ∨ c = '}' then depth - 1 else depth
  | _ => depth

/-- The tokens of a text within `depth` open brackets. `fuel` is no less than the length of the
text. -/
def argumentTokens? (fuel depth : Nat) (text : List Char) : Option (List ArgumentToken) :=
  match fuel, text with
  | _, [] => some []
  | 0, _ => none
  | fuel + 1, '#' :: rest => argumentTokens? fuel depth (rest.dropWhile (· ≠ '\n'))
  | fuel + 1, '\\' :: '\n' :: rest => argumentTokens? fuel depth rest
  | fuel + 1, '\n' :: rest =>
    let others := argumentTokens? fuel depth rest
    if depth = 0 then others.map (.lineEnd :: ·) else others
  | fuel + 1, c :: rest =>
    if c = ' ' ∨ c = '\t' ∨ c = '\x0c' then argumentTokens? fuel depth rest
    else do
      let (token, after) ← argumentToken? text
      return token :: (← argumentTokens? fuel (depthAfter depth token) after)

end Terminal

end MemberOrder
