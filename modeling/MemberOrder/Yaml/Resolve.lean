/-!
# What a plain scalar means

A scalar without quotes or a tag is read as null, a truth value, a number, a date, a merge or value
key, or else as a text, by its spelling alone.
-/

namespace MemberOrder

namespace Yaml

/-- The kinds of node that a reader knows. -/
inductive NodeTag
  | null
  | bool
  | int
  | float
  | binary
  | timestamp
  | omap
  | pairs
  | set
  | str
  | seq
  | map
  | merge
  | value
  | other (name : String)
deriving DecidableEq, Repr

namespace NodeTag

/-- What the names of the known tags begin with. -/
def namespaceName : String := "tag:yaml.org,2002:"

/-- The known tags with the word that ends their name. -/
def known : List (String × NodeTag) :=
  [("null", .null), ("bool", .bool), ("int", .int), ("float", .float), ("binary", .binary),
    ("timestamp", .timestamp), ("omap", .omap), ("pairs", .pairs), ("set", .set), ("str", .str),
    ("seq", .seq), ("map", .map), ("merge", .merge), ("value", .value)]

def ofName (name : String) : NodeTag :=
  match known.find? fun (word, _) => namespaceName ++ word == name with
  | some (_, tag) => tag
  | none => .other name

end NodeTag

/-! ### Spellings -/

def dropSign : List Char → List Char
  | '-' :: rest | '+' :: rest => rest
  | text => text

def isDigitOrLine (c : Char) : Bool := c.isDigit || c == '_'

/-- The text after a digit and any digits and underscores. -/
def afterDigits? : List Char → Option (List Char)
  | c :: rest => if c.isDigit then some (rest.dropWhile isDigitOrLine) else none
  | [] => none

/-- Whether a text is nothing, or an exponent with a sign. -/
def isExponent : List Char → Bool
  | [] => true
  | e :: sign :: digit :: rest =>
    (e == 'e' || e == 'E') && (sign == '-' || sign == '+') && digit.isDigit && rest.all Char.isDigit
  | _ => false

/-- The text after one or more groups of sixty, each a colon and up to two digits. -/
def afterSixties : Nat → List Char → Option (List Char)
  | 0, _ => none
  | fuel + 1, ':' :: rest =>
    let digits := rest.takeWhile Char.isDigit
    let fits := match digits with
      | [_] => true
      | [tens, _] => tens ≤ '5'
      | _ => false
    let after := rest.drop digits.length
    if !fits then none
    else match after with
      | ':' :: _ => afterSixties fuel after
      | _ => some after
  | _, _ => none

def isInteger (text : List Char) : Bool :=
  match dropSign text with
  | ['0'] => true
  | '0' :: 'b' :: rest => !rest.isEmpty && rest.all fun c => c == '0' || c == '1' || c == '_'
  | '0' :: 'x' :: rest =>
    !rest.isEmpty && rest.all fun c =>
      isDigitOrLine c || ('a' ≤ c && c ≤ 'f') || ('A' ≤ c && c ≤ 'F')
  | '0' :: rest => !rest.isEmpty && rest.all fun c => ('0' ≤ c && c ≤ '7') || c == '_'
  | digits =>
    match afterDigits? digits with
    | some [] => true
    | some rest => afterSixties rest.length rest == some []
    | none => false

def isFloat (text : List Char) : Bool :=
  let unsigned := dropSign text
  let pointed := match afterDigits? unsigned with
    | some ('.' :: rest) => isExponent (rest.dropWhile isDigitOrLine)
    | some rest => match afterSixties rest.length rest with
      | some ('.' :: rest) => rest.all isDigitOrLine
      | _ => false
    | none => false
  let bare := match text with
    | '.' :: rest => match afterDigits? rest with
      | some rest => isExponent rest
      | none => false
    | _ => false
  let word := String.ofList text
  pointed || bare || [".inf", ".Inf", ".INF"].contains (String.ofList unsigned) ||
    [".nan", ".NaN", ".NAN"].contains word

/-! ### Dates and times -/

/-- The parts of a written date or time. -/
structure WrittenTime where
  year : List Char
  month : List Char
  day : List Char
  clock : Option (List Char × List Char × List Char × List Char)
  /-- The sign, hours and minutes of an offset; no sign stands for universal time. -/
  offset : Option (Option Char × List Char × List Char)

/-- Between `least` and two digits, with the text after them. -/
def shortNumber? (least : Nat) (text : List Char) : Option (List Char × List Char) :=
  let digits := (text.take 2).takeWhile Char.isDigit
  if least ≤ digits.length then some (digits, text.drop digits.length) else none

/-- The text after a character. -/
def expect? (c : Char) : List Char → Option (List Char)
  | ch :: rest => if ch = c then some rest else none
  | [] => none

def isBlankOrTab (c : Char) : Bool := c == ' ' || c == '\t'

/-- What separates a date from a time. -/
def afterDateGap? : List Char → Option (List Char)
  | 'T' :: rest | 't' :: rest => some rest
  | c :: rest => if isBlankOrTab c then some (rest.dropWhile isBlankOrTab) else none
  | [] => none

/-- An offset at the end of a time, after optional blanks. -/
def offsetOf? (text : List Char) : Option (Option (Option Char × List Char × List Char)) :=
  match text.dropWhile isBlankOrTab with
  | [] => if text.isEmpty then some none else none
  | ['Z'] => some (some (none, [], []))
  | sign :: rest =>
    if sign = '-' ∨ sign = '+' then do
      let (hours, rest) ← shortNumber? 1 rest
      match rest with
      | [] => some (some (some sign, hours, []))
      | _ => do
        let (minutes, rest) ← shortNumber? 2 (← expect? ':' rest)
        if rest.isEmpty then some (some (some sign, hours, minutes)) else none
    else none

/-- The parts of a text that is written as a date or a time. -/
def writtenTime? (text : List Char) : Option WrittenTime := do
  let year := (text.take 4).takeWhile Char.isDigit
  guard (year.length = 4)
  let (month, rest) ← shortNumber? 1 (← expect? '-' (text.drop 4))
  let (day, rest) ← shortNumber? 1 (← expect? '-' rest)
  match rest with
  | [] => some ⟨year, month, day, none, none⟩
  | _ => do
    let (hour, rest) ← shortNumber? 1 (← afterDateGap? rest)
    let (minute, rest) ← shortNumber? 2 (← expect? ':' rest)
    let (second, rest) ← shortNumber? 2 (← expect? ':' rest)
    let (fraction, rest) := match rest with
      | '.' :: rest => (rest.takeWhile Char.isDigit, rest.dropWhile Char.isDigit)
      | rest => ([], rest)
    let offset ← offsetOf? rest
    some ⟨year, month, day, some (hour, minute, second, fraction), offset⟩

/-- Whether a plain scalar is a date or time: a date alone needs two digits for month and day. -/
def isTimestamp (text : List Char) : Bool :=
  match writtenTime? text with
  | some time => time.clock.isSome || (time.month.length == 2 && time.day.length == 2)
  | none => false

/-! ### The meaning -/

def nullWords : List String := ["", "~", "null", "Null", "NULL"]

def boolWords : List String :=
  ["yes", "Yes", "YES", "no", "No", "NO", "true", "True", "TRUE", "false", "False", "FALSE", "on",
    "On", "ON", "off", "Off", "OFF"]

/-- A text without one line feed at its end. -/
def dropFinalBreak (text : List Char) : List Char :=
  if text.getLast? == some '\n' then text.dropLast else text

/-- The tag of a plain scalar. -/
def implicitTag (text : String) : NodeTag :=
  let spelling := dropFinalBreak text.toList
  let word := String.ofList spelling
  if text.isEmpty then .null
  else if boolWords.contains word then .bool
  else if isFloat spelling then .float
  else if isInteger spelling then .int
  else if word == "<<" then .merge
  else if !word.isEmpty && nullWords.contains word then .null
  else if isTimestamp spelling then .timestamp
  else if word == "=" then .value
  else if word == "!" || word == "&" || word == "*" then .other "tag:yaml.org,2002:yaml"
  else .str

end Yaml

end MemberOrder
