import MemberOrder.Number.Shortest
import MemberOrder.Value.Basic

/-!
# Writing JSON

A value is written with one item a line or on one line, and with characters beyond ASCII as
themselves or escaped. Values that the format does not know are faults, found in reading order.
-/

namespace MemberOrder

namespace Json

/-- How a text is laid out. -/
structure Layout where
  /-- Blanks of one level of indentation; without it all stands on one line. -/
  indent : Option Nat
  /-- Whether characters beyond ASCII are escaped. -/
  ascii : Bool

namespace Layout

/-- Two blanks a level, and all characters as themselves. -/
def document : Layout := ⟨some 2, false⟩

/-- Two blanks a level, in ASCII. -/
def portable : Layout := ⟨some 2, true⟩

/-- One line, in ASCII. -/
def line : Layout := ⟨none, true⟩

/-- The break before an item at a level of indentation. -/
def breakAt (layout : Layout) (level : Nat) : List Char :=
  match layout.indent with
  | some width => '\n' :: List.replicate (width * level) ' '
  | none => []

/-- What separates two items at a level. -/
def separator (layout : Layout) (level : Nat) : List Char :=
  match layout.indent with
  | some _ => ',' :: layout.breakAt level
  | none => [',', ' ']

end Layout

/-- Why a value cannot be written. -/
inductive WriteFault
  /-- A value or key of a kind that the format does not have. -/
  | kind (name : String)
  /-- A collection that contains itself. -/
  | circular
  /-- A whole number with more digits than the limit. -/
  | tooManyDigits
deriving DecidableEq, Repr

/-- The wording of the faults that are said in words. -/
def WriteFault.message : WriteFault → String
  | .kind name => "a value of kind " ++ name ++ " cannot be written"
  | .circular => "Circular reference detected"
  | .tooManyDigits =>
    "Exceeds the limit (4300 digits) for integer string conversion; " ++
      "use sys.set_int_max_str_digits() to increase the limit"

/-- Four hexadecimal places of a 16-bit unit. -/
def unitEscape (unit : Nat) : List Char :=
  let figures := Nat.toDigits 16 unit
  ['\\', 'u'] ++ List.replicate (4 - figures.length) '0' ++ figures

/-- The escape of any character: one unit, or two beyond the basic plane. -/
def codeEscape (c : Char) : List Char :=
  if c.toNat < 0x10000 then unitEscape c.toNat
  else
    let above := c.toNat - 0x10000
    unitEscape (0xD800 + above / 1024) ++ unitEscape (0xDC00 + above % 1024)

/-- One character of a string. -/
def escapeChar (ascii : Bool) (c : Char) : List Char :=
  if c = '"' then ['\\', '"']
  else if c = '\\' then ['\\', '\\']
  else if c = '\n' then ['\\', 'n']
  else if c = '\r' then ['\\', 'r']
  else if c = '\t' then ['\\', 't']
  else if c = '\x0c' then ['\\', 'f']
  else if c = '\x08' then ['\\', 'b']
  else if c.toNat < 0x20 then codeEscape c
  else if ascii && 0x7E < c.toNat then codeEscape c
  else [c]

/-- A string in quotes. -/
def stringText (ascii : Bool) (text : String) : List Char :=
  '"' :: text.toList.flatMap (escapeChar ascii) ++ ['"']

/-- A whole number in decimal, within the limit on digits. -/
def wholeText (n : Int) : Except WriteFault String :=
  let text := toString n
  if 4300 < text.length - (if n < 0 then 1 else 0) then .error .tooManyDigits else .ok text

/-- A key as the string that stands for it. -/
def keyText : Value → Except WriteFault String
  | .str s => .ok s
  | .float x => .ok (x.text .named)
  | .bool b => .ok (if b then "true" else "false")
  | .null => .ok "null"
  | .int n => wholeText n
  | key => .error (.kind key.kindName)

/-- What has been written, and the fault that ended it if one did. -/
structure Draft where
  text : List Char
  fault : Option WriteFault

namespace Draft

def done (text : List Char) : Draft := ⟨text, none⟩

def failed (fault : WriteFault) : Draft := ⟨[], some fault⟩

/-- Goes on writing, unless a fault has ended it. -/
def append (first second : Draft) : Draft :=
  match first.fault with
  | none => ⟨first.text ++ second.text, second.fault⟩
  | some _ => first

instance : Append Draft := ⟨append⟩

/-- A text that may fail to have a form. -/
def ofExcept : Except WriteFault String → Draft
  | .ok text => done text.toList
  | .error fault => failed fault

end Draft

/-- What stands before an item, and the item. A whole number without a form is found before anything
of it is written. -/
def itemDraft (before : List Char) (item : Value) (draft : Draft) : Draft :=
  match item with
  | .int _ => if draft.fault.isSome then draft else .done before ++ draft
  | _ => .done before ++ draft

/-- A key with what separates it from its value, after `before`. A key without a form is found
before anything of its entry is written. -/
def keyDraft (layout : Layout) (before : List Char) (key : Value) : Draft :=
  match keyText key with
  | .ok name => .done (before ++ stringText layout.ascii name ++ [':', ' '])
  | .error fault => .failed fault

mutual

/-- A value that stands at a level of indentation. -/
def valueDraft (layout : Layout) (level : Nat) : Value → Draft
  | .null => .done "null".toList
  | .bool b => .done (if b then "true" else "false").toList
  | .int n => .ofExcept (wholeText n)
  | .float x => .done (x.text .named).toList
  | .str s => .done (stringText layout.ascii s)
  | .list _ [] => .done ['[', ']']
  | .list _ (item :: rest) =>
    itemDraft ('[' :: layout.breakAt (level + 1)) item (valueDraft layout (level + 1) item) ++
      itemDrafts layout (level + 1) rest ++ .done (layout.breakAt level ++ [']'])
  | .pair first second =>
    itemDraft ('[' :: layout.breakAt (level + 1)) first (valueDraft layout (level + 1) first) ++
      itemDraft (layout.separator (level + 1)) second (valueDraft layout (level + 1) second) ++
      .done (layout.breakAt level ++ [']'])
  | .map _ [] => .done ['\x7b', '\x7d']
  | .map _ ((key, value) :: rest) =>
    .done ('\x7b' :: layout.breakAt (level + 1)) ++ keyDraft layout [] key ++
      valueDraft layout (level + 1) value ++ entryDrafts layout (level + 1) rest ++
      .done (layout.breakAt level ++ ['\x7d'])
  | .back _ _ => .failed .circular
  | .bytes octets => .failed (.kind (Value.bytes octets).kindName)
  | .date mark d => .failed (.kind (Value.date mark d).kindName)
  | .moment mark m => .failed (.kind (Value.moment mark m).kindName)
  | .set mark items => .failed (.kind (Value.set mark items).kindName)

/-- The items after the first, each with its separator in front. -/
def itemDrafts (layout : Layout) (level : Nat) : List Value → Draft
  | [] => .done []
  | item :: rest =>
    itemDraft (layout.separator level) item (valueDraft layout level item) ++
      itemDrafts layout level rest

/-- The entries after the first, each with its separator in front. -/
def entryDrafts (layout : Layout) (level : Nat) : List (Value × Value) → Draft
  | [] => .done []
  | (key, value) :: rest =>
    keyDraft layout (layout.separator level) key ++ valueDraft layout level value ++
      entryDrafts layout level rest

end

/-- The text of a value. -/
def write (layout : Layout) (value : Value) : Except WriteFault String :=
  let draft := valueDraft layout 0 value
  match draft.fault with
  | none => .ok (String.ofList draft.text)
  | some fault => .error fault

end Json

end MemberOrder
