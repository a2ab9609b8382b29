import MemberOrder.Number.Binary64
import MemberOrder.Value.Calendar

/-!
# Plain data values

The values that a document can hold, whichever format it is written in. Collections and dates of a
document with references carry a mark: two values with one mark are one shared value. A value that
contains itself holds a reference to its mark where it occurs again.
-/

namespace MemberOrder

/-- The identity of a value that a document may use in several places. -/
abbrev Mark := Option Nat

/-- A value of a document. -/
inductive Value where
  | null
  | bool (b : Bool)
  | int (n : Int)
  | float (x : Number.Binary64)
  | str (s : String)
  | bytes (octets : List UInt8)
  | date (mark : Mark) (day : Date)
  | moment (mark : Mark) (time : Moment)
  | list (mark : Mark) (items : List Value)
  | pair (first second : Value)
  | set (mark : Mark) (items : List Value)
  | map (mark : Mark) (entries : List (Value × Value))
  /-- A collection that is being defined around this place; `keyed` tells maps from lists. -/
  | back (mark : Nat) (keyed : Bool)
deriving Repr, Inhabited

/-- The entries of a map in their order. -/
abbrev Entries := List (Value × Value)

namespace Value

/-- The name of a value's kind. -/
def kindName : Value → String
  | .null => "NoneType"
  | .bool _ => "bool"
  | .int _ => "int"
  | .float _ => "float"
  | .str _ => "str"
  | .bytes _ => "bytes"
  | .date _ _ => "date"
  | .moment _ _ => "datetime"
  | .list _ _ | .back _ false => "list"
  | .pair _ _ => "tuple"
  | .set _ _ => "set"
  | .map _ _ | .back _ true => "dict"

/-- Whether a value counts as present: not null, false, zero or empty. -/
def isPresent : Value → Bool
  | .null => false
  | .bool b => b
  | .int n => n != 0
  | .float x => !x.isZero
  | .str s => !s.isEmpty
  | .bytes octets => !octets.isEmpty
  | .list _ items | .set _ items => !items.isEmpty
  | .map _ entries => !entries.isEmpty
  | .date _ _ | .moment _ _ | .pair _ _ | .back _ _ => true

/-- The number that a truth value, a whole number or a binary fraction stands for. -/
def wholeNumber? : Value → Option Int
  | .bool b => some (if b then 1 else 0)
  | .int n => some n
  | _ => none

/-- Whether two values are one key of a map: numbers by their value, all else by kind and value. -/
def sameKey (a b : Value) : Bool :=
  match a.wholeNumber?, b.wholeNumber?, a, b with
  | some m, some n, _, _ => m == n
  | some m, none, _, .float y => y.equalsInt m
  | none, some n, .float x, _ => x.equalsInt n
  | none, none, .float x, .float y => x.sameNumber y
  | none, none, .null, .null => true
  | none, none, .str s, .str t => s == t
  | none, none, .bytes s, .bytes t => s == t
  | none, none, .date _ s, .date _ t => s == t
  | none, none, .moment _ s, .moment _ t => s.same t
  | _, _, _, _ => false

/-- Whether a value may be a key of a map. -/
def isKey : Value → Bool
  | .list _ _ | .set _ _ | .map _ _ | .back _ _ => false
  | _ => true

/-- The text of a string value. -/
def text? : Value → Option String
  | .str s => some s
  | _ => none

end Value

namespace Entries

/-- Gives a key its value: in its place if the key is there, at the end if it is not. -/
def put (entries : Entries) (key value : Value) : Entries :=
  match entries with
  | [] => [(key, value)]
  | (k, v) :: rest =>
    if k.sameKey key then (k, value) :: rest else (k, v) :: put rest key value

/-- The value of a key. -/
def get? (entries : Entries) (key : Value) : Option Value :=
  match entries with
  | [] => none
  | (k, v) :: rest => if k.sameKey key then some v else get? rest key

/-- The value of a key that is a text. -/
def field? (entries : Entries) (name : String) : Option Value :=
  get? entries (.str name)

/-- The entries of a map with string keys. -/
def ofFields (fields : List (String × Value)) : Entries :=
  fields.map fun (name, value) => (.str name, value)

end Entries

namespace Value

mutual

/-- Replaces the references to enclosing collections by their definitions. -/
def close (scope : List (Nat × Value)) : Value → Value
  | .back mark keyed => (scope.lookup mark).getD (.back mark keyed)
  | .list mark items => .list mark (closeItems scope items)
  | .map mark entries => .map mark (closeEntries scope entries)
  | .pair first second => .pair (close scope first) (close scope second)
  | value => value

def closeItems (scope : List (Nat × Value)) : List Value → List Value
  | [] => []
  | item :: rest => close scope item :: closeItems scope rest

def closeEntries (scope : List (Nat × Value)) : List (Value × Value) → List (Value × Value)
  | [] => []
  | (key, value) :: rest => (key, close scope value) :: closeEntries scope rest

end

/-- What a collection's own contents are closed over. -/
def enter (scope : List (Nat × Value)) (value : Value) : Mark → List (Nat × Value)
  | none => scope
  | some mark => (mark, close scope value) :: scope

end Value

end MemberOrder
