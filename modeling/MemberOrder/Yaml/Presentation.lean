import MemberOrder.Number.Shortest
import MemberOrder.Text.Base64
import MemberOrder.Value.Basic
import MemberOrder.Yaml.Resolve

/-!
# How a value is presented in YAML

Before a value is written it becomes a tree of scalars, sequences and mappings, where a collection
or date that occurs again is an alias of its first occurrence. Anchors are numbered in the order in
which values are found to occur again.
-/

namespace MemberOrder

namespace Yaml

/-- A node as it will be written. -/
inductive Presented where
  | alias (anchor : Nat)
  | scalar (anchor : Option Nat) (tag : NodeTag) (text : String)
  /-- `isPair` tells a pair that gets a tag from other sequences. -/
  | sequence (anchor : Option Nat) (isPair : Bool) (items : List Presented)
  /-- `isSet` tells a set, which needs its tag, from a map. -/
  | mapping (anchor : Option Nat) (isSet : Bool) (entries : List (Presented × Presented))

/-- The marks met so far, and the number of the anchor of those met again. -/
structure Occurrences where
  met : List Nat
  anchors : List (Nat × Nat)

namespace Occurrences

/-- Notes that a value occurs again. -/
def again (seen : Occurrences) (mark : Nat) : Occurrences :=
  match seen.anchors.lookup mark with
  | some _ => seen
  | none => { seen with anchors := seen.anchors ++ [(mark, seen.anchors.length + 1)] }

/-- Notes a value: whether it is new, so that what it holds counts too. -/
def note (seen : Occurrences) : Mark → Bool × Occurrences
  | none => (true, seen)
  | some mark =>
    if seen.met.contains mark then (false, seen.again mark)
    else (true, { seen with met := mark :: seen.met })

end Occurrences

mutual

/-- The occurrences in a value after those seen before it. -/
def occurrences (seen : Occurrences) : Value → Occurrences
  | .date mark _ | .moment mark _ => (seen.note mark).2
  | .list mark items =>
    match seen.note mark with
    | (true, seen) => itemOccurrences seen items
    | (false, seen) => seen
  | .set mark items =>
    match seen.note mark with
    | (true, seen) => itemOccurrences seen items
    | (false, seen) => seen
  | .map mark entries =>
    match seen.note mark with
    | (true, seen) => entryOccurrences seen entries
    | (false, seen) => seen
  | .pair first second => occurrences (occurrences seen first) second
  | .back mark _ => seen.again mark
  | _ => seen

def itemOccurrences (seen : Occurrences) : List Value → Occurrences
  | [] => seen
  | item :: rest => itemOccurrences (occurrences seen item) rest

def entryOccurrences (seen : Occurrences) : List (Value × Value) → Occurrences
  | [] => seen
  | (key, value) :: rest => entryOccurrences (occurrences (occurrences seen key) value) rest

end

/-- The text of a number: an exponent has a point before it. -/
def floatText (x : Number.Binary64) : String :=
  if x.isNaN then ".nan"
  else if x.isInfinite then (if x.isNegative then "-.inf" else ".inf")
  else
    let text := x.text .plain
    if text.contains 'e' && !text.contains '.' then
      String.ofList (text.toList.flatMap fun c => if c = 'e' then ".0e".toList else [c])
    else text

mutual

/-- A value with the given anchors; `met` are the marks written before it. Pairs are `tagged` or
presented as lists. -/
def present (tagged : Bool) (anchors : List (Nat × Nat)) (met : List Nat) :
    Value → Presented × List Nat
  | .null => (.scalar none .null "null", met)
  | .bool b => (.scalar none .bool (if b then "true" else "false"), met)
  | .int n => (.scalar none .int (toString n), met)
  | .float x => (.scalar none .float (floatText x), met)
  | .str s => (.scalar none .str s, met)
  | .bytes octets => (.scalar none .binary (Text.encodeBase64 octets), met)
  | .date mark d => leaf mark .timestamp d.text
  | .moment mark m => leaf mark .timestamp m.text
  | .list mark items =>
    match aliasOf mark with
    | some anchor => (.alias anchor, met)
    | none =>
      let (items, met) := presentItems tagged anchors (mark.toList ++ met) items
      (.sequence (anchorOf mark) false items, met)
  | .set mark items =>
    match aliasOf mark with
    | some anchor => (.alias anchor, met)
    | none =>
      let (items, met) := presentItems tagged anchors (mark.toList ++ met) items
      (.mapping (anchorOf mark) true (items.map fun item => (item, .scalar none .null "null")), met)
  | .map mark entries =>
    match aliasOf mark with
    | some anchor => (.alias anchor, met)
    | none =>
      let (entries, met) := presentEntries tagged anchors (mark.toList ++ met) entries
      (.mapping (anchorOf mark) false entries, met)
  | .pair first second =>
    let (first, met) := present tagged anchors met first
    let (second, met) := present tagged anchors met second
    (.sequence none tagged [first, second], met)
  | .back mark _ => (.alias ((anchors.lookup mark).getD 0), met)
where
  anchorOf (mark : Mark) : Option Nat := mark.bind fun mark => anchors.lookup mark
  /-- The anchor of a value that was written before. -/
  aliasOf (mark : Mark) : Option Nat :=
    mark.bind fun mark => if met.contains mark then anchors.lookup mark else none
  leaf (mark : Mark) (tag : NodeTag) (text : String) : Presented × List Nat :=
    match aliasOf mark with
    | some anchor => (.alias anchor, met)
    | none => (.scalar (anchorOf mark) tag text, mark.toList ++ met)

def presentItems (tagged : Bool) (anchors : List (Nat × Nat)) (met : List Nat) :
    List Value → List Presented × List Nat
  | [] => ([], met)
  | item :: rest =>
    let (item, met) := present tagged anchors met item
    let (rest, met) := presentItems tagged anchors met rest
    (item :: rest, met)

def presentEntries (tagged : Bool) (anchors : List (Nat × Nat)) (met : List Nat) :
    List (Value × Value) → List (Presented × Presented) × List Nat
  | [] => ([], met)
  | (key, value) :: rest =>
    let (key, met) := present tagged anchors met key
    let (value, met) := present tagged anchors met value
    let (rest, met) := presentEntries tagged anchors met rest
    ((key, value) :: rest, met)

end

/-- A whole document as it will be written. -/
def presentDocument (tagged : Bool) (value : Value) : Presented :=
  (present tagged (occurrences ⟨[], []⟩ value).anchors [] value).1

end Yaml

end MemberOrder
