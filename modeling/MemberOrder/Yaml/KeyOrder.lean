import MemberOrder.Value.Basic

/-!
# The order of keys

Keys of one kind are put in order: numbers by size, texts and octets from their first difference
on, dates and times by the calendar. Keys of several kinds stay as they are. What is no number is
neither before nor after another number, so its place depends on how the order is found: by
inserting one key after the other.
-/

namespace MemberOrder

namespace Yaml

/-- Whether one row of octets is before another, at the first difference or by being its start. -/
def octetsBefore : List UInt8 → List UInt8 → Bool
  | [], second => !second.isEmpty
  | _ :: _, [] => false
  | a :: first, b :: second => a < b || (a == b && octetsBefore first second)

/-- Whether one key is before another. Keys of different kinds have no order. -/
def keyBefore? (a b : Value) : Option Bool :=
  match a.wholeNumber?, b.wholeNumber?, a, b with
  | some m, some n, _, _ => some (m < n)
  | some m, none, _, .float y => some (y.isAbove m)
  | none, some n, .float x, _ => some (x.isBelow n)
  | none, none, .float x, .float y => some (x.isLess y)
  | none, none, .str s, .str t => some (s < t)
  | none, none, .bytes s, .bytes t => some (octetsBefore s t)
  | none, none, .date _ s, .date _ t => some (s.ordinal < t.ordinal)
  | none, none, .moment _ s, .moment _ t => s.isBefore? t
  | _, _, _, _ => none

section

variable {α : Type} (before : α → α → Bool)

/-- How many further elements of a row go on as its first two begin: each before the one in front of
it, or none. -/
def runLength (falling : Bool) (last : α) : List α → Nat
  | [] => 0
  | next :: rest => if before next last = falling then runLength falling next rest + 1 else 0

/-- The place of an element in a row in order, between the places `low` and `high`. `fuel` is no
less than the distance of these. -/
def placeOf (fuel : Nat) (row : Array α) (x : α) (low high : Nat) : Nat :=
  match fuel with
  | 0 => low
  | fuel + 1 =>
    if low < high then
      let middle := (low + high) / 2
      if row[middle]?.any (before x) then placeOf fuel row x low middle
      else placeOf fuel row x (middle + 1) high
    else low

/-- A row with an element put in its place. -/
def insertInOrder (row : List α) (x : α) : List α :=
  row.insertIdx (placeOf before (row.length + 1) row.toArray x 0 row.length) x

/-- Elements in order. Those at the start that are in order or against it are taken as they are or
turned round; the others are inserted. -/
def inOrder : List α → List α
  | first :: second :: rest =>
    let falling := before second first
    let count := runLength before falling second rest + 2
    let run := (first :: second :: rest).take count
    ((first :: second :: rest).drop count).foldl (insertInOrder before)
      (if falling then run.reverse else run)
  | row => row

end

/-- Entries in the order of their keys, if these are of one kind. -/
def sortEntries (entries : Entries) : Entries :=
  let comparable := entries.all fun (key, _) =>
    entries.head?.all fun (first, _) => (keyBefore? first key).isSome
  if comparable then inOrder (fun (a, _) (b, _) => (keyBefore? a b).getD false) entries else entries

mutual

/-- The value with the entries of its maps and sets in the order of their keys. -/
def sortKeys : Value → Value
  | .list mark items => .list mark (sortItemKeys items)
  | .pair first second => .pair (sortKeys first) (sortKeys second)
  | .set mark items =>
    .set mark ((sortEntries (items.map fun item => (item, .null))).map Prod.fst)
  | .map mark entries => .map mark (sortEntries (sortEntryKeys entries))
  | value => value

def sortItemKeys : List Value → List Value
  | [] => []
  | item :: rest => sortKeys item :: sortItemKeys rest

def sortEntryKeys : List (Value × Value) → List (Value × Value)
  | [] => []
  | (key, value) :: rest => (key, sortKeys value) :: sortEntryKeys rest

end

end Yaml

end MemberOrder
