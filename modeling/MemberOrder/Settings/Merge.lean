import MemberOrder.Value.Basic

/-!
# Merging documents

Entries of a later document win over those of an earlier one, but where both have entries under a
key these are merged in turn. `mergeAll` merges any number of documents from the left.
-/

namespace MemberOrder

namespace Settings

mutual

/-- The value of a key in a merged document, given the one before if there is one. -/
def mergeValue (before : Option Value) : Value → Value
  | .map mark later =>
    match before with
    | some (.map _ earlier) => .map none (mergeEntries earlier later)
    | _ => .map mark later
  | value => value

/-- Earlier entries with later ones merged into them, one after the other. -/
def mergeEntries (earlier : Entries) : List (Value × Value) → Entries
  | [] => earlier
  | (key, value) :: rest =>
    mergeEntries (earlier.put key (mergeValue (earlier.get? key) value)) rest

end

/-- A document with another one merged into it. Absent and empty ones change nothing; anything else
that holds no entries cannot be merged. -/
def mergeInto (earlier : Entries) (document : Value) : Option Entries :=
  match document with
  | .map _ later => some (mergeEntries earlier later)
  | value => if value.isPresent then none else some earlier

/-- Documents merged from the left. -/
def mergeAll (documents : List Value) : Option Entries :=
  documents.foldlM mergeInto []

end Settings

end MemberOrder
