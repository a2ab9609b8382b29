import MemberOrder.Value.Basic

/-!
# Values that can be written down

A value can be written down if it does not contain itself and its whole numbers are within the limit
on digits.
-/

namespace MemberOrder

namespace Value

mutual

/-- The value with a copy for each use of a shared part, if it does not contain itself. -/
def unshared : Value → Option Value
  | .back _ _ => none
  | .date _ d => some (.date none d)
  | .moment _ m => some (.moment none m)
  | .list _ items => (unsharedItems items).map (.list none)
  | .set _ items => (unsharedItems items).map (.set none)
  | .map _ entries => (unsharedEntries entries).map (.map none)
  | .pair first second => do return .pair (← unshared first) (← unshared second)
  | value => some value

def unsharedItems : List Value → Option (List Value)
  | [] => some []
  | item :: rest => do return (← unshared item) :: (← unsharedItems rest)

def unsharedEntries : List (Value × Value) → Option (List (Value × Value))
  | [] => some []
  | (key, value) :: rest => do
    return (← unshared key, ← unshared value) :: (← unsharedEntries rest)

end

mutual

/-- Whether a whole number in a value has too many digits to be written. -/
def exceedsDigits : Value → Bool
  | .int n => Nat.pow 10 4300 ≤ n.natAbs
  | .list _ items | .set _ items => anyExceedsDigits items
  | .pair first second => exceedsDigits first || exceedsDigits second
  | .map _ entries => anyEntryExceedsDigits entries
  | _ => false

def anyExceedsDigits : List Value → Bool
  | [] => false
  | item :: rest => exceedsDigits item || anyExceedsDigits rest

def anyEntryExceedsDigits : List (Value × Value) → Bool
  | [] => false
  | (key, value) :: rest => exceedsDigits key || exceedsDigits value || anyEntryExceedsDigits rest

end

end Value

end MemberOrder
