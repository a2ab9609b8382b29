import MemberOrder.Value.Basic

/-!
# The order of a set

A set of numbers keeps each number in a slot of its own and shows them slot by slot. There are more
than enough slots, and a number's home among them is told by its residue: numbers smaller than the
count of slots come by size, in whatever order they were given. A number whose home is taken goes to
the next free slot close by, or on to another neighbourhood. Sets with other elements keep the order
in which they were given.
-/

namespace MemberOrder

namespace Value

/-- The modulus of the residues. A power of two has one of 61 residues by it. -/
def slotModulus : Nat := Nat.pow 2 61 - 1

/-- A residue with the sign of its number. There is no residue of minus one. -/
def signedResidue (negative : Bool) (residue : Nat) : Int :=
  if negative then (if residue = 1 then -2 else -residue) else residue

/-- The residue that tells a number's home. Equal numbers have one residue, of whichever kind they
are, and what is no number has none. -/
def slotResidue? : Value → Option Int
  | .bool b => some (if b then 1 else 0)
  | .int n => some (signedResidue (n < 0) (n.natAbs % slotModulus))
  | .float x =>
    if x.isNaN then none
    else if x.isInfinite then some (if x.isNegative then -314159 else 314159)
    else
      let (significand, exponent) := x.parts
      let weight := Nat.pow 2 (exponent % 61).toNat
      some (signedResidue x.isNegative (significand * weight % slotModulus))
  | _ => none

/-- How many slots so many numbers have: a power of two, and more than twice their count if that is
more than eight. -/
def slotCount (count : Nat) : Nat := if count < 5 then 8 else Nat.pow 2 (Nat.log2 (2 * count) + 1)

/-- How many slots after a home are close by. -/
def slotReach : Nat := 9

/-- A free slot for a number, looked for from the place `home` on. What is left of the number's
residue, `spread`, tells the neighbourhood that is looked at next; once nothing is left of it all
slots are reached in turn, so there is `fuel` enough for all of them. -/
def freeSlot (slots : Array (Option Value)) (fuel home spread : Nat) : Nat :=
  match fuel with
  | 0 => home
  | fuel + 1 =>
    let reach := if home + slotReach < slots.size then slotReach else 0
    match (List.range (reach + 1)).find? fun step => (slots.getD (home + step) none).isNone with
    | some step => home + step
    | none =>
      let spread := spread / 32
      freeSlot slots fuel ((home * 5 + 1 + spread) % slots.size) spread

/-- Puts a number with the given residue into a free slot. -/
def takeSlot (slots : Array (Option Value)) (number : Value × Int) : Array (Option Value) :=
  let spread := (number.2 % Int.pow 2 64).toNat
  let slot := freeSlot slots (slots.size + 13) (spread % slots.size) spread
  slots.setIfInBounds slot (some number.1)

/-- The elements of a set in its order. -/
def setOrder (elements : List Value) : List Value :=
  match elements.mapM fun element => element.slotResidue?.map (element, ·) with
  | some numbers =>
    let slots := Array.replicate (slotCount elements.length) none
    (numbers.foldl takeSlot slots).toList.filterMap id
  | none => elements

end Value

end MemberOrder
