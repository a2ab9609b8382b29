/-!
# Ranges of code points

A property of characters is kept as the inclusive ranges of the code points that have it.
-/

namespace MemberOrder

namespace Text

/-- Whether a code point lies in one of the inclusive ranges. -/
def inRanges (ranges : List (Nat × Nat)) (code : Nat) : Bool :=
  ranges.any fun (first, last) => first ≤ code && code ≤ last

end Text

end MemberOrder
