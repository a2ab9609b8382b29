import MemberOrder.Store.Basic
import MemberOrder.Value.Literal

/-!
# Store faults in words
-/

namespace MemberOrder

namespace StoreFault

/-- A fault with its number and the address in quotes; a fault without a number has neither. -/
def message (fault : StoreFault) : String :=
  match fault.cause.number? with
  | some number =>
    "[Errno " ++ toString number ++ "] " ++ fault.cause.words ++ ": " ++
      Value.quotedText fault.address
  | none => fault.cause.words

/-- A fault with the address as it is. -/
def shortMessage (fault : StoreFault) : String :=
  if fault.address.isEmpty then fault.message else fault.cause.words ++ ": " ++ fault.address

end StoreFault

end MemberOrder
