import MemberOrder.Notice
import MemberOrder.Order.Tally
import MemberOrder.Store.Path
import MemberOrder.Tree.Walk

/-!
# The outcome of sorting a document

`Sorting.of` keeps the declarations before and after, and the counts of their members.
-/

namespace MemberOrder

structure Sorting where
  source : Option Path
  given : List Node
  sorted : List Node
  tally : Tally
deriving Repr

namespace Sorting

/-- The outcome of sorting declarations. -/
def of (deep : Bool) (source : Option Path) (decls : List Node) : Sorting :=
  ⟨source, decls, sortTrees deep decls, Tally.of decls⟩

/-- Whether sorting changed anything. -/
def changed (sorting : Sorting) : Bool := !Node.sameAll sorting.sorted sorting.given

/-- The outcome as an object. -/
def object (sorting : Sorting) : Value :=
  .map none (Entries.ofFields [
    ("source", (sorting.source.map fun path => Value.str path.text).getD .null),
    ("changed", .bool sorting.changed), ("declarations", sorting.tally.object)])

/-- What is told about the fallbacks of aliases. -/
def fallbackNotices (found : List Fallback) : List Notice :=
  found.map fun fallback => ⟨.sorting, .debug, fallback.message⟩

/-- What is told while members are counted. -/
def tallyNotices (decls : List Node) : List Notice :=
  fallbackNotices ((Node.preorder decls).flatMap Tally.containerFallbacks)

/-- What is told while declarations are sorted and counted. -/
def notices (deep : Bool) (sorting : Sorting) : List Notice :=
  fallbackNotices (treesFallbacks deep sorting.given) ++ tallyNotices sorting.given ++
    [⟨.files, .debug, "Sorted " ++ toString sorting.given.length ++ " declarations (" ++
      (if sorting.changed then "changed" else "unchanged") ++ ")"⟩]

end Sorting

end MemberOrder
