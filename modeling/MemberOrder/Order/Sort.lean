import MemberOrder.Order.Category
import MemberOrder.Order.Visibility

/-!
# The canonical order of members

`categorize` gives each member that is no marker its category and states a visibility that only a
marker had set. `sortMembers` puts the categories one after the other and keeps the order inside
each; `sortTree` does so for a container and, if asked, for those inside it.
-/

namespace MemberOrder

/-- A member that says itself what it was only by a marker: hidden. Module functions, and members
that state their visibility, stay as they are. -/
def stamp (member : Node) (visibility : Option Visibility) : Node :=
  match visibility, member with
  | some .hidden, .method decl =>
    if decl.kind = .onBoth ∨ decl.visibility.isSome then member
    else .method { decl with visibility := some .hidden }
  | some .hidden, .attribute decl =>
    if decl.visibility.isSome then member else .attribute { decl with visibility := some .hidden }
  | some .hidden, .alias decl =>
    if decl.visibility.isSome then member else .alias { decl with visibility := some .hidden }
  | _, _ => member

/-- The category of a member among others, with the member as it is shown. -/
def Table.entry (table : Table) (placed : Placed) : Category × Node :=
  let visibility := table.effective placed
  (.of placed.member visibility, stamp placed.member visibility)

/-- The members of one declaration without the markers, with their categories, in input order. -/
def categorize (members : List Node) : List (Category × Node) :=
  let placed := place .shown members
  placed.map (Table.ofPlaced placed).entry

/-- The members of one category among members with their categories, in input order. -/
def bucket (entries : List (Category × Node)) (category : Category) : List Node :=
  entries.filterMap fun (given, member) => if given = category then some member else none

/-- Every category with its members. -/
def partition (members : List Node) : List (Category × List Node) :=
  let entries := categorize members
  Category.all.map fun category => (category, bucket entries category)

/-- The members of one declaration in canonical order. -/
def sortMembers (members : List Node) : List Node :=
  (partition members).flatMap Prod.snd

/-- The fallbacks of all aliases of a list, in the order of the aliases. -/
def fallbacks (members : List Node) : List Fallback :=
  let placed := place .shown members
  let table := Table.ofPlaced placed
  (placed.filterMap Placed.alias?).flatMap (table.fallbacks table.aliasKeys)

mutual

/-- A node with sorted members. `deep` also sorts the containers inside it. -/
def sortTree (deep : Bool) : Node → Node
  | .container head members =>
    .container head (sortMembers (if deep then sortTrees deep members else members))
  | node => node

/-- Every node with sorted members, in input order. -/
def sortTrees (deep : Bool) : List Node → List Node
  | [] => []
  | node :: rest => sortTree deep node :: sortTrees deep rest

end

mutual

/-- The fallbacks of sorting a node, inner containers first. -/
def treeFallbacks (deep : Bool) : Node → List Fallback
  | .container _ members =>
    if deep then treesFallbacks deep members ++ fallbacks (sortTrees deep members)
    else fallbacks members
  | _ => []

def treesFallbacks (deep : Bool) : List Node → List Fallback
  | [] => []
  | node :: rest => treeFallbacks deep node ++ treesFallbacks deep rest

end

/-- Whether sorting would change nothing. -/
def isSorted (deep : Bool) (decls : List Node) : Bool :=
  Node.sameAll (sortTrees deep decls) decls

end MemberOrder
