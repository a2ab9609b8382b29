import MemberOrder.Tree.Walk

/-!
# Transforming trees

A transformer rebuilds a tree from the inside out. On the way out of a node its handler gets the
node as it was and the node with its new members, and gives what takes the node's place, if anything
does.
-/

namespace MemberOrder

/-- A transformer, by the tags that it treats specially. -/
structure Transformer where
  /-- Containers whose members stay as they are. -/
  skipped : List Tag
  /-- Tags with a handler for the way out. -/
  handled : List Tag
  /-- What the handler puts in the place of a node, given the node as it was and as it is
  with its new members. -/
  replace : Node → Node → Option Node

/-- What a handler is given: a node, and the node with its new members. -/
structure Update where
  before : Node
  after : Node
deriving Repr

namespace Transformer

/-- What takes the place of a node. -/
def outcome (rule : Transformer) (before after : Node) : Option Node :=
  if before.hasTag rule.handled then rule.replace before after else some after

/-- The call of the handler for a node, if there is one. -/
def call (rule : Transformer) (before after : Node) : List Update :=
  if before.hasTag rule.handled then [⟨before, after⟩] else []

mutual

/-- What takes the place of a node after its members have been transformed. -/
def transform (rule : Transformer) : Node → Option Node
  | .container head members =>
    let inner := if head.kind.tag ∈ rule.skipped then members else transformAll rule members
    rule.outcome (.container head members) (.container head inner)
  | node => rule.outcome node node

/-- A list with each node replaced or dropped. -/
def transformAll (rule : Transformer) : List Node → List Node
  | [] => []
  | node :: rest => (transform rule node).toList ++ transformAll rule rest

end

mutual

/-- The calls of the handler for a node and what is below it, innermost first. -/
def updates (rule : Transformer) : Node → List Update
  | .container head members =>
    if head.kind.tag ∈ rule.skipped then
      rule.call (.container head members) (.container head members)
    else
      updatesAll rule members ++
        rule.call (.container head members) (.container head (transformAll rule members))
  | node => rule.call node node

def updatesAll (rule : Transformer) : List Node → List Update
  | [] => []
  | node :: rest => updates rule node ++ updatesAll rule rest

end

/-- The tags of the nodes that are dropped from a list and from all that is below it. -/
def dropped (rule : Transformer) (nodes : List Node) : List Tag :=
  (rule.updatesAll nodes).filterMap fun update =>
    match rule.replace update.before update.after with
    | some _ => none
    | none => update.before.tag?

/-- The message about a node that is dropped. -/
def droppedMessage (tag : Tag) : String := "Dropped " ++ tag.label ++ " node"

/-- The transformer that drops the nodes of some tags, renames those of others and looks at the rest
of the handled ones. -/
def dropping (skipped dropped renamed watched : List Tag) (rename : String → String) :
    Transformer where
  skipped := skipped
  handled := dropped ++ renamed ++ watched
  replace before after :=
    if before.hasTag dropped then none
    else if before.hasTag renamed then some (after.mapName rename)
    else some after

end Transformer

end MemberOrder
