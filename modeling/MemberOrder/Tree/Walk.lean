import MemberOrder.Tree.Node

/-!
# Walks through trees

A walk enters each node, goes through its members and leaves it again. A visitor has handlers that
are called on the way; what a handler can decide is not to go below a container.
-/

namespace MemberOrder

/-- A step of a walk: into a node, before its members, or out of it, after them. -/
inductive Step
  | enter (node : Node)
  | leave (node : Node)
deriving Repr

namespace Node

mutual

/-- The steps through a node. The walk does not go below the containers that `skips` names. -/
def walk (skips : Node → Bool) : Node → List Step
  | .container head members =>
    .enter (.container head members) ::
      ((if skips (.container head members) then [] else walkAll skips members) ++
        [.leave (.container head members)])
  | node => [.enter node, .leave node]

/-- The steps through a list of nodes, one after the other. -/
def walkAll (skips : Node → Bool) : List Node → List Step
  | [] => []
  | node :: rest => walk skips node ++ walkAll skips rest

end

/-- Whether a node has one of the given tags. -/
def hasTag (tags : List Tag) (node : Node) : Bool :=
  match node.tag? with
  | some tag => tag ∈ tags
  | none => false

/-- The nodes that a walk through everything enters, outer before inner. -/
def preorder (nodes : List Node) : List Node :=
  (walkAll (fun _ => false) nodes).filterMap fun step =>
    match step with
    | .enter node => some node
    | .leave _ => none

end Node

/-- A visitor, by the tags that its handlers are for. -/
structure Visitor where
  /-- Tags with a handler of their own for the way in. -/
  visited : List Tag
  /-- Whether a common handler takes the nodes that have no handler of their own. -/
  common : Bool
  /-- Tags with a handler for the way out. -/
  left : List Tag
  /-- Tags for which the handler of the way in says not to go below the node. -/
  refused : List Tag
deriving Repr

/-- A call of a handler. -/
inductive Call
  | visit (node : Node)
  | common (node : Node)
  | leave (node : Node)
deriving Repr

namespace Visitor

/-- Whether a handler says not to go below a node. -/
def skips (visitor : Visitor) (node : Node) : Bool :=
  node.hasTag visitor.refused && (node.hasTag visitor.visited || visitor.common)

/-- The call that a step makes, if there is a handler for it. -/
def call? (visitor : Visitor) : Step → Option Call
  | .enter node =>
    if node.hasTag visitor.visited then some (.visit node)
    else if visitor.common then some (.common node)
    else none
  | .leave node => if node.hasTag visitor.left then some (.leave node) else none

/-- The calls of a walk through a list of nodes. -/
def calls (visitor : Visitor) (nodes : List Node) : List Call :=
  (Node.walkAll visitor.skips nodes).filterMap visitor.call?

end Visitor

end MemberOrder
