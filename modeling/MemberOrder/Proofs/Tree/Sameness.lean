import MemberOrder.Tree.Node

/-!
# Nodes that are the same

`Node.same` is an equality that does not look at what unknown nodes said. It holds of equal nodes
(`Node.same_refl`), it is equality on aliases (`Node.eq_of_same_alias`), and on lists it is decided
place by place (`Node.sameAll_map_map_iff`). `Node.inductionOn` is the induction over trees.
-/

namespace MemberOrder

namespace Node

/-- A property of all nodes that containers inherit from their members. -/
@[elab_as_elim]
theorem inductionOn {motive : Node → Prop} (node : Node)
    (container : ∀ head members, (∀ member ∈ members, motive member) →
      motive (.container head members))
    (leaf : ∀ node, node.isContainer = false → motive node) : motive node :=
  match node with
  | .container head members =>
      container head members fun member _ => inductionOn member container leaf
  | .typeAlias _ | .binding _ | .method _ | .alias _ | .attribute _ | .mixin _ | .marker _
  | .unknown _ | .foreign => leaf _ rfl

theorem members_of_leaf {node : Node} (leaf : node.isContainer = false) : node.members = [] := by
  cases node <;> first | rfl | cases leaf

/-- A property that nodes inherit from their members holds of all nodes. -/
@[elab_as_elim]
theorem inductionOnMembers {motive : Node → Prop} (node : Node)
    (inherit : ∀ node, (∀ member ∈ node.members, motive member) → motive node) : motive node := by
  induction node using inductionOn with
  | container head members ih => exact inherit _ ih
  | leaf node leaf =>
      refine inherit node fun member inside => ?_
      rw [members_of_leaf leaf] at inside
      cases inside

theorem sameAll_refl_of {nodes : List Node} (same : ∀ node ∈ nodes, node.same node) :
    sameAll nodes nodes := by
  induction nodes with
  | nil => simp [sameAll]
  | cons node rest ih =>
      simp only [sameAll, Bool.and_eq_true]
      exact ⟨same node List.mem_cons_self,
        ih fun other member => same other (List.mem_cons_of_mem _ member)⟩

theorem same_refl (node : Node) : node.same node := by
  induction node using inductionOn with
  | container head members ih => simp [same, sameAll_refl_of ih]
  | leaf node bare =>
      cases node with
      | container head members => cases bare
      | _ => simp [same]

theorem sameAll_refl (nodes : List Node) : sameAll nodes nodes :=
  sameAll_refl_of fun node _ => same_refl node

theorem eq_of_same_alias {node : Node} {decl : Alias} (alike : node.same (.alias decl)) :
    node = .alias decl := by
  cases node <;> simp_all [same]

theorem exists_mem_of_sameAll {nodes others : List Node} (alike : sameAll nodes others)
    {other : Node} (member : other ∈ others) : ∃ node ∈ nodes, node.same other := by
  induction others generalizing nodes with
  | nil => cases member
  | cons head rest ih =>
      cases nodes with
      | nil => simp [sameAll] at alike
      | cons node tail =>
          simp only [sameAll, Bool.and_eq_true] at alike
          rcases List.mem_cons.mp member with rfl | later
          · exact ⟨node, List.mem_cons_self, alike.1⟩
          · obtain ⟨found, foundMember, same⟩ := ih alike.2 later
            exact ⟨found, List.mem_cons_of_mem _ foundMember, same⟩

/-- Two changes of the same list agree if they agree at every place. -/
theorem sameAll_map_map_iff (first second : Node → Node) (nodes : List Node) :
    sameAll (nodes.map first) (nodes.map second) ↔
      ∀ node ∈ nodes, (first node).same (second node) := by
  induction nodes with
  | nil => simp [sameAll]
  | cons node rest ih =>
      simp only [List.map_cons, sameAll, Bool.and_eq_true, ih, List.mem_cons, forall_eq_or_imp]

end Node

end MemberOrder
