import Mathlib.Data.List.Forall2
import MemberOrder.Proofs.Order.TreeSort
import MemberOrder.Tree.Transform

/-!
# What sorting a tree keeps

The sort of a tree is a transformer that sorts each container on the way out
(`Transformer.transform_memberSorter`), and it is also the plain recursion over members. Below
every container the nodes that are no markers stay, each once and in its container, and change at
most by a stamp (`Node.rearranged_sortTree`).
-/

namespace MemberOrder

namespace Transformer

variable {deep : Bool} {node : Node}

def containerTags : List Tag := Tag.all.filter Tag.isContainer

/-- The transformer that sorts the members of each container that it leaves. Unless it is `deep`, it
does not go below a container. -/
def memberSorter (deep : Bool) : Transformer where
  skipped := if deep then [] else containerTags
  handled := containerTags
  replace
    | _, .container head members => some (.container head (sortMembers members))
    | _, node => some node

theorem mem_containerTags {tag : Tag} : tag ∈ containerTags ↔ tag.isContainer := by
  cases tag <;> decide

theorem tag_mem_containerTags (kind : ContainerKind) : kind.tag ∈ containerTags := by
  simp only [mem_containerTags]
  cases kind <;> rfl

theorem hasTag_containerTags (node : Node) : node.hasTag containerTags = node.isContainer := by
  match node with
  | .container head _ => exact decide_eq_true (tag_mem_containerTags head.kind)
  | .binding ⟨kind, _, _, _⟩ | .mixin ⟨kind, _, _, _⟩ => cases kind <;> rfl
  | .attribute ⟨kind, _, _, _, _, _, _⟩ => cases kind <;> rfl
  | .marker ⟨visibility, _⟩ => cases visibility <;> rfl
  | .typeAlias _ | .method _ | .alias _ | .unknown _ | .foreign => rfl

theorem transform_of_leaf (bare : node.isContainer = false) :
    (memberSorter deep).transform node = some node := by
  have outcome : (memberSorter deep).outcome node node = some node := by
    rw [Transformer.outcome, memberSorter, hasTag_containerTags, bare]
    rfl
  cases node with
  | container head members => cases bare
  | _ => simpa [transform] using outcome

/-- A container takes the place of itself, with what its members become in canonical order. -/
theorem transform_container (head : Head) (members : List Node) :
    (memberSorter deep).transform (.container head members) = some (.container head
      (sortMembers (if deep then (memberSorter deep).transformAll members else members))) := by
  have handled : (Node.container head members).hasTag containerTags :=
    hasTag_containerTags _
  cases deep with
  | false =>
      simp only [transform, outcome, memberSorter, Bool.false_eq_true, ↓reduceIte,
        tag_mem_containerTags, handled]
  | true =>
      simp only [transform, outcome, memberSorter, ↓reduceIte, List.not_mem_nil, handled]

theorem transformAll_of_forall {rule : Transformer} {change : Node → Node} {nodes : List Node}
    (each : ∀ node ∈ nodes, rule.transform node = some (change node)) :
    rule.transformAll nodes = nodes.map change := by
  induction nodes with
  | nil => rfl
  | cons node rest ih =>
      rw [transformAll, each node List.mem_cons_self,
        ih fun other later => each other (List.mem_cons_of_mem _ later)]
      rfl

theorem transform_memberSorter (node : Node) :
    (memberSorter deep).transform node = some (sortTree deep node) := by
  induction node using Node.inductionOn with
  | leaf node bare => rw [transform_of_leaf bare, (Node.keepsHeads_sortTree deep).leaf node bare]
  | container head members ih =>
      rw [transform_container, transformAll_of_forall ih, sortTree, Node.sortTrees_eq_map]

theorem transformAll_memberSorter (nodes : List Node) :
    (memberSorter deep).transformAll nodes = sortTrees deep nodes := by
  rw [transformAll_of_forall fun node _ => transform_memberSorter node, Node.sortTrees_eq_map]

end Transformer

namespace Node

/-- What sorting may do to a node. A leaf states that it is hidden or stays as it is. A container
keeps all but its members: these are the members that were no markers, in some order, each with what
sorting may do to it. Unless the sort is `deep`, it may also stay as it is. -/
inductive Rearranged (deep : Bool) : Node → Node → Prop
  | kept {node : Node} (whole : node.isContainer → deep = false) : Rearranged deep node node
  | stamped {node : Node} (bears : node.bearsVisibility) (unstated : node.stated = none) :
      Rearranged deep node (node.withVisibility (some .hidden))
  | container {head : Head} {members order later : List Node}
      (moved : order.Perm (members.filter fun member => !member.isMarker))
      (each : List.Forall₂ (Rearranged deep) order later) :
      Rearranged deep (.container head members) (.container head later)

variable {deep : Bool}

theorem not_bears_of_isContainer {node : Node} (holds : node.isContainer) :
    node.bearsVisibility = false := by
  cases node <;> first | rfl | cases holds

@[simp]
theorem isContainer_stamp (node : Node) (visibility : Option Visibility) :
    (stamp node visibility).isContainer = node.isContainer := by
  rw [stamp_eq]
  split
  · cases node <;> rfl
  · rfl

theorem rearranged_stamp {node : Node} (bare : node.isContainer = false)
    (visibility : Option Visibility) : Rearranged deep node (stamp node visibility) := by
  rw [stamp_eq]
  split
  · next stamps => exact .stamped stamps.1 stamps.2.1
  · exact .kept fun holds => by rw [bare] at holds; cases holds

/-- A member comes out of the sort of its container as sorting may change it, if this holds of the
sort of the member itself. -/
theorem rearranged_emitted {members : List Node} {placed : Placed}
    (present : placed ∈ place .shown members)
    (inner : ∀ member ∈ members, Rearranged deep member (sortInner deep member)) :
    Rearranged deep placed.member (sortInner deep ((Table.of members).emitted placed)) := by
  have keeps := keepsHeads_sortInner deep
  cases bare : placed.member.isContainer with
  | false =>
      have emittedBare : ((Table.of members).emitted placed).isContainer = false := by
        rw [Table.emitted, isContainer_stamp, bare]
      rw [keeps.leaf _ emittedBare]
      exact rearranged_stamp bare _
  | true =>
      rw [Table.emitted, stamp_of_not_bears (not_bears_of_isContainer bare)]
      exact inner _ (mem_of_mem_place present)

theorem rearranged_sortTree (node : Node) : Rearranged deep node (sortTree deep node) := by
  induction node using inductionOn with
  | leaf node bare =>
      rw [(keepsHeads_sortTree deep).leaf node bare]
      exact .kept fun holds => by rw [bare] at holds; cases holds
  | container head members ih =>
      have inner : ∀ member ∈ members, Rearranged deep member (sortInner deep member) := by
        intro member present
        cases deep with
        | false => exact .kept fun _ => rfl
        | true => exact ih member present
      rw [sortTree_container, sortMembers_eq_arranged, List.map_map]
      have moved : ((arranged members).map Placed.member).Perm
          (members.filter fun member => !member.isMarker) := by
        rw [← place_map_member]
        exact (arranged_perm members).map _
      refine .container moved ?_
      rw [List.forall₂_map_left_iff, List.forall₂_map_right_iff, List.forall₂_same]
      intro placed present
      exact rearranged_emitted (mem_arranged.mp present) inner

end Node

section NestedContainers

theorem Category.of_eq_nestedDeclaration_iff (member : Node) (visibility : Option Visibility) :
    Category.of member visibility = .nestedDeclaration ↔ member.isContainer := by
  cases member with
  | container head members => exact iff_of_true rfl rfl
  | method decl =>
      cases visibility with
      | none => simp [Category.of, Node.isContainer]
      | some visibility =>
          refine iff_of_false ?_ Bool.false_ne_true
          simp only [Category.of, Category.ofMethod]
          cases decl.kind with
          | onBoth => simp
          | onInstance | onSelf =>
              cases visibility <;> by_cases made : decl.isConstructor <;>
                simp [Category.ofScope, made]
  | «alias» decl =>
      obtain ⟨_, _, scope, _, _⟩ := decl
      cases visibility with
      | none => simp [Category.of, Node.isContainer]
      | some visibility =>
          cases scope <;> cases visibility <;>
            simp [Category.of, Category.ofScope, Node.isContainer]
  | binding decl =>
      obtain ⟨kind, _, _, _⟩ := decl
      cases kind <;> simp [Category.of, Category.ofBinding, Node.isContainer]
  | mixin decl =>
      obtain ⟨kind, _, _, _⟩ := decl
      cases kind <;> simp [Category.of, Category.ofMixin, Node.isContainer]
  | «attribute» decl =>
      obtain ⟨_, _, _, scope, _, _, _⟩ := decl
      cases scope <;> simp [Category.of, Category.ofAttribute, Node.isContainer]
  | typeAlias _ | marker _ | unknown _ | foreign => simp [Category.of, Node.isContainer]

/-- Sorting the members of a container moves none of the containers among them past another. -/
theorem filter_isContainer_sortMembers (members : List Node) :
    (sortMembers members).filter Node.isContainer = members.filter Node.isContainer := by
  have nested (placed : Placed) : decide ((Table.of members).category placed = .nestedDeclaration) =
      placed.member.isContainer := by
    rw [Bool.eq_iff_iff, decide_eq_true_iff]
    exact Category.of_eq_nestedDeclaration_iff _ _
  have arrangedNested : (arranged members).filter (·.member.isContainer) =
      (place .shown members).filter (·.member.isContainer) := by
    simp only [← nested]
    exact Category.sortOn_filter _ _ _
  calc (sortMembers members).filter Node.isContainer
      = ((arranged members).filter (·.member.isContainer)).map (Table.of members).emitted := by
        rw [sortMembers_eq_arranged, List.filter_map]
        simp only [Function.comp_def, Table.emitted, Node.isContainer_stamp]
    _ = ((place .shown members).filter (·.member.isContainer)).map Placed.member := by
        rw [arrangedNested]
        refine List.map_congr_left fun placed present => stamp_of_not_bears ?_ _
        exact Node.not_bears_of_isContainer (List.mem_filter.mp present).2
    _ = ((place .shown members).map Placed.member).filter Node.isContainer := by
        rw [List.filter_map]
        rfl
    _ = members.filter Node.isContainer := by
        rw [place_map_member, List.filter_filter]
        apply List.filter_congr
        intro member _
        cases member <;> rfl

end NestedContainers

/-- **Sorting whole trees.** Sorting a list of declarations sorts each one in its place, which is
what the transformer does that sorts containers on the way out. A declaration without members stays
as it is. Everywhere below a declaration the nodes that are no markers stay in their container, each
once, and only stamps change them. The order of the members and what is inside them are sorted
independently; the nested containers keep their order, and the shallow sort does not change them. -/
theorem sortTrees_conserves (deep : Bool) (decls : List Node) :
    sortTrees deep decls = decls.map (sortTree deep) ∧
    (sortTrees deep decls).length = decls.length ∧
    (Transformer.memberSorter deep).transformAll decls = sortTrees deep decls ∧
    (∀ decl, decl.isContainer = false → sortTree deep decl = decl) ∧
    (∀ decl, Node.Rearranged deep decl (sortTree deep decl)) ∧
    (∀ head members, sortTree true (.container head members) =
      .container head (sortMembers (members.map (sortTree true)))) ∧
    (∀ members : List Node, sortMembers (members.map (sortTree true)) =
      (sortMembers members).map (sortTree true)) ∧
    (∀ head members, sortTree false (.container head members) =
      .container head (sortMembers members)) ∧
    (∀ members : List Node, (sortMembers (members.map (sortTree true))).filter Node.isContainer =
      (members.filter Node.isContainer).map (sortTree true)) ∧
    ∀ members : List Node, (sortMembers members).filter Node.isContainer =
      members.filter Node.isContainer := by
  have keeps := Node.keepsHeads_sortTree true
  refine ⟨Node.sortTrees_eq_map deep decls, ?_, Transformer.transformAll_memberSorter decls,
    (Node.keepsHeads_sortTree deep).leaf, Node.rearranged_sortTree, ?_, keeps.sortMembers_map, ?_,
    ?_, filter_isContainer_sortMembers⟩
  · rw [Node.sortTrees_eq_map, List.length_map]
  · intro head members
    rw [sortTree, Node.sortTrees_eq_map]
    rfl
  · intro head members
    rw [sortTree]
    rfl
  · intro members
    rw [filter_isContainer_sortMembers, List.filter_map]
    exact congrArg _ (List.filter_congr fun member _ => keeps.isContainer member)

end MemberOrder
