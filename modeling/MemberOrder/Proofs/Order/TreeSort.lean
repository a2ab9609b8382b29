import MemberOrder.Proofs.Order.SecondScan
import MemberOrder.Proofs.Tree.Sameness

/-!
# Sorting whole trees

A change of nodes that only looks below containers does not matter to the order of the members
around them (`sortMembers_map`). So a tree may be sorted from the outside in as well as from the
inside out (`sortTree_container`), and a second sort changes nothing exactly if the table of every
sorted member list is steady (`isSorted_sortTrees_iff`).
-/

namespace MemberOrder

/-- A change of nodes that leaves everything but the members of containers as it is. -/
structure Node.KeepsHeads (change : Node → Node) : Prop where
  leaf : ∀ node, node.isContainer = false → change node = node
  container : ∀ head members, ∃ inner, change (.container head members) = .container head inner

section Change

variable {change : Node → Node}

/-- A placed node after a change of nodes. -/
def Placed.map (change : Node → Node) (placed : Placed) : Placed :=
  ⟨change placed.member, placed.running⟩

namespace Node.KeepsHeads

theorem keepsHeads_id : KeepsHeads id := ⟨fun _ _ => rfl, fun _ members => ⟨members, rfl⟩⟩

variable (keeps : KeepsHeads change)
include keeps

theorem isContainer (node : Node) : (change node).isContainer = node.isContainer := by
  cases bare : node.isContainer with
  | false => rw [keeps.leaf node bare, bare]
  | true =>
      cases node with
      | container head members =>
          obtain ⟨inner, changed⟩ := keeps.container head members
          rw [changed]
          rfl
      | _ => cases bare

/-- A change neither makes nor loses a node that is no container. -/
theorem mem_map_iff_of_leaf {nodes : List Node} {node : Node} (bare : node.isContainer = false) :
    node ∈ nodes.map change ↔ node ∈ nodes := by
  rw [List.mem_map]
  constructor
  · rintro ⟨given, present, rfl⟩
    rw [keeps.isContainer] at bare
    rwa [keeps.leaf given bare]
  · intro present
    exact ⟨node, present, keeps.leaf node bare⟩

theorem place_map (running : Visibility) (members : List Node) :
    place running (members.map change) = (place running members).map (Placed.map change) := by
  induction members generalizing running with
  | nil => rfl
  | cons member rest ih =>
      cases member with
      | marker decl =>
          rw [List.map_cons, keeps.leaf _ rfl]
          exact ih _
      | container head inner =>
          obtain ⟨other, changed⟩ := keeps.container head inner
          rw [List.map_cons, changed, place_cons_of_not_marker rfl, ih,
            place_cons_of_not_marker rfl, List.map_cons, Placed.map, changed]
      | _ =>
          rw [List.map_cons, keeps.leaf _ rfl, place_cons_of_not_marker rfl, ih,
            place_cons_of_not_marker rfl, List.map_cons, Placed.map, keeps.leaf _ rfl]

theorem placed_map_eq {placed : Placed} (bare : placed.member.isContainer = false) :
    placed.map change = placed := by
  rw [Placed.map, keeps.leaf _ bare]

/-- A placed container stays a container with the same head. -/
theorem exists_placed_map_eq (placed : Placed) (holds : placed.member.isContainer) :
    ∃ head before after running, placed = ⟨.container head before, running⟩ ∧
      placed.map change = ⟨.container head after, running⟩ := by
  obtain ⟨member, running⟩ := placed
  cases member with
  | container head before =>
      obtain ⟨after, changed⟩ := keeps.container head before
      exact ⟨head, before, after, running, rfl, by rw [Placed.map, changed]⟩
  | _ => cases holds

/-- What does not depend on the members of containers is left as it is. -/
theorem read_map {α : Type} {read : Placed → α}
    (shallow : ∀ head before after running,
      read ⟨.container head after, running⟩ = read ⟨.container head before, running⟩)
    (placed : Placed) : read (placed.map change) = read placed := by
  cases bare : placed.member.isContainer with
  | false => rw [keeps.placed_map_eq bare]
  | true =>
      obtain ⟨head, before, after, running, rfl, changed⟩ := keeps.exists_placed_map_eq placed bare
      rw [changed]
      exact shallow head before after running

theorem definitions_map (placed : Placed) :
    (placed.map change).definitions = placed.definitions :=
  keeps.read_map (fun _ _ _ _ => rfl) placed

theorem alias?_map (placed : Placed) : (placed.map change).alias? = placed.alias? :=
  keeps.read_map (fun _ _ _ _ => rfl) placed

/-- The names of a list stand for what they stood for. -/
theorem tableOf_map (members : List Node) : Table.of (members.map change) = Table.of members := by
  simp only [Table.of, Table.ofPlaced, keeps.place_map, List.flatMap_map, List.filterMap_map,
    Function.comp_def, keeps.definitions_map, keeps.alias?_map]

theorem entry_map (table : Table) (placed : Placed) :
    table.entry (placed.map change) =
      ((table.entry placed).1, change (table.entry placed).2) := by
  cases bare : placed.member.isContainer with
  | false =>
      have emitted : (table.emitted placed).isContainer = false := by
        rw [Table.emitted, stamp_eq]
        split
        · cases member : placed.member <;> simp_all [Node.withVisibility, Node.isContainer]
        · exact bare
      rw [keeps.placed_map_eq bare, Table.entry_eq, keeps.leaf _ emitted]
  | true =>
      obtain ⟨head, before, after, running, rfl, changed⟩ := keeps.exists_placed_map_eq placed bare
      have same : change (.container head before) = .container head after :=
        congrArg Placed.member changed
      rw [changed]
      exact (congrArg (Prod.mk _) same).symm

/-- Categories do not depend on what is below containers. -/
theorem categorize_map (members : List Node) :
    categorize (members.map change) =
      (categorize members).map fun entry => (entry.1, change entry.2) := by
  simp only [categorize_eq_map, keeps.place_map, keeps.tableOf_map, List.map_map,
    Function.comp_def, keeps.entry_map]

/-- It does not matter whether containers are changed before or after they are sorted. -/
theorem sortMembers_map (members : List Node) :
    sortMembers (members.map change) = (sortMembers members).map change := by
  have sorted : Category.sortOn Prod.fst (categorize (members.map change)) =
      (Category.sortOn Prod.fst (categorize members)).map fun entry =>
        (entry.1, change entry.2) := by
    rw [keeps.categorize_map]
    exact Category.sortOn_map _ fun _ _ => rfl
  rw [sortMembers_eq_sortOn, sortMembers_eq_sortOn, sorted, List.map_map, List.map_map]
  rfl

end Node.KeepsHeads

end Change

namespace Node

theorem sortTrees_eq_map (deep : Bool) (nodes : List Node) :
    sortTrees deep nodes = nodes.map (sortTree deep) := by
  induction nodes with
  | nil => simp [sortTrees]
  | cons node rest ih => simp [sortTrees, ih]

/-- What sorting does to the members of a container before it orders them. -/
def sortInner (deep : Bool) : Node → Node := if deep then sortTree deep else id

theorem keepsHeads_sortTree (deep : Bool) : KeepsHeads (sortTree deep) where
  leaf node bare := by
    cases node with
    | container head members => cases bare
    | _ => simp [sortTree]
  container head members := ⟨_, by rw [sortTree]⟩

theorem keepsHeads_sortInner (deep : Bool) : KeepsHeads (sortInner deep) := by
  cases deep with
  | false => exact .keepsHeads_id
  | true => exact keepsHeads_sortTree true

/-- The order of the members and what is below them are sorted independently. -/
theorem sortTree_container (deep : Bool) (head : Head) (members : List Node) :
    sortTree deep (.container head members) =
      .container head ((sortMembers members).map (sortInner deep)) := by
  rw [sortTree, ← (keepsHeads_sortInner deep).sortMembers_map]
  cases deep with
  | false => simp [sortInner]
  | true => simp [sortInner, sortTrees_eq_map]

mutual

/-- The member lists that sorting a node sorts: that of a container, and of those below it if asked.
-/
def bodies (deep : Bool) : Node → List (List Node)
  | .container _ members => members :: if deep then bodiesAll deep members else []
  | _ => []

def bodiesAll (deep : Bool) : List Node → List (List Node)
  | [] => []
  | node :: rest => bodies deep node ++ bodiesAll deep rest

end

theorem mem_bodiesAll {deep : Bool} {nodes : List Node} {body : List Node} :
    body ∈ bodiesAll deep nodes ↔ ∃ node ∈ nodes, body ∈ node.bodies deep := by
  induction nodes with
  | nil => simp [bodiesAll]
  | cons node rest ih => simp [bodiesAll, ih]

theorem bodies_of_leaf {node : Node} (deep : Bool) (bare : node.isContainer = false) :
    node.bodies deep = [] := by
  cases node with
  | container head members => cases bare
  | _ => simp [bodies]

theorem mem_sortMembers_iff_of_container {members : List Node} {member : Node}
    (holds : member.isContainer) : member ∈ sortMembers members ↔ member ∈ members := by
  cases member with
  | container head inner => exact mem_sortMembers_iff_of_not_bears rfl rfl
  | _ => cases holds

/-- A node is left alone by a second sort if all member lists that the sort meets are steady. -/
theorem sortTree_sortTree_of_steady (deep : Bool) (node : Node)
    (steady : ∀ body ∈ node.bodies deep, (Table.of body).Steady) :
    sortTree deep (sortTree deep node) = sortTree deep node := by
  induction node using inductionOn with
  | leaf node bare => simp only [(keepsHeads_sortTree deep).leaf node bare]
  | container head members ih =>
      have keeps := keepsHeads_sortInner deep
      have outer : (Table.of members).Steady := steady members (by simp [bodies])
      have inner : ∀ member ∈ members,
          sortInner deep (sortInner deep member) = sortInner deep member := by
        intro member present
        cases deep with
        | false => rfl
        | true =>
            refine ih member present fun body inside => steady body ?_
            simp only [bodies, ↓reduceIte, List.mem_cons, mem_bodiesAll]
            exact .inr ⟨member, present, inside⟩
      rw [sortTree_container, sortTree_container, keeps.sortMembers_map,
        outer.sortMembers_sortMembers, List.map_map]
      refine congrArg _ (List.map_congr_left fun member present => ?_)
      cases bare : member.isContainer with
      | false => simp only [Function.comp_apply, keeps.leaf member bare]
      | true => exact inner member ((mem_sortMembers_iff_of_container bare).mp present)

/-- If a second sort of a node changes nothing that counts, all member lists are steady. -/
theorem steady_of_same_sortTree (deep : Bool) (node : Node)
    (alike : (sortTree deep (sortTree deep node)).same (sortTree deep node)) :
    ∀ body ∈ node.bodies deep, (Table.of body).Steady := by
  induction node using inductionOn with
  | leaf node bare => simp [bodies_of_leaf deep bare]
  | container head members ih =>
      have keeps := keepsHeads_sortInner deep
      rw [sortTree_container, sortTree_container, keeps.sortMembers_map] at alike
      simp only [same, Bool.and_eq_true] at alike
      have outer : (Table.of members).Steady := by
        refine Classical.byContradiction fun unsteady => ?_
        obtain ⟨decl, present, absent⟩ := Table.exists_alias_stamped_again unsteady
        have shown := (keeps.mem_map_iff_of_leaf rfl).mpr present
        obtain ⟨twice, twiceMember, sameTwice⟩ := exists_mem_of_sameAll alike.2 shown
        rw [eq_of_same_alias sameTwice, keeps.mem_map_iff_of_leaf rfl,
          keeps.mem_map_iff_of_leaf rfl] at twiceMember
        exact absent twiceMember
      intro body inside
      cases deep with
      | false =>
          simp only [bodies, Bool.false_eq_true, ↓reduceIte, List.mem_singleton] at inside
          exact inside ▸ outer
      | true =>
          simp only [bodies, ↓reduceIte, List.mem_cons, mem_bodiesAll] at inside
          rcases inside with rfl | ⟨member, present, below⟩
          · exact outer
          · refine ih member present ?_ body below
            cases bare : member.isContainer with
            | false => simp [bodies_of_leaf true bare] at below
            | true =>
                have sorted := (mem_sortMembers_iff_of_container bare).mpr present
                rw [outer.sortMembers_sortMembers, List.map_map] at alike
                exact (sameAll_map_map_iff _ _ _).mp alike.2 member sorted

end Node

theorem sameAll_sortMembers_iff (members : List Node) :
    Node.sameAll (sortMembers (sortMembers members)) (sortMembers members) ↔
      (Table.of members).Steady := by
  refine ⟨fun alike => ?_, fun steady => ?_⟩
  · refine Classical.byContradiction fun unsteady => ?_
    obtain ⟨decl, present, absent⟩ := Table.exists_alias_stamped_again unsteady
    obtain ⟨twice, twiceMember, sameTwice⟩ := Node.exists_mem_of_sameAll alike present
    exact absent (Node.eq_of_same_alias sameTwice ▸ twiceMember)
  · rw [steady.sortMembers_sortMembers]
    exact Node.sameAll_refl _

theorem isSorted_sortTrees_iff (deep : Bool) (decls : List Node) :
    isSorted deep (sortTrees deep decls) ↔
      ∀ body ∈ Node.bodiesAll deep decls, (Table.of body).Steady := by
  simp only [isSorted, Node.sortTrees_eq_map, List.map_map, Node.sameAll_map_map_iff,
    Node.mem_bodiesAll, Function.comp_apply]
  constructor
  · rintro alike body ⟨decl, present, inside⟩
    exact Node.steady_of_same_sortTree deep decl (alike decl present) body inside
  · intro steady decl present
    rw [Node.sortTree_sortTree_of_steady deep decl fun body inside =>
      steady body ⟨decl, present, inside⟩]
    exact Node.same_refl _

end MemberOrder
