import MemberOrder.Proofs.Order.TreeSort
import MemberOrder.Proofs.Tree.Positions

/-!
# What counts as sorted

Declarations count as sorted exactly if every member list that the sort would meet is canonical
(`isSorted_iff_canonical`): it has no markers, its categories do not fall, and no alias is hidden
without saying so. The comparison with the sorted tree does not look at what unknown nodes said, but
it sees all that decides whether a list is canonical (`Node.sameAll_map_sortMembers_iff`), and what
is canonical is not changed at all (`Canonical.sortMembers_eq`).
-/

namespace MemberOrder

/-- A member list that the sort leaves as it is. -/
structure Canonical (members : List Node) : Prop where
  unmarked : ∀ member ∈ members, member.isMarker = false
  ranked : Category.Ranked Prod.fst (categorize members)
  settled : ∀ relay ∈ (Table.of members).aliases, relay.decl.visibility = none →
    (Table.of members).aliasVisibility relay ≠ .hidden

section Members

variable {members : List Node} {placed : Placed}

/-- Where nothing is marked, only an alias could be hidden without saying so. -/
theorem Table.emitted_of_settled (unmarked : ∀ member ∈ members, member.isMarker = false)
    (settled : ∀ relay ∈ (Table.of members).aliases, relay.decl.visibility = none →
      (Table.of members).aliasVisibility relay ≠ .hidden)
    (present : placed ∈ place .shown members) :
    (Table.of members).emitted placed = placed.member := by
  rw [Table.emitted, stamp_eq, if_neg]
  rintro ⟨bears, unstated, hidden⟩
  cases direct : placed.alias? with
  | none =>
      rw [Table.effective_of_bears _ _ bears direct] at hidden
      have running : placed.running = .shown := by
        rw [place_of_unmarked unmarked] at present
        obtain ⟨member, -, rfl⟩ := List.mem_map.mp present
        rfl
      simp [Placed.visibility, unstated, running] at hidden
  | some relay =>
      rw [Table.effective_of_alias _ direct] at hidden
      obtain ⟨member, running⟩ := placed
      cases member <;> cases direct
      exact settled _ (mem_aliases_of.mpr present) unstated (Option.some.inj hidden)

theorem ranked_categorize_iff :
    Category.Ranked Prod.fst (categorize members) ↔
      Category.Ranked (Table.of members).category (place .shown members) := by
  rw [categorize_eq_map, Category.ranked_map_iff]
  rfl

theorem Canonical.sortMembers_eq (canonical : Canonical members) :
    sortMembers members = members := by
  have ranked := ranked_categorize_iff.mp canonical.ranked
  calc sortMembers members
      = (place .shown members).map (Table.of members).emitted := by
        rw [sortMembers_eq_arranged, arranged, Category.sortOn_of_ranked ranked]
    _ = (place .shown members).map Placed.member :=
        List.map_congr_left fun _ present =>
          Table.emitted_of_settled canonical.unmarked canonical.settled present
    _ = members.filter fun member => !member.isMarker := place_map_member _ _
    _ = members := by
        refine List.filter_eq_self.mpr fun member present => ?_
        rw [canonical.unmarked member present]
        rfl

end Members

namespace Node

/-- What nodes that are the same have in common, they have in common place by place. -/
theorem map_eq_of_sameAll {α : Type} {nodes others : List Node} {seen : Node → α}
    (respects : ∀ node other : Node, node.same other → seen node = seen other)
    (alike : sameAll nodes others) : nodes.map seen = others.map seen := by
  induction nodes generalizing others with
  | nil =>
      cases others with
      | nil => rfl
      | cons head rest => simp [sameAll] at alike
  | cons node rest ih =>
      cases others with
      | nil => simp [sameAll] at alike
      | cons head tail =>
          simp only [sameAll, Bool.and_eq_true] at alike
          rw [List.map_cons, List.map_cons, respects _ _ alike.1, ih alike.2]

theorem sameAll_map_iff (change : Node → Node) (nodes : List Node) :
    sameAll (nodes.map change) nodes ↔ ∀ node ∈ nodes, (change node).same node := by
  simpa only [List.map_id, id_eq] using sameAll_map_map_iff change id nodes

theorem isMarker_eq_of_same (node other : Node) (alike : node.same other) :
    node.isMarker = other.isMarker := by
  cases node <;> cases other <;> first | rfl | simp [same] at alike

theorem category_eq_of_same (table : Table) (running : Visibility) (node other : Node)
    (alike : node.same other) :
    table.category ⟨node, running⟩ = table.category ⟨other, running⟩ := by
  cases node <;> cases other <;> simp only [same, Bool.false_eq_true, beq_iff_eq] at alike <;>
    first | rfl | rw [alike]

variable {change : Node → Node} {members : List Node}

theorem KeepsHeads.isMarker (keeps : KeepsHeads change) (node : Node) :
    (change node).isMarker = node.isMarker := by
  cases bare : node.isContainer with
  | false => rw [keeps.leaf node bare]
  | true =>
      cases node with
      | container head members =>
          obtain ⟨inner, changed⟩ := keeps.container head members
          rw [changed]
          rfl
      | _ => cases bare

theorem KeepsHeads.category (keeps : KeepsHeads change) (table : Table) (running : Visibility)
    (node : Node) : table.category ⟨change node, running⟩ = table.category ⟨node, running⟩ :=
  congrArg Prod.fst (keeps.entry_map table ⟨node, running⟩)

/-- If sorting changes nothing that counts, there were no markers. -/
theorem unmarked_of_sameAll (keeps : KeepsHeads change)
    (alike : sameAll ((sortMembers members).map change) members) :
    ∀ member ∈ members, member.isMarker = false := by
  intro member present
  obtain ⟨node, sorted, same⟩ := exists_mem_of_sameAll alike present
  obtain ⟨given, inside, rfl⟩ := List.mem_map.mp sorted
  rw [← isMarker_eq_of_same _ _ same, keeps.isMarker]
  exact isMarker_of_mem_sortMembers inside

/-- If sorting changes nothing that counts, no alias is hidden without saying so: all its copies
would have got the stamp. -/
theorem settled_of_sameAll (keeps : KeepsHeads change)
    (alike : sameAll ((sortMembers members).map change) members) :
    ∀ relay ∈ (Table.of members).aliases, relay.decl.visibility = none →
      (Table.of members).aliasVisibility relay ≠ .hidden := by
  intro relay listed unstated hidden
  have unmarked := unmarked_of_sameAll keeps alike
  have present := mem_aliases_of.mp listed
  obtain ⟨node, sorted, same⟩ := exists_mem_of_sameAll alike (mem_of_mem_place present)
  rw [eq_of_same_alias same, keeps.mem_map_iff_of_leaf rfl, sortMembers_eq_arranged] at sorted
  obtain ⟨placed, inside, emitted⟩ := List.mem_map.mp sorted
  have placedPresent := mem_arranged.mp inside
  rw [place_of_unmarked unmarked] at present placedPresent
  obtain ⟨_, -, equal⟩ := List.mem_map.mp present
  obtain ⟨member, -, rfl⟩ := List.mem_map.mp placedPresent
  obtain ⟨decl, running⟩ := relay
  cases equal
  rw [Table.emitted, stamp_eq] at emitted
  split at emitted
  · next stamps =>
      have stated := congrArg Node.stated emitted
      rw [stated_withVisibility stamps.1, Node.stated, unstated] at stated
      cases stated
  · next stays =>
      -- It would be hidden and say nothing about it, so it would have been stamped.
      subst emitted
      exact stays ⟨rfl, unstated, congrArg some hidden⟩

/-- If sorting changes nothing that counts, the members stand in the order of their categories: each
has the category of the sorted member in its place. -/
theorem ranked_of_sameAll (keeps : KeepsHeads change)
    (unmarked : ∀ member ∈ members, member.isMarker = false)
    (settled : ∀ relay ∈ (Table.of members).aliases, relay.decl.visibility = none →
      (Table.of members).aliasVisibility relay ≠ .hidden)
    (alike : sameAll ((sortMembers members).map change) members) :
    Category.Ranked Prod.fst (categorize members) := by
  let table := Table.of members
  have unmoved (placed : Placed) (present : placed ∈ place .shown members) :
      table.category ⟨placed.member, .shown⟩ = table.category placed := by
    rw [place_of_unmarked unmarked] at present
    obtain ⟨member, -, rfl⟩ := List.mem_map.mp present
    rfl
  have categories : (arranged members).map table.category =
      (place .shown members).map table.category := by
    calc (arranged members).map table.category
        = ((sortMembers members).map change).map fun node => table.category ⟨node, .shown⟩ := by
          rw [sortMembers_eq_arranged, List.map_map, List.map_map]
          refine List.map_congr_left fun placed inside => ?_
          have present := mem_arranged.mp inside
          simp only [Function.comp_apply, keeps.category, ← unmoved placed present,
            Table.emitted_of_settled unmarked settled present]
      _ = members.map fun node => table.category ⟨node, .shown⟩ :=
          map_eq_of_sameAll (category_eq_of_same table .shown) alike
      _ = (place .shown members).map table.category := by
          rw [place_of_unmarked unmarked, List.map_map]
          rfl
  have sorted : Category.Ranked id ((arranged members).map table.category) := by
    rw [Category.ranked_map_iff]
    exact Category.sortOn_ranked _ _
  rw [categories, Category.ranked_map_iff] at sorted
  exact ranked_categorize_iff.mpr sorted

/-- The sorted members, with changes below containers, are the same as the given ones exactly if
these are canonical and every change gives the same. -/
theorem sameAll_map_sortMembers_iff (keeps : KeepsHeads change) :
    sameAll ((sortMembers members).map change) members ↔
      Canonical members ∧ ∀ member ∈ members, (change member).same member := by
  constructor
  · intro alike
    have unmarked := unmarked_of_sameAll keeps alike
    have settled := settled_of_sameAll keeps alike
    have ranked : Category.Ranked Prod.fst (categorize members) :=
      ranked_of_sameAll keeps unmarked settled alike
    have canonical : Canonical members := ⟨unmarked, ranked, settled⟩
    rw [canonical.sortMembers_eq] at alike
    exact ⟨canonical, (sameAll_map_iff change members).mp alike⟩
  · rintro ⟨canonical, each⟩
    rw [canonical.sortMembers_eq]
    exact (sameAll_map_iff change members).mpr each

variable {deep : Bool}

/-- The member lists that the sort of a container meets. -/
theorem forall_bodies_container {head : Head} {property : List Node → Prop} :
    (∀ body ∈ (container head members).bodies deep, property body) ↔
      property members ∧
        (deep → ∀ member ∈ members, ∀ body ∈ member.bodies deep, property body) := by
  cases deep with
  | false => simp [bodies]
  | true =>
      simp only [bodies, ↓reduceIte, List.mem_cons, mem_bodiesAll, forall_eq_or_imp, forall_const]
      refine and_congr_right fun _ => ⟨fun below member present body inside => ?_, ?_⟩
      · exact below body ⟨member, present, inside⟩
      · rintro below body ⟨member, present, inside⟩
        exact below member present body inside

/-- Sorting changes nothing that counts in a node exactly if all its member lists are canonical. -/
theorem same_sortTree_iff (node : Node) :
    (sortTree deep node).same node ↔ ∀ body ∈ node.bodies deep, Canonical body := by
  induction node using inductionOn with
  | leaf node bare =>
      rw [(keepsHeads_sortTree deep).leaf node bare, bodies_of_leaf deep bare]
      simp [same_refl]
  | container head members ih =>
      have inner : (∀ member ∈ members, (sortInner deep member).same member) ↔
          (deep → ∀ member ∈ members, ∀ body ∈ member.bodies deep, Canonical body) := by
        cases deep with
        | false => simp [sortInner, same_refl]
        | true => simpa [sortInner] using forall₂_congr ih
      rw [sortTree_container, forall_bodies_container, ← inner,
        ← sameAll_map_sortMembers_iff (keepsHeads_sortInner deep)]
      simp [same]

/-- Where all member lists are canonical, sorting changes nothing at all. -/
theorem sortTree_eq_of_canonical (node : Node)
    (canonical : ∀ body ∈ node.bodies deep, Canonical body) : sortTree deep node = node := by
  induction node using inductionOn with
  | leaf node bare => exact (keepsHeads_sortTree deep).leaf node bare
  | container head members ih =>
      obtain ⟨outer, below⟩ := forall_bodies_container.mp canonical
      rw [sortTree_container, outer.sortMembers_eq]
      refine congrArg _ ((List.map_congr_left fun member present => ?_).trans (List.map_id _))
      cases deep with
      | false => rfl
      | true => exact ih member present (below rfl member present)

/-- The member lists that the deep sort meets are those of all containers in the tree. -/
theorem forall_bodies_iff_at? {property : List Node → Prop} (node : Node) :
    (∀ body ∈ node.bodies true, property body) ↔
      ∀ steps head members, node.at? steps = some (.container head members) →
        property members := by
  have containers : (∀ steps head members, node.at? steps = some (.container head members) →
      property members) ↔ ∀ steps inner, node.at? steps = some inner →
        ∀ head members, inner = .container head members → property members := by
    refine forall_congr' fun steps => ⟨fun holds inner found head members equal => ?_, ?_⟩
    · exact holds head members (equal ▸ found)
    · exact fun holds head members found => holds _ found head members rfl
  rw [containers]
  clear containers
  induction node using inductionOn with
  | leaf node bare =>
      rw [bodies_of_leaf true bare, forall_at?_iff_of_leaf bare]
      refine iff_of_true (by simp) ?_
      rintro head members rfl
      cases bare
  | container head members ih =>
      rw [forall_bodies_container, forall_at?_iff]
      refine and_congr ⟨?_, fun holds => holds head members rfl⟩ ?_
      · rintro holds _ _ ⟨rfl, rfl⟩
        exact holds
      · exact ⟨fun below => (forall₂_congr ih).mp (below rfl), fun below _ =>
          (forall₂_congr ih).mpr below⟩

end Node

section Trees

variable {deep : Bool} {decls : List Node}

theorem isSorted_iff_forall_bodies :
    isSorted deep decls ↔ ∀ decl ∈ decls, ∀ body ∈ decl.bodies deep, Canonical body := by
  rw [isSorted, Node.sortTrees_eq_map, Node.sameAll_map_iff]
  simp only [Node.same_sortTree_iff]

theorem sortTrees_eq_of_isSorted (counts : isSorted deep decls) :
    sortTrees deep decls = decls := by
  have canonical := isSorted_iff_forall_bodies.mp counts
  calc sortTrees deep decls
      = decls.map (sortTree deep) := Node.sortTrees_eq_map deep decls
    _ = decls.map id := List.map_congr_left fun decl present =>
        Node.sortTree_eq_of_canonical decl (canonical decl present)
    _ = decls := List.map_id decls

end Trees

/-- **What counts as sorted.** Declarations count as sorted exactly if the member lists of all their
containers are canonical; by the shallow comparison, exactly if those of the outermost containers
are. So what counts as sorted at all depths counts as sorted at the outermost one, and sorting what
counts as sorted changes nothing at all. -/
theorem isSorted_iff_canonical (decls : List Node) :
    (isSorted true decls ↔ ∀ decl ∈ decls, ∀ steps head members,
      decl.at? steps = some (.container head members) → Canonical members) ∧
    (isSorted false decls ↔ ∀ head members, .container head members ∈ decls →
      Canonical members) ∧
    (isSorted true decls → isSorted false decls) ∧
    ∀ deep, isSorted deep decls ↔ sortTrees deep decls = decls := by
  have everywhere : isSorted true decls ↔ ∀ decl ∈ decls, ∀ steps head members,
      decl.at? steps = some (.container head members) → Canonical members := by
    simp only [isSorted_iff_forall_bodies, Node.forall_bodies_iff_at?]
  have outermost : isSorted false decls ↔ ∀ head members, .container head members ∈ decls →
      Canonical members := by
    rw [isSorted_iff_forall_bodies]
    constructor
    · exact fun holds head members present => holds _ present members (by simp [Node.bodies])
    · intro holds decl present body inside
      cases decl with
      | container head members =>
          simp only [Node.bodies, Bool.false_eq_true, ↓reduceIte, List.mem_singleton] at inside
          exact inside ▸ holds head members present
      | _ => simp [Node.bodies] at inside
  refine ⟨everywhere, outermost, ?_, fun deep => ⟨sortTrees_eq_of_isSorted, fun equal => ?_⟩⟩
  · rw [everywhere, outermost]
    exact fun holds head members present => holds _ present [] head members rfl
  · rw [isSorted, equal]
    exact Node.sameAll_refl decls

end MemberOrder
