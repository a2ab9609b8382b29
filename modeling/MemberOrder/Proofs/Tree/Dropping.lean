import MemberOrder.Proofs.Tree.Branches
import MemberOrder.Proofs.Tree.Handlers

/-!
# Dropping nodes

A transformer that drops the nodes of some tags and keeps the others takes a branch out of a forest
exactly if a node of one of these tags is on it before the first container that is skipped
(`Transformer.outline_transformAll_dropping`). As the outline determines the forest, dropping is a
filter of branches: dropping twice is dropping once, and dropping nothing changes nothing
(`Transformer.transformAll_dropping`).
-/

namespace MemberOrder

namespace Node

@[simp]
theorem hasTag_bare (tags : List Tag) (node : Node) : node.bare.hasTag tags = node.hasTag tags := by
  cases node <;> rfl

@[simp]
theorem hasTag_nil (node : Node) : node.hasTag [] = false := by
  unfold hasTag
  split <;> simp

@[simp]
theorem hasTag_append (tags others : List Tag) (node : Node) :
    node.hasTag (tags ++ others) = (node.hasTag tags || node.hasTag others) := by
  unfold hasTag
  split <;> simp

end Node

namespace Branch

/-- Whether a branch stays in a forest: none of its nodes is dropped, from the outermost down to the
first one that is skipped. -/
def survives (dropped skipped : List Tag) (branch : Branch) : Bool :=
  branch.above.foldr (fun outer below => !outer.hasTag dropped && (outer.hasTag skipped || below))
    (!branch.node.hasTag dropped)

variable (dropped skipped : List Tag)

theorem survives_cons (outer node : Node) (above : List Node) :
    survives dropped skipped ⟨outer :: above, node⟩ =
      (!outer.hasTag dropped && (outer.hasTag skipped || survives dropped skipped ⟨above, node⟩)) :=
  rfl

theorem survives_under (outer : Node) (branch : Branch) :
    (branch.under outer).survives dropped skipped =
      (!outer.hasTag dropped && (outer.hasTag skipped || branch.survives dropped skipped)) :=
  survives_cons dropped skipped outer branch.node branch.above

/-- A branch survives if no node on it is dropped but below one that is skipped. -/
theorem survives_iff (branch : Branch) :
    branch.survives dropped skipped ↔ ∀ before node after,
      branch.above ++ [branch.node] = before ++ node :: after →
      (∀ outer ∈ before, ¬ outer.hasTag skipped) → ¬ node.hasTag dropped := by
  obtain ⟨above, last⟩ := branch
  induction above with
  | nil =>
      simp only [survives, List.foldr_nil, Bool.not_eq_true', ← Bool.not_eq_true, List.nil_append]
      constructor
      · rintro stays before node after same -
        cases before with
        | nil =>
            cases same
            exact stays
        | cons first before => simp at same
      · exact fun each => each [] last [] rfl nofun
  | cons outer above ih =>
      rw [survives_cons, Bool.and_eq_true, Bool.or_eq_true, ih, Bool.not_eq_true',
        ← Bool.not_eq_true]
      constructor
      · rintro ⟨stays, below⟩ before node after same clear
        cases before with
        | nil =>
            cases same
            exact stays
        | cons first before =>
            obtain ⟨rfl, further⟩ := List.cons.inj same
            have entered := below.resolve_left (clear outer List.mem_cons_self)
            exact entered before node after further
              fun other inside => clear other (List.mem_cons_of_mem _ inside)
      · intro each
        refine ⟨each [] outer _ rfl nofun, Classical.or_iff_not_imp_left.mpr ?_⟩
        intro entered before node after same clear
        exact each (outer :: before) node after (congrArg _ same)
          (List.forall_mem_cons.mpr ⟨entered, clear⟩)

theorem survives_bare (branch : Branch) :
    branch.bare.survives dropped skipped = branch.survives dropped skipped := by
  obtain ⟨above, node⟩ := branch
  simp only [survives, bare, List.foldr_map, Node.hasTag_bare]

theorem survives_nil (branch : Branch) : branch.survives [] skipped = true :=
  (survives_iff [] skipped branch).mpr fun _ node _ _ _ dropped => by
    rw [Node.hasTag_nil] at dropped
    cases dropped

/-- A branch survives two rounds exactly if it survives one in which all these tags are dropped. -/
theorem survives_append (again : List Tag) (branch : Branch) :
    branch.survives (dropped ++ again) skipped =
      (branch.survives dropped skipped && branch.survives again skipped) := by
  obtain ⟨above, node⟩ := branch
  induction above with
  | nil => simp [survives]
  | cons outer above ih =>
      rw [survives_cons, survives_cons, survives_cons, ih, Node.hasTag_append]
      cases outer.hasTag dropped <;> cases outer.hasTag again <;> cases outer.hasTag skipped <;>
        simp

end Branch

namespace Transformer

theorem bare_remade (rule : Transformer) (node : Node) : (rule.remade node).bare = node.bare := by
  cases node <;> rfl

/-- What holds of the branches of each node of a list holds of the branches of the list. -/
theorem outline_transformAll_of_forall {rule : Transformer} {keep : Branch → Bool}
    {nodes : List Node} (each : ∀ node ∈ nodes,
      Node.outline (rule.transform node).toList = (node.branches.filter keep).map Branch.bare) :
    Node.outline (rule.transformAll nodes) =
      ((Node.branchesAll nodes).filter keep).map Branch.bare := by
  induction nodes with
  | nil => rfl
  | cons node rest ih =>
      rw [transformAll, Node.outline_append, each node List.mem_cons_self,
        ih fun other later => each other (List.mem_cons_of_mem _ later), Node.branchesAll,
        List.filter_append, List.map_append]

/-- Each node with a handler that is not below a skipped container comes up. -/
theorem exists_mem_updates_of_branch (rule : Transformer) {node : Node} {branch : Branch}
    (inside : branch ∈ node.branches)
    (entered : ∀ outer ∈ branch.above, ¬ outer.hasTag rule.skipped)
    (handled : branch.node.hasTag rule.handled) :
    ∃ update ∈ rule.updates node, update.before = branch.node := by
  induction node using Node.inductionOnMembers generalizing branch with
  | inherit node ih =>
      rw [Node.branches_eq, List.mem_cons, List.mem_map] at inside
      rcases inside with rfl | ⟨inner, inside, rfl⟩
      · refine ⟨⟨node, rule.remade node⟩, ?_, rfl⟩
        rw [updates_eq]
        exact List.mem_append_right _ (mem_call_iff.mpr ⟨handled, rfl⟩)
      · obtain ⟨member, present, within⟩ := Node.mem_branchesAll_iff.mp inside
        obtain ⟨update, called, same⟩ := ih member present within
          (fun outer above => entered outer (List.mem_cons_of_mem _ above)) handled
        refine ⟨update, ?_, same⟩
        rw [updates_eq, if_neg (entered node List.mem_cons_self)]
        exact List.mem_append_left _ (mem_updatesAll_iff.mpr ⟨member, present, called⟩)

section Dropping

variable (skipped dropped watched : List Tag) (rename : String → String)

/-- The handlers drop the nodes of the dropped tags, and nothing else changes a node. -/
theorem outcome_dropping (before after : Node) :
    (dropping skipped dropped [] watched rename).outcome before after =
      if before.hasTag dropped then none else some after := by
  unfold outcome dropping
  simp only [Node.hasTag_append, Node.hasTag_nil, Bool.or_false, Bool.false_eq_true, ↓reduceIte]
  cases before.hasTag dropped <;> simp

theorem transform_dropping (node : Node) :
    (dropping skipped dropped [] watched rename).transform node =
      if node.hasTag dropped then none
      else some ((dropping skipped dropped [] watched rename).remade node) := by
  rw [transform_eq, outcome_dropping]

theorem length_transformAll_dropping (nodes : List Node) :
    ((dropping skipped dropped [] watched rename).transformAll nodes).length =
      (nodes.filter fun node => !node.hasTag dropped).length := by
  induction nodes with
  | nil => rfl
  | cons node rest ih =>
      rw [transformAll, List.length_append, ih, transform_dropping, List.filter_cons]
      cases node.hasTag dropped with
      | true => exact Nat.zero_add _
      | false => exact Nat.add_comm _ _

/-- What takes the place of a node has the branches of the node that survive. -/
theorem outline_transform_dropping (node : Node) :
    Node.outline ((dropping skipped dropped [] watched rename).transform node).toList =
      (node.branches.filter (·.survives dropped skipped)).map Branch.bare := by
  induction node using Node.inductionOnMembers with
  | inherit node ih =>
      have inner := outline_transformAll_of_forall ih
      have own : Branch.survives dropped skipped ⟨[], node⟩ = !node.hasTag dropped := rfl
      have members : ((dropping skipped dropped [] watched rename).remade node).members =
          if node.hasTag skipped then node.members
          else (dropping skipped dropped [] watched rename).transformAll node.members :=
        members_remade _ node
      have bares (branches : List Branch) : (branches.map (.under node)).map Branch.bare =
          (branches.map Branch.bare).map (.under node.bare) := by
        simp only [List.map_map, Function.comp_def, Branch.bare_under]
      rw [transform_dropping, Node.branches_eq, List.filter_cons, List.filter_map, own]
      simp only [Function.comp_def, Branch.survives_under]
      cases node.hasTag dropped with
      | true => simp [Node.outline, Node.branchesAll]
      | false =>
          simp only [Bool.not_false, Bool.true_and, ↓reduceIte, Bool.false_eq_true,
            Option.toList_some, Node.outline_singleton, bare_remade, members, List.map_cons, bares]
          cases node.hasTag skipped with
          | true =>
              simp only [↓reduceIte, Bool.true_or, List.filter_eq_self.mpr fun _ _ => rfl]
              rfl
          | false =>
              simp only [Bool.false_eq_true, ↓reduceIte, Bool.false_or, inner]
              rfl

/-- A forest after dropping has the branches that survive. -/
theorem outline_transformAll_dropping (nodes : List Node) :
    Node.outline ((dropping skipped dropped [] watched rename).transformAll nodes) =
      ((Node.branchesAll nodes).filter (·.survives dropped skipped)).map Branch.bare :=
  outline_transformAll_of_forall fun node _ =>
    outline_transform_dropping skipped dropped watched rename node

/-- What a handler is given has as many members as survive. -/
theorem length_members_remade_dropping (node : Node) :
    ((dropping skipped dropped [] watched rename).remade node).members.length =
      if node.hasTag skipped then node.members.length
      else (node.members.filter fun member => !member.hasTag dropped).length := by
  rw [members_remade, ← length_transformAll_dropping skipped dropped watched rename]
  exact apply_ite List.length _ _ _

end Dropping

/-- **Dropping is a filter of branches.** Exactly those branches are in the forest afterwards on
which no node is dropped down to the first skipped container, in the order that they had. Every
handler is called for every node outside of skipped containers, and is given the node with the
members that survive. Dropping some tags and then others is dropping all of them at once, and
dropping none changes nothing. -/
theorem transformAll_dropping (skipped dropped watched : List Tag) (rename : String → String)
    (nodes : List Node) :
    (∀ result, (dropping skipped dropped [] watched rename).transformAll nodes = result ↔
      Node.outline result =
        ((Node.branchesAll nodes).filter (·.survives dropped skipped)).map Branch.bare) ∧
    (∀ branch : Branch, branch.survives dropped skipped ↔ ∀ before node after,
      branch.above ++ [branch.node] = before ++ node :: after →
      (∀ outer ∈ before, ¬ outer.hasTag skipped) → ¬ node.hasTag dropped) ∧
    (∀ update ∈ (dropping skipped dropped [] watched rename).updatesAll nodes,
      update.after.bare = update.before.bare ∧
      update.after.members = (if update.before.hasTag skipped then update.before.members
        else (dropping skipped dropped [] watched rename).transformAll update.before.members) ∧
      update.after.members.length = if update.before.hasTag skipped
        then update.before.members.length
        else (update.before.members.filter fun member => !member.hasTag dropped).length) ∧
    (∀ branch ∈ Node.branchesAll nodes, (∀ outer ∈ branch.above, ¬ outer.hasTag skipped) →
      branch.node.hasTag (dropped ++ watched) →
      ∃ update ∈ (dropping skipped dropped [] watched rename).updatesAll nodes,
        update.before = branch.node) ∧
    (∀ again looked : List Tag, (dropping skipped again [] looked rename).transformAll
        ((dropping skipped dropped [] watched rename).transformAll nodes) =
      (dropping skipped (dropped ++ again) [] watched rename).transformAll nodes) ∧
    (dropping skipped [] [] watched rename).transformAll nodes = nodes := by
  refine ⟨fun result => ⟨?_, fun outline => ?_⟩, Branch.survives_iff dropped skipped, ?_, ?_, ?_,
    ?_⟩
  · rintro rfl
    exact outline_transformAll_dropping skipped dropped watched rename nodes
  · exact Node.eq_of_outline
      ((outline_transformAll_dropping skipped dropped watched rename nodes).trans outline.symm)
  · intro update called
    rw [after_of_mem_updatesAll called]
    exact ⟨bare_remade _ _, members_remade _ _,
      length_members_remade_dropping skipped dropped watched rename _⟩
  · intro branch inside entered handled
    obtain ⟨node, present, within⟩ := Node.mem_branchesAll_iff.mp inside
    obtain ⟨update, called, same⟩ := exists_mem_updates_of_branch
      (dropping skipped dropped [] watched rename) within entered
      (by simpa only [dropping, List.append_nil] using handled)
    exact ⟨update, mem_updatesAll_iff.mpr ⟨node, present, called⟩, same⟩
  · intro again looked
    apply Node.eq_of_outline
    have first := outline_transformAll_dropping skipped dropped watched rename nodes
    have filtered (forest : List Node) :
        ((Node.branchesAll forest).filter (·.survives again skipped)).map Branch.bare =
          (Node.outline forest).filter (·.survives again skipped) := by
      simp only [Node.outline, List.filter_map, Function.comp_def, Branch.survives_bare]
    rw [outline_transformAll_dropping, outline_transformAll_dropping, filtered, first]
    simp only [List.filter_map, Function.comp_def, Branch.survives_bare, List.filter_filter,
      Branch.survives_append, Bool.and_comm]
  · apply Node.eq_of_outline
    rw [outline_transformAll_dropping,
      List.filter_eq_self.mpr fun branch _ => Branch.survives_nil skipped branch]
    rfl

/-- What is below a skipped container stays, and what is dropped takes along all that it holds. -/
example (rename : String → String) :
    let opened (kind : ContainerKind) (members : List Node) : Node :=
      .container ⟨kind, "A", [], none⟩ members
    let marker : Node := .marker ⟨.hidden, none⟩
    (dropping [.moduleDecl] [.privateMarker, .interfaceDecl] [] [] rename).transformAll
        [opened (.classDecl none) [marker, opened (.moduleDecl []) [marker], .foreign],
          opened .interfaceDecl [.foreign]] =
      [opened (.classDecl none) [opened (.moduleDecl []) [marker], .foreign]] := rfl

end Transformer

end MemberOrder
