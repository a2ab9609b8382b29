import MemberOrder.Proofs.Tree.Sameness

/-!
# Branches of forests

The branches of a forest are its nodes, outer before inner, each with the containers around it
(`Node.branchesAll`). The outline of a forest leaves the members out of every node of a branch. It
still determines the forest (`Node.eq_of_outline`), so a forest can be described by saying which
branches it has.
-/

namespace MemberOrder

/-- A node of a forest with the containers around it, outermost first. -/
structure Branch where
  above : List Node
  node : Node
deriving Repr

namespace Node

/-- A node without its members. -/
def bare : Node → Node
  | .container head _ => .container head []
  | node => node

theorem eq_of_bare {first second : Node} (same : first.bare = second.bare)
    (members : first.members = second.members) : first = second := by
  cases first <;> cases second <;> simp_all [bare, Node.members]

end Node

namespace Branch

/-- A branch as it is inside one more container. -/
def under (outer : Node) (branch : Branch) : Branch := ⟨outer :: branch.above, branch.node⟩

/-- Whether a branch is inside a container. -/
def isInner (branch : Branch) : Bool := !branch.above.isEmpty

/-- A branch whose nodes are without their members. -/
def bare (branch : Branch) : Branch := ⟨branch.above.map Node.bare, branch.node.bare⟩

@[simp]
theorem bare_under (outer : Node) (branch : Branch) :
    (branch.under outer).bare = branch.bare.under outer.bare := rfl

theorem under_injective (outer : Node) : Function.Injective (under outer) := by
  rintro ⟨above, node⟩ ⟨_, _⟩ same
  cases same
  rfl

end Branch

namespace Node

mutual

/-- The nodes of a tree with the containers around them, outer nodes first. -/
def branches : Node → List Branch
  | .container head members =>
    ⟨[], .container head members⟩ :: (branchesAll members).map (.under (.container head members))
  | node => [⟨[], node⟩]

def branchesAll : List Node → List Branch
  | [] => []
  | node :: rest => branches node ++ branchesAll rest

end

/-- The branches of a forest with all nodes without their members. -/
def outline (nodes : List Node) : List Branch := (branchesAll nodes).map Branch.bare

theorem branches_eq (node : Node) :
    branches node = ⟨[], node⟩ :: (branchesAll node.members).map (.under node) := by
  cases node <;> rfl

theorem branchesAll_append (nodes others : List Node) :
    branchesAll (nodes ++ others) = branchesAll nodes ++ branchesAll others := by
  induction nodes with
  | nil => rfl
  | cons node rest ih => rw [List.cons_append, branchesAll, branchesAll, ih, List.append_assoc]

theorem mem_branchesAll_iff {nodes : List Node} {branch : Branch} :
    branch ∈ branchesAll nodes ↔ ∃ node ∈ nodes, branch ∈ node.branches := by
  induction nodes with
  | nil => simp [branchesAll]
  | cons node rest ih => simp [branchesAll, ih]

theorem outline_append (nodes others : List Node) :
    outline (nodes ++ others) = outline nodes ++ outline others := by
  rw [outline, branchesAll_append, List.map_append]
  rfl

theorem outline_cons (node : Node) (rest : List Node) :
    outline (node :: rest) = ⟨[], node.bare⟩ ::
      ((outline node.members).map (.under node.bare) ++ outline rest) := by
  unfold outline
  rw [branchesAll, branches_eq, List.map_append, List.map_cons, List.map_map, List.map_map]
  rfl

theorem outline_singleton (node : Node) :
    outline [node] = ⟨[], node.bare⟩ :: (outline node.members).map (.under node.bare) := by
  rw [outline_cons]
  exact congrArg _ (List.append_nil _)

/-- In an outline what is inside the first node ends where the next node begins. -/
theorem span_outline (inner : List Branch) (outer : Node) (rest : List Node) :
    (inner.map (Branch.under outer) ++ outline rest).takeWhile Branch.isInner =
        inner.map (Branch.under outer) ∧
      (inner.map (Branch.under outer) ++ outline rest).dropWhile Branch.isInner = outline rest := by
  have within : ∀ branch ∈ inner.map (Branch.under outer), branch.isInner := by
    intro branch member
    obtain ⟨_, -, rfl⟩ := List.mem_map.mp member
    rfl
  have starts : (outline rest).takeWhile Branch.isInner = [] ∧
      (outline rest).dropWhile Branch.isInner = outline rest := by
    cases rest with
    | nil => exact ⟨rfl, rfl⟩
    | cons node rest => rw [outline_cons]; exact ⟨rfl, rfl⟩
  rw [List.takeWhile_append_of_pos within, List.dropWhile_append_of_pos within, starts.1, starts.2,
    List.append_nil]
  exact ⟨rfl, rfl⟩

/-- Forests with the same outline are the same. -/
theorem eq_of_outline {nodes others : List Node} (same : outline nodes = outline others) :
    nodes = others := by
  match nodes, others with
  | [], [] => rfl
  | [], other :: rest => rw [outline_cons] at same; cases same
  | node :: rest, [] => rw [outline_cons] at same; cases same
  | node :: rest, other :: others =>
      rw [outline_cons, outline_cons] at same
      obtain ⟨first, later⟩ := List.cons.inj same
      have bares : node.bare = other.bare := congrArg Branch.node first
      rw [bares] at later
      obtain ⟨inside, after⟩ := span_outline (outline node.members) other.bare rest
      obtain ⟨insideOther, afterOther⟩ := span_outline (outline other.members) other.bare others
      rw [later, insideOther] at inside
      rw [later, afterOther] at after
      have members : node.members = other.members :=
        eq_of_outline ((List.map_inj_right (Branch.under_injective _)).mp inside.symm)
      rw [eq_of_bare bares members, eq_of_outline after.symm]
termination_by sizeOf nodes
decreasing_by
  · cases node <;> simp [Node.members] <;> omega
  · simp only [List.cons.sizeOf_spec]
    omega

end Node

end MemberOrder
