import MemberOrder.Proofs.Tree.Sameness
import MemberOrder.Tree.Transform

/-!
# Calls of the handlers of a transformer

A handler is given a node and what its members have become (`Transformer.after_of_mem_updatesAll`).
A handler may also depend on what it was given before, and so answer the same question in two ways;
the rebuild with such a handler is written out in `Transformer.rebuildAll`, of which
`Transformer.transformAll` is the case without memory (`Transformer.rebuildAll_noting`). Whatever
the answers are, the nodes come up in the order in which a walk that stays out of the same
containers leaves them (`Transformer.before_rebuildAll`).
-/

namespace MemberOrder

/-- The node that a step goes out of. -/
def Step.left? : Step → Option Node
  | .enter _ => none
  | .leave node => some node

namespace Node

/-- A container with other members; any other node as it is. -/
def withMembers (node : Node) (members : List Node) : Node :=
  match node with
  | .container head _ => .container head members
  | other => other

theorem walk_eq (skips : Node → Bool) (node : Node) :
    node.walk skips = .enter node ::
      ((if skips node then [] else walkAll skips node.members) ++ [.leave node]) := by
  cases node with
  | container head members => rfl
  | _ => simp only [walk, members, walkAll, ite_self, List.nil_append]

end Node

namespace Transformer

/-- A node with what becomes of its members. -/
def remade (rule : Transformer) (node : Node) : Node :=
  node.withMembers (if node.hasTag rule.skipped then node.members
    else rule.transformAll node.members)

theorem remade_container (rule : Transformer) (head : Head) (members : List Node) :
    rule.remade (.container head members) = .container head
      (if head.kind.tag ∈ rule.skipped then members else rule.transformAll members) := by
  simp only [remade, Node.withMembers, Node.members, Node.hasTag, Node.tag?, decide_eq_true_eq]

theorem members_remade (rule : Transformer) (node : Node) :
    (rule.remade node).members =
      if node.hasTag rule.skipped then node.members else rule.transformAll node.members := by
  cases node with
  | container head members => rfl
  | _ => exact (ite_self _).symm

theorem transform_eq (rule : Transformer) (node : Node) :
    rule.transform node = rule.outcome node (rule.remade node) := by
  cases node with
  | container head members => rw [remade_container, transform]
  | _ => rfl

theorem updates_eq (rule : Transformer) (node : Node) :
    rule.updates node = (if node.hasTag rule.skipped then [] else rule.updatesAll node.members) ++
      rule.call node (rule.remade node) := by
  cases node with
  | container head members =>
      simp only [updates, remade_container, Node.members, Node.hasTag, Node.tag?,
        decide_eq_true_eq]
      split <;> rfl
  | _ => simp only [updates, Node.members, updatesAll, ite_self, List.nil_append]; rfl

theorem mem_updatesAll_iff {rule : Transformer} {nodes : List Node} {update : Update} :
    update ∈ rule.updatesAll nodes ↔ ∃ node ∈ nodes, update ∈ rule.updates node := by
  induction nodes with
  | nil => simp [updatesAll]
  | cons node rest ih => simp [updatesAll, ih]

theorem mem_call_iff {rule : Transformer} {before after : Node} {update : Update} :
    update ∈ rule.call before after ↔ before.hasTag rule.handled ∧ update = ⟨before, after⟩ := by
  unfold call
  split <;> simp_all

theorem after_of_mem_updates {rule : Transformer} (node : Node) :
    ∀ update ∈ rule.updates node, update.after = rule.remade update.before := by
  induction node using Node.inductionOnMembers with
  | inherit node ih =>
      intro update called
      rw [updates_eq, List.mem_append] at called
      rcases called with below | own
      · split at below
        · cases below
        · obtain ⟨member, inside, called⟩ := mem_updatesAll_iff.mp below
          exact ih member inside update called
      · rw [(mem_call_iff.mp own).2]

/-- The handler is given each node with what has become of its members. -/
theorem after_of_mem_updatesAll {rule : Transformer} {nodes : List Node} {update : Update}
    (called : update ∈ rule.updatesAll nodes) : update.after = rule.remade update.before := by
  obtain ⟨node, -, called⟩ := mem_updatesAll_iff.mp called
  exact after_of_mem_updates node update called

section Memory

variable {σ : Type} (skipped handled : List Tag) (handler : Node → Node → StateM σ (Option Node))

/-- What takes the place of a node, given what the handler answers now. -/
def answer (before after : Node) : StateM σ (Option Node) :=
  if before.hasTag handled then handler before after else pure (some after)

mutual

/-- What takes the place of a node when the handler remembers. -/
def rebuild : Node → StateM σ (Option Node)
  | .container head members => do
    let inner ← if head.kind.tag ∈ skipped then pure members else rebuildAll members
    answer handled handler (.container head members) (.container head inner)
  | node => answer handled handler node node

/-- A list with each node replaced or dropped, from left to right. -/
def rebuildAll : List Node → StateM σ (List Node)
  | [] => pure []
  | node :: rest => do
    let kept ← rebuild node
    let others ← rebuildAll rest
    pure (kept.toList ++ others)

end

/-- A handler that also lists what it is given. -/
def noting (before after : Node) : StateM (List Update × σ) (Option Node) := fun memory =>
  let (answer, next) := handler before after memory.2
  (answer, memory.1 ++ [⟨before, after⟩], next)

theorem rebuild_eq (node : Node) :
    rebuild skipped handled handler node =
      (if node.hasTag skipped then pure node.members
        else rebuildAll skipped handled handler node.members) >>= fun inner =>
      answer handled handler node (node.withMembers inner) := by
  cases node with
  | container head members =>
      simp only [rebuild, Node.members, Node.hasTag, Node.tag?, decide_eq_true_eq]
      split <;> rfl
  | _ => simp only [rebuild, Node.members, rebuildAll, ite_self]; rfl

/-- The nodes that a walk leaves, of those that have a handler. -/
def departures (nodes : List Node) : List Node :=
  ((Node.walkAll (·.hasTag skipped) nodes).filterMap Step.left?).filter (·.hasTag handled)

theorem departures_cons (node : Node) (rest : List Node) :
    departures skipped handled (node :: rest) =
      departures skipped handled [node] ++ departures skipped handled rest := by
  simp only [departures, Node.walkAll, List.append_nil, List.filterMap_append, List.filter_append]

theorem departures_singleton (node : Node) :
    departures skipped handled [node] =
      (if node.hasTag skipped then [] else departures skipped handled node.members) ++
        (if node.hasTag handled then [node] else []) := by
  simp only [departures, Node.walkAll, List.append_nil, Node.walk_eq, Step.left?,
    List.filterMap_cons, List.filterMap_append, List.filterMap_nil, List.filter_append,
    List.filter_cons, List.filter_nil]
  split <;> rfl

theorem before_answer (before after : Node) (memory : List Update × σ) :
    (answer handled (noting handler) before after memory).2.1.map Update.before =
      memory.1.map Update.before ++ (if before.hasTag handled then [before] else []) := by
  unfold answer
  split
  · exact List.map_append
  · exact (List.append_nil _).symm

theorem before_rebuildAll_of_forall {nodes : List Node}
    (each : ∀ node ∈ nodes, ∀ memory : List Update × σ,
      (rebuild skipped handled (noting handler) node memory).2.1.map Update.before =
        memory.1.map Update.before ++ departures skipped handled [node])
    (memory : List Update × σ) :
    (rebuildAll skipped handled (noting handler) nodes memory).2.1.map Update.before =
      memory.1.map Update.before ++ departures skipped handled nodes := by
  induction nodes generalizing memory with
  | nil => exact (List.append_nil _).symm
  | cons node rest ih =>
      have later := ih (fun other inside => each other (List.mem_cons_of_mem _ inside))
        (rebuild skipped handled (noting handler) node memory).2
      rw [each node List.mem_cons_self memory, List.append_assoc, ← departures_cons] at later
      rw [rebuildAll]
      exact later

theorem before_rebuild (node : Node) (memory : List Update × σ) :
    (rebuild skipped handled (noting handler) node memory).2.1.map Update.before =
      memory.1.map Update.before ++ departures skipped handled [node] := by
  induction node using Node.inductionOnMembers generalizing memory with
  | inherit node ih =>
      rw [rebuild_eq, departures_singleton, ← List.append_assoc]
      split
      · rw [List.append_nil]
        exact before_answer handled handler node _ memory
      · rw [← before_rebuildAll_of_forall skipped handled handler ih memory]
        exact before_answer handled handler node _ _

/-- Whatever the handler answers, it is given the nodes in the order in which a walk leaves them. -/
theorem before_rebuildAll (nodes : List Node) (memory : List Update × σ) :
    (rebuildAll skipped handled (noting handler) nodes memory).2.1.map Update.before =
      memory.1.map Update.before ++ departures skipped handled nodes :=
  before_rebuildAll_of_forall skipped handled handler
    (fun node _ => before_rebuild skipped handled handler node) memory

end Memory

section Plain

variable {σ : Type} (rule : Transformer)

/-- The handler of a transformer in a state that it does not look at. -/
def plain (before after : Node) : StateM σ (Option Node) := pure (rule.replace before after)

theorem answer_noting_plain (before after : Node) (memory : List Update × σ) :
    answer rule.handled (noting rule.plain) before after memory =
      (rule.outcome before after, memory.1 ++ rule.call before after, memory.2) := by
  unfold answer outcome call
  split
  · rfl
  · exact Prod.ext rfl (Prod.ext (List.append_nil _).symm rfl)

theorem rebuildAll_noting_of_forall {nodes : List Node}
    (each : ∀ node ∈ nodes, ∀ memory : List Update × σ,
      rebuild rule.skipped rule.handled (noting rule.plain) node memory =
        (rule.transform node, memory.1 ++ rule.updates node, memory.2))
    (memory : List Update × σ) :
    rebuildAll rule.skipped rule.handled (noting rule.plain) nodes memory =
      (rule.transformAll nodes, memory.1 ++ rule.updatesAll nodes, memory.2) := by
  induction nodes generalizing memory with
  | nil => exact Prod.ext rfl (Prod.ext (List.append_nil _).symm rfl)
  | cons node rest ih =>
      have first := each node List.mem_cons_self memory
      have later := ih (fun other inside => each other (List.mem_cons_of_mem _ inside))
        (memory.1 ++ rule.updates node, memory.2)
      rw [rebuildAll, transformAll, updatesAll, ← List.append_assoc]
      simp only [bind, StateT.bind, first, later]
      rfl

theorem rebuild_noting (node : Node) (memory : List Update × σ) :
    rebuild rule.skipped rule.handled (noting rule.plain) node memory =
      (rule.transform node, memory.1 ++ rule.updates node, memory.2) := by
  induction node using Node.inductionOnMembers generalizing memory with
  | inherit node ih =>
      rw [rebuild_eq, transform_eq, updates_eq, remade]
      split
      · exact answer_noting_plain rule node _ memory
      · have inner := rebuildAll_noting_of_forall rule ih memory
        simp only [bind, StateT.bind, inner, answer_noting_plain, List.append_assoc]

/-- With a handler that does not remember, the rebuild is the transformation, and the handler is
given what the updates list. -/
theorem rebuildAll_noting (nodes : List Node) (memory : List Update × σ) :
    rebuildAll rule.skipped rule.handled (noting rule.plain) nodes memory =
      (rule.transformAll nodes, memory.1 ++ rule.updatesAll nodes, memory.2) :=
  rebuildAll_noting_of_forall rule (fun node _ => rebuild_noting rule node) memory

/-- The handler is given the nodes in the order in which a walk leaves them. -/
theorem before_updatesAll (nodes : List Node) :
    (rule.updatesAll nodes).map Update.before = departures rule.skipped rule.handled nodes := by
  have noted := before_rebuildAll rule.skipped rule.handled rule.plain nodes ([], ())
  rwa [rebuildAll_noting] at noted

end Plain

end Transformer

end MemberOrder
