import MemberOrder.Proofs.Tree.Handlers
import MemberOrder.Proofs.Tree.Positions

/-!
# Walks with the places they come to

A trace is a walk in which each step also says where its node is (`Node.traceAll`). A walk goes into
and out of exactly the nodes that are not below a skipped one (`Node.mem_traceAll_iff`), outer nodes
first on the way in and last on the way out, and its steps are bracketed
(`Visitor.orderly_traceAll`). A transformer that stays out of the same containers leaves the same
nodes in the same order (`Visitor.leaves_as_transformer`).
-/

namespace MemberOrder

/-- The node that a step goes into or out of. -/
def Step.node : Step → Node
  | .enter node => node
  | .leave node => node

/-- A step, with the member indices that lead to its node. -/
structure Event where
  path : List Nat
  step : Step
deriving Repr

namespace Event

/-- An event as it is inside the member at an index. -/
def under (index : Nat) (event : Event) : Event := ⟨index :: event.path, event.step⟩

/-- What the order of two events of a walk says about their places. Outer nodes are entered before
inner ones, they are left after them, and nothing around or inside a node is entered once that node
has been left. -/
def Before (earlier later : Event) : Prop :=
  match earlier.step, later.step with
  | .enter _, .enter _ => ¬ later.path <+: earlier.path
  | .enter _, .leave _ => True
  | .leave _, .enter _ => ¬ earlier.path <+: later.path ∧ ¬ later.path <+: earlier.path
  | .leave _, .leave _ => ¬ earlier.path <+: later.path

/-- Sequences in which every node that is entered is left again, after all that was entered in
between has been left. -/
inductive Bracketed : List Event → Prop
  | nil : Bracketed []
  | around {path : List Nat} {node : Node} {inner rest : List Event} (inside : Bracketed inner)
      (after : Bracketed rest) :
      Bracketed (⟨path, .enter node⟩ :: (inner ++ ⟨path, .leave node⟩ :: rest))

theorem Before.ne {earlier later : Event} (before : earlier.Before later) : earlier ≠ later := by
  rintro rfl
  obtain ⟨path, step⟩ := earlier
  cases step <;> exact before (List.prefix_refl path)

namespace Bracketed

variable {events others : List Event}

theorem append (first : Bracketed events) (second : Bracketed others) :
    Bracketed (events ++ others) := by
  induction first with
  | nil => exact second
  | around inside _ _ ih =>
      rw [List.cons_append, List.append_assoc]
      exact .around inside ih

theorem under (bracketed : Bracketed events) (index : Nat) :
    Bracketed (events.map (.under index)) := by
  induction bracketed with
  | nil => exact .nil
  | around _ _ ihInner ihRest =>
      rw [List.map_cons, List.map_append, List.map_cons]
      exact .around ihInner ihRest

/-- Brackets stay brackets when all about some nodes is left out. -/
theorem filter (bracketed : Bracketed events) (keep : Node → Bool) :
    Bracketed (events.filter fun event => keep event.step.node) := by
  induction bracketed with
  | nil => exact .nil
  | @around path node inner rest _ _ ihInner ihRest =>
      rw [List.filter_cons, List.filter_append, List.filter_cons]
      cases kept : keep node with
      | true => simpa [Step.node, kept] using .around ihInner ihRest
      | false => simpa [Step.node, kept] using ihInner.append ihRest

end Bracketed

end Event

namespace Node

/-- What member indices lead to, the first of which counts in a list. -/
def among? (nodes : List Node) : List Nat → Option Node
  | [] => none
  | index :: steps => nodes[index]?.bind fun node => node.at? steps

/-- Whether a path leads to a node and comes past no skipped node. -/
def Reaches (lookup : List Nat → Option Node) (skips : Node → Bool) (path : List Nat)
    (node : Node) : Prop :=
  lookup path = some node ∧
    ∀ above outer, above <+: path → above ≠ path → lookup above = some outer → ¬ skips outer

mutual

/-- A walk through a node with the place of each step. -/
def trace (skips : Node → Bool) : Node → List Event
  | .container head members =>
    ⟨[], .enter (.container head members)⟩ ::
      ((if skips (.container head members) then [] else traceFrom skips 0 members) ++
        [⟨[], .leave (.container head members)⟩])
  | node => [⟨[], .enter node⟩, ⟨[], .leave node⟩]

/-- A walk through nodes of which the first is at an index. -/
def traceFrom (skips : Node → Bool) (index : Nat) : List Node → List Event
  | [] => []
  | node :: rest => (trace skips node).map (.under index) ++ traceFrom skips (index + 1) rest

end

def traceAll (skips : Node → Bool) (nodes : List Node) : List Event := traceFrom skips 0 nodes

variable {skips : Node → Bool} {nodes : List Node}

theorem trace_eq (skips : Node → Bool) (node : Node) :
    node.trace skips = ⟨[], .enter node⟩ ::
      ((if skips node then [] else traceAll skips node.members) ++ [⟨[], .leave node⟩]) := by
  cases node with
  | container head members => rfl
  | _ => simp only [trace, traceAll, traceFrom, members, ite_self, List.nil_append]

section Reaching

variable {lookup : List Nat → Option Node} {index : Nat} {steps : List Nat} {root node : Node}

theorem reaches_cons_iff :
    Reaches lookup skips (index :: steps) node ↔
      (∀ outer, lookup [] = some outer → ¬ skips outer) ∧
        Reaches (fun below => lookup (index :: below)) skips steps node := by
  constructor
  · rintro ⟨found, clear⟩
    refine ⟨fun outer => clear [] outer List.nil_prefix (List.cons_ne_nil _ _).symm, found, ?_⟩
    intro above outer within shorter
    exact clear _ outer ((List.prefix_cons_inj index).mpr within)
      fun same => shorter (List.cons.inj same).2
  · rintro ⟨start, found, clear⟩
    refine ⟨found, fun above outer within shorter atAbove => ?_⟩
    cases above with
    | nil => exact start outer atAbove
    | cons other above =>
        obtain ⟨rfl, below⟩ := List.cons_prefix_cons.mp within
        exact clear above outer below (fun same => shorter (same ▸ rfl)) atAbove

theorem reaches_at?_nil_iff : Reaches root.at? skips [] node ↔ root = node := by
  constructor
  · exact fun reached => Option.some.inj reached.1
  · rintro rfl
    exact ⟨rfl, fun above _ within shorter => absurd (List.prefix_nil.mp within) shorter⟩

theorem reaches_at?_cons_iff :
    Reaches root.at? skips (index :: steps) node ↔
      ¬ skips root ∧ Reaches (among? root.members) skips (index :: steps) node := by
  rw [reaches_cons_iff, reaches_cons_iff]
  simp [at?, among?]

theorem reaches_among?_cons_iff :
    Reaches (among? nodes) skips (index :: steps) node ↔
      ∃ member, nodes[index]? = some member ∧ Reaches member.at? skips steps node := by
  rw [reaches_cons_iff]
  cases listed : nodes[index]? with
  | none => simp [Reaches, among?, listed]
  | some member => simp [Reaches, among?, listed]

end Reaching

theorem mem_traceFrom_iff {index : Nat} {event : Event} :
    event ∈ traceFrom skips index nodes ↔ ∃ (offset : Nat) (member : Node) (inner : Event),
      nodes[offset]? = some member ∧ inner ∈ member.trace skips ∧
        inner.under (index + offset) = event := by
  induction nodes generalizing index with
  | nil => simp [traceFrom]
  | cons node rest ih =>
      rw [traceFrom, List.mem_append, List.mem_map, ih]
      constructor
      · rintro (⟨inner, inside, rfl⟩ | ⟨offset, member, inner, listed, inside, rfl⟩)
        · exact ⟨0, node, inner, rfl, inside, rfl⟩
        · exact ⟨offset + 1, member, inner, listed, inside, by rw [Nat.add_right_comm]; rfl⟩
      · rintro ⟨offset, member, inner, listed, inside, rfl⟩
        cases offset with
        | zero => cases listed; exact .inl ⟨inner, inside, rfl⟩
        | succ offset =>
            exact .inr ⟨offset, member, inner, listed, inside, by rw [Nat.add_right_comm]; rfl⟩

theorem mem_traceAll_iff_of_forall
    (each : ∀ node ∈ nodes, ∀ event : Event,
      event ∈ node.trace skips ↔ Reaches node.at? skips event.path event.step.node)
    (event : Event) :
    event ∈ traceAll skips nodes ↔ Reaches (among? nodes) skips event.path event.step.node := by
  obtain ⟨path, step⟩ := event
  rw [traceAll, mem_traceFrom_iff]
  constructor
  · rintro ⟨index, member, inner, listed, inside, same⟩
    cases same
    rw [Nat.zero_add]
    exact reaches_among?_cons_iff.mpr ⟨member, listed,
      (each member (List.mem_of_getElem? listed) inner).mp inside⟩
  · intro reached
    cases path with
    | nil => cases reached.1
    | cons index steps =>
        obtain ⟨member, listed, reached⟩ := reaches_among?_cons_iff.mp reached
        exact ⟨index, member, ⟨steps, step⟩, listed,
          (each member (List.mem_of_getElem? listed) ⟨steps, step⟩).mpr reached,
          by rw [Nat.zero_add]; rfl⟩

theorem not_reaches_among?_nil {node : Node} : ¬ Reaches (among? nodes) skips [] node :=
  fun reached => nomatch reached.1

theorem mem_trace_iff (node : Node) (event : Event) :
    event ∈ node.trace skips ↔ Reaches node.at? skips event.path event.step.node := by
  induction node using inductionOnMembers generalizing event with
  | inherit node ih =>
      have inner : event ∈ (if skips node then [] else traceAll skips node.members) ↔
          ¬ skips node ∧ Reaches (among? node.members) skips event.path event.step.node := by
        rw [← mem_traceAll_iff_of_forall ih]
        split <;> simp_all
      rw [trace_eq, List.mem_cons, List.mem_append, List.mem_singleton, inner]
      obtain ⟨path, step⟩ := event
      cases path with
      | cons index steps => simp [reaches_at?_cons_iff]
      | nil =>
          rw [reaches_at?_nil_iff]
          constructor
          · rintro (same | ⟨-, reached⟩ | same)
            · cases same; rfl
            · exact absurd reached not_reaches_among?_nil
            · cases same; rfl
          · rintro rfl
            cases step with
            | enter node => exact .inl rfl
            | leave node => exact .inr (.inr rfl)

/-- A walk through a forest goes into and out of exactly what is not below a skipped node. -/
theorem mem_traceAll_iff (event : Event) :
    event ∈ traceAll skips nodes ↔ Reaches (among? nodes) skips event.path event.step.node :=
  mem_traceAll_iff_of_forall (fun node _ => mem_trace_iff node) event

/-! ### Order -/

theorem before_under {index : Nat} {earlier later : Event} :
    (earlier.under index).Before (later.under index) ↔ earlier.Before later := by
  obtain ⟨path, step⟩ := earlier
  obtain ⟨other, next⟩ := later
  cases step <;> cases next <;> simp [Event.Before, Event.under]

theorem before_of_ne {first second : Nat} (apart : first ≠ second) (earlier later : Event) :
    (earlier.under first).Before (later.under second) := by
  obtain ⟨path, step⟩ := earlier
  obtain ⟨other, next⟩ := later
  cases step <;> cases next <;> simp [Event.Before, Event.under, apart, apart.symm]

theorem pairwise_before_traceFrom_of_forall
    (each : ∀ node ∈ nodes, (node.trace skips).Pairwise Event.Before) (index : Nat) :
    (traceFrom skips index nodes).Pairwise Event.Before := by
  induction nodes generalizing index with
  | nil => exact .nil
  | cons node rest ih =>
      rw [traceFrom, List.pairwise_append, List.pairwise_map]
      refine ⟨(each node List.mem_cons_self).imp before_under.mpr,
        ih (fun other later => each other (List.mem_cons_of_mem _ later)) _, ?_⟩
      intro earlier first later second
      obtain ⟨earlier, -, rfl⟩ := List.mem_map.mp first
      obtain ⟨offset, -, later, -, -, rfl⟩ := mem_traceFrom_iff.mp second
      exact before_of_ne (by omega) earlier later

theorem pairwise_before_trace (node : Node) : (node.trace skips).Pairwise Event.Before := by
  induction node using inductionOnMembers with
  | inherit node ih =>
      have inner : (if skips node then [] else traceAll skips node.members).Pairwise
          Event.Before := by
        split
        · exact .nil
        · exact pairwise_before_traceFrom_of_forall ih 0
      have deeper : ∀ event ∈ (if skips node then [] else traceAll skips node.members),
          event.path ≠ [] := by
        intro event inside outermost
        split at inside
        · cases inside
        · have reached := (mem_traceAll_iff event).mp inside
          rw [outermost] at reached
          exact not_reaches_among?_nil reached
      rw [trace_eq, List.pairwise_cons, List.pairwise_append]
      refine ⟨?_, inner, List.pairwise_singleton _ _, ?_⟩
      · intro event inside
        rcases List.mem_append.mp inside with inside | last
        · obtain ⟨path, step⟩ := event
          cases step with
          | enter below => exact fun above => deeper _ inside (List.prefix_nil.mp above)
          | leave below => trivial
        · cases List.mem_singleton.mp last
          trivial
      · intro event inside other last
        cases List.mem_singleton.mp last
        obtain ⟨path, step⟩ := event
        cases step with
        | enter below => trivial
        | leave below => exact fun above => deeper _ inside (List.prefix_nil.mp above)

theorem pairwise_before_traceAll : (traceAll skips nodes).Pairwise Event.Before :=
  pairwise_before_traceFrom_of_forall (fun node _ => pairwise_before_trace node) 0

theorem step_traceFrom_of_forall
    (each : ∀ node ∈ nodes, (node.trace skips).map Event.step = node.walk skips) (index : Nat) :
    (traceFrom skips index nodes).map Event.step = walkAll skips nodes := by
  induction nodes generalizing index with
  | nil => rfl
  | cons node rest ih =>
      rw [traceFrom, walkAll, List.map_append, List.map_map, ← each node List.mem_cons_self,
        ih fun other later => each other (List.mem_cons_of_mem _ later)]
      rfl

theorem step_trace (node : Node) : (node.trace skips).map Event.step = node.walk skips := by
  induction node using inductionOnMembers with
  | inherit node ih =>
      rw [trace_eq, walk_eq, List.map_cons, List.map_append]
      split
      · rfl
      · rw [traceAll, step_traceFrom_of_forall ih]
        rfl

/-- Without the places a trace is a walk. -/
theorem step_traceAll (skips : Node → Bool) (nodes : List Node) :
    (traceAll skips nodes).map Event.step = walkAll skips nodes :=
  step_traceFrom_of_forall (fun node _ => step_trace node) 0

/-! ### Brackets -/

theorem bracketed_traceFrom_of_forall
    (each : ∀ node ∈ nodes, Event.Bracketed (node.trace skips)) (index : Nat) :
    Event.Bracketed (traceFrom skips index nodes) := by
  induction nodes generalizing index with
  | nil => exact .nil
  | cons node rest ih =>
      rw [traceFrom]
      exact ((each node List.mem_cons_self).under index).append
        (ih (fun other later => each other (List.mem_cons_of_mem _ later)) _)

theorem bracketed_trace (node : Node) : Event.Bracketed (node.trace skips) := by
  induction node using inductionOnMembers with
  | inherit node ih =>
      rw [trace_eq]
      refine .around ?_ .nil
      split
      · exact .nil
      · exact bracketed_traceFrom_of_forall ih 0

theorem bracketed_traceAll : Event.Bracketed (traceAll skips nodes) :=
  bracketed_traceFrom_of_forall (fun node _ => bracketed_trace node) 0

end Node

/-- The node that a call for the way out is about. -/
def Call.left? : Call → Option Node
  | .leave node => some node
  | .visit _ | .common _ => none

namespace Visitor

/-- The tags of the containers that a visitor does not go into. -/
def unentered (visitor : Visitor) : List Tag :=
  visitor.refused.filter fun tag => visitor.common || tag ∈ visitor.visited

/-- The transformer that stays out of the containers that a visitor stays out of, and has handlers
for the tags that the visitor has handlers for on the way out. -/
def counterpart (visitor : Visitor) (replace : Node → Node → Option Node) : Transformer :=
  ⟨visitor.unentered, visitor.left, replace⟩

theorem skips_eq (visitor : Visitor) :
    visitor.skips = fun node => node.hasTag visitor.unentered := by
  funext node
  unfold skips unentered Node.hasTag
  cases node.tag? with
  | none => rfl
  | some tag => simp [Bool.or_comm]

/-- The calls for the way out are for the nodes that a walk leaves. -/
theorem left_calls (visitor : Visitor) (nodes : List Node) :
    (visitor.calls nodes).filterMap Call.left? =
      Transformer.departures visitor.unentered visitor.left nodes := by
  rw [calls, Transformer.departures, skips_eq, List.filterMap_filterMap, ← List.filterMap_eq_filter,
    List.filterMap_filterMap]
  congr 1
  funext step
  cases step with
  | enter node =>
      simp only [call?, Step.left?, Option.bind_none]
      cases node.hasTag visitor.visited <;> cases visitor.common <;> rfl
  | leave node =>
      simp only [call?, Step.left?, Option.bind_some, Option.guard]
      split <;> rfl

/-- What a walk of a visitor is like when each of its steps also says where its node is. -/
structure Orderly (visitor : Visitor) (nodes : List Node) (trace : List Event) : Prop where
  /-- Without the places it is the walk. -/
  steps : trace.map Event.step = Node.walkAll visitor.skips nodes
  /-- The calls of handlers are made at the steps of the walk. -/
  calls : visitor.calls nodes = trace.filterMap fun event => visitor.call? event.step
  /-- It goes into and out of everything that is not below a skipped container, and nothing else. -/
  reached : ∀ event, event ∈ trace ↔
    Node.Reaches (Node.among? nodes) visitor.skips event.path event.step.node
  /-- It goes into and out of each place once. -/
  once : trace.Nodup
  /-- Outer nodes are entered before inner ones and left after them. -/
  ordered : trace.Pairwise Event.Before
  /-- The steps into and out of any kind of nodes are bracketed. -/
  bracketed : ∀ keep : Node → Bool,
    Event.Bracketed (trace.filter fun event => keep event.step.node)

theorem orderly_traceAll (visitor : Visitor) (nodes : List Node) :
    visitor.Orderly nodes (Node.traceAll visitor.skips nodes) where
  steps := Node.step_traceAll _ _
  calls := by rw [calls, ← Node.step_traceAll, List.filterMap_map]; rfl
  reached := Node.mem_traceAll_iff
  once := Node.pairwise_before_traceAll.imp Event.Before.ne
  ordered := Node.pairwise_before_traceAll
  bracketed keep := Node.bracketed_traceAll.filter keep

/-- **A transformer leaves the nodes that a visitor leaves, in the same order.** This is so whatever
the handlers of the transformer put in the place of the nodes, and also if they remember what they
were given before. The walk of the visitor is orderly. -/
theorem leaves_as_transformer (visitor : Visitor) (nodes : List Node) :
    visitor.Orderly nodes (Node.traceAll visitor.skips nodes) ∧
    (∀ replace, ((visitor.counterpart replace).updatesAll nodes).map Update.before =
      (visitor.calls nodes).filterMap Call.left?) ∧
    (∀ (σ : Type) (handler : Node → Node → StateM σ (Option Node)) (start : σ),
      (Transformer.rebuildAll visitor.unentered visitor.left (Transformer.noting handler) nodes
        ([], start)).2.1.map Update.before = (visitor.calls nodes).filterMap Call.left?) ∧
    ∀ replace, Transformer.rebuildAll visitor.unentered visitor.left
        (Transformer.noting (visitor.counterpart replace).plain) nodes ([], ()) =
      ((visitor.counterpart replace).transformAll nodes,
        (visitor.counterpart replace).updatesAll nodes, ()) := by
  refine ⟨visitor.orderly_traceAll nodes, fun replace => ?_, fun σ handler start => ?_,
    fun replace => ?_⟩
  · rw [left_calls, Transformer.before_updatesAll]
    rfl
  · rw [left_calls, Transformer.before_rebuildAll]
    rfl
  · exact Transformer.rebuildAll_noting (visitor.counterpart replace) nodes ([], ())

end Visitor

end MemberOrder
