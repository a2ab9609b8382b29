import MemberOrder.Order.Sort

/-!
# Markers and stamps

Placing a list takes its markers away and keeps all else in order (`place_map_member`). A stamp
makes a member state that it is hidden, and does so only where the member carries a visibility that
it does not state (`stamp_eq`). A stamped member among shown ones defines what it defined before,
with the same visibility (`Table.definitions_restate`, `Table.effective_restate`).
-/

namespace MemberOrder

namespace Node

def isMarker : Node → Bool
  | .marker _ => true
  | _ => false

/-- The visibility that a node sets for the members after it, if it is a marker. -/
def marks? : Node → Option Visibility
  | .marker decl => some decl.visibility
  | _ => none

/-- Whether a node carries a visibility of its own. A module function is shown on the one side and
hidden on the other, whatever it states. -/
def bearsVisibility : Node → Bool
  | .method decl => decl.kind ≠ .onBoth
  | .attribute _ | .alias _ => true
  | _ => false

/-- The visibility that a node states. -/
def stated : Node → Option Visibility
  | .method decl => decl.visibility
  | .attribute decl => decl.visibility
  | .alias decl => decl.visibility
  | _ => none

/-- The node with another stated visibility, if it can state one. -/
def withVisibility (visibility : Option Visibility) : Node → Node
  | .method decl => .method { decl with visibility }
  | .attribute decl => .attribute { decl with visibility }
  | .alias decl => .alias { decl with visibility }
  | node => node

@[simp]
theorem withVisibility_withVisibility (first second : Option Visibility) (node : Node) :
    (node.withVisibility first).withVisibility second = node.withVisibility second := by
  cases node <;> rfl

@[simp]
theorem isMarker_withVisibility (visibility : Option Visibility) (node : Node) :
    (node.withVisibility visibility).isMarker = node.isMarker := by
  cases node <;> rfl

@[simp]
theorem bearsVisibility_withVisibility (visibility : Option Visibility) (node : Node) :
    (node.withVisibility visibility).bearsVisibility = node.bearsVisibility := by
  cases node <;> rfl

theorem stated_withVisibility {node : Node} (bears : node.bearsVisibility)
    (visibility : Option Visibility) : (node.withVisibility visibility).stated = visibility := by
  cases node <;> first | rfl | simp [bearsVisibility] at bears

end Node

/-- What the last marker of a list sets, else the visibility that was set before. -/
def lastMarked (running : Visibility) (members : List Node) : Visibility :=
  (members.filterMap Node.marks?).getLast?.getD running

theorem lastMarked_cons (running : Visibility) (member : Node) (rest : List Node) :
    lastMarked running (member :: rest) = lastMarked (member.marks?.getD running) rest := by
  unfold lastMarked
  cases marks : member.marks? with
  | none => rw [List.filterMap_cons_none marks, Option.getD_none]
  | some visibility =>
      rw [List.filterMap_cons_some marks, List.getLast?_cons, Option.getD_some, Option.getD_some]

section Place

variable {running : Visibility} {members : List Node} {placed : Placed}

theorem place_cons_of_not_marker {member : Node} (other : member.isMarker = false) :
    place running (member :: members) = ⟨member, running⟩ :: place running members := by
  cases member <;> first | rfl | cases other

/-- Members are placed under the last marker before them. -/
theorem place_append (running : Visibility) (before after : List Node) :
    place running (before ++ after) =
      place running before ++ place (lastMarked running before) after := by
  induction before generalizing running with
  | nil => rfl
  | cons member rest ih =>
      rw [lastMarked_cons]
      cases member <;> first | exact ih _ | exact congrArg _ (ih _)

/-- Placing takes the markers away and keeps the other members in order. -/
theorem place_map_member (running : Visibility) (members : List Node) :
    (place running members).map Placed.member = members.filter fun member => !member.isMarker := by
  induction members generalizing running with
  | nil => rfl
  | cons member rest ih =>
      by_cases marks : member.isMarker
      · cases member <;> first | exact ih _ | cases marks
      · simp only [Bool.not_eq_true] at marks
        simp only [place_cons_of_not_marker marks, List.map_cons, ih, marks, Bool.not_false,
          List.filter_cons_of_pos]

theorem isMarker_of_mem_place (member : placed ∈ place running members) :
    placed.member.isMarker = false := by
  have present : placed.member ∈ (place running members).map Placed.member :=
    List.mem_map_of_mem member
  rw [place_map_member] at present
  simpa using (List.mem_filter.mp present).2

/-- Without markers the visibility stays as it is set. -/
theorem place_of_unmarked (unmarked : ∀ member ∈ members, member.isMarker = false) :
    place running members = members.map fun member => ⟨member, running⟩ := by
  induction members with
  | nil => rfl
  | cons member rest ih =>
      rw [place_cons_of_not_marker (unmarked member List.mem_cons_self), List.map_cons,
        ih fun other later => unmarked other (List.mem_cons_of_mem _ later)]

end Place

/-- A stamp hides a member that carries a visibility, does not state it and is hidden. -/
theorem stamp_eq (member : Node) (visibility : Option Visibility) :
    stamp member visibility =
      if member.bearsVisibility ∧ member.stated = none ∧ visibility = some .hidden then
        member.withVisibility (some .hidden)
      else member := by
  cases visibility with
  | none => cases member <;> simp [stamp]
  | some visibility =>
      cases visibility with
      | shown => cases member <;> simp [stamp]
      | hidden =>
          match member with
          | .method decl =>
              by_cases both : decl.kind = .onBoth <;> cases own : decl.visibility <;>
                simp [stamp, Node.bearsVisibility, Node.stated, Node.withVisibility, both, own]
          | .attribute decl =>
              cases own : decl.visibility <;>
                simp [stamp, Node.bearsVisibility, Node.stated, Node.withVisibility, own]
          | .alias decl =>
              cases own : decl.visibility <;>
                simp [stamp, Node.bearsVisibility, Node.stated, Node.withVisibility, own]
          | .container .. | .typeAlias _ | .binding _ | .mixin _ | .marker _ | .unknown _
          | .foreign => simp [stamp, Node.bearsVisibility]

@[simp]
theorem isMarker_stamp (member : Node) (visibility : Option Visibility) :
    (stamp member visibility).isMarker = member.isMarker := by
  rw [stamp_eq]
  split <;> simp

@[simp]
theorem bearsVisibility_stamp (member : Node) (visibility : Option Visibility) :
    (stamp member visibility).bearsVisibility = member.bearsVisibility := by
  rw [stamp_eq]
  split <;> simp

/-- A stamp changes nothing but a stated visibility. -/
theorem withVisibility_stamp (member : Node) (visibility other : Option Visibility) :
    (stamp member visibility).withVisibility other = member.withVisibility other := by
  rw [stamp_eq]
  split <;> simp

/-- A stamp by the same visibility changes nothing the second time. -/
theorem stamp_stamp (member : Node) (visibility : Option Visibility) :
    stamp (stamp member visibility) visibility = stamp member visibility := by
  rw [stamp_eq member]
  split
  · next stamps =>
      rw [stamp_eq, if_neg]
      intro again
      rw [Node.stated_withVisibility stamps.1] at again
      cases again.2.1
  · next stays => rw [stamp_eq, if_neg stays]

theorem stamp_of_not_bears {member : Node} (bare : member.bearsVisibility = false)
    (visibility : Option Visibility) : stamp member visibility = member := by
  rw [stamp_eq, if_neg]
  simp [bare]

/-- What a member states after its stamp is the visibility by which it was stamped. -/
theorem stated_stamp {member : Node} (bears : member.bearsVisibility) (visibility : Visibility)
    (own : member.stated = none ∨ member.stated = some visibility) :
    (stamp member (some visibility)).stated.getD .shown = visibility := by
  rw [stamp_eq]
  split
  · next stamps => simp [Node.stated_withVisibility bears, Option.some.inj stamps.2.2]
  · next stays =>
      rcases own with unstated | stated
      · cases visibility with
        | shown => simp [unstated]
        | hidden => exact (stays ⟨bears, unstated, rfl⟩).elim
      · simp [stated]

theorem Category.of_stamp (member : Node) (visibility later : Option Visibility) :
    Category.of (stamp member visibility) later = Category.of member later := by
  rw [stamp_eq]
  split
  · cases member <;> cases later <;> rfl
  · rfl

namespace Placed

/-- The visibility that a member states, else the one that is set. -/
def visibility (placed : Placed) : Visibility := placed.member.stated.getD placed.running

/-- Where a member stands matters to what it defines only as far as it sets its visibility. -/
theorem definitions_of_running {member : Node} {running later : Visibility}
    (same : member.bearsVisibility → member.stated.getD later = member.stated.getD running) :
    definitions ⟨member, later⟩ = definitions ⟨member, running⟩ := by
  match member with
  | .method decl =>
      cases kind : decl.kind with
      | onBoth => simp only [definitions, kind]
      | onInstance | onSelf =>
          have equal := same (by simp [Node.bearsVisibility, kind])
          simp only [Node.stated] at equal
          simp only [definitions, kind, equal]
  | .attribute decl =>
      have equal := same rfl
      simp only [Node.stated] at equal
      simp only [definitions, equal]
  | .container .. | .typeAlias _ | .binding _ | .alias _ | .mixin _ | .marker _ | .unknown _
  | .foreign => rfl

/-- A member that states the visibility which it has defines what it defined. -/
theorem definitions_withVisibility {member : Node} {running visibility : Visibility}
    (later : Visibility) (same : member.bearsVisibility → member.stated.getD running = visibility) :
    definitions ⟨member.withVisibility (some visibility), later⟩ =
      definitions ⟨member, running⟩ := by
  match member with
  | .method decl =>
      cases kind : decl.kind with
      | onBoth => simp only [Node.withVisibility, definitions, kind]
      | onInstance | onSelf =>
          have equal := same (by simp [Node.bearsVisibility, kind])
          simp only [Node.stated] at equal
          simp only [Node.withVisibility, definitions, kind, equal, Option.getD_some]
  | .attribute decl =>
      have equal := same rfl
      simp only [Node.stated] at equal
      simp only [Node.withVisibility, definitions, equal, Option.getD_some]
  | .container .. | .typeAlias _ | .binding _ | .alias _ | .mixin _ | .marker _ | .unknown _
  | .foreign => rfl

end Placed

namespace Table

variable (table later : Table) (placed : Placed)

/-- The category of a member among others. -/
def category : Category := .of placed.member (table.effective placed)

/-- The member as it is shown. -/
def emitted : Node := stamp placed.member (table.effective placed)

theorem entry_eq : table.entry placed = (table.category placed, table.emitted placed) := rfl

/-- The member as it is shown, in a list without markers. -/
def restate : Placed := ⟨table.emitted placed, .shown⟩

/-- The visibility of a member that is no alias does not depend on the others. -/
theorem effective_of_bears (bears : placed.member.bearsVisibility)
    (direct : placed.alias? = none) : table.effective placed = some placed.visibility := by
  unfold Placed.alias? at direct
  unfold effective Placed.visibility
  match member : placed.member with
  | .method _ | .attribute _ => rfl
  | .alias _ => simp [member] at direct
  | .container .. | .typeAlias _ | .binding _ | .mixin _ | .marker _ | .unknown _ | .foreign =>
      simp [member, Node.bearsVisibility] at bears

theorem effective_of_alias {placed : Placed} {relay : PlacedAlias}
    (found : placed.alias? = some relay) :
    table.effective placed = some (table.aliasVisibility relay) := by
  obtain ⟨member, running⟩ := placed
  match member with
  | .alias _ => cases found; rfl
  | .method _ | .attribute _ | .container .. | .typeAlias _ | .binding _ | .mixin _ | .marker _
  | .unknown _ | .foreign => cases found

/-- Without its marker a member defines what it defined. -/
theorem definitions_restate : (table.restate placed).definitions = placed.definitions := by
  obtain ⟨member, running⟩ := placed
  match direct : (Placed.mk member running).alias? with
  | some _ =>
      match member with
      | .alias _ =>
          unfold restate emitted
          rw [stamp_eq]
          split <;> rfl
  | none =>
      have visible : member.bearsVisibility →
          table.effective ⟨member, running⟩ = some (member.stated.getD running) := fun bears =>
        table.effective_of_bears _ bears direct
      unfold restate emitted
      rw [stamp_eq]
      split
      · next stamps =>
          refine Placed.definitions_withVisibility _ fun bears => ?_
          exact Option.some.inj ((visible bears).symm.trans stamps.2.2)
      · next stays =>
          refine Placed.definitions_of_running fun bears => ?_
          cases own : member.stated with
          | some _ => rfl
          | none =>
              cases running with
              | shown => rfl
              | hidden => exact (stays ⟨bears, own, by rw [visible bears, own]; rfl⟩).elim

/-- The alias as it is shown, in a list without markers. -/
def restateAlias (placed : PlacedAlias) : PlacedAlias where
  decl := { placed.decl with
    visibility :=
      if placed.decl.visibility = none ∧ table.aliasVisibility placed = .hidden then some .hidden
      else placed.decl.visibility }
  running := .shown

theorem alias?_restate :
    (table.restate placed).alias? = placed.alias?.map table.restateAlias := by
  obtain ⟨member, running⟩ := placed
  unfold restate emitted
  rw [stamp_eq]
  match member with
  | .alias decl =>
      by_cases hides : decl.visibility = none ∧ table.aliasVisibility ⟨decl, running⟩ = .hidden
      · have stamps : (Node.alias decl).bearsVisibility ∧ (Node.alias decl).stated = none ∧
            table.effective ⟨.alias decl, running⟩ = some .hidden :=
          ⟨rfl, hides.1, congrArg some hides.2⟩
        simp only [if_pos stamps, Placed.alias?, Node.withVisibility, Option.map_some,
          restateAlias, if_pos hides]
      · have stays : ¬ ((Node.alias decl).bearsVisibility ∧ (Node.alias decl).stated = none ∧
            table.effective ⟨.alias decl, running⟩ = some .hidden) := fun stamps =>
          hides ⟨stamps.2.1, Option.some.inj stamps.2.2⟩
        simp only [if_neg stays, Placed.alias?, Option.map_some, restateAlias, if_neg hides]
  | .method _ | .attribute _ | .container .. | .typeAlias _ | .binding _ | .mixin _ | .marker _
  | .unknown _ | .foreign => split <;> rfl

theorem exists_effective (bears : placed.member.bearsVisibility) :
    ∃ visibility, table.effective placed = some visibility ∧
      (placed.member.stated = none ∨ placed.member.stated = some visibility) := by
  obtain ⟨member, running⟩ := placed
  match member with
  | .method decl | .attribute decl | .alias decl =>
      refine ⟨_, rfl, ?_⟩
      cases own : decl.visibility with
      | none => exact .inl own
      | some _ =>
          right
          simp [Node.stated, own, aliasVisibility, resolve]
  | .container .. | .typeAlias _ | .binding _ | .mixin _ | .marker _ | .unknown _ | .foreign =>
      cases bears

/-- Without its marker a member states the visibility that it had, or else it is shown. -/
theorem visibility_restate (bears : placed.member.bearsVisibility) :
    some (table.restate placed).visibility = table.effective placed := by
  obtain ⟨visibility, visible, own⟩ := table.exists_effective placed bears
  simp only [Placed.visibility, restate, emitted, visible]
  exact congrArg some (stated_stamp bears visibility own)

/-- Without its marker a member that is no alias has the visibility that it had. -/
theorem effective_restate (bears : placed.member.bearsVisibility)
    (direct : placed.alias? = none) :
    later.effective (table.restate placed) = table.effective placed := by
  have directLater : (table.restate placed).alias? = none := by
    rw [alias?_restate, direct, Option.map_none]
  have bearsLater : (table.restate placed).member.bearsVisibility := by
    simpa only [restate, emitted, bearsVisibility_stamp] using bears
  rw [later.effective_of_bears _ bearsLater directLater]
  exact table.visibility_restate placed bears

/-- A member whose visibility is still the same has the same category, and no new stamp. -/
theorem entry_restate
    (same : placed.member.bearsVisibility →
      later.effective (table.restate placed) = table.effective placed) :
    later.entry (table.restate placed) = table.entry placed := by
  have category : Category.of (table.emitted placed) (later.effective (table.restate placed)) =
      Category.of placed.member (table.effective placed) := by
    unfold emitted
    rw [Category.of_stamp]
    by_cases bears : placed.member.bearsVisibility
    · rw [same bears]
    · obtain ⟨member, running⟩ := placed
      simp only [Bool.not_eq_true] at bears
      unfold restate emitted
      rw [stamp_of_not_bears bears]
      match member with
      | .method decl =>
          have both : decl.kind = .onBoth := by simpa [Node.bearsVisibility] using bears
          simp only [effective, Category.of, Category.ofMethod, both]
      | .attribute _ | .alias _ => cases bears
      | .container .. | .typeAlias _ | .binding _ | .mixin _ | .marker _ | .unknown _
      | .foreign => rfl
  have shown : stamp (table.emitted placed) (later.effective (table.restate placed)) =
      table.emitted placed := by
    by_cases bears : placed.member.bearsVisibility
    · rw [same bears]
      exact stamp_stamp _ _
    · refine stamp_of_not_bears ?_ _
      simpa only [emitted, bearsVisibility_stamp, Bool.not_eq_true] using bears
  exact Prod.ext category shown

end Table

end MemberOrder
