import MemberOrder.Proofs.Tree.OwnFlaw

/-!
# Positions in values and trees

Member indices lead from an object to one inside it, through objects with the tag of a container
(`Tree.valueAt?`), and from a node to one below it (`Node.at?`). What holds of everything that they
lead to holds at the start and of everything below its members (`Tree.forall_valueAt?_iff`,
`Node.forall_at?_iff`); what a value has inside is smaller and is a value of a JSON text if the
value is one.
-/

namespace MemberOrder

namespace Place

/-- The place of what some member indices lead to. -/
def below (place : Place) (steps : List Nat) : Place := ⟨place.root, place.steps ++ steps⟩

@[simp]
theorem below_nil (place : Place) : place.below [] = place := by
  simp [below]

theorem below_cons (place : Place) (index : Nat) (steps : List Nat) :
    place.below (index :: steps) = (place.member index).below steps := by
  simp [below, member]

theorem text_below (place : Place) (steps : List Nat) :
    (place.below steps).text =
      place.text ++ String.join (steps.map fun index => ".members[" ++ toString index ++ "]") := by
  simp only [below, text, List.map_append, String.join_append, String.append_assoc]

end Place

namespace Node

/-- What member indices lead to. -/
def at? : Node → List Nat → Option Node
  | node, [] => some node
  | node, index :: steps => node.members[index]?.bind fun member => member.at? steps

/-- A property of everything in a tree holds at its root and of everything in its members. -/
theorem forall_at?_iff {node : Node} {property : Node → Prop} :
    (∀ steps inner, node.at? steps = some inner → property inner) ↔
      property node ∧ ∀ member ∈ node.members, ∀ steps inner,
        member.at? steps = some inner → property inner := by
  constructor
  · intro everywhere
    refine ⟨everywhere [] node rfl, fun member present steps inner found => ?_⟩
    obtain ⟨index, listed⟩ := List.mem_iff_getElem?.mp present
    exact everywhere (index :: steps) inner (by rw [at?, listed]; exact found)
  · rintro ⟨atRoot, below⟩ steps inner found
    cases steps with
    | nil => cases found; exact atRoot
    | cons index steps =>
        obtain ⟨member, listed, inside⟩ := Option.bind_eq_some_iff.mp found
        exact below member (List.mem_of_getElem? listed) steps inner inside

theorem forall_at?_iff_of_leaf {node : Node} {property : Node → Prop}
    (leaf : node.isContainer = false) :
    (∀ steps inner, node.at? steps = some inner → property inner) ↔ property node := by
  have bare : node.members = [] := by
    cases node <;> first | rfl | cases leaf
  rw [forall_at?_iff, bare]
  simp

end Node

namespace Tree

/-- What member indices lead to, through objects with the tag of a container. -/
def valueAt? : Value → List Nat → Option Value
  | value, [] => some value
  | value, index :: steps => (membersOf value)[index]?.bind fun member => valueAt? member steps

variable {value : Value} {scope : List (Nat × Value)} {place : Place}

theorem valueAt?_cons_eq_some_iff {inner : Value} {index : Nat} {steps : List Nat} :
    valueAt? value (index :: steps) = some inner ↔
      ∃ member, (membersOf value)[index]? = some member ∧ valueAt? member steps = some inner :=
  Option.bind_eq_some_iff

/-- A property of everything that members lead to holds of the value itself and of everything that
the members of each of its members lead to. -/
theorem forall_valueAt?_iff {property : Value → Prop} :
    (∀ steps inner, valueAt? value steps = some inner → property inner) ↔
      property value ∧ ∀ member ∈ membersOf value, ∀ steps inner,
        valueAt? member steps = some inner → property inner := by
  constructor
  · intro everywhere
    refine ⟨everywhere [] value rfl, fun member present steps inner found => ?_⟩
    obtain ⟨index, listed⟩ := List.mem_iff_getElem?.mp present
    exact everywhere (index :: steps) inner
      (valueAt?_cons_eq_some_iff.mpr ⟨member, listed, found⟩)
  · rintro ⟨own, below⟩ steps inner found
    cases steps with
    | nil => cases found; exact own
    | cons index steps =>
        obtain ⟨member, listed, inside⟩ := valueAt?_cons_eq_some_iff.mp found
        exact below member (List.mem_of_getElem? listed) steps inner inside

/-- The members of an object are the list that it has under their name. -/
theorem exists_of_mem_membersOf {member : Value} (present : member ∈ membersOf value) :
    ∃ mark entries inner items, value = .map mark entries ∧
      Entries.field? entries "members" = some (.list inner items) ∧ member ∈ items := by
  cases value with
  | map mark entries =>
      simp only [membersOf] at present
      split at present
      · split at present
        · next inner items _ found => exact ⟨mark, entries, inner, items, rfl, found, present⟩
        · cases present
      · cases present
  | _ => cases present

theorem isJson_of_mem_membersOf (json : value.isJson) {member : Value}
    (present : member ∈ membersOf value) : member.isJson := by
  obtain ⟨mark, entries, inner, items, rfl, found, inside⟩ := exists_of_mem_membersOf present
  cases mark with
  | some _ => simp [Value.isJson] at json
  | none =>
      rw [Value.isJson] at json
      have jsonList := Entries.isJson_of_field? json found
      cases inner with
      | some _ => simp [Value.isJson] at jsonList
      | none => exact Value.areJson_iff.mp (by simpa only [Value.isJson] using jsonList) _ inside

theorem isJson_of_valueAt? (json : value.isJson) {steps : List Nat} {inner : Value}
    (found : valueAt? value steps = some inner) : inner.isJson := by
  induction steps generalizing value with
  | nil => cases found; exact json
  | cons index steps ih =>
      obtain ⟨member, listed, inside⟩ := valueAt?_cons_eq_some_iff.mp found
      exact ih (isJson_of_mem_membersOf json (List.mem_of_getElem? listed)) inside

theorem exceedsDigits_of_mem_membersOf {member : Value} (present : member ∈ membersOf value)
    (exceeds : member.exceedsDigits) : value.exceedsDigits := by
  obtain ⟨mark, entries, inner, items, rfl, found, inside⟩ := exists_of_mem_membersOf present
  rw [Value.exceedsDigits]
  refine Entries.anyEntryExceedsDigits_of_field? found ?_
  rw [Value.exceedsDigits]
  exact Value.anyExceedsDigits_iff.mpr ⟨member, inside, exceeds⟩

theorem exceedsDigits_of_valueAt? {steps : List Nat} {inner : Value}
    (found : valueAt? value steps = some inner) (exceeds : inner.exceedsDigits) :
    value.exceedsDigits := by
  induction steps generalizing value with
  | nil => cases found; exact exceeds
  | cons index steps ih =>
      obtain ⟨member, listed, inside⟩ := valueAt?_cons_eq_some_iff.mp found
      exact exceedsDigits_of_mem_membersOf (List.mem_of_getElem? listed) (ih inside)

theorem sizeOf_lt_of_mem_membersOf {member : Value} (present : member ∈ membersOf value) :
    sizeOf member < sizeOf value := by
  obtain ⟨mark, entries, inner, items, rfl, found, inside⟩ := exists_of_mem_membersOf present
  have listed := List.sizeOf_lt_of_mem (Entries.mem_of_field? found)
  have within := List.sizeOf_lt_of_mem inside
  simp only [Prod.mk.sizeOf_spec, Value.list.sizeOf_spec, Value.map.sizeOf_spec] at listed ⊢
  omega

end Tree

end MemberOrder
