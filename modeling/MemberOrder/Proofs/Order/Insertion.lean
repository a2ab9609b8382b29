import MemberOrder.Proofs.Order.Agreement
import MemberOrder.Proofs.Order.AliasTarget

/-!
# One more member

A member can change what another one is only as the target of an alias: with it and without it the
tables agree at every key that it gives no meaning (`agreesAt_of_not_names`). So a member that gives
no alias its target is put between the others, which keep their categories, their stamps and their
order (`sortMembers_insert`).
-/

namespace MemberOrder

/-- A member gives a key a meaning, wherever it stands. -/
def Node.Names (member : Node) (key : MethodKey) : Prop :=
  ∃ running, (∃ visibility, Placed.Defines ⟨member, running⟩ key visibility) ∨
    Placed.Renames ⟨member, running⟩ key

section Insertion

variable {before after : List Node} {member : Node} {key : MethodKey}

theorem place_insert (other : member.isMarker = false) :
    place .shown (before ++ member :: after) =
      place .shown before ++ ⟨member, lastMarked .shown before⟩ ::
        place (lastMarked .shown before) after := by
  rw [place_append, place_cons_of_not_marker other]

/-- A member says nothing of the keys that it gives no meaning. -/
theorem agreesAt_of_not_names (other : member.isMarker = false) (apart : ¬ member.Names key) :
    (Table.of (before ++ after)).AgreesAt (Table.of (before ++ member :: after)) key where
  definedAs visibility := by
    have undefined : ¬ Placed.Defines ⟨member, lastMarked .shown before⟩ key visibility :=
      fun defines => apart ⟨_, .inl ⟨visibility, defines⟩⟩
    simp only [mem_definedAs_of, place_insert other, place_append, List.mem_append,
      List.mem_cons, or_and_right, exists_or, exists_eq_left, undefined, false_or]
  aliasesOf relay := by
    simp only [Table.mem_aliasesOf, mem_aliases_of, place_insert other, place_append,
      List.mem_append, List.mem_cons]
    refine and_congr_left fun named => or_congr_right (or_iff_right ?_)
    intro same
    obtain rfl : Node.alias relay.decl = member := congrArg Placed.member same
    exact apart ⟨.shown, .inr (named ▸ .alias _ _)⟩

/-- Where no alias points at what a member defines, the others have the entries that they have
without it. -/
theorem categorize_insert (other : member.isMarker = false)
    (apart : ∀ decl, .alias decl ∈ before ++ after → ¬ member.Names decl.target) :
    categorize (before ++ member :: after) =
      (place .shown before).map (Table.of (before ++ after)).entry ++
        (Table.of (before ++ member :: after)).entry ⟨member, lastMarked .shown before⟩ ::
          (place (lastMarked .shown before) after).map (Table.of (before ++ after)).entry := by
  have kept : ∀ placed ∈ place .shown before ++ place (lastMarked .shown before) after,
      (Table.of (before ++ member :: after)).entry placed =
        (Table.of (before ++ after)).entry placed := by
    intro placed present
    rw [← place_append] at present
    refine Table.entry_of_agreesAt (fun key => ¬ member.Names key)
      (fun _ => agreesAt_of_not_names other) (fun key _ next pointed => ?_) fun relay found => ?_
    · exact apart _ (mem_of_mem_place (mem_aliases_of.mp (Table.mem_aliasesOf.mp pointed).1))
    · obtain ⟨node, running⟩ := placed
      cases node <;> cases found
      exact apart _ (mem_of_mem_place present)
  rw [categorize_eq_map, place_insert other, List.map_append, List.map_cons,
    List.map_congr_left fun placed present => kept placed (List.mem_append_left _ present),
    List.map_congr_left fun placed present => kept placed (List.mem_append_right _ present)]

/-- **One more member.** A member that is no marker and gives no other alias its target is put
between the others, with a stamp if it is hidden and does not say so: each of the others keeps its
category, its stamp and its place among them. -/
theorem sortMembers_insert (other : member.isMarker = false)
    (apart : ∀ decl, .alias decl ∈ before ++ after → ¬ member.Names decl.target) :
    ∃ (entry : Category × Node) (earlier later front back : List (Category × Node)),
      (entry.2 = member ∨ member.bearsVisibility ∧ member.stated = none ∧
        entry.2 = member.withVisibility (some .hidden)) ∧
      earlier.length = (before.filter fun member => !member.isMarker).length ∧
      categorize (before ++ after) = earlier ++ later ∧
      categorize (before ++ member :: after) = earlier ++ entry :: later ∧
      Category.sortOn Prod.fst (categorize (before ++ after)) = front ++ back ∧
      Category.sortOn Prod.fst (categorize (before ++ member :: after)) =
        front ++ entry :: back ∧
      sortMembers (before ++ after) = front.map Prod.snd ++ back.map Prod.snd ∧
      sortMembers (before ++ member :: after) =
        front.map Prod.snd ++ entry.2 :: back.map Prod.snd := by
  have given : categorize (before ++ after) =
      (place .shown before).map (Table.of (before ++ after)).entry ++
        (place (lastMarked .shown before) after).map (Table.of (before ++ after)).entry := by
    rw [categorize_eq_map, place_append, List.map_append]
  have added := categorize_insert other apart
  obtain ⟨front, back, without, inserted⟩ := Category.exists_sortOn_insert Prod.fst
    ((place .shown before).map (Table.of (before ++ after)).entry)
    ((place (lastMarked .shown before) after).map (Table.of (before ++ after)).entry)
    ((Table.of (before ++ member :: after)).entry ⟨member, lastMarked .shown before⟩)
  rw [← given] at without
  rw [← added] at inserted
  refine ⟨_, _, _, front, back, ?_, ?_, given, added, without, inserted, ?_, ?_⟩
  · rw [Table.entry_eq, Table.emitted, stamp_eq]
    split
    · next stamps => exact .inr ⟨stamps.1, stamps.2.1, rfl⟩
    · exact .inl rfl
  · rw [List.length_map, ← place_map_member .shown before, List.length_map]
  · rw [sortMembers_eq_sortOn, without, List.map_append]
  · rw [sortMembers_eq_sortOn, inserted, List.map_append, List.map_cons]

private def writerAlias : Alias := ⟨"put", "size=", .onInstance, none, none⟩

private def ownAlias : Alias := ⟨"own", "own", .onInstance, none, none⟩

/-- An alias in a hidden section. -/
private def aliasOfWriter : List Node := [.marker ⟨.hidden, none⟩, .alias writerAlias]

/-- The attribute that has what it points at. -/
private def writtenAttribute : List Node :=
  [.attribute ⟨.accessor, "size", "Integer", .onInstance, none, none, none⟩]

/-- An alias of itself is put between them. -/
theorem sortMembers_insert_ownAlias :
    (Node.alias ownAlias).isMarker = false ∧
    (∀ decl, .alias decl ∈ aliasOfWriter ++ writtenAttribute →
      ¬ (Node.alias ownAlias).Names decl.target) ∧
    ∃ (stamped : Node) (front back : List Node),
      (stamped = .alias ownAlias ∨
        stamped = (Node.alias ownAlias).withVisibility (some .hidden)) ∧
      sortMembers (aliasOfWriter ++ writtenAttribute) = front ++ back ∧
      sortMembers (aliasOfWriter ++ .alias ownAlias :: writtenAttribute) =
        front ++ stamped :: back := by
  have apart : ∀ decl, .alias decl ∈ aliasOfWriter ++ writtenAttribute →
      ¬ (Node.alias ownAlias).Names decl.target := by
    rintro decl present ⟨running, ⟨visibility, defines⟩ | renames⟩
    · cases defines
    · have only : decl = writerAlias := by simpa [aliasOfWriter, writtenAttribute] using present
      subst only
      generalize target : writerAlias.target = key at renames
      cases renames
      exact absurd target (by decide)
  obtain ⟨entry, _, _, front, back, stamps, -, -, -, -, -, without, inserted⟩ :=
    sortMembers_insert rfl apart
  exact ⟨rfl, apart, entry.2, _, _, stamps.imp_right fun stamps => stamps.2.2, without, inserted⟩

end Insertion

end MemberOrder
