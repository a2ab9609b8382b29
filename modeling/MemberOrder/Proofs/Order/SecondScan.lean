import MemberOrder.Proofs.Order.AliasGraph
import MemberOrder.Proofs.Order.SortMembers

/-!
# Scanning sorted members again

Sorting takes the markers away, so a second scan finds every member in the open and sees only what
the members state. It finds the same definitions (`mem_definedAs_sortMembers`) and the same aliases,
some of them stamped (`mem_aliases_sortMembers`). In a steady table every visibility is found again
(`Table.Steady.effective_restate`), so that the categories are the same and a second sort changes
nothing; where the table is not steady a second sort stamps one alias more
(`Table.exists_alias_stamped_again`).
-/

namespace MemberOrder

variable {members : List Node} {placed : Placed} {relay : PlacedAlias} {key : MethodKey}

theorem definitions_sortMembers_perm (members : List Node) :
    (Table.of (sortMembers members)).definitions.Perm (Table.of members).definitions := by
  have kept : (Table.of (sortMembers members)).definitions =
      (arranged members).flatMap Placed.definitions := by
    simp only [Table.of, Table.ofPlaced, place_sortMembers, List.flatMap_map,
      Table.definitions_restate]
  rw [kept]
  exact (arranged_perm members).flatMap_right _

/-- Sorting keeps the definitions of every key. -/
theorem mem_definedAs_sortMembers {visibility : Visibility} :
    visibility ∈ (Table.of (sortMembers members)).definedAs key ↔
      visibility ∈ (Table.of members).definedAs key :=
  ((definitions_sortMembers_perm members).filterMap _).mem_iff

theorem definedAs_sortMembers_eq_nil_iff :
    (Table.of (sortMembers members)).definedAs key = [] ↔
      (Table.of members).definedAs key = [] := by
  simp only [List.eq_nil_iff_forall_not_mem, mem_definedAs_sortMembers]

theorem aliases_sortMembers_perm (members : List Node) :
    (Table.of (sortMembers members)).aliases.Perm
      ((Table.of members).aliases.map (Table.of members).restateAlias) := by
  have kept : (Table.of (sortMembers members)).aliases =
      ((arranged members).filterMap Placed.alias?).map (Table.of members).restateAlias := by
    simp only [Table.of, Table.ofPlaced, place_sortMembers, List.filterMap_map, List.map_filterMap,
      Function.comp_def, Table.alias?_restate]
  rw [kept]
  exact ((arranged_perm members).filterMap _).map _

/-- Sorting keeps the aliases, up to their stamps. -/
theorem mem_aliases_sortMembers :
    relay ∈ (Table.of (sortMembers members)).aliases ↔
      ∃ given ∈ (Table.of members).aliases, (Table.of members).restateAlias given = relay := by
  rw [(aliases_sortMembers_perm members).mem_iff, List.mem_map]

theorem mem_aliasesOf_sortMembers :
    relay ∈ (Table.of (sortMembers members)).aliasesOf key ↔
      ∃ given ∈ (Table.of members).aliasesOf key,
        (Table.of members).restateAlias given = relay := by
  simp only [Table.mem_aliasesOf, mem_aliases_sortMembers]
  constructor
  · rintro ⟨⟨given, member, rfl⟩, defines⟩
    exact ⟨given, ⟨member, defines⟩, rfl⟩
  · rintro ⟨given, ⟨member, defines⟩, rfl⟩
    exact ⟨⟨given, member, rfl⟩, defines⟩

namespace Table

/-- A restated alias states a visibility exactly if its alias did or is hidden. -/
theorem restateAlias_visibility (table : Table) (placed : PlacedAlias) :
    (table.restateAlias placed).decl.visibility =
      if table.aliasVisibility placed = .hidden then some .hidden else placed.decl.visibility := by
  cases own : placed.decl.visibility with
  | none => simp only [restateAlias, own, true_and]
  | some visibility =>
      have resolved : table.aliasVisibility placed = visibility := resolve_stated own _
      cases visibility <;> simp [restateAlias, own, resolved]

/-- An alias that is shown is not stamped. -/
theorem restateAlias_of_shown {table : Table} (visible : table.aliasVisibility relay = .shown) :
    table.restateAlias relay = ⟨relay.decl, .shown⟩ := by
  simp only [restateAlias, visible, reduceCtorEq, and_false, ↓reduceIte]

theorem relays_sortMembers {running : Visibility} :
    (Table.of (sortMembers members)).Relays ⟨relay.decl, running⟩ ↔
      (Table.of members).Relays relay :=
  and_congr_right fun _ => definedAs_sortMembers_eq_nil_iff

/-- What the second scan finds hidden was hidden before, if the table is steady. -/
theorem Steady.hidden_of_resolve (steady : (Table.of members).Steady) (unseen : List MethodKey)
    (within : ∀ key ∈ unseen, key ∈ (Table.of members).aliasKeys)
    (member : relay ∈ (Table.of members).aliases)
    (hidden : (Table.of (sortMembers members)).resolve unseen
      ((Table.of members).restateAlias relay) = .hidden) :
    (Table.of members).aliasVisibility relay = .hidden := by
  induction size : unseen.length using Nat.strongRecOn generalizing unseen relay with
  | ind size ih =>
      subst size
      cases visible : (Table.of members).aliasVisibility relay with
      | hidden => rfl
      | shown =>
          rw [restateAlias_of_shown visible] at hidden
          -- Whatever decides the visibility would have made the alias hidden in the first scan.
          refine visible.symm.trans ?_
          by_cases relays : (Table.of members).Relays relay
          · have relaysLater : (Table.of (sortMembers members)).Relays ⟨relay.decl, .shown⟩ :=
              relays_sortMembers.mpr relays
            by_cases fresh : relay.decl.target ∈ unseen
            · rw [resolve_followed relaysLater fresh, Visibility.widest_eq_hidden_iff] at hidden
              refine steady relay member relays (mem_aliasKeys.mp (within _ fresh))
                fun next nextMember => ?_
              refine ih _ (length_without_lt fresh) _
                (fun key inside => within key (mem_without.mp inside).1)
                (mem_aliasesOf.mp nextMember).1 ?_ rfl
              rw [Visibility.eq_hidden_iff]
              intro shown
              refine hidden (List.mem_map.mpr ⟨_, ?_, shown⟩)
              exact mem_aliasesOf_sortMembers.mpr ⟨next, nextMember, rfl⟩
            · rw [resolve_stopped relaysLater fresh] at hidden
              cases hidden
          · have found : (Table.of (sortMembers members)).resolve unseen ⟨relay.decl, .shown⟩ =
                (Table.of members).aliasVisibility relay :=
              resolve_of_not_relays relays (by rfl) (fun _ => mem_definedAs_sortMembers) _ _
            exact found.symm.trans hidden

/-- In a steady table the second scan finds the visibility of every alias again. -/
theorem Steady.aliasVisibility_restateAlias (steady : (Table.of members).Steady)
    (member : relay ∈ (Table.of members).aliases) :
    (Table.of (sortMembers members)).aliasVisibility ((Table.of members).restateAlias relay) =
      (Table.of members).aliasVisibility relay := by
  refine Visibility.eq_of_hidden_iff ⟨fun hidden => ?_, fun hidden => ?_⟩
  · refine steady.hidden_of_resolve _ (fun key inside => ?_) member hidden
    obtain ⟨relayed, relayedMember, rfl⟩ := List.mem_map.mp inside
    obtain ⟨given, givenMember, rfl⟩ := mem_aliases_sortMembers.mp relayedMember
    exact List.mem_map.mpr ⟨given, givenMember, rfl⟩
  · refine resolve_stated ?_ _
    rw [restateAlias_visibility, if_pos hidden]

/-- In a steady table the second scan finds every visibility again. -/
theorem Steady.effective_restate (steady : (Table.of members).Steady)
    (member : placed ∈ place .shown members) (bears : placed.member.bearsVisibility) :
    (Table.of (sortMembers members)).effective ((Table.of members).restate placed) =
      (Table.of members).effective placed := by
  cases direct : placed.alias? with
  | none => exact Table.effective_restate _ _ _ bears direct
  | some relay =>
      have relayMember : relay ∈ (Table.of members).aliases :=
        List.mem_filterMap.mpr ⟨placed, member, direct⟩
      have again : ((Table.of members).restate placed).alias? =
          some ((Table.of members).restateAlias relay) := by
        rw [alias?_restate, direct, Option.map_some]
      rw [effective_of_alias _ direct, effective_of_alias _ again,
        steady.aliasVisibility_restateAlias relayMember]

theorem Steady.entry_restate (steady : (Table.of members).Steady)
    (member : placed ∈ place .shown members) :
    (Table.of (sortMembers members)).entry ((Table.of members).restate placed) =
      (Table.of members).entry placed :=
  Table.entry_restate _ _ _ (steady.effective_restate member)

/-- In a steady table the second scan gives the entries of the first, already in order. -/
theorem Steady.categorize_sortMembers (steady : (Table.of members).Steady) :
    categorize (sortMembers members) = Category.sortOn Prod.fst (categorize members) := by
  rw [categorize_eq_map, place_sortMembers, List.map_map, sortOn_categorize]
  exact List.map_congr_left fun placed member => steady.entry_restate (mem_arranged.mp member)

/-- In a steady table a second sort changes nothing. -/
theorem Steady.sortMembers_sortMembers (steady : (Table.of members).Steady) :
    sortMembers (sortMembers members) = sortMembers members := by
  rw [sortMembers_eq_sortOn, steady.categorize_sortMembers,
    Category.sortOn_of_ranked (Category.sortOn_ranked _ _), ← sortMembers_eq_sortOn]

/-- An alias that is not steady is hidden in the second scan, where its targets state that they
are. -/
theorem hidden_of_not_steady (relays : (Table.of members).Relays relay)
    (present : (Table.of members).aliasesOf relay.decl.target ≠ [])
    (hidden : ∀ next ∈ (Table.of members).aliasesOf relay.decl.target,
      (Table.of members).aliasVisibility next = .hidden) :
    (Table.of (sortMembers members)).aliasVisibility ⟨relay.decl, .shown⟩ = .hidden := by
  obtain ⟨first, firstMember⟩ := List.exists_mem_of_ne_nil _ present
  have relaysLater : (Table.of (sortMembers members)).Relays ⟨relay.decl, .shown⟩ :=
    relays_sortMembers.mpr relays
  have presentLater : (Table.of (sortMembers members)).aliasesOf relay.decl.target ≠ [] :=
    List.ne_nil_of_mem (mem_aliasesOf_sortMembers.mpr ⟨first, firstMember, rfl⟩)
  unfold aliasVisibility
  rw [resolve_followed relaysLater (mem_aliasKeys.mpr presentLater),
    Visibility.widest_eq_hidden_iff]
  intro shown
  obtain ⟨later, laterMember, visible⟩ := List.mem_map.mp shown
  obtain ⟨next, nextMember, rfl⟩ := mem_aliasesOf_sortMembers.mp laterMember
  rw [resolve_stated (by rw [restateAlias_visibility, if_pos (hidden next nextMember)])] at visible
  cases visible

theorem exists_of_not_steady {table : Table} (unsteady : ¬ table.Steady) :
    ∃ relay ∈ table.aliases, table.Relays relay ∧ table.aliasesOf relay.decl.target ≠ [] ∧
      (∀ next ∈ table.aliasesOf relay.decl.target, table.aliasVisibility next = .hidden) ∧
      table.aliasVisibility relay = .shown := by
  refine Classical.byContradiction fun none => unsteady ?_
  intro relay member relays present hidden
  cases visible : table.aliasVisibility relay with
  | hidden => rfl
  | shown => exact (none ⟨relay, member, relays, present, hidden, visible⟩).elim

/-- A sort of sorted members stamps an alias that is hidden among them and does not say so. -/
theorem not_mem_of_hidden {decl : Alias} (unstated : decl.visibility = none)
    (hidden : (Table.of (sortMembers members)).aliasVisibility ⟨decl, .shown⟩ = .hidden) :
    .alias decl ∉ sortMembers (sortMembers members) := by
  intro again
  rw [sortMembers_eq_arranged, List.mem_map] at again
  obtain ⟨placed, inside, equal⟩ := again
  have running : placed.running = .shown := by
    rw [mem_arranged, place_sortMembers, List.mem_map] at inside
    obtain ⟨given, _, rfl⟩ := inside
    rfl
  rw [emitted, stamp_eq] at equal
  split at equal
  · next stamps =>
      have stated := congrArg Node.stated equal
      rw [Node.stated_withVisibility stamps.1] at stated
      exact absurd (stated.trans unstated) (by decide)
  · next stays =>
      obtain ⟨member, set⟩ := placed
      cases running
      cases equal
      exact stays ⟨rfl, unstated, congrArg some hidden⟩

/-- Where the table is not steady the second sort stamps an alias that the first one left alone. -/
theorem exists_alias_stamped_again (unsteady : ¬ (Table.of members).Steady) :
    ∃ decl : Alias, .alias decl ∈ sortMembers members ∧
      .alias decl ∉ sortMembers (sortMembers members) := by
  obtain ⟨relay, member, relays, present, hidden, visible⟩ := exists_of_not_steady unsteady
  have laterMember : ⟨relay.decl, .shown⟩ ∈ (Table.of (sortMembers members)).aliases :=
    mem_aliases_sortMembers.mpr ⟨relay, member, restateAlias_of_shown visible⟩
  exact ⟨relay.decl, mem_of_mem_place (mem_aliases_of.mp laterMember),
    not_mem_of_hidden relays.1 (hidden_of_not_steady relays present hidden)⟩

end Table

end MemberOrder
