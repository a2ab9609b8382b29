import MemberOrder.Proofs.Order.AliasTarget
import Mathlib.Data.Finset.Card

/-!
# Chains of aliases

An alias is looked for along a path that follows each key once. So no more calls are within one
another than there are keys to follow, and one (`Table.resolveWithin_eq`). An alias is shown exactly
if a chain of aliases leads from it to one that is shown: by what it states, by what its target is
defined as, or by where it stands if the chain goes no further or comes back
(`effective_alias_of_chain`).
-/

namespace MemberOrder

namespace Table

section Calls

/-- The visibility of an alias, looked for along a path that has followed the keys `seen`; nothing
if that takes more than `calls` calls within one another. -/
def resolveWithin (table : Table) (calls : Nat) (seen : List MethodKey) (placed : PlacedAlias) :
    Option Visibility :=
  match calls with
  | 0 => none
  | calls + 1 =>
    match placed.decl.visibility with
    | some visibility => some visibility
    | none =>
      if table.definedAs placed.decl.target ≠ [] then
        some (.widest (table.definedAs placed.decl.target))
      else if table.aliasesOf placed.decl.target ≠ [] ∧ placed.decl.target ∉ seen then
        ((table.aliasesOf placed.decl.target).mapM
          (table.resolveWithin calls (placed.decl.target :: seen))).map .widest
      else some placed.running

/-- The keys of aliases that a path has not followed yet. -/
def unfollowed (table : Table) (seen : List MethodKey) : List MethodKey :=
  table.aliasKeys.filter (· ∉ seen)

variable {table : Table} {seen : List MethodKey} {key : MethodKey}

theorem mem_unfollowed :
    key ∈ table.unfollowed seen ↔ table.aliasesOf key ≠ [] ∧ key ∉ seen := by
  rw [unfollowed, List.mem_filter, mem_aliasKeys, decide_eq_true_eq]

theorem without_unfollowed (seen : List MethodKey) (key : MethodKey) :
    without (table.unfollowed seen) key = table.unfollowed (key :: seen) := by
  rw [without, unfollowed, List.filter_filter, unfollowed]
  refine List.filter_congr fun other _ => ?_
  rw [Bool.eq_iff_iff]
  simp

/-- Following a key leaves fewer different ones to follow. -/
theorem card_unfollowed_lt (fresh : key ∈ table.unfollowed seen) :
    (table.unfollowed (key :: seen)).toFinset.card < (table.unfollowed seen).toFinset.card := by
  rw [← without_unfollowed]
  refine Finset.card_lt_card (Finset.ssubset_iff_of_subset (fun other member => ?_) |>.mpr
    ⟨key, List.mem_toFinset.mpr fresh, fun member => ?_⟩)
  · exact List.mem_toFinset.mpr (mem_without.mp (List.mem_toFinset.mp member)).1
  · exact (mem_without.mp (List.mem_toFinset.mp member)).2 rfl

theorem mapM_eq_some {α β : Type} {f : α → Option β} {g : α → β} {items : List α}
    (each : ∀ item ∈ items, f item = some (g item)) : items.mapM f = some (items.map g) := by
  induction items with
  | nil => rfl
  | cons item rest ih =>
      obtain ⟨first, others⟩ := List.forall_mem_cons.mp each
      rw [List.mapM_cons, first, ih others]
      rfl

/-- As many calls within one another as there are different keys left to follow, and one more, are
enough to find the visibility of an alias. -/
theorem resolveWithin_eq {calls : Nat}
    (enough : (table.unfollowed seen).toFinset.card < calls) (placed : PlacedAlias) :
    table.resolveWithin calls seen placed =
      some (table.resolve (table.unfollowed seen) placed) := by
  induction calls generalizing seen placed with
  | zero => exact absurd enough (Nat.not_lt_zero _)
  | succ calls ih =>
      rw [resolveWithin]
      cases own : placed.decl.visibility with
      | some visibility => rw [resolve_stated own]
      | none =>
          by_cases defined : table.definedAs placed.decl.target ≠ []
          · rw [resolve_defined own defined]
            exact if_pos defined
          · have relays : table.Relays placed := ⟨own, not_not.mp defined⟩
            simp only [if_neg defined, ← mem_unfollowed]
            split
            · next fresh =>
                have fewer :
                    (table.unfollowed (placed.decl.target :: seen)).toFinset.card < calls :=
                  Nat.lt_of_lt_of_le (card_unfollowed_lt fresh) (Nat.le_of_lt_succ enough)
                rw [resolve_followed relays fresh, without_unfollowed,
                  mapM_eq_some fun next _ => ih fewer next, Option.map_some]
            · next shut => rw [resolve_stopped relays shut]

end Calls

section Chains

/-- A chain of relaying aliases along different keys that may be followed, each next one an alias of
the key before, to an alias that is shown: by what it states, by what its target is defined as, or
by where it stands if its target may not be followed or has been. -/
structure Shows (table : Table) (unseen : List MethodKey) (chain : List PlacedAlias)
    (last : PlacedAlias) : Prop where
  linked : (chain ++ [last]).IsChain fun placed next => next ∈ table.aliasesOf placed.decl.target
  relays : ∀ placed ∈ chain, table.Relays placed ∧ placed.decl.target ∈ unseen
  apart : (chain.map fun placed => placed.decl.target).Nodup
  shown : last.decl.visibility = some .shown ∨
    (last.decl.visibility = none ∧ .shown ∈ table.definedAs last.decl.target) ∨
    (table.Relays last ∧ last.running = .shown ∧
      (last.decl.target ∈ unseen → last.decl.target ∈ chain.map fun placed => placed.decl.target))

variable {table : Table} {unseen : List MethodKey} {placed last : PlacedAlias}
  {chain : List PlacedAlias}

theorem isChain_cons_iff {α : Type} {related : α → α → Prop} {first last : α} {others : List α} :
    ((first :: others) ++ [last]).IsChain related ↔
      ∃ next, (others ++ [last]).head? = some next ∧ related first next ∧
        (others ++ [last]).IsChain related := by
  cases others with
  | nil => simp
  | cons next rest => simp

theorem exists_next_of_isChain {α : Type} {related : α → α → Prop} {item last : α} {others : List α}
    (linked : (others ++ [last]).IsChain related) (member : item ∈ others) :
    ∃ next, related item next := by
  induction others with
  | nil => cases member
  | cons first rest ih =>
      obtain ⟨next, -, leads, later⟩ := isChain_cons_iff.mp linked
      rcases List.mem_cons.mp member with rfl | inside
      · exact ⟨next, leads⟩
      · exact ih later inside

/-- A chain goes on from its first alias as a chain that does not follow its key again. -/
theorem shows_cons_iff :
    table.Shows unseen (placed :: chain) last ↔
      (table.Relays placed ∧ placed.decl.target ∈ unseen) ∧
        ∃ next ∈ table.aliasesOf placed.decl.target, (chain ++ [last]).head? = some next ∧
          table.Shows (without unseen placed.decl.target) chain last := by
  constructor
  · rintro ⟨linked, relays, apart, shown⟩
    obtain ⟨next, heads, leads, linkedRest⟩ := isChain_cons_iff.mp linked
    obtain ⟨first, others⟩ := List.forall_mem_cons.mp relays
    obtain ⟨fresh, apartRest⟩ := List.nodup_cons.mp apart
    refine ⟨first, next, leads, heads, linkedRest, fun other member => ?_, apartRest, ?_⟩
    · obtain ⟨relaysOther, unseenOther⟩ := others other member
      refine ⟨relaysOther, mem_without.mpr ⟨unseenOther, fun same => fresh ?_⟩⟩
      exact List.mem_map.mpr ⟨other, member, same⟩
    · refine shown.imp_right (.imp_right fun ⟨relaysLast, running, closed⟩ => ?_)
      refine ⟨relaysLast, running, fun member => ?_⟩
      obtain ⟨unseenLast, other⟩ := mem_without.mp member
      exact (List.mem_cons.mp (closed unseenLast)).resolve_left other
  · rintro ⟨first, next, leads, heads, linked, relays, apart, shown⟩
    refine ⟨isChain_cons_iff.mpr ⟨next, heads, leads, linked⟩, ?_, ?_, ?_⟩
    · refine List.forall_mem_cons.mpr ⟨first, fun other member => ?_⟩
      exact ⟨(relays other member).1, (mem_without.mp (relays other member).2).1⟩
    · refine List.nodup_cons.mpr ⟨fun member => ?_, apart⟩
      obtain ⟨other, listed, same⟩ := List.mem_map.mp member
      exact (mem_without.mp (relays other listed).2).2 same
    · refine shown.imp_right (.imp_right fun ⟨relaysLast, running, closed⟩ => ?_)
      refine ⟨relaysLast, running, fun member => ?_⟩
      by_cases same : last.decl.target = placed.decl.target
      · exact same ▸ List.mem_cons_self
      · exact List.mem_cons_of_mem _ (closed (mem_without.mpr ⟨member, same⟩))

/-- A chain of one alias that is not followed. -/
theorem shows_nil_iff :
    table.Shows unseen [] last ↔
      last.decl.visibility = some .shown ∨
        (last.decl.visibility = none ∧ .shown ∈ table.definedAs last.decl.target) ∨
        (table.Relays last ∧ last.running = .shown ∧ last.decl.target ∉ unseen) := by
  constructor
  · intro shows
    exact shows.shown.imp_right (.imp_right fun ⟨relays, running, closed⟩ =>
      ⟨relays, running, fun member => List.not_mem_nil (closed member)⟩)
  · intro shown
    refine ⟨List.IsChain.singleton _, fun _ member => absurd member List.not_mem_nil,
      List.nodup_nil, ?_⟩
    exact shown.imp_right (.imp_right fun ⟨relays, running, shut⟩ =>
      ⟨relays, running, fun member => absurd member shut⟩)

/-- An alias that is not followed is shown exactly if it is the end of a chain. -/
theorem resolve_eq_shown_iff_of_not_followed
    (ends : ¬ (table.Relays placed ∧ placed.decl.target ∈ unseen)) :
    table.resolve unseen placed = .shown ↔ table.Shows unseen [] placed := by
  rw [shows_nil_iff]
  cases own : placed.decl.visibility with
  | some visibility => simp [resolve_stated own, Relays, own]
  | none =>
      by_cases defined : table.definedAs placed.decl.target = []
      · have relays : table.Relays placed := ⟨own, defined⟩
        have shut : placed.decl.target ∉ unseen := fun member => ends ⟨relays, member⟩
        simp [resolve_stopped relays shut, defined, relays, shut]
      · simp [resolve_defined own defined, Visibility.widest_eq_shown_iff, Relays, defined]

/-- An alias is shown exactly if a chain leads from it to one that is shown. -/
theorem resolve_eq_shown_iff_chain (unseen : List MethodKey) (placed : PlacedAlias) :
    table.resolve unseen placed = .shown ↔
      ∃ chain last, (chain ++ [last]).head? = some placed ∧ table.Shows unseen chain last := by
  induction size : unseen.length using Nat.strongRecOn generalizing unseen placed with
  | ind size ih =>
      subst size
      by_cases followed : table.Relays placed ∧ placed.decl.target ∈ unseen
      · obtain ⟨relays, fresh⟩ := followed
        rw [resolve_followed relays fresh, Visibility.widest_eq_shown_iff, List.mem_map]
        constructor
        · rintro ⟨next, leads, visible⟩
          obtain ⟨chain, last, heads, shows⟩ :=
            (ih _ (length_without_lt fresh) _ next rfl).mp visible
          exact ⟨placed :: chain, last, rfl,
            shows_cons_iff.mpr ⟨⟨relays, fresh⟩, next, leads, heads, shows⟩⟩
        · rintro ⟨chain, last, heads, shows⟩
          cases chain with
          | nil =>
              cases heads
              obtain stated | ⟨-, defined⟩ | ⟨-, -, shut⟩ := shows_nil_iff.mp shows
              · rw [relays.1] at stated
                cases stated
              · rw [relays.2] at defined
                cases defined
              · exact absurd fresh shut
          | cons first rest =>
              cases heads
              obtain ⟨-, next, leads, heads, shows⟩ := shows_cons_iff.mp shows
              exact ⟨next, leads,
                (ih _ (length_without_lt fresh) _ next rfl).mpr ⟨rest, last, heads, shows⟩⟩
      · rw [resolve_eq_shown_iff_of_not_followed followed]
        constructor
        · exact fun shows => ⟨[], placed, rfl, shows⟩
        · rintro ⟨chain, last, heads, shows⟩
          cases chain with
          | nil =>
              cases heads
              exact shows
          | cons first rest =>
              cases heads
              exact absurd (shows_cons_iff.mp shows).1 followed

end Chains

end Table

section Members

/-- **A chain of aliases to one that is shown.** Each alias is a member that defines the target of
the one before. Those before the last state no visibility, and point at different keys that no
method or attribute defines. The last one states that it is shown; or it points at a shown method or
attribute; or it points at no method or attribute, and at no alias or at a key that the chain has
been at before, and is shown where it stands. -/
structure ShownChain (members : List Node) (chain : List PlacedAlias) (last : PlacedAlias) :
    Prop where
  linked : (chain ++ [last]).IsChain fun placed next =>
    ⟨.alias next.decl, next.running⟩ ∈ place .shown members ∧
      next.decl.newKey = placed.decl.target
  relays : ∀ placed ∈ chain, placed.decl.visibility = none ∧
    ∀ defining ∈ place .shown members, ∀ visibility,
      ¬ defining.Defines placed.decl.target visibility
  apart : (chain.map fun placed => placed.decl.target).Nodup
  shown : last.decl.visibility = some .shown ∨
    (last.decl.visibility = none ∧
      ∃ defining ∈ place .shown members, defining.Defines last.decl.target .shown) ∨
    (last.decl.visibility = none ∧
      (∀ defining ∈ place .shown members, ∀ visibility,
        ¬ defining.Defines last.decl.target visibility) ∧
      ((∀ placed ∈ place .shown members, ¬ placed.Renames last.decl.target) ∨
        last.decl.target ∈ chain.map fun placed => placed.decl.target) ∧
      last.running = .shown)

variable {members : List Node} {chain : List PlacedAlias} {last : PlacedAlias}

/-- In the table of a member list, chains are chains of its members. -/
theorem shownChain_iff :
    ShownChain members chain last ↔
      (Table.of members).Shows (Table.of members).aliasKeys chain last := by
  have leads (placed next : PlacedAlias) :
      next ∈ (Table.of members).aliasesOf placed.decl.target ↔
        ⟨.alias next.decl, next.running⟩ ∈ place .shown members ∧
          next.decl.newKey = placed.decl.target := by
    rw [Table.mem_aliasesOf, mem_aliases_of]
  have relays (placed : PlacedAlias) : (Table.of members).Relays placed ↔
      placed.decl.visibility = none ∧ ∀ defining ∈ place .shown members, ∀ visibility,
        ¬ defining.Defines placed.decl.target visibility := by
    rw [Table.Relays, definedAs_eq_nil_iff]
  have named (key : MethodKey) : key ∉ (Table.of members).aliasKeys ↔
      ∀ placed ∈ place .shown members, ¬ placed.Renames key := by
    rw [Table.mem_aliasKeys, not_not, aliasesOf_eq_nil_iff]
  constructor
  · rintro ⟨linked, silent, apart, shown⟩
    simp only [← leads, ← relays] at linked silent
    refine ⟨linked, fun placed member => ⟨silent placed member, ?_⟩, apart, ?_⟩
    · obtain ⟨next, leads⟩ := Table.exists_next_of_isChain linked member
      exact Table.mem_aliasKeys.mpr (List.ne_nil_of_mem leads)
    · rw [← mem_definedAs_of] at shown
      refine shown.imp_right (.imp_right ?_)
      rintro ⟨unstated, undefined, stops, running⟩
      refine ⟨(relays last).mpr ⟨unstated, undefined⟩, running, fun follows => ?_⟩
      exact stops.resolve_left fun unnamed => (named _).mpr unnamed follows
  · rintro ⟨linked, silent, apart, shown⟩
    simp only [leads] at linked
    refine ⟨linked, fun placed member => (relays placed).mp (silent placed member).1, apart, ?_⟩
    rw [← mem_definedAs_of]
    refine shown.imp_right (.imp_right ?_)
    rintro ⟨relaysLast, running, closed⟩
    obtain ⟨unstated, undefined⟩ := (relays last).mp relaysLast
    refine ⟨unstated, undefined, ?_, running⟩
    by_cases follows : last.decl.target ∈ (Table.of members).aliasKeys
    · exact .inr (closed follows)
    · exact .inl ((named _).mp follows)

/-- **An alias is shown by a chain.** It is shown exactly if a chain leads from it to an alias that
is. No more calls than there are different keys of aliases, and one, have to be within one another
to find that out. -/
theorem effective_alias_of_chain (members : List Node) (decl : Alias) (running : Visibility) :
    ∃ visibility, (Table.of members).effective ⟨.alias decl, running⟩ = some visibility ∧
      (∀ spare, (Table.of members).resolveWithin
        ((Table.of members).aliasKeys.toFinset.card + 1 + spare) [] ⟨decl, running⟩ =
          some visibility) ∧
      (visibility = .shown ↔ ∃ chain last, (chain ++ [last]).head? = some ⟨decl, running⟩ ∧
        ShownChain members chain last) := by
  have all : (Table.of members).unfollowed [] = (Table.of members).aliasKeys := by
    simp [Table.unfollowed]
  refine ⟨_, rfl, fun spare => ?_, ?_⟩
  · have enough : ((Table.of members).unfollowed []).toFinset.card <
        (Table.of members).aliasKeys.toFinset.card + 1 + spare := by
      rw [all]
      omega
    rw [Table.resolveWithin_eq enough, all]
    rfl
  · simp only [shownChain_iff]
    exact Table.resolve_eq_shown_iff_chain _ _

/-- Round a circle of aliases each key is followed, and the first one is met again. -/
example :
    let members := [("a", "b"), ("b", "c"), ("c", "a")].map fun (newName, oldName) =>
      Node.alias ⟨newName, oldName, .onInstance, none, none⟩
    let first : PlacedAlias := ⟨⟨"a", "b", .onInstance, none, none⟩, .shown⟩
    (Table.of members).aliasKeys.toFinset.card = 3 ∧
      (Table.of members).resolveWithin 3 [] first = none ∧
      (Table.of members).resolveWithin 4 [] first = some .shown := by
  decide +kernel

end Members

end MemberOrder
