import MemberOrder.Order.Visibility
import Mathlib.Logic.Relation

/-!
# Aliases as a graph

An alias relays when it states no visibility and no method or attribute defines its target: its
visibility is then that of the aliases of its target. What an alias resolves to depends only on the
keys that can be reached from its target (`Table.resolve_congr_of_reachable`). So a relaying alias
whose target does not lead back to itself is as visible as the most visible alias of its target
(`Table.aliasVisibility_of_relays`). Where no key leads back to itself the table is steady: an alias
is hidden when all aliases of its target are (`Table.Acyclic.steady`).
-/

namespace MemberOrder

namespace Visibility

/-- Only whether one of them is shown matters. -/
theorem widest_congr {first second : List Visibility}
    (same : .shown ∈ first ↔ .shown ∈ second) : widest first = widest second := by
  simp only [widest, same]

theorem widest_eq_hidden_iff {visibilities : List Visibility} :
    widest visibilities = .hidden ↔ .shown ∉ visibilities := by
  unfold widest
  split <;> simp_all

theorem widest_eq_shown_iff {visibilities : List Visibility} :
    widest visibilities = .shown ↔ .shown ∈ visibilities := by
  unfold widest
  split <;> simp_all

theorem eq_hidden_iff {visibility : Visibility} : visibility = .hidden ↔ visibility ≠ .shown := by
  cases visibility <;> simp

theorem eq_of_hidden_iff {first second : Visibility}
    (same : first = .hidden ↔ second = .hidden) : first = second := by
  cases first <;> cases second <;> simp_all

end Visibility

namespace Table

variable (table : Table)

/-- An alias that states no visibility and whose target no method or attribute defines. -/
def Relays (placed : PlacedAlias) : Prop :=
  placed.decl.visibility = none ∧ table.definedAs placed.decl.target = []

/-- A key leads to the targets of the relaying aliases that define it. -/
def Follows (key next : MethodKey) : Prop :=
  ∃ placed ∈ table.aliases, table.Relays placed ∧ placed.decl.newKey = key ∧
    placed.decl.target = next

/-- No key leads back to itself. -/
def Acyclic : Prop := ∀ key, ¬ Relation.TransGen table.Follows key key

/-- An alias whose target is defined by aliases only, all of them hidden, is hidden. -/
def Steady : Prop :=
  ∀ placed ∈ table.aliases, table.Relays placed → table.aliasesOf placed.decl.target ≠ [] →
    (∀ next ∈ table.aliasesOf placed.decl.target, table.aliasVisibility next = .hidden) →
      table.aliasVisibility placed = .hidden

variable {table} {unseen : List MethodKey} {placed next : PlacedAlias} {key : MethodKey}

theorem mem_aliasesOf :
    next ∈ table.aliasesOf key ↔ next ∈ table.aliases ∧ next.decl.newKey = key := by
  simp [aliasesOf]

theorem mem_aliasKeys : key ∈ table.aliasKeys ↔ table.aliasesOf key ≠ [] := by
  simp [aliasKeys, aliasesOf, List.filter_eq_nil_iff]

theorem mem_without {one : MethodKey} : one ∈ without unseen key ↔ one ∈ unseen ∧ one ≠ key := by
  simp [without]

theorem resolve_stated {visibility : Visibility} (stated : placed.decl.visibility = some visibility)
    (unseen : List MethodKey) : table.resolve unseen placed = visibility := by
  unfold resolve
  simp only [stated]

theorem resolve_defined (unstated : placed.decl.visibility = none)
    (defined : table.definedAs placed.decl.target ≠ []) (unseen : List MethodKey) :
    table.resolve unseen placed = .widest (table.definedAs placed.decl.target) := by
  unfold resolve
  simp only [unstated]
  split
  · next equal => rw [equal]
  · next empty => exact (defined empty).elim

theorem resolve_followed (relays : table.Relays placed) (fresh : placed.decl.target ∈ unseen) :
    table.resolve unseen placed = .widest ((table.aliasesOf placed.decl.target).map
      (table.resolve (without unseen placed.decl.target))) := by
  rw [resolve]
  simp only [relays.1, relays.2, if_pos fresh]

theorem resolve_stopped (relays : table.Relays placed) (shut : placed.decl.target ∉ unseen) :
    table.resolve unseen placed = placed.running := by
  rw [resolve]
  simp only [relays.1, relays.2, if_neg shut]

/-- An alias that does not relay is resolved without a look at other aliases, and the same way by
every table with the same definitions of its target. -/
theorem resolve_of_not_relays {later : Table} {again : PlacedAlias}
    (direct : ¬ table.Relays placed) (same : again.decl = placed.decl)
    (kept : ∀ visibility, visibility ∈ later.definedAs placed.decl.target ↔
      visibility ∈ table.definedAs placed.decl.target) (unseen other : List MethodKey) :
    later.resolve unseen again = table.resolve other placed := by
  cases own : placed.decl.visibility with
  | some visibility =>
      have ownAgain : again.decl.visibility = some visibility := by rw [same, own]
      rw [resolve_stated own, resolve_stated ownAgain]
  | none =>
      have ownAgain : again.decl.visibility = none := by rw [same, own]
      have defined : table.definedAs placed.decl.target ≠ [] := fun empty => direct ⟨own, empty⟩
      obtain ⟨visibility, defines⟩ := List.exists_mem_of_ne_nil _ defined
      have definedAgain : later.definedAs again.decl.target ≠ [] := by
        rw [same]
        exact List.ne_nil_of_mem ((kept visibility).mpr defines)
      rw [resolve_defined own defined, resolve_defined ownAgain definedAgain, same]
      exact Visibility.widest_congr (kept _)

/-- Keys that cannot be reached from the target do not matter. -/
theorem resolve_congr_of_reachable (unseen other : List MethodKey) (placed : PlacedAlias)
    (same : ∀ key, Relation.ReflTransGen table.Follows placed.decl.target key →
      (key ∈ unseen ↔ key ∈ other)) :
    table.resolve unseen placed = table.resolve other placed := by
  induction size : unseen.length using Nat.strongRecOn generalizing unseen other placed with
  | ind size ih =>
      subst size
      by_cases relays : table.Relays placed
      · by_cases fresh : placed.decl.target ∈ unseen
        · have freshOther := (same _ .refl).mp fresh
          rw [resolve_followed relays fresh, resolve_followed relays freshOther]
          refine congrArg _ (List.map_congr_left fun next member => ?_)
          by_cases relaysNext : table.Relays next
          · refine ih _ (length_without_lt fresh) _ _ _ (fun key reached => ?_) rfl
            have leads : table.Follows placed.decl.target next.decl.target :=
              ⟨next, (mem_aliasesOf.mp member).1, relaysNext, (mem_aliasesOf.mp member).2, rfl⟩
            rw [mem_without, mem_without, same key (.head leads reached)]
          · exact resolve_of_not_relays relaysNext rfl (fun _ => .rfl) _ _
        · have shutOther : placed.decl.target ∉ other := fun member =>
            fresh ((same _ .refl).mpr member)
          rw [resolve_stopped relays fresh, resolve_stopped relays shutOther]
      · exact resolve_of_not_relays relays rfl (fun _ => .rfl) _ _

/-- A relaying alias whose target does not lead back to itself is as visible as the most visible
alias of its target. -/
theorem aliasVisibility_of_relays (relays : table.Relays placed)
    (present : table.aliasesOf placed.decl.target ≠ [])
    (apart : ¬ Relation.TransGen table.Follows placed.decl.target placed.decl.target) :
    table.aliasVisibility placed =
      .widest ((table.aliasesOf placed.decl.target).map table.aliasVisibility) := by
  unfold aliasVisibility
  rw [resolve_followed relays (mem_aliasKeys.mpr present)]
  refine congrArg _ (List.map_congr_left fun next member => ?_)
  by_cases relaysNext : table.Relays next
  · refine resolve_congr_of_reachable _ _ _ fun key reached => ?_
    have leads : table.Follows placed.decl.target next.decl.target :=
      ⟨next, (mem_aliasesOf.mp member).1, relaysNext, (mem_aliasesOf.mp member).2, rfl⟩
    have different : key ≠ placed.decl.target := by
      rintro rfl
      exact apart (.head' leads reached)
    simp only [mem_without, different, ne_eq, not_false_eq_true, and_true]
  · exact resolve_of_not_relays relaysNext rfl (fun _ => .rfl) _ _

/-- A key does not lead back to itself if it lies outside a list of keys that nothing leaves. -/
theorem not_transGen_follows_self {keys : List MethodKey} (outside : key ∉ keys)
    (closed : ∀ placed ∈ table.aliases, placed.decl.newKey = key ∨ placed.decl.newKey ∈ keys →
      placed.decl.target ∈ keys) : ¬ Relation.TransGen table.Follows key key := by
  have within : ∀ {next}, Relation.TransGen table.Follows key next → next ∈ keys := by
    intro next path
    induction path with
    | single step =>
        obtain ⟨placed, member, -, starts, rfl⟩ := step
        exact closed placed member (.inl starts)
    | tail _ step ih =>
        obtain ⟨placed, member, -, rfl, rfl⟩ := step
        exact closed placed member (.inr ih)
  exact fun circle => outside (within circle)

/-- No key leads back to itself if a measure falls along every relaying alias. -/
theorem acyclic_of_measure (measure : MethodKey → Nat)
    (falls : ∀ placed ∈ table.aliases, table.Relays placed →
      measure placed.decl.target < measure placed.decl.newKey) : table.Acyclic := by
  have below : ∀ {key next}, Relation.TransGen table.Follows key next →
      measure next < measure key := by
    intro key next path
    induction path with
    | single step =>
        obtain ⟨placed, member, relays, rfl, rfl⟩ := step
        exact falls placed member relays
    | tail _ step ih =>
        obtain ⟨placed, member, relays, rfl, rfl⟩ := step
        exact Nat.lt_trans (falls placed member relays) ih
  exact fun key circle => Nat.lt_irrefl _ (below circle)

theorem Acyclic.steady (acyclic : table.Acyclic) : table.Steady := by
  intro placed _ relays present hidden
  rw [aliasVisibility_of_relays relays present (acyclic _), Visibility.widest_eq_hidden_iff]
  intro shown
  obtain ⟨next, member, visible⟩ := List.mem_map.mp shown
  rw [hidden next member] at visible
  cases visible

end Table

end MemberOrder
