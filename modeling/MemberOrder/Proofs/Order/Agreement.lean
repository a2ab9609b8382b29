import MemberOrder.Proofs.Order.AliasGraph
import MemberOrder.Proofs.Order.Stamping

/-!
# Tables that agree

Two tables agree at a key if they list the same definitions and the same aliases of it, in whatever
order. What an alias resolves to depends only on the keys that are met on the way from its target,
so tables that agree at these give it the same visibility, also where aliases lead back to
themselves (`Table.resolve_of_agreesAt`, `Table.entry_of_agreesAt`).
-/

namespace MemberOrder

namespace Table

/-- Two tables say the same of a key. -/
structure AgreesAt (table other : Table) (key : MethodKey) : Prop where
  definedAs : ∀ visibility, visibility ∈ other.definedAs key ↔ visibility ∈ table.definedAs key
  aliasesOf : ∀ placed, placed ∈ other.aliasesOf key ↔ placed ∈ table.aliasesOf key

variable {table other : Table} {placed : PlacedAlias} (among : MethodKey → Prop)

namespace AgreesAt

variable {key : MethodKey} (agrees : table.AgreesAt other key)
include agrees

theorem definedAs_eq_nil_iff : other.definedAs key = [] ↔ table.definedAs key = [] := by
  simp only [List.eq_nil_iff_forall_not_mem, agrees.definedAs]

theorem mem_aliasKeys_iff : key ∈ other.aliasKeys ↔ key ∈ table.aliasKeys := by
  rw [mem_aliasKeys, mem_aliasKeys]
  simp only [ne_eq, List.eq_nil_iff_forall_not_mem, agrees.aliasesOf]

end AgreesAt

/-- Following aliases through keys at which two tables agree finds the same visibility, whatever
keys have been followed before. -/
theorem resolve_of_agreesAt (agrees : ∀ key, among key → table.AgreesAt other key)
    (closed : ∀ key, among key → ∀ next ∈ table.aliasesOf key, among next.decl.target)
    (unseen remaining : List MethodKey)
    (same : ∀ key, among key → (key ∈ remaining ↔ key ∈ unseen))
    (inside : among placed.decl.target) :
    other.resolve remaining placed = table.resolve unseen placed := by
  induction size : unseen.length using Nat.strongRecOn generalizing unseen remaining placed with
  | ind size ih =>
      subst size
      have agreesHere := agrees _ inside
      by_cases relays : table.Relays placed
      · have relaysOther : other.Relays placed :=
          ⟨relays.1, agreesHere.definedAs_eq_nil_iff.mpr relays.2⟩
        by_cases fresh : placed.decl.target ∈ unseen
        · have freshOther : placed.decl.target ∈ remaining := (same _ inside).mpr fresh
          rw [resolve_followed relays fresh, resolve_followed relaysOther freshOther]
          -- Each target is resolved with one key less; the order of the targets is not seen.
          have next : ∀ relay ∈ table.aliasesOf placed.decl.target,
              other.resolve (without remaining placed.decl.target) relay =
                table.resolve (without unseen placed.decl.target) relay := by
            intro relay member
            refine ih _ (length_without_lt fresh) _ _ (fun key reached => ?_)
              (closed _ inside relay member) rfl
            rw [mem_without, mem_without, same key reached]
          rw [← List.map_congr_left next]
          refine Visibility.widest_congr ?_
          simp only [List.mem_map, agreesHere.aliasesOf]
        · have shutOther : placed.decl.target ∉ remaining :=
            fun member => fresh ((same _ inside).mp member)
          rw [resolve_stopped relays fresh, resolve_stopped relaysOther shutOther]
      · exact resolve_of_not_relays relays rfl agreesHere.definedAs _ _

/-- Members that are no aliases have the same entry in every table. -/
theorem entry_of_agreesAt (agrees : ∀ key, among key → table.AgreesAt other key)
    (closed : ∀ key, among key → ∀ next ∈ table.aliasesOf key, among next.decl.target)
    {placed : Placed} (inside : ∀ relay, placed.alias? = some relay → among relay.decl.target) :
    other.entry placed = table.entry placed := by
  have visible : other.effective placed = table.effective placed := by
    cases direct : placed.alias? with
    | some relay =>
        rw [effective_of_alias _ direct, effective_of_alias _ direct]
        exact congrArg some (resolve_of_agreesAt among agrees closed _ _
          (fun key reached => (agrees key reached).mem_aliasKeys_iff) (inside relay direct))
    | none =>
        obtain ⟨member, running⟩ := placed
        cases member <;> first | rfl | cases direct
  simp only [entry_eq, category, emitted, visible]

end Table

end MemberOrder
