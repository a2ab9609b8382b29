import MemberOrder.Proofs.Order.AliasGraph
import MemberOrder.Proofs.Order.SortMembers

/-!
# What an alias points at

An alias that states no visibility has that of what it points at: of the methods and attributes of
its target if there are any, else of the aliases of its target, else the one that is set where it
stands (`effective_alias_of_target`). Between aliases this asks that the target does not lead back
to itself. An alias that points into a circle of aliases goes round it and takes the visibility that
is set where the circle closes, which need not be that of its target (`alias_into_circle`).
-/

namespace MemberOrder

namespace Placed

/-- A method or attribute gives a visibility to a key. A module function is a shown method of the
object itself and a hidden one of its instances; writing an attribute is a method of its own. -/
inductive Defines : Placed → MethodKey → Visibility → Prop
  | instanceMethod {decl : Method} {running : Visibility} (kind : decl.kind = .onInstance) :
      Defines ⟨.method decl, running⟩ ⟨.onInstance, decl.name⟩ (decl.visibility.getD running)
  | selfMethod {decl : Method} {running : Visibility} (kind : decl.kind = .onSelf) :
      Defines ⟨.method decl, running⟩ ⟨.onSelf, decl.name⟩ (decl.visibility.getD running)
  | functionOnSelf {decl : Method} {running : Visibility} (kind : decl.kind = .onBoth) :
      Defines ⟨.method decl, running⟩ ⟨.onSelf, decl.name⟩ .shown
  | functionOnInstance {decl : Method} {running : Visibility} (kind : decl.kind = .onBoth) :
      Defines ⟨.method decl, running⟩ ⟨.onInstance, decl.name⟩ .hidden
  | read {decl : Attribute} {running : Visibility} (reads : decl.kind ≠ .writer) :
      Defines ⟨.attribute decl, running⟩ ⟨decl.scope, decl.name⟩ (decl.visibility.getD running)
  | write {decl : Attribute} {running : Visibility} (writes : decl.kind ≠ .reader) :
      Defines ⟨.attribute decl, running⟩ ⟨decl.scope, decl.name ++ "="⟩
        (decl.visibility.getD running)

/-- An alias gives its target another name. -/
inductive Renames : Placed → MethodKey → Prop
  | alias (decl : Alias) (running : Visibility) : Renames ⟨.alias decl, running⟩ decl.newKey

variable {placed : Placed} {key : MethodKey} {visibility : Visibility}

theorem defines_of_method {decl : Method} {running : Visibility}
    (listed : (key, visibility) ∈ definitions ⟨.method decl, running⟩) :
    Defines ⟨.method decl, running⟩ key visibility := by
  cases kind : decl.kind with
  | onInstance =>
      simp only [definitions, kind, List.mem_singleton, Prod.mk.injEq] at listed
      obtain ⟨rfl, rfl⟩ := listed
      exact .instanceMethod kind
  | onSelf =>
      simp only [definitions, kind, List.mem_singleton, Prod.mk.injEq] at listed
      obtain ⟨rfl, rfl⟩ := listed
      exact .selfMethod kind
  | onBoth =>
      simp only [definitions, kind, List.mem_cons, List.not_mem_nil, or_false,
        Prod.mk.injEq] at listed
      obtain ⟨rfl, rfl⟩ | ⟨rfl, rfl⟩ := listed
      · exact .functionOnSelf kind
      · exact .functionOnInstance kind

theorem defines_of_attribute {decl : Attribute} {running : Visibility}
    (listed : (key, visibility) ∈ definitions ⟨.attribute decl, running⟩) :
    Defines ⟨.attribute decl, running⟩ key visibility := by
  cases kind : decl.kind with
  | reader =>
      simp only [definitions, kind, List.mem_singleton, Prod.mk.injEq] at listed
      obtain ⟨rfl, rfl⟩ := listed
      exact .read (by simp [kind])
  | writer =>
      simp only [definitions, kind, List.mem_singleton, Prod.mk.injEq] at listed
      obtain ⟨rfl, rfl⟩ := listed
      exact .write (by simp [kind])
  | accessor =>
      simp only [definitions, kind, List.mem_cons, List.not_mem_nil, or_false,
        Prod.mk.injEq] at listed
      obtain ⟨rfl, rfl⟩ | ⟨rfl, rfl⟩ := listed
      · exact .read (by simp [kind])
      · exact .write (by simp [kind])

theorem mem_definitions :
    (key, visibility) ∈ placed.definitions ↔ placed.Defines key visibility := by
  obtain ⟨member, running⟩ := placed
  constructor
  · intro listed
    match member with
    | .method _ => exact defines_of_method listed
    | .attribute _ => exact defines_of_attribute listed
    | .container .. | .typeAlias _ | .binding _ | .alias _ | .mixin _ | .marker _ | .unknown _
    | .foreign => cases listed
  · intro defines
    cases defines with
    | instanceMethod kind | selfMethod kind | functionOnSelf kind | functionOnInstance kind =>
        simp [definitions, kind]
    | @read decl _ reads | @write decl _ reads =>
        cases kind : decl.kind <;> simp_all [definitions]

end Placed

variable {members : List Node} {key : MethodKey}

theorem mem_definedAs_of {visibility : Visibility} :
    visibility ∈ (Table.of members).definedAs key ↔
      ∃ placed ∈ place .shown members, placed.Defines key visibility := by
  simp only [Table.definedAs, Table.of, Table.ofPlaced, List.mem_filterMap, List.mem_flatMap]
  constructor
  · rintro ⟨⟨defined, given⟩, ⟨placed, present, listed⟩, found⟩
    split at found
    · next same =>
        cases found
        exact ⟨placed, present, Placed.mem_definitions.mp (same ▸ listed)⟩
    · cases found
  · rintro ⟨placed, present, defines⟩
    exact ⟨_, ⟨placed, present, Placed.mem_definitions.mpr defines⟩, if_pos rfl⟩

theorem definedAs_eq_nil_iff :
    (Table.of members).definedAs key = [] ↔
      ∀ placed ∈ place .shown members, ∀ visibility, ¬ placed.Defines key visibility := by
  rw [List.eq_nil_iff_forall_not_mem]
  constructor
  · intro none placed present visibility defines
    exact none visibility (mem_definedAs_of.mpr ⟨placed, present, defines⟩)
  · intro none visibility listed
    obtain ⟨placed, present, defines⟩ := mem_definedAs_of.mp listed
    exact none placed present visibility defines

/-- The aliases of a key are the members that rename it, each with its own visibility. -/
theorem exists_mem_aliasesOf_iff {visibility : Visibility} :
    (∃ next ∈ (Table.of members).aliasesOf key,
        (Table.of members).aliasVisibility next = visibility) ↔
      ∃ placed ∈ place .shown members, placed.Renames key ∧
        (Table.of members).effective placed = some visibility := by
  constructor
  · rintro ⟨next, member, visible⟩
    obtain ⟨listed, rfl⟩ := Table.mem_aliasesOf.mp member
    exact ⟨_, mem_aliases_of.mp listed, .alias next.decl next.running, congrArg some visible⟩
  · rintro ⟨_, present, ⟨decl, running⟩, visible⟩
    refine ⟨⟨decl, running⟩, Table.mem_aliasesOf.mpr ⟨mem_aliases_of.mpr present, rfl⟩, ?_⟩
    exact Option.some.inj visible

theorem aliasesOf_eq_nil_iff :
    (Table.of members).aliasesOf key = [] ↔
      ∀ placed ∈ place .shown members, ¬ placed.Renames key := by
  rw [List.eq_nil_iff_forall_not_mem]
  constructor
  · rintro none _ present ⟨decl, running⟩
    exact none ⟨decl, running⟩ (Table.mem_aliasesOf.mpr ⟨mem_aliases_of.mpr present, rfl⟩)
  · intro none next member
    obtain ⟨listed, rfl⟩ := Table.mem_aliasesOf.mp member
    exact none _ (mem_aliases_of.mp listed) (.alias next.decl next.running)

/-- **The visibility of an alias.** An alias that states none is shown exactly if a method or
attribute of its target is, if there are any; else exactly if an alias of its target is, if there
are any and the target does not lead back to itself; else it takes the visibility that is set. -/
theorem effective_alias_of_target (members : List Node) (decl : Alias) (running : Visibility)
    (unstated : decl.visibility = none) :
    ((∃ placed ∈ place .shown members, ∃ visibility, placed.Defines decl.target visibility) →
      ((Table.of members).effective ⟨.alias decl, running⟩ = some .shown ↔
        ∃ placed ∈ place .shown members, placed.Defines decl.target .shown)) ∧
    ((∀ placed ∈ place .shown members, ∀ visibility, ¬ placed.Defines decl.target visibility) →
      ((∃ placed ∈ place .shown members, placed.Renames decl.target) →
        ¬ Relation.TransGen (Table.of members).Follows decl.target decl.target →
        ((Table.of members).effective ⟨.alias decl, running⟩ = some .shown ↔
          ∃ placed ∈ place .shown members, placed.Renames decl.target ∧
            (Table.of members).effective placed = some .shown)) ∧
      ((∀ placed ∈ place .shown members, ¬ placed.Renames decl.target) →
        (Table.of members).effective ⟨.alias decl, running⟩ = some running)) := by
  have visible : (Table.of members).effective ⟨.alias decl, running⟩ =
      some ((Table.of members).aliasVisibility ⟨decl, running⟩) := rfl
  rw [visible, Option.some_inj, Option.some_inj]
  refine ⟨?_, fun undefined => ?_⟩
  · rintro ⟨placed, present, visibility, defines⟩
    have defined : (Table.of members).definedAs decl.target ≠ [] :=
      List.ne_nil_of_mem (mem_definedAs_of.mpr ⟨placed, present, defines⟩)
    rw [Table.aliasVisibility, Table.resolve_defined unstated defined, ← mem_definedAs_of,
      Visibility.widest_eq_shown_iff]
  · have relays : (Table.of members).Relays ⟨decl, running⟩ := by
      refine ⟨unstated, List.eq_nil_iff_forall_not_mem.mpr fun visibility listed => ?_⟩
      obtain ⟨placed, present, defines⟩ := mem_definedAs_of.mp listed
      exact undefined placed present visibility defines
    refine ⟨?_, fun absent => ?_⟩
    · rintro ⟨placed, present, renames⟩ apart
      have renamed : (Table.of members).aliasesOf decl.target ≠ [] := fun none =>
        aliasesOf_eq_nil_iff.mp none placed present renames
      rw [Table.aliasVisibility_of_relays relays renamed apart, Visibility.widest_eq_shown_iff,
        List.mem_map, exists_mem_aliasesOf_iff]
    · refine Table.resolve_stopped relays fun fresh => ?_
      exact Table.mem_aliasKeys.mp fresh (aliasesOf_eq_nil_iff.mpr absent)

private def unstatedAlias (newName oldName : String) : Alias :=
  ⟨newName, oldName, .onInstance, none, none⟩

/-- An alias of an alias that points into a circle, across sections. -/
private def aliasesBeforeCircle : List Node :=
  [.marker ⟨.hidden, none⟩, .alias (unstatedAlias "a" "b"), .alias (unstatedAlias "b" "c"),
    .marker ⟨.shown, none⟩, .alias (unstatedAlias "b" "d"), .alias (unstatedAlias "c" "d"),
    .alias (unstatedAlias "d" "c")]

theorem effective_alias_before_circle :
    (unstatedAlias "a" "b").visibility = none ∧
    ((∀ placed ∈ place .shown aliasesBeforeCircle, ∀ visibility,
        ¬ placed.Defines (unstatedAlias "a" "b").target visibility) ∧
      ∃ placed ∈ place .shown aliasesBeforeCircle,
        placed.Renames (unstatedAlias "a" "b").target) ∧
    ¬ Relation.TransGen (Table.of aliasesBeforeCircle).Follows
      (unstatedAlias "a" "b").target (unstatedAlias "a" "b").target ∧
    ((Table.of aliasesBeforeCircle).effective ⟨.alias (unstatedAlias "a" "b"), .hidden⟩ =
        some .shown ↔
      ∃ placed ∈ place .shown aliasesBeforeCircle,
        placed.Renames (unstatedAlias "a" "b").target ∧
          (Table.of aliasesBeforeCircle).effective placed = some .shown) := by
  have apart : ¬ Relation.TransGen (Table.of aliasesBeforeCircle).Follows
      (unstatedAlias "a" "b").target (unstatedAlias "a" "b").target :=
    Table.not_transGen_follows_self (by decide : _ ∉ [⟨.onInstance, "c"⟩, ⟨.onInstance, "d"⟩])
      (by decide)
  have undefined : ∀ placed ∈ place .shown aliasesBeforeCircle, ∀ visibility,
      ¬ placed.Defines (unstatedAlias "a" "b").target visibility := by
    intro placed present visibility defines
    have listed : visibility ∈ (Table.of aliasesBeforeCircle).definedAs
        (unstatedAlias "a" "b").target :=
      mem_definedAs_of.mpr ⟨placed, present, defines⟩
    cases listed
  have renamed : ∃ placed ∈ place .shown aliasesBeforeCircle,
      placed.Renames (unstatedAlias "a" "b").target :=
    ⟨_, List.mem_cons_of_mem _ List.mem_cons_self, .alias (unstatedAlias "b" "c") .hidden⟩
  exact ⟨rfl, ⟨undefined, renamed⟩, apart, ((effective_alias_of_target aliasesBeforeCircle
    (unstatedAlias "a" "b") .hidden rfl).2 undefined).1 renamed apart⟩

/-- An alias that no alias points at is shown though all that its target names is one hidden alias:
that alias points at another one, which points back at it and is shown where it stands. -/
theorem alias_into_circle :
    let members := [.marker ⟨.hidden, none⟩, .alias (unstatedAlias "x" "b"),
      .alias (unstatedAlias "b" "c"), .marker ⟨.shown, none⟩, .alias (unstatedAlias "c" "b")]
    (∀ relay ∈ (Table.of members).aliases, relay.decl.target ≠ (unstatedAlias "x" "b").newKey) ∧
    (Table.of members).definedAs (unstatedAlias "x" "b").target = [] ∧
    (Table.of members).aliasesOf (unstatedAlias "x" "b").target =
      [⟨unstatedAlias "b" "c", .hidden⟩] ∧
    (Table.of members).effective ⟨.alias (unstatedAlias "x" "b"), .hidden⟩ = some .shown ∧
    (Table.of members).effective ⟨.alias (unstatedAlias "b" "c"), .hidden⟩ = some .hidden := by
  decide +kernel

end MemberOrder
