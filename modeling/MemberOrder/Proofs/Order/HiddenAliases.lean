import MemberOrder.Proofs.Order.AliasTarget
import MemberOrder.Proofs.Order.SecondScan
import Mathlib.Data.Finset.Dedup
import Mathlib.Data.Finset.Order
import Mathlib.Data.Nat.Find

/-!
# Hidden aliases among shown members

Where no marker hides anything, an alias is hidden exactly if that can be derived from what the list
says (`HiddenAlias`): the search that resolves aliases finds the least such relation, although it
follows each key once on a path (`resolve_eq_hidden_iff`). An alias is derived to be hidden in a
number of steps (`HiddenWithin`), and along a shortest derivation no key comes twice, so the search
is never cut short on the way. Aliases that come to state that they are hidden leave the relation as
it is (`hiddenAlias_hideAliases_iff`). Such lists are steady, so one sort is enough for them, and
two are for any list (`hiddenAlias_of_onlyShown`).
-/

namespace MemberOrder

/-- No marker of a list hides what comes after it. -/
def OnlyShown (members : List Node) : Prop :=
  ∀ decl : Marker, .marker decl ∈ members → decl.visibility = .shown

/-- The aliases that a list makes hidden: those that say so, those whose target is defined by hidden
methods and attributes only, and those whose target is defined by hidden aliases only. -/
inductive HiddenAlias (members : List Node) : Alias → Prop
  | stated {decl : Alias} (own : decl.visibility = some .hidden) : HiddenAlias members decl
  | defined {decl : Alias} (unstated : decl.visibility = none)
      (present : ∃ placed ∈ place .shown members, ∃ visibility,
        placed.Defines decl.target visibility)
      (unshown : ∀ placed ∈ place .shown members, ¬ placed.Defines decl.target .shown) :
      HiddenAlias members decl
  | renamed {decl : Alias} (unstated : decl.visibility = none)
      (undefined : ∀ placed ∈ place .shown members, ∀ visibility,
        ¬ placed.Defines decl.target visibility)
      (present : ∃ next : Alias, .alias next ∈ members ∧ next.newKey = decl.target)
      (hidden : ∀ next : Alias, .alias next ∈ members → next.newKey = decl.target →
        HiddenAlias members next) : HiddenAlias members decl

/-- The aliases that are derived to be hidden by way of fewer aliases than a number, one after the
other. -/
inductive HiddenWithin (members : List Node) : Nat → Alias → Prop
  | stated {n : Nat} {decl : Alias} (own : decl.visibility = some .hidden) :
      HiddenWithin members n decl
  | defined {n : Nat} {decl : Alias} (unstated : decl.visibility = none)
      (present : ∃ placed ∈ place .shown members, ∃ visibility,
        placed.Defines decl.target visibility)
      (unshown : ∀ placed ∈ place .shown members, ¬ placed.Defines decl.target .shown) :
      HiddenWithin members n decl
  | renamed {n : Nat} {decl : Alias} (unstated : decl.visibility = none)
      (undefined : ∀ placed ∈ place .shown members, ∀ visibility,
        ¬ placed.Defines decl.target visibility)
      (present : ∃ next : Alias, .alias next ∈ members ∧ next.newKey = decl.target)
      (hidden : ∀ next : Alias, .alias next ∈ members → next.newKey = decl.target →
        HiddenWithin members n next) : HiddenWithin members (n + 1) decl

variable {members : List Node} {decl : Alias} {n : Nat}

section Placing

/-- The markers of a list set nothing but what it begins with, if they only show. -/
theorem running_of_mem_place {running : Visibility} {placed : Placed}
    (onlyShown : OnlyShown members) (shown : running = .shown)
    (present : placed ∈ place running members) :
    placed.running = .shown := by
  induction members generalizing running with
  | nil => cases present
  | cons member rest ih =>
      have onlyShownRest : OnlyShown rest := fun decl later =>
        onlyShown decl (List.mem_cons_of_mem _ later)
      by_cases marks : member.isMarker
      · match member with
        | .marker decl => exact ih onlyShownRest (onlyShown decl List.mem_cons_self) present
      · simp only [Bool.not_eq_true] at marks
        rw [place_cons_of_not_marker marks] at present
        rcases List.mem_cons.mp present with rfl | later
        · exact shown
        · exact ih onlyShownRest shown later

theorem exists_mem_place {member : Node} (running : Visibility) (present : member ∈ members)
    (other : member.isMarker = false) :
    ∃ placed ∈ place running members, placed.member = member := by
  have listed : member ∈ (place running members).map Placed.member := by
    rw [place_map_member]
    exact List.mem_filter.mpr ⟨present, by rw [other]; rfl⟩
  exact List.mem_map.mp listed

/-- The aliases of a list without hiding markers all stand among shown members. -/
theorem mem_aliases_of_onlyShown (onlyShown : OnlyShown members) {relay : PlacedAlias} :
    relay ∈ (Table.of members).aliases ↔ .alias relay.decl ∈ members ∧ relay.running = .shown := by
  rw [mem_aliases_of]
  constructor
  · intro present
    exact ⟨mem_of_mem_place present, running_of_mem_place onlyShown rfl present⟩
  · rintro ⟨present, shown⟩
    obtain ⟨⟨member, running⟩, inside, rfl⟩ := exists_mem_place .shown present rfl
    obtain rfl : running = .shown := running_of_mem_place onlyShown rfl inside
    rwa [shown]

theorem onlyShown_sortMembers (members : List Node) : OnlyShown (sortMembers members) :=
  fun _ present => absurd (isMarker_of_mem_sortMembers present) (by simp [Node.isMarker])

end Placing

section Steps

theorem HiddenWithin.mono {m : Nat} (hidden : HiddenWithin members n decl) (least : n ≤ m) :
    HiddenWithin members m decl := by
  induction hidden generalizing m with
  | stated own => exact .stated own
  | defined unstated present unshown => exact .defined unstated present unshown
  | renamed unstated undefined present _ ih =>
      obtain ⟨m, rfl⟩ := Nat.exists_eq_add_one_of_ne_zero (by omega : m ≠ 0)
      exact .renamed unstated undefined present fun next member same =>
        ih next member same (by omega)

/-- A list has finitely many aliases, so one number of steps is enough for all that it hides. -/
theorem HiddenAlias.exists_within (hidden : HiddenAlias members decl) :
    ∃ n, HiddenWithin members n decl := by
  induction hidden with
  | stated own => exact ⟨0, .stated own⟩
  | defined unstated present unshown => exact ⟨0, .defined unstated present unshown⟩
  | @renamed decl unstated undefined present _ ih =>
      choose! steps within using ih
      obtain ⟨most, bound⟩ := Finset.exists_le
        (((Table.of members).aliases.map fun relay => steps relay.decl).toFinset)
      refine ⟨most + 1, .renamed unstated undefined present fun next member same => ?_⟩
      obtain ⟨⟨given, running⟩, placed, rfl⟩ := exists_mem_place .shown member rfl
      refine (within next member same).mono (bound _ ?_)
      rw [List.mem_toFinset, List.mem_map]
      exact ⟨⟨next, running⟩, mem_aliases_of.mpr placed, rfl⟩

end Steps

section Search

theorem exists_of_mem_aliasKeys {key : MethodKey} (member : key ∈ (Table.of members).aliasKeys) :
    ∃ next : Alias, .alias next ∈ members ∧ next.newKey = key := by
  obtain ⟨relay, present, same⟩ := List.mem_map.mp member
  exact ⟨relay.decl, mem_of_mem_place (mem_aliases_of.mp present), same⟩

theorem mem_aliasKeys_of {next : Alias} (present : .alias next ∈ members) :
    next.newKey ∈ (Table.of members).aliasKeys := by
  obtain ⟨⟨member, running⟩, placed, rfl⟩ := exists_mem_place .shown present rfl
  exact List.mem_map.mpr ⟨⟨next, running⟩, mem_aliases_of.mpr placed, rfl⟩

/-- What the search finds hidden is hidden by what the list says: where the search stops, it answers
with the visibility that is set. -/
theorem hiddenAlias_of_resolve (onlyShown : OnlyShown members) (unseen : List MethodKey)
    (within : ∀ key ∈ unseen, key ∈ (Table.of members).aliasKeys)
    (hidden : (Table.of members).resolve unseen ⟨decl, .shown⟩ = .hidden) :
    HiddenAlias members decl := by
  induction size : unseen.length using Nat.strongRecOn generalizing unseen decl with
  | ind size ih =>
      subst size
      by_cases relays : (Table.of members).Relays ⟨decl, .shown⟩
      · by_cases fresh : decl.target ∈ unseen
        · rw [Table.resolve_followed relays fresh, Visibility.widest_eq_hidden_iff] at hidden
          refine .renamed relays.1 (definedAs_eq_nil_iff.mp relays.2)
            (exists_of_mem_aliasKeys (within _ fresh)) fun next present same => ?_
          refine ih _ (Table.length_without_lt fresh) _
            (fun key inside => within key (Table.mem_without.mp inside).1) ?_ rfl
          rw [Visibility.eq_hidden_iff]
          intro shown
          refine hidden (List.mem_map.mpr ⟨⟨next, .shown⟩, ?_, shown⟩)
          have placed : ⟨next, .shown⟩ ∈ (Table.of members).aliases :=
            (mem_aliases_of_onlyShown onlyShown).mpr ⟨present, rfl⟩
          exact Table.mem_aliasesOf.mpr ⟨placed, same⟩
        · rw [Table.resolve_stopped relays fresh] at hidden
          cases hidden
      · cases own : decl.visibility with
        | some visibility =>
            rw [Table.resolve_stated own] at hidden
            exact .stated (hidden ▸ own)
        | none =>
            have defined : (Table.of members).definedAs decl.target ≠ [] := fun empty =>
              relays ⟨own, empty⟩
            rw [Table.resolve_defined own defined, Visibility.widest_eq_hidden_iff] at hidden
            obtain ⟨visibility, listed⟩ := List.exists_mem_of_ne_nil _ defined
            obtain ⟨placed, present, defines⟩ := mem_definedAs_of.mp listed
            exact .defined own ⟨placed, present, visibility, defines⟩ fun placed present shown =>
              hidden (mem_definedAs_of.mpr ⟨placed, present, shown⟩)

/-- What a list hides within some steps the search finds hidden, if it may still follow each key
whose aliases are hidden within fewer steps. Between the aliases of a key and those of the next one
the least number of such steps falls, so what has been followed does not come again. -/
theorem resolve_of_hiddenWithin (running : Visibility) (unseen : List MethodKey)
    (hidden : HiddenWithin members n decl)
    (free : ∀ key ∈ (Table.of members).aliasKeys, ∀ fewer < n,
      (∀ next : Alias, .alias next ∈ members → next.newKey = key →
        HiddenWithin members fewer next) → key ∈ unseen) :
    (Table.of members).resolve unseen ⟨decl, running⟩ = .hidden := by
  induction n using Nat.strongRecOn generalizing decl running unseen with
  | ind n ih =>
      cases hidden with
      | stated own => exact Table.resolve_stated own _
      | defined unstated present unshown =>
          obtain ⟨placed, inside, visibility, defines⟩ := present
          have defined : (Table.of members).definedAs decl.target ≠ [] :=
            List.ne_nil_of_mem (mem_definedAs_of.mpr ⟨placed, inside, defines⟩)
          rw [Table.resolve_defined unstated defined, Visibility.widest_eq_hidden_iff]
          intro listed
          obtain ⟨placed, inside, defines⟩ := mem_definedAs_of.mp listed
          exact unshown placed inside defines
      | @renamed n _ unstated undefined present hidden =>
          have relays : (Table.of members).Relays ⟨decl, running⟩ :=
            ⟨unstated, definedAs_eq_nil_iff.mpr undefined⟩
          obtain ⟨first, member, same⟩ := present
          have key : decl.target ∈ (Table.of members).aliasKeys := same ▸ mem_aliasKeys_of member
          classical
          have some : ∃ fewer, ∀ next : Alias, .alias next ∈ members →
              next.newKey = decl.target → HiddenWithin members fewer next := ⟨n, hidden⟩
          have least := Nat.find_spec some
          have below : Nat.find some < n + 1 := Nat.lt_succ_of_le (Nat.find_min' some hidden)
          rw [Table.resolve_followed relays (free _ key _ below least),
            Visibility.widest_eq_hidden_iff]
          intro shown
          obtain ⟨⟨next, running⟩, inside, visible⟩ := List.mem_map.mp shown
          obtain ⟨listed, renames⟩ := Table.mem_aliasesOf.mp inside
          have found := ih _ below running (Table.without unseen decl.target)
            (least next (mem_of_mem_place (mem_aliases_of.mp listed)) renames)
            fun key member fewer less each => Table.mem_without.mpr
              ⟨free key member fewer (less.trans below) each, fun again =>
                Nat.find_min some less (again ▸ each)⟩
          rw [found] at visible
          cases visible

/-- The search finds exactly what the list hides. -/
theorem resolve_eq_hidden_iff (onlyShown : OnlyShown members) :
    (Table.of members).aliasVisibility ⟨decl, .shown⟩ = .hidden ↔ HiddenAlias members decl := by
  constructor
  · exact hiddenAlias_of_resolve onlyShown _ fun _ inside => inside
  · intro hidden
    obtain ⟨n, within⟩ := hidden.exists_within
    exact resolve_of_hiddenWithin _ _ within fun _ member _ _ _ => member

/-- Where no marker hides anything, an alias is hidden when all aliases of its target are. -/
theorem steady_of_onlyShown (onlyShown : OnlyShown members) : (Table.of members).Steady := by
  rintro ⟨decl, running⟩ member relays present hidden
  obtain ⟨-, rfl⟩ := (mem_aliases_of_onlyShown onlyShown).mp member
  refine (resolve_eq_hidden_iff onlyShown).mpr (.renamed relays.1 (definedAs_eq_nil_iff.mp relays.2)
    (exists_of_mem_aliasKeys (Table.mem_aliasKeys.mpr present)) fun next inside same => ?_)
  refine (resolve_eq_hidden_iff onlyShown).mp (hidden ⟨next, .shown⟩ ?_)
  exact Table.mem_aliasesOf.mpr ⟨(mem_aliases_of_onlyShown onlyShown).mpr ⟨inside, rfl⟩, same⟩

end Search

section Stamping

open Classical in
/-- An alias that states that it is hidden, if the list hides it and it states nothing. -/
noncomputable def hideAlias (members : List Node) (decl : Alias) : Alias :=
  if decl.visibility = none ∧ HiddenAlias members decl then
    { decl with visibility := some .hidden }
  else decl

/-- A member of a list, stamped if it is an alias that the list hides. -/
noncomputable def hideAliases (members : List Node) : Node → Node
  | .alias decl => .alias (hideAlias members decl)
  | node => node

@[simp]
theorem newKey_hideAlias : (hideAlias members decl).newKey = decl.newKey := by
  unfold hideAlias
  split <;> rfl

theorem hideAlias_of_unstated (unstated : (hideAlias members decl).visibility = none) :
    hideAlias members decl = decl := by
  unfold hideAlias at unstated ⊢
  split at unstated
  · cases unstated
  · next stays => rw [if_neg stays]

theorem place_map_hideAliases (running : Visibility) (others : List Node) :
    place running (others.map (hideAliases members)) =
      (place running others).map fun placed =>
        ⟨hideAliases members placed.member, placed.running⟩ := by
  induction others generalizing running with
  | nil => rfl
  | cons member rest ih =>
      by_cases marks : member.isMarker
      · match member with
        | .marker decl => exact ih decl.visibility
      · simp only [Bool.not_eq_true] at marks
        have other : (hideAliases members member).isMarker = false := by
          cases member <;> first | rfl | cases marks
        rw [List.map_cons, place_cons_of_not_marker other, place_cons_of_not_marker marks, ih,
          List.map_cons]

theorem defines_hideAliases_iff {member : Node} {running visibility : Visibility}
    {key : MethodKey} :
    Placed.Defines ⟨hideAliases members member, running⟩ key visibility ↔
      Placed.Defines ⟨member, running⟩ key visibility := by
  match member with
  | .alias decl =>
      refine iff_of_false ?_ ?_ <;> rintro ⟨⟩
  | .container .. | .typeAlias _ | .binding _ | .method _ | .attribute _ | .mixin _ | .marker _
  | .unknown _ | .foreign => rfl

/-- A stamp of aliases leaves the methods and attributes as they are. -/
theorem exists_defines_hideAliases_iff {key : MethodKey} {visibility : Visibility} :
    (∃ placed ∈ place .shown (members.map (hideAliases members)), placed.Defines key visibility) ↔
      ∃ placed ∈ place .shown members, placed.Defines key visibility := by
  simp only [place_map_hideAliases, List.mem_map, exists_exists_and_eq_and, defines_hideAliases_iff]

theorem mem_map_hideAliases_iff {next : Alias} :
    .alias next ∈ members.map (hideAliases members) ↔
      ∃ given : Alias, .alias given ∈ members ∧ hideAlias members given = next := by
  rw [List.mem_map]
  constructor
  · rintro ⟨member, present, same⟩
    match member with
    | .alias given =>
        cases same
        exact ⟨given, present, rfl⟩
  · rintro ⟨given, present, rfl⟩
    exact ⟨.alias given, present, rfl⟩

/-- A list of stamped aliases hides no alias that it did not hide before. -/
theorem hiddenAlias_of_hideAliases
    (hidden : HiddenAlias (members.map (hideAliases members)) (hideAlias members decl)) :
    HiddenAlias members decl := by
  generalize stamped : hideAlias members decl = later at hidden
  induction hidden generalizing decl with
  | stated own =>
      subst stamped
      unfold hideAlias at own
      split at own
      · next hides => exact hides.2
      · exact .stated own
  | defined unstated present unshown =>
      subst stamped
      have same := hideAlias_of_unstated unstated
      rw [same] at unstated present unshown
      refine .defined unstated ?_ fun placed inside shown => ?_
      · obtain ⟨placed, inside, visibility, defines⟩ := present
        obtain ⟨given, member, definesGiven⟩ :=
          exists_defines_hideAliases_iff.mp ⟨placed, inside, defines⟩
        exact ⟨given, member, visibility, definesGiven⟩
      · obtain ⟨later, member, shownLater⟩ :=
          exists_defines_hideAliases_iff.mpr ⟨placed, inside, shown⟩
        exact unshown later member shownLater
  | renamed unstated undefined present _ ih =>
      subst stamped
      have unstamped := hideAlias_of_unstated unstated
      rw [unstamped] at unstated undefined present ih
      refine .renamed unstated (fun placed inside visibility defines => ?_) ?_ fun next inside
        same => ?_
      · obtain ⟨later, member, definesLater⟩ :=
          exists_defines_hideAliases_iff.mpr ⟨placed, inside, defines⟩
        exact undefined later member visibility definesLater
      · obtain ⟨later, member, same⟩ := present
        obtain ⟨given, inside, rfl⟩ := mem_map_hideAliases_iff.mp member
        exact ⟨given, inside, newKey_hideAlias.symm.trans same⟩
      · exact ih _ (mem_map_hideAliases_iff.mpr ⟨next, inside, rfl⟩)
          (newKey_hideAlias.trans same) rfl

theorem visibility_hideAlias (hidden : HiddenAlias members decl) :
    (hideAlias members decl).visibility = some .hidden := by
  unfold hideAlias
  split
  · rfl
  · next stays =>
      cases hidden with
      | stated own => exact own
      | defined unstated present unshown =>
          exact (stays ⟨unstated, .defined unstated present unshown⟩).elim
      | renamed unstated undefined present below =>
          exact (stays ⟨unstated, .renamed unstated undefined present below⟩).elim

/-- Aliases that come to state that they are hidden leave it as it is what the list hides. -/
theorem hiddenAlias_hideAliases_iff :
    HiddenAlias (members.map (hideAliases members)) (hideAlias members decl) ↔
      HiddenAlias members decl :=
  ⟨hiddenAlias_of_hideAliases, fun hidden => .stated (visibility_hideAlias hidden)⟩

end Stamping

/-- **Hidden aliases.** In a list without a marker that hides, an alias is hidden exactly if what
the list says makes it hidden; stating so on all such aliases leaves the relation as it is, and a
sort after the first one changes nothing. Sorted members are such a list, so any list is as it stays
after two sorts. -/
theorem hiddenAlias_of_onlyShown (members : List Node) :
    (OnlyShown members →
      (∀ decl running, ⟨.alias decl, running⟩ ∈ place .shown members →
        ((Table.of members).effective ⟨.alias decl, running⟩ = some .hidden ↔
          HiddenAlias members decl)) ∧
      (∀ decl, HiddenAlias (members.map (hideAliases members)) (hideAlias members decl) ↔
        HiddenAlias members decl) ∧
      sortMembers (sortMembers members) = sortMembers members) ∧
    OnlyShown (sortMembers members) ∧
    sortMembers (sortMembers (sortMembers members)) = sortMembers (sortMembers members) := by
  have fixed {list : List Node} (onlyShown : OnlyShown list) :
      sortMembers (sortMembers list) = sortMembers list :=
    (steady_of_onlyShown onlyShown).sortMembers_sortMembers
  refine ⟨fun onlyShown => ⟨fun decl running present => ?_, fun _ => hiddenAlias_hideAliases_iff,
    fixed onlyShown⟩, onlyShown_sortMembers members, fixed (onlyShown_sortMembers members)⟩
  obtain rfl : running = .shown := running_of_mem_place onlyShown rfl present
  exact Option.some_inj.trans (resolve_eq_hidden_iff onlyShown)

private def hiddenMethod (name : String) : Node :=
  .method ⟨name, .onInstance, [], some .hidden, none⟩

private def unstated (newName oldName : String) : Alias :=
  ⟨newName, oldName, .onInstance, none, none⟩

/-- An alias of an alias of a hidden method, and two aliases of one another. -/
private def chainAndCircle : List Node :=
  [.alias (unstated "b" "a"), .alias (unstated "c" "d"), .marker ⟨.shown, none⟩,
    .alias (unstated "a" "m"), hiddenMethod "m", .alias (unstated "d" "c")]

theorem hiddenAlias_chainAndCircle :
    OnlyShown chainAndCircle ∧ HiddenAlias chainAndCircle (unstated "b" "a") ∧
    ¬ HiddenAlias chainAndCircle (unstated "c" "d") ∧
    sortMembers (sortMembers chainAndCircle) = sortMembers chainAndCircle := by
  have onlyShown : OnlyShown chainAndCircle := by
    intro decl present
    simp only [chainAndCircle, hiddenMethod, List.mem_cons, reduceCtorEq, Node.marker.injEq,
      List.not_mem_nil, or_false, false_or] at present
    rw [present]
  obtain ⟨resolves, -, fixed⟩ := (hiddenAlias_of_onlyShown chainAndCircle).1 onlyShown
  have chain := resolves (unstated "b" "a") .shown List.mem_cons_self
  have circle := resolves (unstated "c" "d") .shown (List.mem_cons_of_mem _ List.mem_cons_self)
  refine ⟨onlyShown, chain.mp (by decide +kernel), fun hidden => ?_, fixed⟩
  exact absurd (circle.mpr hidden) (by decide +kernel)

end MemberOrder
