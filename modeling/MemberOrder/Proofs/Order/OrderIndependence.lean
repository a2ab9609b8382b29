import MemberOrder.Proofs.Order.Agreement
import MemberOrder.Proofs.Order.SortMembers

/-!
# Members in another order

What a key stands for depends on what a table lists and not on where it is listed
(`Table.Agrees.agreesAt`). So the same members under the same markers have the same categories and
stamps in any order, and sorting differs only inside the categories (`categorize_of_perm`).
-/

namespace MemberOrder

namespace Table

/-- Two tables list the same definitions and the same aliases, in any order. -/
structure Agrees (table other : Table) : Prop where
  definitions : ∀ entry, entry ∈ table.definitions ↔ entry ∈ other.definitions
  aliases : ∀ placed, placed ∈ table.aliases ↔ placed ∈ other.aliases

namespace Agrees

variable {table other : Table} (agrees : table.Agrees other)
include agrees

theorem agreesAt (key : MethodKey) : table.AgreesAt other key where
  definedAs _ := by simp only [definedAs, List.mem_filterMap, agrees.definitions]
  aliasesOf placed := by rw [mem_aliasesOf, mem_aliasesOf, agrees.aliases]

theorem entry_eq (placed : Placed) : other.entry placed = table.entry placed :=
  entry_of_agreesAt (fun _ => True) (fun key _ => agrees.agreesAt key) (fun _ _ _ _ => trivial)
    fun _ _ => trivial

end Agrees

theorem agrees_of_perm {first second : List Node}
    (same : (place .shown first).Perm (place .shown second)) :
    (Table.of first).Agrees (Table.of second) where
  definitions _ := (same.flatMap_right _).mem_iff
  aliases _ := (same.filterMap _).mem_iff

end Table

variable {first second : List Node}

theorem bucket_perm {entries others : List (Category × Node)} (same : entries.Perm others)
    (category : Category) : (bucket entries category).Perm (bucket others category) :=
  same.filterMap _

/-- The entries of members in another order are those of the given order, made by one table. -/
theorem categorize_eq_map_of_perm (same : (place .shown first).Perm (place .shown second)) :
    categorize second = (place .shown second).map (Table.of first).entry := by
  rw [categorize_eq_map]
  exact List.map_congr_left fun placed _ => (Table.agrees_of_perm same).entry_eq placed

/-- Members without markers are all set to be shown, in any order. -/
theorem place_perm_of_unmarked (unmarked : ∀ member ∈ first, member.isMarker = false)
    (same : second.Perm first) : (place .shown first).Perm (place .shown second) := by
  rw [place_of_unmarked unmarked,
    place_of_unmarked fun member present => unmarked member (same.mem_iff.mp present)]
  exact same.symm.map _

theorem filterMap_getElem?_range (members : List Node) :
    (List.range members.length).filterMap (members[·]?) = members := by
  induction members with
  | nil => rfl
  | cons member rest ih =>
      rw [List.length_cons, List.range_succ_eq_map, List.filterMap_cons, List.filterMap_map]
      exact congrArg _ ih

/-- **Classification in any order.** Let the members of two lists that are no markers, each with the
visibility that is set where it stands, be the same in some order. Then a member has the same
category and the same form in both. The two sorted lists are the buckets of the categories, one
after the other, and the buckets of each category have the same members. In a list without markers
every rearrangement of the members rearranges the entries in the same way. -/
theorem categorize_of_perm (first second : List Node)
    (same : (place .shown first).Perm (place .shown second)) :
    (∀ index other : Nat, (place .shown first)[index]? = (place .shown second)[other]? →
      (categorize first)[index]? = (categorize second)[other]?) ∧
    sortMembers first = Category.all.flatMap (bucket (categorize first)) ∧
    sortMembers second = Category.all.flatMap (bucket (categorize second)) ∧
    (∀ category, (bucket (categorize first) category).Perm (bucket (categorize second) category)) ∧
    ∀ members : List Node, (∀ member ∈ members, member.isMarker = false) →
      ∀ order : List Nat, order.Perm (List.range members.length) →
        categorize (order.filterMap (members[·]?)) =
          order.filterMap ((categorize members)[·]?) := by
  have buckets (members : List Node) :
      sortMembers members = Category.all.flatMap (bucket (categorize members)) := by
    simp only [sortMembers, partition, List.flatMap_map]
  refine ⟨fun index other equal => ?_, buckets first, buckets second, ?_, ?_⟩
  · rw [categorize_eq_map_of_perm same, categorize_eq_map, List.getElem?_map, List.getElem?_map,
      equal]
  · refine bucket_perm ?_
    rw [categorize_eq_map_of_perm same, categorize_eq_map]
    exact same.map _
  · intro members unmarked order arranges
    have rearranged : (order.filterMap (members[·]?)).Perm members := by
      have perm := arranges.filterMap (members[·]?)
      rwa [filterMap_getElem?_range] at perm
    have unmarkedLater : ∀ member ∈ order.filterMap (members[·]?), member.isMarker = false :=
      fun member present => unmarked member (rearranged.mem_iff.mp present)
    rw [categorize_eq_map_of_perm (place_perm_of_unmarked unmarked rearranged),
      place_of_unmarked unmarkedLater, categorize_eq_map, place_of_unmarked unmarked,
      List.map_map, List.map_map, List.map_filterMap]
    simp only [List.getElem?_map]

private def plainAlias (newName oldName : String) : Node :=
  .alias ⟨newName, oldName, .onInstance, none, none⟩

private def plainMethod (name : String) : Node := .method ⟨name, .onInstance, [], none, none⟩

/-- Aliases of one another and two methods of one name, in two sections. -/
private def shownFirst : List Node :=
  [plainAlias "b" "a", plainMethod "m", .marker ⟨.hidden, none⟩, plainAlias "a" "b",
    plainMethod "m", plainAlias "n" "m"]

/-- The same members in the same sections, backwards. -/
private def hiddenFirst : List Node :=
  [.marker ⟨.hidden, none⟩, plainAlias "n" "m", plainMethod "m", plainAlias "a" "b",
    .marker ⟨.shown, none⟩, plainMethod "m", plainAlias "b" "a"]

theorem categorize_hiddenFirst :
    (place .shown shownFirst).Perm (place .shown hiddenFirst) ∧
      (categorize shownFirst)[0]? = (categorize hiddenFirst)[4]? := by
  have backwards : place .shown hiddenFirst = (place .shown shownFirst).reverse := rfl
  have same : (place .shown shownFirst).Perm (place .shown hiddenFirst) :=
    backwards ▸ (List.reverse_perm _).symm
  exact ⟨same, (categorize_of_perm shownFirst hiddenFirst same).1 0 4 rfl⟩

end MemberOrder
