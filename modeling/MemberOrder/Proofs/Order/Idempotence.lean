import MemberOrder.Proofs.Order.TreeSort

/-!
# Sorting what is sorted

Where no alias leads back to itself, sorted members have the categories and visibilities that they
had among the markers (`categorize_sortMembers_of_acyclic`). In general a second sort changes
nothing exactly if the table is steady (`sort_twice_iff_steady`): aliases that lead to one another
from sections of different visibility can be sorted apart, and then the one that was left alone is
hidden by the stamp of the other (`sort_twice_stamps_crossed_aliases`).
-/

namespace MemberOrder

/-- **Sorting without markers.** In a list whose aliases do not lead back to themselves, sorting
again finds the entries that the members had, in the order of the categories, and the visibility
that each member had. -/
theorem categorize_sortMembers_of_acyclic (members : List Node)
    (acyclic : (Table.of members).Acyclic) :
    categorize (sortMembers members) = Category.sortOn Prod.fst (categorize members) ∧
    place .shown (sortMembers members) = (arranged members).map (fun placed =>
      ⟨(Table.of members).emitted placed, .shown⟩) ∧
    ∀ placed ∈ arranged members, placed.member.bearsVisibility →
      (Table.of (sortMembers members)).effective ⟨(Table.of members).emitted placed, .shown⟩ =
        (Table.of members).effective placed :=
  ⟨acyclic.steady.categorize_sortMembers, place_sortMembers members, fun _ member bears =>
    acyclic.steady.effective_restate (mem_arranged.mp member) bears⟩

private def instanceAlias (newName oldName : String) : Node :=
  .alias ⟨newName, oldName, .onInstance, none, none⟩

private def instanceMethod (name : String) (kind : MethodKind) : Node :=
  .method ⟨name, kind, [], none, none⟩

/-- Aliases of aliases across sections, one of them of a name that two aliases define. -/
private def chainedAliases : List Node :=
  [instanceAlias "ccc" "bb", .marker ⟨.hidden, none⟩, instanceAlias "bb" "a",
    instanceMethod "a" .onInstance, instanceMethod "m" .onBoth, instanceAlias "zz" "x",
    .marker ⟨.shown, none⟩, instanceAlias "bb" "x", instanceAlias "dddd" "ccc"]

theorem chainedAliases_acyclic : (Table.of chainedAliases).Acyclic :=
  Table.acyclic_of_measure (fun key => key.name.length) fun placed member _ =>
    (by decide : ∀ placed ∈ (Table.of chainedAliases).aliases,
      placed.decl.target.name.length < placed.decl.newKey.name.length) placed member

theorem categorize_sortMembers_chainedAliases :
    (Table.of chainedAliases).Acyclic ∧
    categorize (sortMembers chainedAliases) =
      Category.sortOn Prod.fst (categorize chainedAliases) ∧
    place .shown (sortMembers chainedAliases) = (arranged chainedAliases).map (fun placed =>
      ⟨(Table.of chainedAliases).emitted placed, .shown⟩) ∧
    ∀ placed ∈ arranged chainedAliases, placed.member.bearsVisibility →
      (Table.of (sortMembers chainedAliases)).effective
          ⟨(Table.of chainedAliases).emitted placed, .shown⟩ =
        (Table.of chainedAliases).effective placed :=
  ⟨chainedAliases_acyclic,
    categorize_sortMembers_of_acyclic chainedAliases chainedAliases_acyclic⟩

/-- **Sorting twice.** Sorted members are left alone by a second sort exactly if their table is
steady, and sorted declarations count as sorted exactly if the tables of all member lists are steady
that the sort has met. A table in which no alias leads back to itself is steady. -/
theorem sort_twice_iff_steady (members : List Node) (deep : Bool) (decls : List Node) :
    (Node.sameAll (sortMembers (sortMembers members)) (sortMembers members) ↔
      (Table.of members).Steady) ∧
    (isSorted deep (sortTrees deep decls) ↔
      ∀ body ∈ Node.bodiesAll deep decls, (Table.of body).Steady) ∧
    ((Table.of members).Acyclic → (Table.of members).Steady) :=
  ⟨sameAll_sortMembers_iff members, isSorted_sortTrees_iff deep decls, Table.Acyclic.steady⟩

/-- Two aliases of one another, the first hidden: the second is shown at first, and hidden by the
stamp of the first when it is sorted again. -/
theorem sort_twice_stamps_crossed_aliases :
    let crossed := [.marker ⟨.hidden, none⟩, instanceAlias "a" "b", .marker ⟨.shown, none⟩,
      instanceAlias "b" "a"]
    Node.sameAll (sortMembers (sortMembers crossed)) (sortMembers crossed) = false ∧
      isSorted true (sortTrees true [.container ⟨.classDecl none, "C", [], none⟩ crossed]) =
        false := by
  decide +kernel

end MemberOrder
