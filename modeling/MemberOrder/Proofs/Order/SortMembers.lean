import MemberOrder.Proofs.Order.RankSort
import MemberOrder.Proofs.Order.Stamping

/-!
# What sorting a member list gives

Sorted members are the members without the markers, stamped, in the stable order of the categories
that they have in the given list (`sortMembers_stable_stamped`). `arranged` is that order before the
stamps, so that each sorted member is still seen with the place where it stood.
-/

namespace MemberOrder

/-- What the names of a member list stand for. -/
def Table.of (members : List Node) : Table := .ofPlaced (place .shown members)

/-- The members that are no markers, in the stable order of their categories. -/
def arranged (members : List Node) : List Placed :=
  Category.sortOn (Table.of members).category (place .shown members)

variable {members : List Node} {placed : Placed}

theorem arranged_perm (members : List Node) : (arranged members).Perm (place .shown members) :=
  Category.sortOn_perm _ _

theorem mem_arranged : placed ∈ arranged members ↔ placed ∈ place .shown members :=
  (arranged_perm members).mem_iff

theorem mem_of_mem_place (present : placed ∈ place .shown members) : placed.member ∈ members := by
  have listed : placed.member ∈ (place .shown members).map Placed.member :=
    List.mem_map_of_mem present
  rw [place_map_member] at listed
  exact (List.mem_filter.mp listed).1

theorem mem_aliases_of {relay : PlacedAlias} :
    relay ∈ (Table.of members).aliases ↔
      ⟨.alias relay.decl, relay.running⟩ ∈ place .shown members := by
  simp only [Table.of, Table.ofPlaced, List.mem_filterMap]
  constructor
  · rintro ⟨⟨member, running⟩, present, found⟩
    cases member <;> cases found
    exact present
  · intro present
    exact ⟨_, present, rfl⟩

theorem categorize_eq_map (members : List Node) :
    categorize members = (place .shown members).map (Table.of members).entry := rfl

theorem bucket_eq (entries : List (Category × Node)) (category : Category) :
    bucket entries category = (entries.filter (·.1 = category)).map Prod.snd := by
  induction entries with
  | nil => rfl
  | cons entry rest ih =>
      unfold bucket at ih ⊢
      by_cases same : entry.1 = category <;> simp [same, ih]

/-- The buckets one after the other are the stable sort of the entries. -/
theorem sortMembers_eq_sortOn (members : List Node) :
    sortMembers members = (Category.sortOn Prod.fst (categorize members)).map Prod.snd := by
  simp only [sortMembers, partition, List.flatMap_map, bucket_eq]
  rw [← List.map_flatMap, Category.flatMap_filter_all]

theorem sortOn_categorize (members : List Node) :
    Category.sortOn Prod.fst (categorize members) =
      (arranged members).map (Table.of members).entry :=
  Category.sortOn_map _ fun _ _ => rfl

theorem sortMembers_eq_arranged (members : List Node) :
    sortMembers members = (arranged members).map (Table.of members).emitted := by
  rw [sortMembers_eq_sortOn, sortOn_categorize, List.map_map]
  rfl

theorem isMarker_of_mem_sortMembers {member : Node} (present : member ∈ sortMembers members) :
    member.isMarker = false := by
  rw [sortMembers_eq_arranged] at present
  obtain ⟨placed, inside, rfl⟩ := List.mem_map.mp present
  rw [Table.emitted, isMarker_stamp]
  exact isMarker_of_mem_place (mem_arranged.mp inside)

/-- Sorting keeps the members that carry no visibility as they are. -/
theorem mem_sortMembers_iff_of_not_bears {member : Node} (bare : member.bearsVisibility = false)
    (other : member.isMarker = false) : member ∈ sortMembers members ↔ member ∈ members := by
  rw [sortMembers_eq_arranged, List.mem_map]
  constructor
  · rintro ⟨placed, inside, rfl⟩
    rw [Table.emitted, bearsVisibility_stamp] at bare
    rw [Table.emitted, stamp_of_not_bears bare]
    exact mem_of_mem_place (mem_arranged.mp inside)
  · intro present
    have listed : member ∈ (place .shown members).map Placed.member := by
      rw [place_map_member]
      exact List.mem_filter.mpr ⟨present, by rw [other]; rfl⟩
    obtain ⟨placed, inside, rfl⟩ := List.mem_map.mp listed
    exact ⟨placed, mem_arranged.mpr inside, stamp_of_not_bears bare _⟩

/-- A sorted list has no markers, so every member of it is set to be shown. -/
theorem place_sortMembers (members : List Node) :
    place .shown (sortMembers members) = (arranged members).map (Table.of members).restate := by
  rw [place_of_unmarked fun _ present => isMarker_of_mem_sortMembers present,
    sortMembers_eq_arranged, List.map_map]
  rfl

/-- **Sorted members.** They are the members that are no markers, each with its stamp, ordered by
the rank of the categories that they have in the given list, and in the given order within a
category. A stamp makes a member hidden that carries a visibility, does not state it and is hidden
in the given list; all else stays as it is. -/
theorem sortMembers_stable_stamped (members : List Node) :
    (place .shown members).map Placed.member = members.filter (fun member => !member.isMarker) ∧
    categorize members = (place .shown members).map (fun placed =>
      ((Table.of members).category placed, (Table.of members).emitted placed)) ∧
    sortMembers members = (Category.sortOn Prod.fst (categorize members)).map Prod.snd ∧
    sortMembers members = (arranged members).map (Table.of members).emitted ∧
    (arranged members).Perm (place .shown members) ∧
    (arranged members).Pairwise (fun first second =>
      ((Table.of members).category first).rank ≤ ((Table.of members).category second).rank) ∧
    (∀ one, (arranged members).filter ((Table.of members).category · = one) =
      (place .shown members).filter ((Table.of members).category · = one)) ∧
    ((sortMembers members).map (Node.withVisibility none)).Perm
      ((members.filter fun member => !member.isMarker).map (Node.withVisibility none)) ∧
    ∀ placed ∈ place .shown members, (Table.of members).emitted placed =
      if placed.member.bearsVisibility ∧ placed.member.stated = none ∧
          (Table.of members).effective placed = some .hidden then
        placed.member.withVisibility (some .hidden)
      else placed.member := by
  refine ⟨place_map_member _ _, categorize_eq_map _, sortMembers_eq_sortOn _,
    sortMembers_eq_arranged _, arranged_perm _, Category.sortOn_ranked _ _,
    Category.sortOn_filter _ _, ?_, fun placed _ => stamp_eq _ _⟩
  have unstamped : (sortMembers members).map (Node.withVisibility none) =
      ((arranged members).map Placed.member).map (Node.withVisibility none) := by
    rw [sortMembers_eq_arranged, List.map_map, List.map_map]
    exact List.map_congr_left fun placed _ => withVisibility_stamp _ _ _
  rw [unstamped, ← place_map_member]
  exact ((arranged_perm members).map _).map _

end MemberOrder
