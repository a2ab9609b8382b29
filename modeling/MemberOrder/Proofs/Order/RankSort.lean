import MemberOrder.Order.Category

/-!
# Stable order by category

`Category.sortOn` is the stable sort by the rank of a category. It is the only list in rank order
that keeps the items of each category in their order (`Category.eq_sortOn`); in particular the
buckets of all categories, one after the other, are this list (`Category.flatMap_filter_all`).
-/

namespace MemberOrder

namespace Category

variable {α β : Type} {category : α → Category} {items others : List α}

theorem all_pairwise_rank_lt : all.Pairwise fun first second => first.rank < second.rank := by
  decide

theorem rank_injective {one two : Category} (same : one.rank = two.rank) : one = two := by
  cases one <;> cases two <;> first | rfl | cases same

/-- Whether an item may stand before another one. -/
def notAfter (category : α → Category) (first second : α) : Bool :=
  (category first).rank ≤ (category second).rank

/-- The items in the order of their categories; those of one category keep their order. -/
def sortOn (category : α → Category) (items : List α) : List α :=
  items.mergeSort (notAfter category)

/-- Items in the order of their categories. -/
def Ranked (category : α → Category) (items : List α) : Prop :=
  items.Pairwise fun first second => (category first).rank ≤ (category second).rank

theorem notAfter_trans (category : α → Category) (first second third : α)
    (before : notAfter category first second) (after : notAfter category second third) :
    notAfter category first third :=
  decide_eq_true (Nat.le_trans (of_decide_eq_true before) (of_decide_eq_true after))

theorem notAfter_total (category : α → Category) (first second : α) :
    notAfter category first second || notAfter category second first := by
  simp only [notAfter, Bool.or_eq_true, decide_eq_true_eq]
  exact Nat.le_total _ _

theorem sortOn_perm (category : α → Category) (items : List α) :
    (sortOn category items).Perm items :=
  List.mergeSort_perm _ _

theorem sortOn_ranked (category : α → Category) (items : List α) :
    Ranked category (sortOn category items) :=
  (List.pairwise_mergeSort (notAfter_trans category) (notAfter_total category) items).imp
    of_decide_eq_true

theorem ranked_map_iff {change : β → α} {given : List β} :
    Ranked category (given.map change) ↔ Ranked (fun item => category (change item)) given :=
  List.pairwise_map

theorem sortOn_of_ranked (ranked : Ranked category items) : sortOn category items = items :=
  List.mergeSort_of_pairwise (ranked.imp decide_eq_true)

/-- Sorting commutes with a change of the items that keeps their categories. -/
theorem sortOn_map {target : β → Category} (change : α → β)
    (same : ∀ item ∈ items, target (change item) = category item) :
    sortOn target (items.map change) = (sortOn category items).map change := by
  refine (List.map_mergeSort fun first firstMember second secondMember => ?_).symm
  simp only [notAfter, same first firstMember, same second secondMember]

theorem of_mem_filter {one : Category} {item : α}
    (member : item ∈ items.filter (category · = one)) : category item = one :=
  of_decide_eq_true (List.mem_filter.mp member).2

/-- Sorting keeps the items of each category in their order. -/
theorem sortOn_filter (category : α → Category) (items : List α) (one : Category) :
    (sortOn category items).filter (category · = one) = items.filter (category · = one) := by
  have ties : (items.filter (category · = one)).Pairwise (notAfter category · ·) := by
    refine List.pairwise_of_forall_mem_list fun first firstMember second secondMember => ?_
    simp only [notAfter, of_mem_filter firstMember, of_mem_filter secondMember, Nat.le_refl,
      decide_true]
  have kept : (items.filter (category · = one)).Sublist (sortOn category items) :=
    List.sublist_mergeSort (notAfter_trans category) (notAfter_total category) ties
      List.filter_sublist
  have inside := kept.filter (category · = one)
  rw [List.filter_filter] at inside
  simp only [Bool.and_self] at inside
  exact (inside.eq_of_length ((sortOn_perm category items).filter _).length_eq.symm).symm

/-- An item that leads its category in a list in rank order does not come before the first item. -/
theorem Ranked.rank_le_of_filters {first head : α} {rest tail : List α}
    (ranked : Ranked category (head :: tail))
    (same : (first :: rest).filter (category · = category first) =
      (head :: tail).filter (category · = category first)) :
    (category head).rank ≤ (category first).rank := by
  have member : first ∈ (head :: tail).filter (category · = category first) := by
    rw [← same]
    simp
  rcases List.mem_cons.mp (List.mem_filter.mp member).1 with rfl | later
  · exact Nat.le_refl _
  · exact List.rel_of_pairwise_cons ranked later

/-- Lists in rank order with the same items of each category are equal. -/
theorem Ranked.eq_of_filters (ranked : Ranked category items) (ranked' : Ranked category others)
    (same : ∀ one, items.filter (category · = one) = others.filter (category · = one)) :
    items = others := by
  induction items generalizing others with
  | nil =>
      cases others with
      | nil => rfl
      | cons head tail => simpa using (same (category head)).symm
  | cons first rest ih =>
      cases others with
      | nil => simpa using same (category first)
      | cons head tail =>
          -- Neither head can come before the other, so both lead the items of one category.
          have sameRank : (category first).rank = (category head).rank :=
            Nat.le_antisymm (ranked.rank_le_of_filters (same _).symm)
              (ranked'.rank_le_of_filters (same _))
          have sameCategory : category first = category head := rank_injective sameRank
          have heads := same (category first)
          simp only [List.filter_cons, sameCategory, decide_true, ↓reduceIte,
            List.cons.injEq] at heads
          obtain ⟨rfl, -⟩ := heads
          refine congrArg _ (ih ranked.of_cons ranked'.of_cons fun one => ?_)
          have tails := same one
          by_cases leads : category first = one
          · simpa [List.filter_cons, leads] using tails
          · simpa [List.filter_cons, leads] using tails

/-- The stable sort is the only list in rank order that keeps the items of each category. -/
theorem eq_sortOn (ranked : Ranked category others)
    (same : ∀ one, others.filter (category · = one) = items.filter (category · = one)) :
    others = sortOn category items :=
  ranked.eq_of_filters (sortOn_ranked category items) fun one => by
    rw [same, sortOn_filter]

/-- Of the buckets of some categories, those items are of one category that are in its bucket. -/
theorem filter_flatMap_filter {categories : List Category} (distinct : categories.Nodup)
    (one : Category) :
    (categories.flatMap fun one => items.filter (category · = one)).filter (category · = one) =
      if one ∈ categories then items.filter (category · = one) else [] := by
  induction categories with
  | nil => rfl
  | cons head rest ih =>
      rw [List.flatMap_cons, List.filter_append, ih distinct.of_cons, List.filter_filter]
      by_cases leads : head = one
      · subst leads
        have absent : head ∉ rest := (List.nodup_cons.mp distinct).1
        simp only [Bool.and_self, absent, ↓reduceIte, List.append_nil, List.mem_cons_self]
      · have none : items.filter (fun item => decide (category item = one) &&
            decide (category item = head)) = [] := by
          refine List.filter_eq_nil_iff.mpr fun item _ both => leads ?_
          simp only [Bool.and_eq_true, decide_eq_true_eq] at both
          rw [← both.1, ← both.2]
        simp only [none, List.nil_append, List.mem_cons, Ne.symm leads, false_or]

/-- The buckets of all categories, one after the other, are the stable sort. -/
theorem flatMap_filter_all (category : α → Category) (items : List α) :
    (all.flatMap fun one => items.filter (category · = one)) = sortOn category items := by
  refine eq_sortOn ?_ fun one => ?_
  · refine List.pairwise_flatMap.mpr ⟨fun one _ => ?_, all_pairwise_rank_lt.imp ?_⟩
    · refine List.pairwise_of_forall_mem_list fun first firstMember second secondMember => ?_
      exact Nat.le_of_eq (by rw [of_mem_filter firstMember, of_mem_filter secondMember])
    · intro one two below first firstMember second secondMember
      rw [of_mem_filter firstMember, of_mem_filter secondMember]
      exact Nat.le_of_lt below
  · have distinct : all.Nodup := by decide
    have present : one ∈ all := by cases one <;> decide
    rw [filter_flatMap_filter distinct, if_pos present]

/-- One more item is put between the others, which keep their order. -/
theorem exists_sortOn_insert (category : α → Category) (before after : List α) (item : α) :
    ∃ front back, sortOn category (before ++ after) = front ++ back ∧
      sortOn category (before ++ item :: after) = front ++ item :: back := by
  have present : category item ∈ all := by cases category item <;> decide
  obtain ⟨lower, higher, split⟩ := List.append_of_mem present
  have distinct : (lower ++ category item :: higher).Nodup := by rw [← split]; decide
  -- Only the bucket of the item's own category has one item more.
  have unmoved (categories : List Category) (apart : ∀ one ∈ categories, one ≠ category item) :
      (categories.flatMap fun one => (before ++ item :: after).filter (category · = one)) =
        categories.flatMap fun one => (before ++ after).filter (category · = one) := by
    rw [List.flatMap_def, List.flatMap_def, List.map_congr_left]
    intro one member
    rw [List.filter_append, List.filter_append,
      List.filter_cons_of_neg (by simpa using Ne.symm (apart one member))]
  obtain ⟨-, rest, lead⟩ := List.nodup_append.mp distinct
  have below := unmoved lower fun one member => lead one member _ List.mem_cons_self
  have above := unmoved higher fun one member same =>
    (List.nodup_cons.mp rest).1 (same ▸ member)
  refine ⟨lower.flatMap (fun one => (before ++ after).filter (category · = one)) ++
      before.filter (category · = category item),
    after.filter (category · = category item) ++
      higher.flatMap fun one => (before ++ after).filter (category · = one), ?_, ?_⟩
  · rw [← flatMap_filter_all, split, List.flatMap_append, List.flatMap_cons, List.filter_append]
    simp only [List.append_assoc]
  · have own : (before ++ item :: after).filter (category · = category item) =
        before.filter (category · = category item) ++
          item :: after.filter (category · = category item) := by
      rw [List.filter_append, List.filter_cons_of_pos (by simp)]
    rw [← flatMap_filter_all, split, List.flatMap_append, List.flatMap_cons, below, above, own]
    simp only [List.append_assoc, List.cons_append]

end Category

end MemberOrder
