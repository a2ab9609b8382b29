import MemberOrder.Order.Tally
import MemberOrder.Proofs.Order.SecondScan
import MemberOrder.Proofs.Order.TreeConservation

/-!
# Counts of sorted declarations

Counting declarations takes one note for each container, outer before inner: its qualified name and
the categories of its members (`Tally.of_eq_foldl`). A note adds to the count of a category as often
as it has the category (`Counts.get_merge_ofList`), so the order of the categories in a note does
not matter (`Tally.alike_foldl_note`). Sorting leaves the containers in their order and keeps the
categories of all members where no alias leads back to itself; the counts are then the same
(`Tally.sortTrees_keeps_counts`).
-/

namespace MemberOrder

namespace Counts

variable {counts : Counts}

theorem get_cons (entry : Category × Int) (rest : Counts) (category : Category) :
    get (entry :: rest) category = if category = entry.1 then entry.2 else get rest category := by
  obtain ⟨kept, count⟩ := entry
  unfold get
  by_cases same : category = kept
  · subst same
    simp
  · simp [List.lookup_cons, beq_false_of_ne same, same]

theorem get_set (counts : Counts) (one category : Category) (count : Int) :
    (counts.set one count).get category =
      if category = one then count else counts.get category := by
  induction counts with
  | nil => rw [set, get_cons]
  | cons entry rest ih =>
      obtain ⟨kept, held⟩ := entry
      by_cases found : kept = one
      · subst found
        simp only [set, ↓reduceIte, get_cons]
        split <;> rfl
      · simp only [set, if_neg found, get_cons, ih]
        by_cases here : category = kept
        · subst here
          simp [found]
        · simp [here]

theorem get_add (counts : Counts) (one category : Category) (count : Int) :
    (counts.add one count).get category =
      counts.get category + if category = one then count else 0 := by
  rw [add, get_set]
  split
  · next same => rw [same]
  · rw [Int.add_zero]

/-- What all entries for a category come to. -/
def entriesFor (category : Category) : Counts → Int
  | [] => 0
  | (kept, count) :: rest => (if category = kept then count else 0) + entriesFor category rest

theorem entriesFor_add (counts : Counts) (one category : Category) (count : Int) :
    (counts.add one count).entriesFor category =
      counts.entriesFor category + if category = one then count else 0 := by
  unfold add
  -- The first entry for the category takes what is added to it; the later ones stay.
  induction counts with
  | nil => simp [set, entriesFor, get]
  | cons entry rest ih =>
      obtain ⟨kept, held⟩ := entry
      by_cases found : kept = one
      · subst found
        simp only [set, ↓reduceIte, entriesFor, get_cons]
        split <;> omega
      · simp only [set, if_neg found, entriesFor, get_cons, if_neg (Ne.symm found), ih]
        omega

theorem get_merge (counts others : Counts) (category : Category) :
    (counts.merge others).get category = counts.get category + others.entriesFor category := by
  induction others generalizing counts with
  | nil => simp [merge, entriesFor]
  | cons entry rest ih =>
      obtain ⟨kept, count⟩ := entry
      have step : counts.merge ((kept, count) :: rest) = (counts.add kept count).merge rest := rfl
      rw [step, ih, get_add, entriesFor]
      omega

/-- What grows by one whenever a category is counted grows by the number of times that a list has
the category. -/
theorem measure_ofList {category : Category} (measure : Counts → Int)
    (adds : ∀ counts one, measure (add counts one 1) =
      measure counts + if category = one then 1 else 0) (categories : List Category) :
    measure (ofList categories) = measure [] + categories.count category := by
  have counted (counts : Counts) :
      measure (categories.foldl (fun counts one => counts.add one 1) counts) =
        measure counts + categories.count category := by
    induction categories generalizing counts with
    | nil => simp
    | cons first rest ih =>
        rw [List.foldl_cons, ih, adds, List.count_cons]
        by_cases same : category = first
        · subst same
          simp
          omega
        · simp [same, Ne.symm same]
  exact counted []

theorem get_ofList (categories : List Category) (category : Category) :
    (ofList categories).get category = categories.count category :=
  (measure_ofList (get · category) (fun counts one => get_add counts one category 1)
    categories).trans (Int.zero_add _)

/-- Counting a list of categories adds to each count as often as the list has the category. -/
theorem get_merge_ofList (counts : Counts) (categories : List Category) (category : Category) :
    (counts.merge (ofList categories)).get category =
      counts.get category + categories.count category := by
  rw [get_merge]
  exact congrArg _ ((measure_ofList (entriesFor category)
    (fun counts one => entriesFor_add counts one category 1) categories).trans (Int.zero_add _))

/-- Whether every category has the same count in both. -/
def Alike (counts others : Counts) : Prop :=
  ∀ category, counts.get category = others.get category

end Counts

namespace Tally

/-- What is noted of a container: its qualified name and the categories of its members. -/
abbrev Note := String × List Category

mutual

/-- The notes on a node inside containers with the given names, outer containers first. -/
def notes (path : List String) : Node → List Note
  | .container head members =>
    let path := path ++ [head.name]
    (String.intercalate "::" path, (categorize members).map Prod.fst) :: notesAll path members
  | _ => []

def notesAll (path : List String) : List Node → List Note
  | [] => []
  | node :: rest => notes path node ++ notesAll path rest

end

/-- A tally with a note counted. -/
def note (tally : Tally) (given : Note) : Tally := tally.add given.1 (.ofList given.2)

theorem notesAll_eq_flatMap (path : List String) (nodes : List Node) :
    notesAll path nodes = nodes.flatMap (notes path) := by
  induction nodes with
  | nil => rfl
  | cons node rest ih => rw [notesAll, ih, List.flatMap_cons]

theorem notes_of_leaf {node : Node} (path : List String) (bare : node.isContainer = false) :
    notes path node = [] := by
  cases node with
  | container head members => cases bare
  | _ => rfl

/-- Only containers are noted. -/
theorem notesAll_filter (path : List String) (nodes : List Node) :
    notesAll path (nodes.filter Node.isContainer) = notesAll path nodes := by
  induction nodes with
  | nil => rfl
  | cons node rest ih =>
      cases bare : node.isContainer with
      | true => rw [List.filter_cons_of_pos bare, notesAll, notesAll, ih]
      | false =>
          rw [List.filter_cons_of_neg (by rw [bare]; decide), notesAll, notes_of_leaf path bare, ih]
          rfl

mutual

theorem visit_eq_foldl (path : List String) (tally : Tally) (node : Node) :
    visit path tally node = (notes path node).foldl note tally := by
  cases node with
  | container head members =>
      rw [visit, notes, visitAll_eq_foldl]
      rfl
  | _ => rfl

theorem visitAll_eq_foldl (path : List String) (tally : Tally) (nodes : List Node) :
    visitAll path tally nodes = (notesAll path nodes).foldl note tally := by
  cases nodes with
  | nil => rfl
  | cons node rest =>
      rw [visitAll, notesAll, visit_eq_foldl, visitAll_eq_foldl, List.foldl_append]

end

theorem of_eq_foldl (decls : List Node) : of decls = (notesAll [] decls).foldl note [] :=
  visitAll_eq_foldl [] [] decls

/-- Whether the names are the same, in the same order, each with the same counts. -/
def Alike (tally others : Tally) : Prop :=
  List.Forall₂ (fun first second => first.1 = second.1 ∧ first.2.Alike second.2) tally others

/-- Whether two notes are about one name and have the same categories, in some order. -/
def Note.Alike (first second : Note) : Prop := first.1 = second.1 ∧ first.2.Perm second.2

/-- Alike notes are counted alike. -/
theorem Alike.note {tally others : Tally} {first second : Note} (alike : tally.Alike others)
    (same : first.Alike second) : (tally.note first).Alike (others.note second) := by
  obtain ⟨name, categories⟩ := first
  obtain ⟨_, rearranged⟩ := second
  obtain ⟨rfl, moved⟩ := same
  unfold Tally.note
  induction alike with
  | nil =>
      refine .cons ⟨rfl, fun category => ?_⟩ .nil
      rw [Counts.get_ofList, Counts.get_ofList, moved.count_eq]
  | @cons entry other rest later agree all ih =>
      obtain ⟨named, counts⟩ := entry
      obtain ⟨_, otherCounts⟩ := other
      obtain ⟨rfl, agree⟩ := agree
      by_cases found : named = name
      · simp only [add, if_pos found]
        refine .cons ⟨rfl, fun category => ?_⟩ all
        rw [Counts.get_merge_ofList, Counts.get_merge_ofList, agree category, moved.count_eq]
      · simp only [add, if_neg found]
        exact .cons ⟨rfl, agree⟩ ih

theorem alike_foldl_note {first second : List Note} (same : List.Forall₂ Note.Alike first second)
    {tally others : Tally} (alike : tally.Alike others) :
    Alike (first.foldl Tally.note tally) (second.foldl Tally.note others) := by
  induction same generalizing tally others with
  | nil => exact alike
  | cons head _ ih => exact ih (alike.note head)

theorem forall₂_flatMap {α β : Type} {relation : β → β → Prop} {first second : α → List β}
    {items : List α} (each : ∀ item ∈ items, List.Forall₂ relation (first item) (second item)) :
    List.Forall₂ relation (items.flatMap first) (items.flatMap second) := by
  have paired : List.Forall₂ (fun one other => one = other ∧ one ∈ items) items items :=
    List.forall₂_same.mpr fun _ member => ⟨rfl, member⟩
  refine List.rel_flatMap paired ?_
  rintro item _ ⟨rfl, member⟩
  exact each item member

/-- The categories of members are the same after a sort, if their table is steady. -/
theorem categories_sorted_perm (deep : Bool) {members : List Node}
    (steady : (Table.of members).Steady) :
    ((categorize ((sortMembers members).map (Node.sortInner deep))).map Prod.fst).Perm
      ((categorize members).map Prod.fst) := by
  have same : (categorize ((sortMembers members).map (Node.sortInner deep))).map Prod.fst =
      (Category.sortOn Prod.fst (categorize members)).map Prod.fst := by
    rw [(Node.keepsHeads_sortInner deep).categorize_map, steady.categorize_sortMembers,
      List.map_map]
    rfl
  rw [same]
  exact (Category.sortOn_perm _ _).map _

/-- A sorted node is noted as the node itself, if all tables that the sort meets are steady. -/
theorem alike_notes_sortTree (deep : Bool) (node : Node) (path : List String)
    (steady : ∀ body ∈ node.bodies deep, (Table.of body).Steady) :
    List.Forall₂ Note.Alike (notes path (sortTree deep node)) (notes path node) := by
  induction node using Node.inductionOn generalizing path with
  | leaf node bare =>
      rw [(Node.keepsHeads_sortTree deep).leaf node bare, notes_of_leaf path bare]
      exact .nil
  | container head members ih =>
      have outer : (Table.of members).Steady := steady members (by simp [Node.bodies])
      have keeps := Node.keepsHeads_sortInner deep
      have inner : ∀ member ∈ members, ∀ path, List.Forall₂ Note.Alike
          (notes path (Node.sortInner deep member)) (notes path member) := by
        intro member present path
        cases deep with
        | false => exact List.forall₂_same.mpr fun _ _ => ⟨rfl, .refl _⟩
        | true =>
            refine ih member present path fun body inside => steady body ?_
            simp only [Node.bodies, ↓reduceIte, List.mem_cons, Node.mem_bodiesAll]
            exact .inr ⟨member, present, inside⟩
      have moved : ((sortMembers members).map (Node.sortInner deep)).filter Node.isContainer =
          (members.filter Node.isContainer).map (Node.sortInner deep) := by
        rw [List.filter_map, ← filter_isContainer_sortMembers members]
        exact congrArg _ (List.filter_congr fun member _ => keeps.isContainer member)
      rw [Node.sortTree_container, notes, notes]
      refine .cons ⟨rfl, categories_sorted_perm deep outer⟩ ?_
      -- Only the containers are noted below, and these stand in the order in which they stood.
      rw [← notesAll_filter, moved, ← notesAll_filter _ members, notesAll_eq_flatMap,
        notesAll_eq_flatMap, List.flatMap_map]
      exact forall₂_flatMap fun member present =>
        inner member (List.mem_of_mem_filter present) _

theorem alike_of_steady {deep : Bool} {decls : List Node}
    (steady : ∀ body ∈ Node.bodiesAll deep decls, (Table.of body).Steady) :
    (of (sortTrees deep decls)).Alike (of decls) := by
  rw [of_eq_foldl, of_eq_foldl, Node.sortTrees_eq_map, notesAll_eq_flatMap, notesAll_eq_flatMap,
    List.flatMap_map]
  refine alike_foldl_note (forall₂_flatMap fun decl present => ?_) .nil
  exact alike_notes_sortTree deep decl [] fun body inside =>
    steady body (Node.mem_bodiesAll.mpr ⟨decl, present, inside⟩)

/-- **Counts of sorted declarations.** If in no container that the sort meets an alias leads back to
itself, the sorted declarations are counted under the same qualified names, first met in the same
order, and every category has the same count under each of them. -/
theorem sortTrees_keeps_counts (deep : Bool) (decls : List Node)
    (acyclic : ∀ body ∈ Node.bodiesAll deep decls, (Table.of body).Acyclic) :
    (of (sortTrees deep decls)).Alike (of decls) :=
  alike_of_steady fun body inside => (acyclic body inside).steady

/-- A class that is opened twice, with hidden members and aliases of aliases around another
class. -/
private def reopened : List Node :=
  let opened (members : List Node) : Node := .container ⟨.classDecl none, "A", [], none⟩ members
  [opened [.marker ⟨.hidden, none⟩, .alias ⟨"ccc", "bb", .onInstance, none, none⟩,
      .alias ⟨"bb", "a", .onInstance, none, none⟩, .method ⟨"a", .onInstance, [], none, none⟩,
      .container ⟨.moduleDecl [], "M", [], none⟩
        [.method ⟨"f", .onBoth, [], none, none⟩, .mixin ⟨.includes, "N", [], none⟩],
      .marker ⟨.shown, none⟩, .alias ⟨"dd", "x", .onInstance, none, none⟩],
    opened [.method ⟨"b", .onSelf, [], none, none⟩, .mixin ⟨.extends, "N", [], none⟩]]

theorem sortTrees_keeps_counts_reopened :
    (∀ body ∈ Node.bodiesAll true reopened, (Table.of body).Acyclic) ∧
    (of (sortTrees true reopened)).Alike (of reopened) := by
  have acyclic : ∀ body ∈ Node.bodiesAll true reopened, (Table.of body).Acyclic := by
    intro body inside
    have falls : (Node.bodiesAll true reopened).all fun body =>
        (Table.of body).aliases.all fun placed =>
          placed.decl.target.name.length < placed.decl.newKey.name.length := by decide
    have below := List.all_eq_true.mp (List.all_eq_true.mp falls body inside)
    exact Table.acyclic_of_measure (fun key => key.name.length) fun placed member _ =>
      of_decide_eq_true (below placed member)
  exact ⟨acyclic, sortTrees_keeps_counts true reopened acyclic⟩

end Tally

end MemberOrder
