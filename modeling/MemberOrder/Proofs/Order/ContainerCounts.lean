import Mathlib.Algebra.BigOperators.Group.List.Basic
import Mathlib.Algebra.Ring.Int.Defs
import Mathlib.Data.List.Nodup
import MemberOrder.Proofs.Order.SortedCounts
import MemberOrder.Proofs.Tree.Branches

/-!
# What is counted of each container

The notes on declarations are those of the containers among their branches, each under the names on
its branch (`Tally.notesAll_eq_map`). A note adds to the counts of its name, and to no others
(`Tally.get_counts_note`); what measures the counts of all names together grows by what the
categories of the note are worth (`Tally.sum_map_note`).
-/

namespace MemberOrder

namespace Branch

/-- The names of the nodes of a branch that have one, outermost first. -/
def names (branch : Branch) : List String := (branch.above ++ [branch.node]).filterMap Node.name?

def qualifiedName (branch : Branch) : String := String.intercalate "::" branch.names

/-- The categories of the members of the node of a branch. -/
def categories (branch : Branch) : List Category := (categorize branch.node.members).map Prod.fst

theorem length_categories (branch : Branch) :
    branch.categories.length =
      (branch.node.members.filter fun member => !member.isMarker).length := by
  simp only [categories, categorize, List.length_map, ← place_map_member .shown]

end Branch

namespace Node

/-- The containers of a forest with those around them, outer containers first. -/
def containers (nodes : List Node) : List Branch :=
  (branchesAll nodes).filter fun branch => branch.node.isContainer

theorem containers_cons (node : Node) (rest : List Node) :
    containers (node :: rest) =
      (node.branches.filter fun branch => branch.node.isContainer) ++ containers rest := by
  rw [containers, branchesAll, List.filter_append]
  rfl

theorem containers_append (nodes others : List Node) :
    containers (nodes ++ others) = containers nodes ++ containers others := by
  rw [containers, branchesAll_append, List.filter_append]
  rfl

end Node

namespace Counts

variable {counts : Counts}

/-- What is a sum over entries, and grows with a count that is added as with one more entry, is the
sum over tables that are merged. -/
theorem measure_merge {measure : Counts → Int} (empty : measure [] = 0)
    (splits : ∀ entry rest, measure (entry :: rest) = measure [entry] + measure rest)
    (adds : ∀ counts one count, measure (add counts one count) =
      measure counts + measure [(one, count)]) (counts others : Counts) :
    measure (counts.merge others) = measure counts + measure others := by
  induction others generalizing counts with
  | nil => rw [empty, Int.add_zero]; rfl
  | cons entry rest ih =>
      obtain ⟨kept, count⟩ := entry
      have step : counts.merge ((kept, count) :: rest) = (counts.add kept count).merge rest := rfl
      rw [step, ih, adds, splits (kept, count) rest, Int.add_assoc]

theorem entriesFor_merge (counts others : Counts) (category : Category) :
    (counts.merge others).entriesFor category =
      counts.entriesFor category + others.entriesFor category :=
  measure_merge rfl (fun entry rest => by simp [entriesFor])
    (fun counts one count => by simp [entriesFor_add, entriesFor]) counts others

theorem entriesFor_ofList (categories : List Category) (category : Category) :
    (ofList categories).entriesFor category = categories.count category :=
  (measure_ofList (entriesFor category) (fun counts one => entriesFor_add counts one category 1)
    categories).trans (Int.zero_add _)

theorem total_cons (entry : Category × Int) (rest : Counts) :
    total (entry :: rest) = entry.2 + total rest := rfl

theorem total_add (counts : Counts) (one : Category) (count : Int) :
    (counts.add one count).total = counts.total + count := by
  unfold add
  induction counts with
  | nil => simp [set, get, total]
  | cons entry rest ih =>
      obtain ⟨kept, held⟩ := entry
      by_cases found : kept = one
      · subst found
        simp only [set, ↓reduceIte, get_cons, total_cons]
        omega
      · simp only [set, if_neg found, get_cons, if_neg (Ne.symm found), total_cons, ih]
        omega

theorem total_merge (counts others : Counts) :
    (counts.merge others).total = counts.total + others.total :=
  measure_merge rfl (fun entry rest => by simp [total])
    (fun counts one count => by rw [total_add, total_cons]; simp [total]) counts others

theorem total_ofList (categories : List Category) :
    (ofList categories).total = categories.length := by
  have counted (counts : Counts) :
      (categories.foldl (fun counts one => counts.add one 1) counts).total =
        counts.total + categories.length := by
    induction categories generalizing counts with
    | nil => simp
    | cons first rest ih =>
        rw [List.foldl_cons, ih, total_add, List.length_cons]
        omega
  exact (counted []).trans (Int.zero_add _)

/-- Counts that a list of categories can come to: each category has one entry, which is not
zero. -/
structure Proper (counts : Counts) : Prop where
  once : (counts.map Prod.fst).Nodup
  positive : ∀ entry ∈ counts, 0 < entry.2

theorem map_fst_set (counts : Counts) (one : Category) (count : Int) :
    (counts.set one count).map Prod.fst =
      if one ∈ counts.map Prod.fst then counts.map Prod.fst
      else counts.map Prod.fst ++ [one] := by
  induction counts with
  | nil => rfl
  | cons entry rest ih =>
      obtain ⟨kept, held⟩ := entry
      by_cases found : kept = one
      · simp [set, found]
      · simp only [set, if_neg found, List.map_cons, ih, List.mem_cons, Ne.symm found, false_or]
        split <;> rfl

theorem mem_set {one : Category} {count : Int} {entry : Category × Int}
    (inside : entry ∈ counts.set one count) : entry ∈ counts ∨ entry = (one, count) := by
  induction counts with
  | nil => exact .inr (List.mem_singleton.mp inside)
  | cons first rest ih =>
      obtain ⟨kept, held⟩ := first
      by_cases found : kept = one
      · rw [set, if_pos found] at inside
        rcases List.mem_cons.mp inside with rfl | later
        · exact .inr (by rw [found])
        · exact .inl (List.mem_cons_of_mem _ later)
      · rw [set, if_neg found] at inside
        rcases List.mem_cons.mp inside with rfl | later
        · exact .inl List.mem_cons_self
        · exact (ih later).imp_left (List.mem_cons_of_mem _)

namespace Proper

theorem nil : Proper [] := ⟨List.nodup_nil, nofun⟩

theorem get_nonneg (proper : counts.Proper) (category : Category) : 0 ≤ counts.get category := by
  unfold get
  cases found : counts.lookup category with
  | none => exact Int.le_refl 0
  | some count =>
      obtain ⟨before, after, rfl, -⟩ := List.lookup_eq_some_iff.mp found
      exact Int.le_of_lt (proper.positive (category, count)
        (List.mem_append_right _ List.mem_cons_self))

theorem add (proper : counts.Proper) (one : Category) {count : Int} (positive : 0 < count) :
    (counts.add one count).Proper := by
  constructor
  · rw [Counts.add, map_fst_set]
    split
    · exact proper.once
    · next absent =>
        rw [← List.concat_eq_append]
        exact proper.once.concat absent
  · intro entry inside
    rcases mem_set inside with inside | rfl
    · exact proper.positive entry inside
    · exact Int.add_pos_of_nonneg_of_pos (proper.get_nonneg one) positive

theorem merge {others : Counts} (proper : counts.Proper) (other : others.Proper) :
    (counts.merge others).Proper := by
  have merged : ∀ positive : ∀ entry ∈ others, 0 < entry.2, (counts.merge others).Proper := by
    clear other
    induction others generalizing counts with
    | nil => exact fun _ => proper
    | cons entry rest ih =>
        intro positive
        exact ih (proper.add entry.1 (positive entry List.mem_cons_self))
          fun other later => positive other (List.mem_cons_of_mem _ later)
  exact merged other.positive

theorem ofList (categories : List Category) : (ofList categories).Proper := by
  have counted {counts : Counts} (proper : counts.Proper) :
      (categories.foldl (fun counts one => counts.add one 1) counts).Proper := by
    induction categories generalizing counts with
    | nil => exact proper
    | cons first rest ih => exact ih (proper.add first Int.one_pos)
  exact counted nil

end Proper

end Counts

namespace Tally

theorem notesAll_eq_map_of_forall {nodes : List Node} (path : List String)
    (each : ∀ node ∈ nodes, notes path node =
      (node.branches.filter fun branch => branch.node.isContainer).map
        fun branch => (String.intercalate "::" (path ++ branch.names), branch.categories)) :
    notesAll path nodes = (Node.containers nodes).map
      fun branch => (String.intercalate "::" (path ++ branch.names), branch.categories) := by
  induction nodes with
  | nil => rfl
  | cons node rest ih =>
      rw [notesAll, each node List.mem_cons_self,
        ih fun other later => each other (List.mem_cons_of_mem _ later), Node.containers_cons,
        List.map_append]

theorem notes_eq_map (node : Node) (path : List String) :
    notes path node = (node.branches.filter fun branch => branch.node.isContainer).map
      fun branch => (String.intercalate "::" (path ++ branch.names), branch.categories) := by
  induction node using Node.inductionOn generalizing path with
  | leaf node leaf =>
      rw [notes_of_leaf path leaf, Node.branches_eq, Node.members_of_leaf leaf]
      simp [Node.branchesAll, leaf]
  | container head members ih =>
      have inner := notesAll_eq_map_of_forall (path ++ [head.name])
        fun member inside => ih member inside _
      have deeper (branch : Branch) : path ++ (branch.under (.container head members)).names =
          path ++ [head.name] ++ branch.names := by
        rw [List.append_assoc]
        rfl
      rw [notes, inner, Node.branches, List.filter_cons_of_pos rfl, List.filter_map,
        List.map_cons, List.map_map]
      simp only [Function.comp_def, deeper]
      rfl

/-- The notes are on the containers, each under the names of its branch. -/
theorem notesAll_eq_map (path : List String) (nodes : List Node) :
    notesAll path nodes = (Node.containers nodes).map
      fun branch => (String.intercalate "::" (path ++ branch.names), branch.categories) :=
  notesAll_eq_map_of_forall path fun node _ => notes_eq_map node path

theorem of_eq_foldl_containers (decls : List Node) :
    of decls = ((Node.containers decls).map fun branch =>
      (branch.qualifiedName, branch.categories)).foldl note [] := by
  rw [of_eq_foldl, notesAll_eq_map]
  rfl

/-! ### Names -/

variable {tally : Tally}

theorem names_note (tally : Tally) (given : Note) :
    (tally.note given).map Prod.fst =
      if given.1 ∈ tally.map Prod.fst then tally.map Prod.fst
      else tally.map Prod.fst ++ [given.1] := by
  obtain ⟨name, categories⟩ := given
  unfold note
  induction tally with
  | nil => rfl
  | cons entry rest ih =>
      obtain ⟨kept, counts⟩ := entry
      by_cases found : kept = name
      · simp [add, found]
      · simp only [add, if_neg found, List.map_cons, ih, List.mem_cons, Ne.symm found, false_or]
        split <;> rfl

theorem nodup_names_note (once : (tally.map Prod.fst).Nodup) (given : Note) :
    ((tally.note given).map Prod.fst).Nodup := by
  rw [names_note]
  split
  · exact once
  · next absent =>
      rw [← List.concat_eq_append]
      exact once.concat absent

theorem mem_names_note {given : Note} {name : String} :
    name ∈ (tally.note given).map Prod.fst ↔ name ∈ tally.map Prod.fst ∨ name = given.1 := by
  rw [names_note]
  split
  · next present => exact ⟨.inl, fun named => named.elim id fun same => same ▸ present⟩
  · rw [List.mem_append, List.mem_singleton]

theorem nodup_names_foldl (notes : List Note) (once : (tally.map Prod.fst).Nodup) :
    ((notes.foldl note tally).map Prod.fst).Nodup := by
  induction notes generalizing tally with
  | nil => exact once
  | cons given rest ih => exact ih (nodup_names_note once given)

theorem mem_names_foldl {notes : List Note} {name : String} :
    name ∈ (notes.foldl note tally).map Prod.fst ↔
      name ∈ tally.map Prod.fst ∨ ∃ given ∈ notes, name = given.1 := by
  induction notes generalizing tally with
  | nil => simp
  | cons given rest ih =>
      rw [List.foldl_cons, ih, mem_names_note, or_assoc]
      simp only [List.mem_cons, exists_eq_or_imp]

/-! ### Counts -/

/-- The counts under a name. -/
def counts (tally : Tally) (name : String) : Counts := (tally.lookup name).getD []

theorem counts_cons (entry : String × Counts) (rest : Tally) (name : String) :
    counts (entry :: rest) name = if entry.1 = name then entry.2 else rest.counts name := by
  obtain ⟨kept, counts⟩ := entry
  unfold Tally.counts
  rw [List.lookup_cons]
  by_cases same : kept = name
  · simp [same]
  · simp [same, beq_false_of_ne (Ne.symm same)]

/-- A note adds to the counts under its own name. -/
theorem get_counts_note (tally : Tally) (given : Note) (name : String) (category : Category) :
    ((tally.note given).counts name).get category = (tally.counts name).get category +
      if given.1 = name then (given.2.count category : Int) else 0 := by
  obtain ⟨named, categories⟩ := given
  unfold note
  induction tally with
  | nil =>
      simp only [add, counts_cons]
      split
      · rw [Counts.get_ofList]
        exact (Int.zero_add _).symm
      · rfl
  | cons entry rest ih =>
      obtain ⟨kept, held⟩ := entry
      by_cases found : kept = named
      · subst found
        simp only [add, ↓reduceIte, counts_cons]
        split
        · exact Counts.get_merge_ofList held categories category
        · exact (Int.add_zero _).symm
      · simp only [add, if_neg found, counts_cons]
        split
        · next same => rw [if_neg fun also => found (same.trans also.symm), Int.add_zero]
        · exact ih

theorem get_counts_foldl (notes : List Note) (tally : Tally) (name : String)
    (category : Category) :
    ((notes.foldl note tally).counts name).get category = (tally.counts name).get category +
      ((notes.filter fun given => given.1 = name).map
        fun given => (given.2.count category : Int)).sum := by
  induction notes generalizing tally with
  | nil => exact (Int.add_zero _).symm
  | cons given rest ih =>
      rw [List.foldl_cons, ih, get_counts_note, List.filter_cons]
      split <;> simp_all [Int.add_assoc]

/-! ### Sums over all names -/

section Measures

variable {measure : Counts → Int} {worth : List Category → Int}
  (fresh : ∀ categories, measure (.ofList categories) = worth categories)
  (grows : ∀ counts categories,
    measure (counts.merge (.ofList categories)) = measure counts + worth categories)

include fresh grows

/-- What grows with the counts of a name by what the categories are worth, grows by this with every
note. -/
theorem sum_map_note (tally : Tally) (given : Note) :
    ((tally.note given).map fun entry => measure entry.2).sum =
      (tally.map fun entry => measure entry.2).sum + worth given.2 := by
  obtain ⟨name, categories⟩ := given
  unfold note
  induction tally with
  | nil => simp [add, fresh]
  | cons entry rest ih =>
      obtain ⟨kept, held⟩ := entry
      by_cases found : kept = name
      · simp only [add, if_pos found, List.map_cons, List.sum_cons, grows]
        omega
      · simp only [add, if_neg found, List.map_cons, List.sum_cons, ih]
        omega

theorem sum_map_foldl (notes : List Note) (tally : Tally) :
    ((notes.foldl note tally).map fun entry => measure entry.2).sum =
      (tally.map fun entry => measure entry.2).sum +
        (notes.map fun given => worth given.2).sum := by
  induction notes generalizing tally with
  | nil => simp
  | cons given rest ih =>
      rw [List.foldl_cons, ih, sum_map_note fresh grows, List.map_cons, List.sum_cons,
        Int.add_assoc]

theorem sum_map_of (decls : List Node) :
    ((of decls).map fun entry => measure entry.2).sum =
      ((Node.containers decls).map fun branch => worth branch.categories).sum := by
  rw [of_eq_foldl_containers, sum_map_foldl fresh grows, List.map_map]
  exact Int.zero_add _

end Measures

theorem get_totals (tally : Tally) (category : Category) :
    tally.totals.get category =
      (tally.map fun entry => entry.2.entriesFor category).sum := by
  have summed (totals : Counts) :
      (tally.foldl (fun totals entry => totals.merge entry.2) totals).get category =
        totals.get category + (tally.map fun entry => entry.2.entriesFor category).sum := by
    induction tally generalizing totals with
    | nil => simp
    | cons entry rest ih =>
        rw [List.foldl_cons, ih, Counts.get_merge, List.map_cons, List.sum_cons, Int.add_assoc]
  exact (summed []).trans (Int.zero_add _)

theorem proper_of_mem_note {tally : Tally} (proper : ∀ entry ∈ tally, entry.2.Proper)
    (given : Note) : ∀ entry ∈ tally.note given, entry.2.Proper := by
  obtain ⟨name, categories⟩ := given
  unfold note
  induction tally with
  | nil =>
      intro entry inside
      rw [List.mem_singleton.mp inside]
      exact .ofList categories
  | cons first rest ih =>
      obtain ⟨kept, held⟩ := first
      have start := proper _ List.mem_cons_self
      have later := fun entry inside => proper entry (List.mem_cons_of_mem _ inside)
      rw [add]
      split
      · exact List.forall_mem_cons.mpr ⟨start.merge (.ofList categories), later⟩
      · exact List.forall_mem_cons.mpr ⟨start, ih later⟩

theorem proper_of_mem_foldl (notes : List Note) {tally : Tally}
    (proper : ∀ entry ∈ tally, entry.2.Proper) :
    ∀ entry ∈ notes.foldl note tally, entry.2.Proper := by
  induction notes generalizing tally with
  | nil => exact proper
  | cons given rest ih => exact ih (proper_of_mem_note proper given)

theorem proper_of_mem_of {decls : List Node} : ∀ entry ∈ of decls, entry.2.Proper := by
  rw [of_eq_foldl]
  exact proper_of_mem_foldl _ nofun

end Tally

end MemberOrder
