import Mathlib.Algebra.BigOperators.Group.List.Basic
import Mathlib.Algebra.Ring.Int.Defs
import MemberOrder.Order.Sorting
import MemberOrder.Proofs.Order.ContainerCounts
import MemberOrder.Proofs.Tree.Handlers
import MemberOrder.Proofs.Value.Entries

/-!
# Statistics of declarations

The counter of a walk keeps the names of the containers that it is inside, pushes a name on the way
into a container and takes it away on the way out; it ends up with the names that it started with
and with the counts of all containers (`Counter.foldl_calls`). The reports show these counts:
`Sorting.object` as they were met and `Tally.report` in category order, which is the same mapping
(`Tally.sameMap_objects`), and the rows of the table are the sums of its values
(`Tally.sum_payload`). All of this is put together in `Tally.of_conserves`.
-/

namespace MemberOrder

/-! ### The counter -/

/-- What a counter holds on the way: the names of the containers around it, and the counts so
far. -/
structure Counter where
  names : List String
  tally : Tally

namespace Counter

/-- The visitor of a counter has handlers for containers, both ways. -/
def visitor : Visitor := ⟨Transformer.containerTags, false, Transformer.containerTags, []⟩

/-- A container is counted on the way in, under the names around it and its own. -/
def step (counter : Counter) : Call → Counter
  | .visit (.container head members) =>
    let names := counter.names ++ [head.name]
    ⟨names, counter.tally.add (String.intercalate "::" names)
      (.ofList ((categorize members).map Prod.fst))⟩
  | .leave _ => ⟨counter.names.dropLast, counter.tally⟩
  | _ => counter

def run (counter : Counter) (steps : List Step) : Counter :=
  (steps.filterMap visitor.call?).foldl step counter

theorem run_append (counter : Counter) (steps others : List Step) :
    counter.run (steps ++ others) = (counter.run steps).run others := by
  rw [run, List.filterMap_append, List.foldl_append]
  rfl

theorem visitor_skips (node : Node) : visitor.skips node = false := by
  unfold Visitor.skips visitor Node.hasTag
  cases node.tag? <;> simp

theorem call?_enter (node : Node) :
    visitor.call? (.enter node) = if node.isContainer then some (.visit node) else none := by
  rw [← Transformer.hasTag_containerTags]
  rfl

theorem call?_leave (node : Node) :
    visitor.call? (.leave node) = if node.isContainer then some (.leave node) else none := by
  rw [← Transformer.hasTag_containerTags]
  rfl

theorem run_walkAll_of_forall {nodes : List Node}
    (each : ∀ node ∈ nodes, ∀ counter : Counter, counter.run (node.walk visitor.skips) =
      ⟨counter.names, Tally.visit counter.names counter.tally node⟩) (counter : Counter) :
    counter.run (Node.walkAll visitor.skips nodes) =
      ⟨counter.names, Tally.visitAll counter.names counter.tally nodes⟩ := by
  induction nodes generalizing counter with
  | nil => rfl
  | cons node rest ih =>
      rw [Node.walkAll, run_append, each node List.mem_cons_self,
        ih fun other later => each other (List.mem_cons_of_mem _ later)]
      rfl

/-- After a node the names are those from before it, and the node has been counted under them. -/
theorem run_walk (node : Node) (counter : Counter) :
    counter.run (node.walk visitor.skips) =
      ⟨counter.names, Tally.visit counter.names counter.tally node⟩ := by
  induction node using Node.inductionOn generalizing counter with
  | leaf node leaf =>
      have silent : (node.walk visitor.skips).filterMap visitor.call? = [] := by
        simp [Node.walk_eq, Node.members_of_leaf leaf, Node.walkAll, call?_enter, call?_leave, leaf]
      rw [run, silent]
      cases node <;> first | rfl | cases leaf
  | container head members ih =>
      have entered := run_walkAll_of_forall ih (counter.step (.visit (.container head members)))
      have shape : (Node.container head members).walk visitor.skips =
          [.enter (.container head members)] ++ Node.walkAll visitor.skips members ++
            [.leave (.container head members)] := by
        rw [Node.walk_eq, visitor_skips]
        rfl
      have pushed : counter.run [.enter (.container head members)] =
          counter.step (.visit (.container head members)) := by
        rw [run, List.filterMap_cons, call?_enter]
        rfl
      rw [shape, run_append, run_append, pushed, entered, run, List.filterMap_cons, call?_leave]
      simp [step, Node.isContainer, Tally.visit]

/-- The walk of a counter through declarations leaves its names as they were, and counts every
container under the names around it. -/
theorem run_walkAll (counter : Counter) (nodes : List Node) :
    counter.run (Node.walkAll visitor.skips nodes) =
      ⟨counter.names, Tally.visitAll counter.names counter.tally nodes⟩ :=
  run_walkAll_of_forall (fun node _ => run_walk node) counter

theorem foldl_calls (decls : List Node) :
    (visitor.calls decls).foldl step ⟨[], []⟩ = ⟨[], Tally.of decls⟩ :=
  run_walkAll ⟨[], []⟩ decls

end Counter

/-! ### The reports -/

/-- Fields that are renamed apart are found by their new names. -/
theorem lookup_map_of_injective {α β γ δ : Type} [DecidableEq α] [DecidableEq γ] {key : α → γ}
    (apart : Function.Injective key) (change : β → δ) (entries : List (α × β)) (name : α) :
    (entries.map fun entry => (key entry.1, change entry.2)).lookup (key name) =
      (entries.lookup name).map change := by
  induction entries with
  | nil => rfl
  | cons entry rest ih =>
      obtain ⟨kept, value⟩ := entry
      rw [List.map_cons, List.lookup_cons, List.lookup_cons, ih]
      by_cases same : name = kept
      · simp [same]
      · simp [beq_false_of_ne same, beq_false_of_ne fun equal => same (apart equal)]

namespace Category

theorem ofLabel?_label (category : Category) : ofLabel? category.label = some category := by
  cases category <;> decide

theorem label_injective : Function.Injective label := by
  intro first second same
  have found := congrArg ofLabel? same
  rwa [ofLabel?_label, ofLabel?_label, Option.some.injEq] at found

theorem mem_all (category : Category) : category ∈ all := by
  cases category <;> decide

end Category

namespace Value

/-- The value that a map has under a text. -/
def field? : Value → String → Option Value
  | .map _ entries, name => Entries.field? entries name
  | _, _ => none

/-- The sum of the whole numbers in a map. -/
def sum : Value → Int
  | .map _ entries => (entries.map fun entry => entry.2.wholeNumber?.getD 0).sum
  | _ => 0

/-- Whether two values are maps from texts that are equal as mappings: no text is a key twice, both
have the same keys, in any order, and the values of each key are the `same`. -/
def SameMap (same : Value → Value → Prop) (first second : Value) : Prop :=
  ∃ fields others, first = .map none (Entries.ofFields fields) ∧
    second = .map none (Entries.ofFields others) ∧
    (fields.map Prod.fst).Nodup ∧ (others.map Prod.fst).Nodup ∧
    ∀ name, Option.Rel same (fields.lookup name) (others.lookup name)

end Value

namespace Counts

variable {counts : Counts}

theorem lookup_present (counts : Counts) (category : Category) :
    counts.present.lookup category =
      if counts.get category = 0 then none else some (counts.get category) := by
  have among (categories : List Category) :
      (categories.filterMap fun one =>
        if counts.get one = 0 then none else some (one, counts.get one)).lookup category =
        if category ∈ categories ∧ counts.get category ≠ 0 then some (counts.get category)
        else none := by
    induction categories with
    | nil => simp
    | cons first rest ih =>
        rw [List.filterMap_cons]
        by_cases same : category = first
        · subst same
          by_cases zero : counts.get category = 0 <;> simp [zero, ih]
        · by_cases zero : counts.get first = 0
          · simp [zero, ih, same]
          · simp [zero, ih, same, List.lookup_cons, beq_false_of_ne same]
  rw [present, among]
  simp [Category.mem_all]

theorem map_fst_present (counts : Counts) :
    counts.present.map Prod.fst =
      Category.all.filter fun category => counts.get category ≠ 0 := by
  rw [present, List.map_filterMap, ← List.filterMap_eq_filter]
  congr 1
  funext category
  by_cases zero : counts.get category = 0 <;> simp [zero, Option.guard]

theorem nodup_present (counts : Counts) : (counts.present.map Prod.fst).Nodup := by
  rw [map_fst_present]
  exact List.Nodup.filter _ (by decide)

/-- Counts that are no zeros are shown as they are. -/
theorem Proper.lookup_present (proper : counts.Proper) (category : Category) :
    counts.present.lookup category = counts.lookup category := by
  rw [Counts.lookup_present, get]
  cases found : counts.lookup category with
  | none => rfl
  | some count =>
      obtain ⟨before, after, rfl, -⟩ := List.lookup_eq_some_iff.mp found
      have positive : 0 < count := proper.positive (category, count)
        (List.mem_append_right _ List.mem_cons_self)
      simp [Int.ne_of_gt positive]

theorem entriesFor_eq_get (once : (counts.map Prod.fst).Nodup) (category : Category) :
    counts.entriesFor category = counts.get category := by
  induction counts with
  | nil => rfl
  | cons entry rest ih =>
      obtain ⟨kept, held⟩ := entry
      rw [List.map_cons, List.nodup_cons] at once
      rw [entriesFor, get_cons, ih once.2]
      by_cases same : category = kept
      · subst same
        have absent : rest.lookup category = none := List.lookup_eq_none_iff.mpr fun entry inside =>
          bne_iff_ne.mpr fun equal => once.1 (List.mem_map.mpr ⟨entry, inside, equal.symm⟩)
        simp [get, absent]
      · simp [same]

/-- The number of all members counted is the sum over the categories. -/
theorem total_eq_sum_entriesFor (counts : Counts) :
    counts.total = (Category.all.map fun category => counts.entriesFor category).sum := by
  induction counts with
  | nil => rfl
  | cons entry rest ih =>
      obtain ⟨kept, held⟩ := entry
      have own : (Category.all.map fun category => if category = kept then held else 0).sum =
          held := by
        cases kept <;> simp [Category.all]
      simp only [total_cons, entriesFor, List.sum_map_add, own, ih]

theorem total_present (proper : counts.Proper) : counts.present.total = counts.total := by
  have among (categories : List Category) :
      total (categories.filterMap fun one =>
        if counts.get one = 0 then none else some (one, counts.get one)) =
        (categories.map counts.get).sum := by
    induction categories with
    | nil => rfl
    | cons first rest ih =>
        rw [List.filterMap_cons, List.map_cons, List.sum_cons, ← ih]
        by_cases zero : counts.get first = 0
        · simp [zero]
        · simp [zero, total_cons]
  rw [present, among, total_eq_sum_entriesFor]
  simp only [entriesFor_eq_get proper.once]

end Counts

namespace Tally

/-- A map of labels and counts has the counts of the categories under their labels. -/
theorem lookup_labels (counts : Counts) (category : Category) :
    (counts.map fun (category, count) => (category.label, Value.int count)).lookup
      category.label = (counts.lookup category).map Value.int :=
  lookup_map_of_injective Category.label_injective Value.int counts category

theorem nodup_labels {counts : Counts} (once : (counts.map Prod.fst).Nodup) :
    ((counts.map fun (category, count) => (category.label, Value.int count)).map
      Prod.fst).Nodup := by
  have named := once.map Category.label_injective
  rwa [List.map_map] at named ⊢

/-- Counts are the same mapping as they were met and in category order. -/
theorem sameMap_countsObject {counts : Counts} (proper : counts.Proper) :
    Value.SameMap Eq (countsObject counts) (countsObject counts.present) := by
  refine ⟨_, _, rfl, rfl, nodup_labels proper.once, nodup_labels counts.nodup_present,
    fun name => ?_⟩
  by_cases labels : ∃ category : Category, category.label = name
  · obtain ⟨category, rfl⟩ := labels
    rw [lookup_labels, lookup_labels, proper.lookup_present]
    cases counts.lookup category with
    | none => exact .none
    | some count => exact .some rfl
  · have unnamed (counts : Counts) : (counts.map fun (category, count) =>
        (category.label, Value.int count)).lookup name = none := by
      refine List.lookup_eq_none_iff.mpr fun field inside => ?_
      obtain ⟨entry, -, rfl⟩ := List.mem_map.mp inside
      exact bne_iff_ne.mpr fun same => labels ⟨entry.1, same.symm⟩
    rw [unnamed, unnamed]
    exact .none

theorem lookup_object (entries : Tally) (change : Counts → Value) (name : String) :
    (entries.map fun (name, counts) => (name, change counts)).lookup name =
      (entries.lookup name).map change :=
  lookup_map_of_injective Function.injective_id change entries name

/-- The counts under all names are the same mapping of mappings in both reports. -/
theorem sameMap_objects {tally : Tally} (once : (tally.map Prod.fst).Nodup)
    (proper : ∀ entry ∈ tally, entry.2.Proper) :
    Value.SameMap (Value.SameMap Eq) tally.object
      (object (tally.map fun (name, counts) => (name, counts.present))) := by
  refine ⟨_, _, rfl, rfl, ?_, ?_, fun name => ?_⟩
  · rwa [List.map_map]
  · rwa [List.map_map, List.map_map]
  · have kept : (tally.map fun (name, counts) => (name, countsObject counts)).lookup name =
        (tally.lookup name).map countsObject := lookup_object tally countsObject name
    have shown : ((tally.map fun (name, counts) => (name, counts.present)).map
        fun (name, counts) => (name, countsObject counts)).lookup name =
        (tally.lookup name).map (countsObject ∘ Counts.present) := by
      rw [List.map_map]
      exact lookup_object tally (countsObject ∘ Counts.present) name
    rw [kept, shown]
    cases found : tally.lookup name with
    | none => exact .none
    | some counts =>
        obtain ⟨before, after, rfl, -⟩ := List.lookup_eq_some_iff.mp found
        exact .some (sameMap_countsObject
          (proper (name, counts) (List.mem_append_right _ List.mem_cons_self)))

theorem sum_countsObject (counts : Counts) : (countsObject counts).sum = counts.total := by
  simp only [countsObject, Value.sum, Entries.ofFields, List.map_map]
  rfl

theorem lookup_of_mem {tally : Tally} (once : (tally.map Prod.fst).Nodup)
    {entry : String × Counts} (inside : entry ∈ tally) :
    tally.lookup entry.1 = some entry.2 := by
  obtain ⟨before, after, rfl⟩ := List.append_of_mem inside
  refine List.lookup_eq_some_iff.mpr ⟨before, after, rfl, fun earlier held => ?_⟩
  rw [List.map_append, List.nodup_append] at once
  exact bne_iff_ne.mpr fun same => once.2.2 earlier.1 (List.mem_map_of_mem held) entry.1
    List.mem_cons_self same.symm

/-- A row has the sum of what the report says under its name. -/
theorem sum_payload {tally : Tally} (once : (tally.map Prod.fst).Nodup)
    (proper : ∀ entry ∈ tally, entry.2.Proper) :
    ∀ row ∈ tally.rows, ((object (tally.map fun (name, counts) =>
      (name, counts.present))).field? row.1).map Value.sum = some row.2.1 := by
  intro row listed
  obtain ⟨⟨name, counts⟩, inside, rfl⟩ := List.mem_map.mp listed
  have found : (tally.map fun (name, counts) => (name, countsObject counts.present)).lookup name =
      some (countsObject counts.present) :=
    (lookup_object tally (countsObject ∘ Counts.present) name).trans
      (congrArg _ (lookup_of_mem once inside))
  rw [object, Value.field?, Entries.field?_ofFields, List.map_map]
  refine (congrArg (Option.map Value.sum) found).trans ?_
  rw [Option.map_some, sum_countsObject, Counts.total_present (proper _ inside)]

/-! ### Everything that is counted -/

/-- What it is to count declarations. -/
structure Faithful (decls : List Node) (tally : Tally) : Prop where
  /-- Every name has one entry. -/
  once : (tally.map Prod.fst).Nodup
  /-- The names are those of the containers, each joined with those around it. -/
  named : ∀ name, name ∈ tally.map Prod.fst ↔
    ∃ branch ∈ Node.containers decls, branch.qualifiedName = name
  /-- Under a name a category is counted as often as members of all containers with that name have
  it. -/
  counted : ∀ name category, (tally.counts name).get category =
    (((Node.containers decls).filter fun branch => branch.qualifiedName = name).map
      fun branch => (branch.categories.count category : Int)).sum
  /-- Only what occurs is counted, and each category in one entry. -/
  proper : ∀ entry ∈ tally, entry.2.Proper
  /-- All counts together come to the number of members of all containers that are no markers. -/
  total : (tally.map fun entry => entry.2.total).sum = ((Node.containers decls).map fun branch =>
    ((branch.node.members.filter fun member => !member.isMarker).length : Int)).sum
  /-- In the totals a category is counted as often as members of all containers have it. -/
  totals : ∀ category, tally.totals.get category = ((Node.containers decls).map fun branch =>
    (branch.categories.count category : Int)).sum

theorem faithful_of (decls : List Node) : Faithful decls (of decls) where
  once := by
    rw [of_eq_foldl]
    exact nodup_names_foldl _ List.nodup_nil
  named name := by
    rw [of_eq_foldl_containers, mem_names_foldl]
    simp [eq_comm]
  counted name category := by
    rw [of_eq_foldl_containers, get_counts_foldl, List.filter_map, List.map_map]
    exact Int.zero_add _
  proper := proper_of_mem_of
  total := by
    rw [sum_map_of Counts.total_ofList fun counts categories => by
      rw [Counts.total_merge, Counts.total_ofList]]
    simp only [Branch.length_categories]
  totals category := by
    rw [get_totals]
    exact sum_map_of (fun categories => Counts.entriesFor_ofList categories category)
      (fun counts categories => by rw [Counts.entriesFor_merge, Counts.entriesFor_ofList]) decls

/-- **Statistics are conserved.** Every container is counted under its qualified name and nothing
else is, which is also what a counter with a stack of names comes to. The counts of two lists of
declarations add up. The reports agree: what is told of a sorted document is the same mapping as the
report on a file, and each row of the table is the sum of what the report says under its name. -/
theorem of_conserves (decls : List Node) :
    Faithful decls (of decls) ∧
    (∀ others name category, ((of (decls ++ others)).counts name).get category =
      ((of decls).counts name).get category + ((of others).counts name).get category) ∧
    (∀ deep source path, ∃ kept shown,
      (Sorting.of deep source decls).object.field? "declarations" = some kept ∧
      ((of decls).report path).field? "declarations" = some shown ∧
      Value.SameMap (Value.SameMap Eq) kept shown ∧
      ∀ row ∈ (of decls).rows, (shown.field? row.1).map Value.sum = some row.2.1) ∧
    (Counter.visitor.calls decls).foldl Counter.step ⟨[], []⟩ = ⟨[], of decls⟩ := by
  have faithful := faithful_of decls
  refine ⟨faithful, fun others name category => ?_, fun deep source path => ?_,
    Counter.foldl_calls decls⟩
  · rw [faithful.counted, (faithful_of others).counted, (faithful_of (decls ++ others)).counted,
      Node.containers_append, List.filter_append, List.map_append, List.sum_append]
  · exact ⟨_, _, rfl, rfl, sameMap_objects faithful.once faithful.proper,
      sum_payload faithful.once faithful.proper⟩

end Tally

end MemberOrder
