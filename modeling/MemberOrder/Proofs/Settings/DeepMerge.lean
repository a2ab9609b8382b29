import MemberOrder.Proofs.Settings.SharedMaps

/-!
# Deep merging of settings

What any number of documents come to when they are merged (`Settings.mergeAll_deep`): each key of
any of them, where it first occurs, and under it the last value, or if this is a map the last maps
in a row, merged in their turn.
-/

namespace MemberOrder

namespace Settings

/-- Entries are what documents come to. -/
structure DeepMerge (documents : List Value) (merged : Entries) : Prop where
  /-- The keys are those of all documents as they first occur. -/
  keys : merged.keys = (documents.flatMap fun document => document.entries.keys).eraseDupsBy
    fun key before => before.sameKey key
  /-- The last value of a key stays as it is, if it is no map. -/
  last : ∀ key value, (heldUnder documents key).getLast? = some value →
    value.isMapping = false → merged.get? key = some value
  /-- Else the last maps in a row are merged. -/
  run : ∀ key value, (heldUnder documents key).getLast? = some value → value.isMapping →
    ∃ mark inner, merged.get? key = some (.map mark inner) ∧
      mergeAll ((heldUnder documents key).rtakeWhile Value.isMapping) = some inner
  /-- Merging one document after the other into the first one gives the same. -/
  pairwise : ∀ first rest, documents = first :: rest →
    rest.foldlM (fun merged document => mergeAll [.map none merged, document]) first.entries =
      some merged
  /-- Documents that hold nothing add nothing, wherever they stand. -/
  neutral : ∀ before after empty, documents = before ++ after → empty.isPresent = false →
    mergeAll (before ++ empty :: after) = some merged
  /-- There are maps that represent the documents. -/
  kept : ∃ maps places, RepresentsAll maps (fun _ => True) places documents
  /-- Maps that represent the documents stay as they are, and a new one represents what these come
  to. -/
  unaltered : ∃ depth, ∀ enough, depth ≤ enough → ∀ (maps : Maps) (among : Nat → Prop) places,
    RepresentsAll maps among places documents →
      ∃ extended made, mergeMaps enough maps places = some (extended, made) ∧ maps <+: extended ∧
        Represents extended (fun place => among place ∨ maps.length ≤ place) (.back made true)
          (.map none merged)

variable {documents : List Value}

theorem mergeAll_insert (before after : List Value) {empty : Value}
    (absent : empty.isPresent = false) :
    mergeAll (before ++ empty :: after) = mergeAll (before ++ after) := by
  rw [mergeAll, mergeAll, List.foldlM_append, List.foldlM_append]
  refine congrArg (List.foldlM mergeInto [] before >>= ·) (funext fun earlier => ?_)
  rw [List.foldlM_cons, mergeInto_of_not_present absent]
  rfl

/-- Merging two documents at a time merges the entries of the later into those of the earlier. -/
theorem foldlM_mergeAll_pair (nested : ∀ document ∈ documents, document.Nested ∧ document.isMapping)
    {earlier : Entries} (apart : earlier.Apart) :
    documents.foldlM (fun merged document => mergeAll [.map none merged, document]) earlier =
      some (mergeEntries earlier (documents.flatMap Value.entries)) := by
  induction documents generalizing earlier with
  | nil => rw [List.flatMap_nil, mergeEntries]; rfl
  | cons document rest ih =>
      obtain ⟨⟨nestedFirst, mapping⟩, others⟩ := List.forall_mem_cons.mp nested
      obtain ⟨mark, entries, rfl, -, -⟩ := nestedFirst.exists_map mapping
      have pair : mergeAll [.map none earlier, .map mark entries] =
          some (mergeEntries earlier entries) := by
        rw [← List.singleton_append, mergeAll_concat, mergeAll_singleton none apart]
        rfl
      rw [List.foldlM_cons, pair, List.flatMap_cons, mergeEntries_append]
      exact ih others (apart_mergeEntries apart entries)

theorem nested_of_heldUnder (nested : ∀ document ∈ documents, document.Nested ∧ document.isMapping)
    (key : Value) : ∀ value ∈ heldUnder documents key, value.Nested := by
  intro value member
  obtain ⟨document, listed, found⟩ := List.mem_filterMap.mp member
  obtain ⟨mark, entries, rfl, -, inner⟩ := (nested document listed).1.exists_map
    (nested document listed).2
  obtain ⟨entry, isEntry, -, rfl⟩ := Entries.mem_of_get? found
  exact inner entry isEntry

/-- **Deep merge.** Any number of documents that are maps, nested to any depth, are merged into
entries with the keys of all of them, each with the last value, or with the last maps in a row
merged in turn. -/
theorem mergeAll_deep (nested : ∀ document ∈ documents, document.Nested ∧ document.isMapping) :
    ∃ merged, mergeAll documents = some merged ∧ DeepMerge documents merged := by
  have maps : ∀ document ∈ documents, ∃ mark entries, document = .map mark entries ∧
      Entries.Apart entries := by
    intro document member
    obtain ⟨mark, entries, same, apart, -⟩ :=
      (nested document member).1.exists_map (nested document member).2
    exact ⟨mark, entries, same, apart⟩
  have apart : ∀ document ∈ documents, document.entries.Apart := by
    intro document member
    obtain ⟨mark, entries, rfl, apart⟩ := maps document member
    exact apart
  have value (key : Value) : (mergeEntries [] (documents.flatMap Value.entries)).get? key =
      settled none (heldUnder documents key) := get?_mergeEntries_flatMap apart [] key
  have merged : mergeAll documents = some (mergeEntries [] (documents.flatMap Value.entries)) :=
    foldlM_mergeInto (fun document member =>
      (maps document member).imp fun _ => .imp fun _ => And.left) []
  refine ⟨_, merged, ?_, ?_, ?_, ?_, ?_, ?_, ?_⟩
  · rw [keys_mergeEntries, Entries.keys, List.map_flatMap]
    rfl
  · intro key last isLast plain
    rw [value]
    exact (settled_run (nested_of_heldUnder nested key) isLast).1 plain
  · intro key last isLast mapping
    rw [value]
    exact (settled_run (nested_of_heldUnder nested key) isLast).2 mapping
  · rintro first rest rfl
    obtain ⟨apartFirst, -⟩ := List.forall_mem_cons.mp apart
    rw [foldlM_mergeAll_pair (List.forall_mem_cons.mp nested).2 apartFirst, List.flatMap_cons,
      mergeEntries_append, mergeEntries_nil apartFirst]
  · rintro before after empty rfl absent
    rw [mergeAll_insert before after absent, merged]
  · obtain ⟨maps, places, -, shows⟩ := exists_representsAll nested []
    exact ⟨maps, places, shows⟩
  · obtain ⟨depth, within⟩ := Value.exists_nestedWithin_all fun document member =>
      (nested document member).1.exists_depth
    refine ⟨depth + 1, fun enough more before among places shows => ?_⟩
    obtain ⟨deeper, rfl⟩ : ∃ deeper, enough = deeper + 1 := ⟨enough - 1, by omega⟩
    exact mergeMaps_spec shows fun document member => (within document member).mono (by omega)

/-- Four documents with sections, of which one is empty and one has a number for a section. -/
def layers : List Value :=
  [.map none [(.str "sort", .map none [(.str "recursive", .bool true)]),
      (.str "output", .map none [(.str "indent", .int 2), (.str "format", .str "rbs")])],
    .map none [],
    .map none [(.str "sort", .int 1), (.str "output", .map none [(.str "indent", .int 4)])],
    .map none [(.str "sort", .map none [(.str "depth", .map none [])])]]

/-- The section that a number had replaced begins anew, and the other one has the keys of both. -/
theorem mergeAll_deep_layers :
    mergeAll layers = some [(.str "sort", .map none [(.str "depth", .map none [])]),
        (.str "output", .map none [(.str "indent", .int 4), (.str "format", .str "rbs")])] ∧
      ∃ merged, mergeAll layers = some merged ∧ DeepMerge layers merged := by
  refine ⟨?_, mergeAll_deep ?_⟩
  · simp [mergeAll, layers, mergeInto, mergeEntries, mergeValue, Entries.get?, Entries.put,
      Value.sameKey, Value.wholeNumber?]
  · simpa [layers, Value.nested_map_iff, Value.isMapping, Entries.Apart, Value.sameKey,
      Value.wholeNumber?] using ⟨⟨.other rfl, .other rfl, .other rfl⟩, .other rfl, .other rfl⟩

end Settings

end MemberOrder
