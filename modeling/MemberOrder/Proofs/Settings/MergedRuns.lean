import MemberOrder.Proofs.Settings.Merging
import MemberOrder.Proofs.Value.Keys
import Mathlib.Data.List.DropRight

/-!
# Documents merged at once

Merging any number of documents puts their entries one after the other
(`Settings.foldlM_mergeInto`). So the keys are those of all documents as they first occur, and what
a key has depends on its values in the documents only: the last one, if that is no map, else the
last maps in a row, merged (`Settings.settled_run`).
-/

namespace MemberOrder

namespace Value

/-- Whether a value is a map, or stands for one around it. -/
def isMapping : Value → Bool
  | .map _ _ | .back _ true => true
  | _ => false

/-- The entries of a map. -/
def entries : Value → Entries
  | .map _ entries => entries
  | _ => []

/-- A value in which no map has one key twice and none is within itself, nor are the maps that are
the values of its keys. -/
inductive Nested : Value → Prop
  | map {mark : Mark} {entries : Entries} (apart : entries.Apart)
      (inner : ∀ entry ∈ entries, Nested entry.2) : Nested (.map mark entries)
  | other {value : Value} (plain : value.isMapping = false) : Nested value

variable {value : Value}

theorem nested_map_iff {mark : Mark} {entries : Entries} : (Value.map mark entries).Nested ↔
    Entries.Apart entries ∧ ∀ entry ∈ entries, entry.2.Nested := by
  constructor
  · intro nested
    cases nested with
    | map apart inner => exact ⟨apart, inner⟩
    | other plain => cases plain
  · exact fun ⟨apart, inner⟩ => .map apart inner

theorem Nested.exists_map (nested : value.Nested) (mapping : value.isMapping) :
    ∃ mark entries, value = .map mark entries ∧ Entries.Apart entries ∧
      ∀ entry ∈ entries, entry.2.Nested := by
  cases nested with
  | map apart inner => exact ⟨_, _, rfl, apart, inner⟩
  | other plain => exact absurd mapping (by simp [plain])

end Value

namespace Settings

variable {earlier later : Entries} {key value : Value}

section Entries

theorem mergeEntries_append (earlier first second : Entries) :
    mergeEntries earlier (first ++ second) = mergeEntries (mergeEntries earlier first) second := by
  induction first generalizing earlier with
  | nil => rw [List.nil_append, mergeEntries]
  | cons entry rest ih => rw [List.cons_append, mergeEntries, mergeEntries, ih]

/-- Entries with other keys go to the end as they are. -/
theorem mergeEntries_of_apart (apart : (earlier ++ later).Apart) :
    mergeEntries earlier later = earlier ++ later := by
  induction later generalizing earlier with
  | nil => rw [mergeEntries, List.append_nil]
  | cons entry rest ih =>
      obtain ⟨key, value⟩ := entry
      have absent : ∀ entry ∈ earlier, ¬ entry.1.sameKey key := fun entry member =>
        (List.pairwise_append.mp apart).2.2 entry member _ List.mem_cons_self
      rw [mergeEntries, Entries.get?_eq_none_iff.mpr absent, mergeValue_none,
        Entries.put_of_absent absent, ih (by rwa [List.append_assoc]), List.append_assoc]
      rfl

theorem mergeEntries_nil (apart : later.Apart) : mergeEntries [] later = later :=
  mergeEntries_of_apart apart

theorem apart_mergeEntries (apart : earlier.Apart) (later : Entries) :
    (mergeEntries earlier later).Apart := by
  induction later generalizing earlier with
  | nil => rwa [mergeEntries]
  | cons entry rest ih =>
      rw [mergeEntries]
      exact ih (Entries.apart_put apart _ _)

/-- The value of a key is the later one merged into the earlier one, or the earlier one. -/
theorem get?_mergeEntries (apart : later.Apart) (earlier : Entries) (key : Value) :
    (mergeEntries earlier later).get? key = mergeField (earlier.get? key) (later.get? key) := by
  induction later generalizing earlier with
  | nil => rw [mergeEntries]; rfl
  | cons entry rest ih =>
      obtain ⟨given, value⟩ := entry
      obtain ⟨differs, others⟩ := Entries.apart_cons.mp apart
      rw [mergeEntries, ih others, Entries.get?_put, Entries.get?_cons]
      by_cases same : given.sameKey key
      · have absent : Entries.get? rest key = none := by
          rw [Entries.get?_eq_none_iff]
          intro entry member found
          exact differs entry member (Value.sameKey_trans same (Value.sameKey_comm ▸ found))
        rw [absent, if_pos same, if_pos same, Entries.get?_congr same]
        rfl
      · rw [if_neg same, if_neg same]

/-- The keys of merged entries are those of both as they first occur. -/
theorem keys_mergeEntries (earlier later : Entries) :
    (mergeEntries earlier later).keys = List.eraseDupsBy.loop
      (fun key before => before.sameKey key) later.keys earlier.keys.reverse := by
  induction later generalizing earlier with
  | nil => rw [mergeEntries]; exact (List.reverse_reverse _).symm
  | cons entry rest ih =>
      obtain ⟨key, value⟩ := entry
      have next : Entries.keys ((key, value) :: rest) = key :: Entries.keys rest := rfl
      rw [mergeEntries, ih, Entries.keys_put, next, List.eraseDupsBy.loop, List.any_reverse]
      split <;> simp [*]

end Entries

section Documents

variable {documents : List Value}

/-- The values that documents have under a key. -/
def heldUnder (documents : List Value) (key : Value) : List Value :=
  documents.filterMap fun document => document.entries.get? key

theorem heldUnder_cons (document : Value) (rest : List Value) (key : Value) :
    heldUnder (document :: rest) key =
      (document.entries.get? key).toList ++ heldUnder rest key := by
  rw [heldUnder, List.filterMap_cons, heldUnder]
  cases document.entries.get? key <;> rfl

/-- The value of a key after values that documents have under it, given the one before. -/
def settled (before : Option Value) (held : List Value) : Option Value :=
  held.foldl (fun before value => some (mergeValue before value)) before

theorem mergeInto_map (earlier : Entries) (mark : Mark) (later : Entries) :
    mergeInto earlier (.map mark later) = some (mergeEntries earlier later) := rfl

theorem mergeInto_of_not_present {empty : Value} (absent : empty.isPresent = false)
    (earlier : Entries) : mergeInto earlier empty = some earlier := by
  cases empty with
  | map mark entries =>
      obtain rfl : entries = [] := by simpa [Value.isPresent] using absent
      rw [mergeInto_map, mergeEntries]
  | _ => simp [mergeInto, absent]

/-- Documents that are maps are merged as if their entries stood in one. -/
theorem foldlM_mergeInto
    (maps : ∀ document ∈ documents, ∃ mark entries, document = .map mark entries)
    (earlier : Entries) : documents.foldlM mergeInto earlier =
      some (mergeEntries earlier (documents.flatMap Value.entries)) := by
  induction documents generalizing earlier with
  | nil => rw [List.flatMap_nil, mergeEntries]; rfl
  | cons document rest ih =>
      obtain ⟨⟨mark, entries, rfl⟩, others⟩ := List.forall_mem_cons.mp maps
      rw [List.foldlM_cons, mergeInto_map, List.flatMap_cons, mergeEntries_append]
      exact ih others _

theorem get?_mergeEntries_flatMap (apart : ∀ document ∈ documents, document.entries.Apart)
    (earlier : Entries) (key : Value) :
    (mergeEntries earlier (documents.flatMap Value.entries)).get? key =
      settled (earlier.get? key) (heldUnder documents key) := by
  induction documents generalizing earlier with
  | nil => rw [List.flatMap_nil, mergeEntries]; rfl
  | cons document rest ih =>
      obtain ⟨first, others⟩ := List.forall_mem_cons.mp apart
      rw [List.flatMap_cons, mergeEntries_append, ih others, get?_mergeEntries first,
        heldUnder_cons]
      cases document.entries.get? key <;> rfl

end Documents

section Runs

variable {held : List Value}

theorem settled_concat (before : Option Value) (held : List Value) (value : Value) :
    settled before (held ++ [value]) = some (mergeValue (settled before held) value) := by
  rw [settled, List.foldl_append]
  rfl

theorem mergeValue_of_not_mapping {value : Value} (plain : value.isMapping = false)
    (before : Option Value) : mergeValue before value = value := by
  cases value with
  | map _ _ => cases plain
  | _ => simp [mergeValue]

theorem mergeValue_after_not_mapping {before : Value} (plain : before.isMapping = false)
    (value : Value) : mergeValue (some before) value = value := by
  cases value with
  | map _ _ =>
      cases before with
      | map _ _ => cases plain
      | _ => simp [mergeValue]
  | _ => simp [mergeValue]

theorem mergeAll_concat (documents : List Value) (document : Value) :
    mergeAll (documents ++ [document]) =
      (mergeAll documents).bind fun earlier => mergeInto earlier document := by
  rw [mergeAll, List.foldlM_append]
  refine congrArg ((mergeAll documents).bind ·) (funext fun earlier => ?_)
  exact bind_pure _

theorem mergeAll_singleton (mark : Mark) {entries : Entries} (apart : entries.Apart) :
    mergeAll [.map mark entries] = some entries := by
  rw [← List.nil_append [_], mergeAll_concat]
  exact congrArg some (mergeEntries_nil apart)

/-- **What values under one key come to.** The last one, if it is no map; else the last maps in a
row, merged. -/
theorem settled_run (nested : ∀ value ∈ held, value.Nested) (last : held.getLast? = some value) :
    (value.isMapping = false → settled none held = some value) ∧
      (value.isMapping → ∃ mark inner, settled none held = some (.map mark inner) ∧
        mergeAll (held.rtakeWhile Value.isMapping) = some inner) := by
  induction held using List.reverseRecOn generalizing value with
  | nil => cases last
  | append_singleton before next ih =>
      obtain rfl : next = value := by simpa using last
      rw [settled_concat]
      refine ⟨fun plain => by rw [mergeValue_of_not_mapping plain], fun mapping => ?_⟩
      have nestedBefore : ∀ value ∈ before, value.Nested := fun value member =>
        nested value (List.mem_append_left _ member)
      obtain ⟨mark, later, rfl, apart, -⟩ :=
        (nested next (List.mem_append_right _ List.mem_cons_self)).exists_map mapping
      rw [List.rtakeWhile_concat_pos _ _ _ mapping]
      -- The last map is merged into what was there before, if that is a map itself.
      cases lastBefore : before.getLast? with
      | none =>
          obtain rfl := List.getLast?_eq_none_iff.mp lastBefore
          exact ⟨mark, later, rfl, mergeAll_singleton mark apart⟩
      | some previous =>
          obtain ⟨stays, runs⟩ := ih nestedBefore lastBefore
          by_cases mappingBefore : previous.isMapping
          · obtain ⟨markBefore, earlier, settledBefore, merged⟩ := runs mappingBefore
            rw [settledBefore, mergeAll_concat, merged]
            exact ⟨none, _, rfl, rfl⟩
          · simp only [Bool.not_eq_true] at mappingBefore
            have noRun : before.rtakeWhile Value.isMapping = [] := by
              refine List.rtakeWhile_eq_nil_iff.mpr fun present => ?_
              rw [List.getLast?_eq_some_getLast present] at lastBefore
              rw [Option.some.inj lastBefore, mappingBefore]
              exact Bool.false_ne_true
            rw [stays mappingBefore, noRun, mergeValue_after_not_mapping mappingBefore]
            exact ⟨mark, later, rfl, mergeAll_singleton mark apart⟩

end Runs

end Settings

end MemberOrder
