import MemberOrder.Proofs.Value.Entries
import MemberOrder.Settings.Merge

/-!
# Merged entries

A field of merged entries is the later one merged into the earlier one, and the earlier one where
there is no later one (`Settings.field?_mergeEntries`). Merging makes no key that was not there
before, and no text a key twice.
-/

namespace MemberOrder

namespace Value

theorem str_sameKey_iff {key : Value} {name : String} :
    (Value.str name).sameKey key ↔ key = .str name := by
  cases key with
  | str word => exact beq_iff_eq.trans (eq_comm.trans (by simp))
  | _ => simp [sameKey, wholeNumber?]

end Value

namespace Entries

variable {entries : Entries} {name : String} {key value : Value}

/-- A key that is no text takes no field. -/
theorem field?_put_of_ne_text (entries : Entries) (value : Value)
    (other : key.text? = none) : (entries.put key value).field? name = entries.field? name := by
  have noName (word : String) : key ≠ .str word := fun same => by rw [same] at other; cases other
  have unnamed : ¬ key.sameKey (.str name) := fun same =>
    noName name (Value.sameKey_str_iff.mp same)
  induction entries with
  | nil =>
      change (if key.sameKey (.str name) then some value else none) = none
      rw [if_neg unnamed]
  | cons entry rest ih =>
      obtain ⟨given, held⟩ := entry
      rw [put]
      split
      · next taken =>
          have elsewhere : ¬ given.sameKey (.str name) := fun same => by
            rw [Value.sameKey_str_iff.mp same, Value.str_sameKey_iff] at taken
            exact noName name taken
          rw [field?_cons, field?_cons, if_neg elsewhere, if_neg elsewhere]
      · rw [field?_cons, field?_cons, ih]

/-- What all keys have in common they still have after one that has it too is put. -/
theorem forall_key_put {holds : Value → Prop} (all : ∀ entry ∈ entries, holds entry.1)
    (new : holds key) : ∀ entry ∈ entries.put key value, holds entry.1 := by
  induction entries with
  | nil => exact List.forall_mem_singleton.mpr new
  | cons entry rest ih =>
      obtain ⟨first, others⟩ := List.forall_mem_cons.mp all
      rw [put]
      split
      · exact List.forall_mem_cons.mpr ⟨first, others⟩
      · exact List.forall_mem_cons.mpr ⟨first, ih others⟩

theorem distinct_put (distinct : entries.Distinct) : (entries.put key value).Distinct := by
  induction entries with
  | nil => exact distinct_cons.mpr ⟨fun _ _ _ => by simp, distinct_nil⟩
  | cons entry rest ih =>
      obtain ⟨given, held⟩ := entry
      obtain ⟨apart, others⟩ := distinct_cons.mp distinct
      rw [put]
      split
      · exact distinct_cons.mpr ⟨apart, others⟩
      · next differs =>
          refine distinct_cons.mpr ⟨fun word same => ?_, ih others⟩
          have unnamed : key ≠ .str word := fun equal => by
            rw [same, Value.str_sameKey_iff] at differs
            exact differs equal
          exact @forall_key_put _ _ _ (· ≠ .str word) (apart word same) unnamed

theorem distinct_ofFields {fields : List (String × Value)} :
    (ofFields fields).Distinct ↔ (fields.map Prod.fst).Nodup := by
  rw [Distinct, ofFields, List.filterMap_map, ← List.filterMap_eq_map]
  rfl

end Entries

namespace Settings

variable {earlier later : Entries} {name : String}

/-- The field that merging gives: the later one merged into the earlier one, or the earlier one. -/
def mergeField (earlier later : Option Value) : Option Value :=
  (later.map (mergeValue earlier)).or earlier

@[simp] theorem mergeField_none (earlier : Option Value) : mergeField earlier none = earlier := rfl

@[simp] theorem mergeField_some (earlier : Option Value) (value : Value) :
    mergeField earlier (some value) = some (mergeValue earlier value) := rfl

@[simp] theorem mergeValue_none (value : Value) : mergeValue none value = value := by
  cases value <;> simp [mergeValue]

theorem field?_mergeEntries (distinct : later.Distinct) (earlier : Entries) (name : String) :
    (mergeEntries earlier later).field? name =
      mergeField (earlier.field? name) (later.field? name) := by
  induction later generalizing earlier with
  | nil => rw [mergeEntries]; rfl
  | cons entry rest ih =>
      obtain ⟨key, value⟩ := entry
      obtain ⟨apart, others⟩ := Entries.distinct_cons.mp distinct
      rw [mergeEntries, ih others, Entries.field?_cons]
      cases text : key.text? with
      | none =>
          have unnamed : ¬ key.sameKey (.str name) := fun same => by
            rw [Value.sameKey_str_iff.mp same] at text
            cases text
          rw [Entries.field?_put_of_ne_text _ _ text, if_neg unnamed]
      | some word =>
          obtain rfl := Value.text?_eq_some_iff.mp text
          rw [Entries.field?_put]
          by_cases same : name = word
          · subst same
            have absent : Entries.field? rest name = none := by
              cases found : Entries.field? rest name with
              | none => rfl
              | some other => exact absurd rfl (apart name rfl _ (Entries.mem_of_field? found))
            rw [absent, if_pos rfl, if_pos (Value.sameKey_str_iff.mpr rfl)]
            rfl
          · have unnamed : ¬ (Value.str word).sameKey (.str name) := fun equal =>
              same (by cases Value.sameKey_str_iff.mp equal; rfl)
            rw [if_neg same, if_neg unnamed]

theorem forall_key_mergeEntries {holds : Value → Prop} {later : Entries}
    (before : ∀ entry ∈ earlier, holds entry.1) (added : ∀ entry ∈ later, holds entry.1) :
    ∀ entry ∈ mergeEntries earlier later, holds entry.1 := by
  induction later generalizing earlier with
  | nil => rw [mergeEntries]; exact before
  | cons entry rest ih =>
      obtain ⟨first, others⟩ := List.forall_mem_cons.mp added
      rw [mergeEntries]
      exact ih (Entries.forall_key_put before first) others

theorem distinct_mergeEntries (distinct : earlier.Distinct) (later : Entries) :
    (mergeEntries earlier later).Distinct := by
  induction later generalizing earlier with
  | nil => rw [mergeEntries]; exact distinct
  | cons entry rest ih =>
      rw [mergeEntries]
      exact ih (Entries.distinct_put distinct)

end Settings

end MemberOrder
