import MemberOrder.Proofs.Json.Readable
import MemberOrder.Value.Writable

/-!
# Copies without shared parts

A value that has a copy without shared parts refers to nothing around it, so closing it changes
nothing (`Value.close_of_unshared`). The fields of a map have copies in the copy of the map
(`Entries.exists_field?_of_unshared`).
-/

namespace MemberOrder

namespace Value

section Copies

variable {scope : List (Nat × Value)}

theorem unsharedItems_cons_eq_some_iff {item : Value} {rest copies : List Value} :
    unsharedItems (item :: rest) = some copies ↔ ∃ copy more, item.unshared = some copy ∧
      unsharedItems rest = some more ∧ copies = copy :: more := by
  rw [unsharedItems]
  cases item.unshared <;> cases unsharedItems rest <;> simp [eq_comm]

theorem unsharedEntries_cons_eq_some_iff {key value : Value} {rest copies : Entries} :
    unsharedEntries ((key, value) :: rest) = some copies ↔ ∃ first second more,
      key.unshared = some first ∧ value.unshared = some second ∧
        unsharedEntries rest = some more ∧ copies = (first, second) :: more := by
  rw [unsharedEntries]
  cases key.unshared <;> cases value.unshared <;> cases unsharedEntries rest <;> simp [eq_comm]

mutual

/-- A value that has a copy is closed. -/
theorem close_of_unshared : (value : Value) → ∀ copy, value.unshared = some copy →
    value.close scope = value
  | .list mark items => fun copy unshared => by
      rw [Value.unshared, Option.map_eq_some_iff] at unshared
      obtain ⟨copies, made, -⟩ := unshared
      rw [close, closeItems_of_unshared items copies made]
  | .map mark entries => fun copy unshared => by
      rw [Value.unshared, Option.map_eq_some_iff] at unshared
      obtain ⟨copies, made, -⟩ := unshared
      rw [close, closeEntries_of_unshared entries copies made]
  | .pair first second => fun copy unshared => by
      rw [Value.unshared] at unshared
      obtain ⟨one, madeOne, unshared⟩ := Option.bind_eq_some_iff.mp unshared
      obtain ⟨two, madeTwo, -⟩ := Option.bind_eq_some_iff.mp unshared
      rw [close, close_of_unshared first one madeOne, close_of_unshared second two madeTwo]
  | .back _ _ => fun copy unshared => by
      rw [Value.unshared] at unshared
      cases unshared
  | .null | .bool _ | .int _ | .float _ | .str _ | .bytes _ | .date _ _ | .moment _ _ | .set _ _ =>
      fun _ _ => by simp [close]

theorem closeItems_of_unshared : (items : List Value) → ∀ copies,
    unsharedItems items = some copies → closeItems scope items = items
  | [] => fun _ _ => by rw [closeItems]
  | item :: rest => fun copies unshared => by
      obtain ⟨copy, more, one, others, -⟩ := unsharedItems_cons_eq_some_iff.mp unshared
      rw [closeItems, close_of_unshared item copy one, closeItems_of_unshared rest more others]

theorem closeEntries_of_unshared : (entries : Entries) → ∀ copies,
    unsharedEntries entries = some copies → closeEntries scope entries = entries
  | [] => fun _ _ => by rw [closeEntries]
  | (key, value) :: rest => fun copies unshared => by
      obtain ⟨-, copy, more, -, one, others, -⟩ := unsharedEntries_cons_eq_some_iff.mp unshared
      rw [closeEntries, close_of_unshared value copy one, closeEntries_of_unshared rest more others]

end

/-- Only a scalar itself has the scalar as its copy. -/
theorem eq_of_unshared {value scalar : Value} (isScalar : scalar.isScalar)
    (copy : value.unshared = some scalar) : value = scalar := by
  cases value with
  | null | bool _ | int _ | float _ | str _ | bytes _ => exact Option.some.inj copy
  | date _ _ | moment _ _ =>
      rw [unshared] at copy
      cases copy
      cases isScalar
  | list _ _ | set _ _ | map _ _ =>
      rw [unshared] at copy
      obtain ⟨_, -, rfl⟩ := Option.map_eq_some_iff.mp copy
      cases isScalar
  | pair _ _ =>
      rw [unshared] at copy
      obtain ⟨_, -, copy⟩ := Option.bind_eq_some_iff.mp copy
      obtain ⟨_, -, copy⟩ := Option.bind_eq_some_iff.mp copy
      cases copy
      cases isScalar
  | back _ _ =>
      rw [unshared] at copy
      cases copy

theorem unshared_eq_str_iff {value : Value} {text : String} :
    value.unshared = some (.str text) ↔ value = .str text := by
  refine ⟨eq_of_unshared rfl, ?_⟩
  rintro rfl
  rfl

theorem unshared_eq_map_iff {value : Value} {copies : Entries} :
    value.unshared = some (.map none copies) ↔
      ∃ mark entries, value = .map mark entries ∧ unsharedEntries entries = some copies := by
  cases value with
  | pair first second =>
      cases one : first.unshared <;> cases two : second.unshared <;> simp [unshared, one, two]
  | _ => simp [unshared, and_assoc]

/-- What a JSON text can hold is its own copy. -/
theorem Readable.unshared_eq {value : Value} (readable : value.Readable) :
    value.unshared = some value := by
  induction readable with
  | null | bool | int | float | str => rfl
  | @list items all ih =>
      have copies : unsharedItems items = some items := by
        clear all
        induction items with
        | nil => rfl
        | cons item rest copied =>
            obtain ⟨first, later⟩ := List.forall_mem_cons.mp ih
            exact unsharedItems_cons_eq_some_iff.mpr ⟨item, rest, first, copied later, rfl⟩
      rw [unshared, copies]
      rfl
  | @map fields distinct all ih =>
      have copies : unsharedEntries (Entries.ofFields fields) = some (Entries.ofFields fields) := by
        clear distinct all
        induction fields with
        | nil => rfl
        | cons field rest copied =>
            obtain ⟨first, later⟩ := List.forall_mem_cons.mp ih
            exact unsharedEntries_cons_eq_some_iff.mpr
              ⟨.str field.1, field.2, Entries.ofFields rest, rfl, first, copied later, rfl⟩
      rw [unshared, copies]
      rfl

end Copies

end Value

namespace Entries

open Value (unsharedEntries)

variable {entries copies : Entries}

/-- The keys of a map of texts are those of its copy. -/
theorem exists_mem_of_unshared (unshared : unsharedEntries entries = some copies)
    {key value : Value} (member : (key, value) ∈ entries) :
    ∃ first second, (first, second) ∈ copies ∧
      key.unshared = some first ∧ value.unshared = some second := by
  induction entries generalizing copies with
  | nil => cases member
  | cons entry rest ih =>
      obtain ⟨first, second, more, one, two, others, rfl⟩ :=
        Value.unsharedEntries_cons_eq_some_iff.mp unshared
      obtain rfl | later := List.mem_cons.mp member
      · exact ⟨first, second, List.mem_cons_self, one, two⟩
      · obtain ⟨first, second, listed, one, two⟩ := ih others later
        exact ⟨first, second, List.mem_cons_of_mem _ listed, one, two⟩

/-- A field of a copy is the copy of a field. -/
theorem exists_field?_of_unshared (unshared : unsharedEntries entries = some copies) {name : String}
    {copy : Value} (found : copies.field? name = some copy) :
    ∃ value, entries.field? name = some value ∧ value.unshared = some copy := by
  induction entries generalizing copies with
  | nil =>
      cases unshared
      cases found
  | cons entry rest ih =>
      obtain ⟨key, value⟩ := entry
      obtain ⟨first, second, more, one, two, others, rfl⟩ :=
        Value.unsharedEntries_cons_eq_some_iff.mp unshared
      have same : key.sameKey (.str name) ↔ first.sameKey (.str name) := by
        rw [Value.sameKey_str_iff, Value.sameKey_str_iff]
        constructor
        · rintro rfl
          exact (Option.some.inj one).symm
        · rintro rfl
          exact Value.unshared_eq_str_iff.mp one
      rw [field?_cons] at found ⊢
      by_cases here : first.sameKey (.str name)
      · rw [if_pos here] at found
        rw [if_pos (same.mpr here)]
        exact ⟨value, rfl, by rw [two, found]⟩
      · rw [if_neg here] at found
        rw [if_neg (here ∘ same.mp)]
        exact ih others found

end Entries

end MemberOrder
