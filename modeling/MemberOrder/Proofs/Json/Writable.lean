import MemberOrder.Proofs.Json.LongRows
import MemberOrder.Proofs.Json.RoundTrip
import MemberOrder.Value.Writable

/-!
# Values that are written

JSON has a form for texts, truth values, null, numbers that are not too long, and for lists, pairs
and maps of such, with keys of such. All other values, and collections that hold themselves, cannot
be written (`Json.exists_write_iff`). What can be written is spelled as something that a JSON text
can hold (`Json.readable_respelled`).
-/

namespace MemberOrder

namespace Value

/-- Whether a key has a text that stands for it in a JSON text. -/
def isWritableKey (key : Value) : Bool := key.isScalar && !key.exceedsDigits

mutual

/-- Whether a value can be written. -/
def isWritable : Value → Bool
  | .null | .bool _ | .float _ | .str _ => true
  | .int n => !(Value.int n).exceedsDigits
  | .list _ items => areWritable items
  | .pair first second => first.isWritable && second.isWritable
  | .map _ entries => holdWritable entries
  | .bytes _ | .date _ _ | .moment _ _ | .set _ _ | .back _ _ => false

def areWritable : List Value → Bool
  | [] => true
  | item :: rest => item.isWritable && areWritable rest

def holdWritable : Entries → Bool
  | [] => true
  | (key, value) :: rest => key.isWritableKey && value.isWritable && holdWritable rest

end

theorem areWritable_iff {items : List Value} :
    areWritable items ↔ ∀ item ∈ items, item.isWritable := by
  induction items with
  | nil => simp [areWritable]
  | cons item rest ih => simp [areWritable, ih]

theorem holdWritable_iff {entries : Entries} : holdWritable entries ↔
    ∀ entry ∈ entries, entry.1.isWritableKey ∧ entry.2.isWritable := by
  induction entries with
  | nil => simp [holdWritable]
  | cons entry rest ih => simp [holdWritable, ih]

mutual

/-- What can be written has no whole number that is too long. -/
theorem exceedsDigits_of_isWritable : (value : Value) →
    (value.isWritable → value.exceedsDigits = false)
  | .null | .bool _ | .float _ | .str _ => by simp [exceedsDigits]
  | .int n => by
      intro writable
      rw [isWritable] at writable
      exact Bool.not_eq_eq_eq_not.mp writable
  | .list _ items => by
      intro writable
      rw [exceedsDigits]
      exact anyExceedsDigits_of_areWritable items writable
  | .pair first second => by
      intro writable
      obtain ⟨left, right⟩ := Bool.and_eq_true_iff.mp writable
      rw [exceedsDigits, exceedsDigits_of_isWritable first left,
        exceedsDigits_of_isWritable second right, Bool.or_self]
  | .map _ entries => by
      intro writable
      rw [exceedsDigits]
      exact anyEntryExceedsDigits_of_holdWritable entries writable
  | .bytes _ | .date _ _ | .moment _ _ | .set _ _ | .back _ _ => by simp [isWritable]

theorem anyExceedsDigits_of_areWritable : (items : List Value) →
    (areWritable items → anyExceedsDigits items = false)
  | [] => fun _ => rfl
  | item :: rest => by
      intro writable
      obtain ⟨own, others⟩ := Bool.and_eq_true_iff.mp writable
      rw [anyExceedsDigits, exceedsDigits_of_isWritable item own,
        anyExceedsDigits_of_areWritable rest others, Bool.or_self]

theorem anyEntryExceedsDigits_of_holdWritable : (entries : Entries) →
    (holdWritable entries → anyEntryExceedsDigits entries = false)
  | [] => fun _ => rfl
  | (key, value) :: rest => by
      intro writable
      obtain ⟨own, others⟩ := Bool.and_eq_true_iff.mp writable
      obtain ⟨name, held⟩ := Bool.and_eq_true_iff.mp own
      have short : key.exceedsDigits = false := by
        simpa using (Bool.and_eq_true_iff.mp name).2
      rw [anyEntryExceedsDigits, short, exceedsDigits_of_isWritable value held,
        anyEntryExceedsDigits_of_holdWritable rest others]
      rfl

end

end Value

namespace Json

section Faults

variable {layout : Layout} {first second draft : Draft}

theorem fault_append_iff :
    (first ++ second).fault = none ↔ first.fault = none ∧ second.fault = none := by
  change (first.append second).fault = none ↔ _
  rw [Draft.append]
  cases ended : first.fault with
  | none => simp
  | some fault => simp [ended]

theorem fault_itemDraft_iff (before : List Char) (item : Value) :
    (itemDraft before item draft).fault = none ↔ draft.fault = none := by
  have usual : (Draft.done before ++ draft).fault = none ↔ draft.fault = none :=
    fault_append_iff.trans (and_iff_right rfl)
  unfold itemDraft
  split
  · split
    · exact .rfl
    · exact usual
  · exact usual

theorem fault_ofExcept_iff {made : Except WriteFault String} :
    (Draft.ofExcept made).fault = none ↔ ∃ text, made = .ok text := by
  cases made with
  | error fault => simp [Draft.ofExcept, Draft.failed]
  | ok text => simp [Draft.ofExcept, Draft.done]

theorem exists_wholeText_iff {n : Int} : (∃ text, wholeText n = .ok text) ↔ Short (.int n) := by
  have size : (toString n).length - (if n < 0 then 1 else 0) =
      (Nat.toDigits 10 n.natAbs).length := by
    rw [← String.length_toList, toList_toString_int, List.length_append, signText]
    by_cases negative : n < 0 <;> simp [negative]
  have few : (Nat.toDigits 10 n.natAbs).length ≤ 4300 ↔ n.natAbs < Nat.pow 10 4300 := by
    -- The limit stays a variable, or the power would be computed.
    obtain ⟨limit, same⟩ : ∃ limit, limit = 4300 := ⟨_, rfl⟩
    rw [← same]
    exact Nat.length_toDigits_le_iff (by decide) (by omega)
  unfold Short
  rw [Value.exceedsDigits, decide_eq_false_iff_not, Nat.not_le, ← few, wholeText]
  simp only [size]
  by_cases long : 4300 < (Nat.toDigits 10 n.natAbs).length
  · simp [long]
  · simp [long, Nat.not_lt.mp long]

theorem fault_keyDraft_iff (before : List Char) (key : Value) :
    (keyDraft layout before key).fault = none ↔ key.isWritableKey := by
  have named : (∃ name, keyText key = .ok name) ↔ key.isWritableKey := by
    cases key with
    | int n =>
        rw [keyText, exists_wholeText_iff, Short, Value.isWritableKey]
        simp [Value.isScalar]
    | _ => simp [keyText, Value.isWritableKey, Value.isScalar, Value.exceedsDigits]
  rw [← named]
  unfold keyDraft
  cases keyText key with
  | error fault => simp [Draft.failed]
  | ok name => simp [Draft.done]

mutual

/-- A draft ends without a fault where the value can be written. -/
theorem fault_valueDraft_iff (level : Nat) : (value : Value) →
    ((valueDraft layout level value).fault = none ↔ value.isWritable)
  | .null | .bool _ | .float _ | .str _ => by simp [valueDraft, Draft.done, Value.isWritable]
  | .int n => by
      rw [valueDraft, fault_ofExcept_iff, exists_wholeText_iff, Short, Value.isWritable]
      simp
  | .list _ [] => by simp [valueDraft, Draft.done, Value.isWritable, Value.areWritable]
  | .list _ (item :: rest) => by
      rw [valueDraft, fault_append_iff, fault_append_iff, fault_itemDraft_iff,
        fault_valueDraft_iff (level + 1) item, fault_itemDrafts_iff (level + 1) rest,
        Value.isWritable, Value.areWritable, Bool.and_eq_true]
      exact and_iff_left rfl
  | .pair first second => by
      rw [valueDraft, fault_append_iff, fault_append_iff, fault_itemDraft_iff, fault_itemDraft_iff,
        fault_valueDraft_iff (level + 1) first, fault_valueDraft_iff (level + 1) second,
        Value.isWritable, Bool.and_eq_true]
      exact and_iff_left rfl
  | .map _ [] => by simp [valueDraft, Draft.done, Value.isWritable, Value.holdWritable]
  | .map _ ((key, value) :: rest) => by
      rw [valueDraft, fault_append_iff, fault_append_iff, fault_append_iff, fault_append_iff,
        fault_keyDraft_iff, fault_valueDraft_iff (level + 1) value,
        fault_entryDrafts_iff (level + 1) rest, Value.isWritable, Value.holdWritable,
        Bool.and_eq_true, Bool.and_eq_true]
      simp [Draft.done]
  | .back _ _ | .bytes _ | .date _ _ | .moment _ _ | .set _ _ => by
      simp [valueDraft, Draft.failed, Value.isWritable]

theorem fault_itemDrafts_iff (level : Nat) : (items : List Value) →
    ((itemDrafts layout level items).fault = none ↔ Value.areWritable items)
  | [] => by simp [itemDrafts, Draft.done, Value.areWritable]
  | item :: rest => by
      rw [itemDrafts, fault_append_iff, fault_itemDraft_iff, fault_valueDraft_iff level item,
        fault_itemDrafts_iff level rest, Value.areWritable, Bool.and_eq_true]

theorem fault_entryDrafts_iff (level : Nat) : (entries : Entries) →
    ((entryDrafts layout level entries).fault = none ↔ Value.holdWritable entries)
  | [] => by simp [entryDrafts, Draft.done, Value.holdWritable]
  | (key, value) :: rest => by
      rw [entryDrafts, fault_append_iff, fault_append_iff, fault_keyDraft_iff,
        fault_valueDraft_iff level value, fault_entryDrafts_iff level rest, Value.holdWritable,
        Bool.and_eq_true, Bool.and_eq_true]

end

variable {value : Value}

/-- **What is written.** A value has a text exactly if it can be written. -/
theorem exists_write_iff : (∃ text, write layout value = .ok text) ↔ value.isWritable := by
  rw [← @fault_valueDraft_iff layout 0 value, write]
  cases ended : (valueDraft layout 0 value).fault <;> simp

end Faults

section Spelling

variable {value : Value}

/-- What can be written is spelled as what a JSON text can hold. -/
theorem readable_respelled (writable : value.isWritable) : value.respelled.Readable := by
  obtain ⟨text, written⟩ := exists_write_iff.mpr writable
  exact readable_of_read (@read_of_write .document _ _ rfl written).1

theorem short_respelled (writable : value.isWritable) : Short value.respelled := by
  obtain ⟨text, written⟩ := exists_write_iff.mpr writable
  have settled := settles_read (text ++ "\n")
  rw [(@read_of_write .document _ _ rfl written).1] at settled
  exact settled.good_of_ok

end Spelling

end Json

end MemberOrder
