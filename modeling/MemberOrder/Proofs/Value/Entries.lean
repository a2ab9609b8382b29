import MemberOrder.Value.Writable

/-!
# Entries and closed values

A map that was made of fields is read back as a list of fields (`Entries.field?_ofFields`), and a
field that is put has its new value while the others keep theirs (`Entries.field?_put`). Closing a
value replaces references to what is around it, so it changes nothing where nothing is around
(`Value.close_nil`), and nothing in a value of a JSON text, which has no references
(`Value.close_of_isJson`).
-/

namespace MemberOrder

namespace Value

theorem sameKey_str_iff {key : Value} {name : String} :
    key.sameKey (.str name) ↔ key = .str name := by
  cases key <;> simp [sameKey, wholeNumber?]

mutual

theorem close_nil : (value : Value) → value.close [] = value
  | .list mark items => by rw [close, closeItems_nil items]
  | .map mark entries => by rw [close, closeEntries_nil entries]
  | .pair first second => by rw [close, close_nil first, close_nil second]
  | .null | .bool _ | .int _ | .float _ | .str _ | .bytes _ | .date _ _ | .moment _ _ | .set _ _
  | .back _ _ => by simp [close]

theorem closeItems_nil : (items : List Value) → closeItems [] items = items
  | [] => by rw [closeItems]
  | item :: rest => by rw [closeItems, close_nil item, closeItems_nil rest]

theorem closeEntries_nil : (entries : Entries) → closeEntries [] entries = entries
  | [] => by rw [closeEntries]
  | (key, value) :: rest => by rw [closeEntries, close_nil value, closeEntries_nil rest]

end

mutual

/-- Whether a JSON text can hold a value: it is made of texts, numbers, truth values, null, lists
and maps with texts as keys, and no two places share a part of it. -/
def isJson : Value → Bool
  | .null | .bool _ | .int _ | .float _ | .str _ => true
  | .list none items => areJson items
  | .map none entries => holdJson entries
  | _ => false

def areJson : List Value → Bool
  | [] => true
  | item :: rest => isJson item && areJson rest

def holdJson : Entries → Bool
  | [] => true
  | (.str _, value) :: rest => isJson value && holdJson rest
  | _ => false

end

/-- Whether a value is null, a truth value, a number or a text. -/
def isScalar : Value → Bool
  | .null | .bool _ | .int _ | .float _ | .str _ => true
  | _ => false

theorem isJson_cases {value : Value} (json : value.isJson) :
    (∃ entries, value = .map none entries ∧ holdJson entries) ∨
      (∃ items, value = .list none items ∧ areJson items) ∨ value.isScalar := by
  cases value with
  | map mark entries =>
      cases mark with
      | none => exact .inl ⟨entries, rfl, by simpa only [isJson] using json⟩
      | some _ => simp [isJson] at json
  | list mark items =>
      cases mark with
      | none => exact .inr (.inl ⟨items, rfl, by simpa only [isJson] using json⟩)
      | some _ => simp [isJson] at json
  | null | bool _ | int _ | float _ | str _ => exact .inr (.inr rfl)
  | _ => simp [isJson] at json

theorem areJson_iff {items : List Value} : areJson items ↔ ∀ item ∈ items, item.isJson := by
  induction items with
  | nil => simp [areJson]
  | cons item rest ih => simp [areJson, ih]

theorem holdJson_cons {key value : Value} {rest : Entries} :
    holdJson ((key, value) :: rest) ↔ (∃ name, key = .str name) ∧ value.isJson ∧ holdJson rest := by
  cases key <;> simp [holdJson]

mutual

theorem close_of_isJson (scope : List (Nat × Value)) :
    (value : Value) → value.isJson → value.close scope = value
  | .list none items, json => by
      rw [close, closeItems_of_areJson scope items (by simpa only [isJson] using json)]
  | .map none entries, json => by
      rw [close, closeEntries_of_holdJson scope entries (by simpa only [isJson] using json)]
  | .null, _ | .bool _, _ | .int _, _ | .float _, _ | .str _, _ => by simp [close]

theorem closeItems_of_areJson (scope : List (Nat × Value)) :
    (items : List Value) → areJson items → closeItems scope items = items
  | [], _ => by rw [closeItems]
  | item :: rest, json => by
      simp only [areJson, Bool.and_eq_true] at json
      rw [closeItems, close_of_isJson scope item json.1, closeItems_of_areJson scope rest json.2]

theorem closeEntries_of_holdJson (scope : List (Nat × Value)) :
    (entries : Entries) → holdJson entries → closeEntries scope entries = entries
  | [], _ => by rw [closeEntries]
  | (key, value) :: rest, json => by
      obtain ⟨-, jsonValue, jsonRest⟩ := holdJson_cons.mp json
      rw [closeEntries, close_of_isJson scope value jsonValue,
        closeEntries_of_holdJson scope rest jsonRest]

end

theorem anyExceedsDigits_iff {items : List Value} :
    anyExceedsDigits items ↔ ∃ item ∈ items, item.exceedsDigits := by
  induction items with
  | nil => simp [anyExceedsDigits]
  | cons item rest ih => simp [anyExceedsDigits, ih]

theorem anyEntryExceedsDigits_iff {entries : Entries} :
    anyEntryExceedsDigits entries ↔
      ∃ entry ∈ entries, entry.1.exceedsDigits ∨ entry.2.exceedsDigits := by
  induction entries with
  | nil => simp [anyEntryExceedsDigits]
  | cons entry rest ih => simp [anyEntryExceedsDigits, ih, or_assoc]

theorem text?_eq_some_iff {value : Value} {text : String} :
    value.text? = some text ↔ value = .str text := by
  cases value <;> simp [text?]

/-- Whether a value is a list or a map. -/
def isCollection : Value → Bool
  | .list _ _ | .map _ _ => true
  | _ => false

end Value

/-- Whether no text is a key twice. -/
def Entries.Distinct (entries : Entries) : Prop :=
  (entries.filterMap fun entry => entry.1.text?).Nodup

/-- Whether no map in a value has a text as a key twice. -/
inductive Value.Keyed : Value → Prop
  | list {mark : Mark} {items : List Value} (all : ∀ item ∈ items, Keyed item) :
      Keyed (.list mark items)
  | map {mark : Mark} {entries : Entries} (distinct : entries.Distinct)
      (all : ∀ entry ∈ entries, Keyed entry.2) : Keyed (.map mark entries)
  | other {value : Value} (solid : value.isCollection = false) : Keyed value

namespace Entries

variable {entries : Entries} {name : String} {value : Value}

theorem field?_cons (key given : Value) (rest : Entries) (name : String) :
    field? ((key, given) :: rest) name =
      if key.sameKey (.str name) then some given else rest.field? name := rfl

/-- Fields are found in a map as in the list of them. -/
theorem field?_ofFields (fields : List (String × Value)) (name : String) :
    (ofFields fields).field? name = fields.lookup name := by
  induction fields with
  | nil => rfl
  | cons field rest ih =>
      obtain ⟨key, value⟩ := field
      change field? ((.str key, value) :: ofFields rest) name = _
      rw [field?_cons, List.lookup_cons, ih]
      by_cases same : key = name
      · simp [same, Value.sameKey_str_iff]
      · have other : (name == key) = false := beq_false_of_ne (Ne.symm same)
        simp [same, other, Value.sameKey_str_iff]

theorem mem_of_field? (found : entries.field? name = some value) :
    (.str name, value) ∈ entries := by
  induction entries with
  | nil => cases found
  | cons entry rest ih =>
      obtain ⟨key, given⟩ := entry
      unfold field? at ih found
      rw [get?] at found
      split at found
      · next same =>
          cases found
          rw [Value.sameKey_str_iff.mp same]
          exact List.mem_cons_self
      · exact List.mem_cons_of_mem _ (ih found)

/-- A field that is put has its new value, and every other one the value that it had. -/
theorem field?_put (entries : Entries) (put name : String) (value : Value) :
    (entries.put (.str put) value).field? name =
      if name = put then some value else entries.field? name := by
  induction entries with
  | nil =>
      by_cases same : name = put
      · simp [Entries.put, field?, get?, Value.sameKey_str_iff, same]
      · simp [Entries.put, field?, get?, Value.sameKey_str_iff, same, Ne.symm same]
  | cons entry rest ih =>
      obtain ⟨key, given⟩ := entry
      unfold field? at ih ⊢
      by_cases matching : key = .str put
      · by_cases same : name = put
        · simp [Entries.put, get?, Value.sameKey_str_iff, matching, same]
        · simp [Entries.put, get?, Value.sameKey_str_iff, matching, same, Ne.symm same]
      · by_cases found : key = .str name
        · have other : name ≠ put := fun equal => matching (equal ▸ found)
          simp [Entries.put, get?, Value.sameKey_str_iff, found, other]
        · simp [Entries.put, get?, Value.sameKey_str_iff, matching, found, ih]

theorem isJson_of_field? (json : Value.holdJson entries)
    (found : entries.field? name = some value) : value.isJson := by
  have member := mem_of_field? found
  clear found
  induction entries with
  | nil => cases member
  | cons entry rest ih =>
      obtain ⟨-, jsonValue, jsonRest⟩ := Value.holdJson_cons.mp json
      rcases List.mem_cons.mp member with rfl | later
      · exact jsonValue
      · exact ih jsonRest later

theorem holdJson_put (put : String) (json : Value.holdJson entries) (jsonValue : value.isJson) :
    Value.holdJson (entries.put (.str put) value) := by
  induction entries with
  | nil => exact Value.holdJson_cons.mpr ⟨⟨put, rfl⟩, jsonValue, by simp [Value.holdJson]⟩
  | cons entry rest ih =>
      obtain ⟨key, given⟩ := entry
      obtain ⟨named, jsonGiven, jsonRest⟩ := Value.holdJson_cons.mp json
      rw [Entries.put]
      split
      · exact Value.holdJson_cons.mpr ⟨named, jsonValue, jsonRest⟩
      · exact Value.holdJson_cons.mpr ⟨named, jsonGiven, ih jsonRest⟩

theorem distinct_nil : Distinct [] := List.nodup_nil

theorem distinct_cons {key : Value} : Distinct ((key, value) :: entries) ↔
    (∀ name, key = .str name → ∀ entry ∈ entries, entry.1 ≠ .str name) ∧ entries.Distinct := by
  unfold Distinct
  rw [List.filterMap_cons]
  cases named : key.text? with
  | none =>
      simp only [iff_and_self]
      rintro - name rfl
      cases named
  | some name => simp [← Value.text?_eq_some_iff, named]

/-- A number too long to be written in a field is one in the map. -/
theorem anyEntryExceedsDigits_of_field? (found : entries.field? name = some value)
    (exceeds : value.exceedsDigits) : Value.anyEntryExceedsDigits entries :=
  Value.anyEntryExceedsDigits_iff.mpr ⟨_, mem_of_field? found, .inr exceeds⟩

end Entries

end MemberOrder
