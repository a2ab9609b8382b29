import MemberOrder.Proofs.Json.Reading
import MemberOrder.Proofs.Number.Magnitude
import MemberOrder.Proofs.Value.Entries

/-!
# What a JSON text can hold

The values that reading gives have texts as keys, no key twice, and one form of what is no number
(`Json.readable_of_read`).
-/

namespace MemberOrder

/-- A value that a JSON text can hold. -/
inductive Value.Readable : Value → Prop
  | null : Readable .null
  | bool (b : Bool) : Readable (.bool b)
  | int (n : Int) : Readable (.int n)
  | float {x : Number.Binary64} (canonical : x.isNaN → x = .nan) : Readable (.float x)
  | str (s : String) : Readable (.str s)
  | list {items : List Value} (all : ∀ item ∈ items, Readable item) : Readable (.list none items)
  | map {fields : List (String × Value)} (distinct : (fields.map Prod.fst).Nodup)
      (all : ∀ field ∈ fields, Readable field.2) : Readable (.map none (Entries.ofFields fields))

namespace Value

theorem Readable.isJson {value : Value} (readable : value.Readable) : value.isJson := by
  induction readable with
  | null | bool | int | float | str => rfl
  | list all ih => simpa only [Value.isJson, areJson_iff] using ih
  | @map fields distinct all ih =>
      rw [Value.isJson]
      clear distinct all
      induction fields with
      | nil => rfl
      | cons field rest step =>
          exact holdJson_cons.mpr ⟨⟨field.1, rfl⟩, ih field List.mem_cons_self,
            step fun other later => ih other (List.mem_cons_of_mem _ later)⟩

/-- Fields with one of them given its value, in its place or at the end. -/
def putField (name : String) (value : Value) : List (String × Value) → List (String × Value)
  | [] => [(name, value)]
  | (key, given) :: rest =>
    if key = name then (name, value) :: rest else (key, given) :: putField name value rest

theorem put_ofFields (fields : List (String × Value)) (name : String) (value : Value) :
    Entries.put (Entries.ofFields fields) (.str name) value =
      Entries.ofFields (putField name value fields) := by
  induction fields with
  | nil => rfl
  | cons field rest ih =>
      obtain ⟨key, given⟩ := field
      change Entries.put ((.str key, given) :: Entries.ofFields rest) (.str name) value = _
      rw [Entries.put, putField]
      by_cases same : key = name
      · simp [same, sameKey_str_iff, Entries.ofFields]
      · have other : (Value.str key).sameKey (.str name) = false := by
          rw [Bool.eq_false_iff]
          simpa [sameKey_str_iff] using same
        simp only [other, Bool.false_eq_true, ↓reduceIte, same, ih]
        rfl

theorem mem_putField {name : String} {value : Value} {fields : List (String × Value)}
    {field : String × Value} (member : field ∈ putField name value fields) :
    field = (name, value) ∨ field ∈ fields := by
  induction fields with
  | nil => simpa [putField] using member
  | cons head rest ih =>
      obtain ⟨key, given⟩ := head
      rw [putField] at member
      split at member
      · rcases List.mem_cons.mp member with rfl | later
        · exact .inl rfl
        · exact .inr (List.mem_cons_of_mem _ later)
      · rcases List.mem_cons.mp member with rfl | later
        · exact .inr List.mem_cons_self
        · rcases ih later with rfl | found
          · exact .inl rfl
          · exact .inr (List.mem_cons_of_mem _ found)

theorem nodup_putField {name : String} {value : Value} {fields : List (String × Value)}
    (distinct : (fields.map Prod.fst).Nodup) :
    ((putField name value fields).map Prod.fst).Nodup := by
  induction fields with
  | nil => simp [putField]
  | cons head rest ih =>
      obtain ⟨key, given⟩ := head
      obtain ⟨absent, distinctRest⟩ := List.nodup_cons.mp distinct
      rw [putField]
      split
      · next same => exact same ▸ distinct
      · next other =>
          refine List.nodup_cons.mpr ⟨fun again => ?_, ih distinctRest⟩
          obtain ⟨field, member, same⟩ := List.mem_map.mp again
          rcases mem_putField member with rfl | found
          · exact other same.symm
          · exact absent (List.mem_map.mpr ⟨field, found, same⟩)

theorem Readable.put {entries : Entries} {value : Value}
    (readable : (Value.map none entries).Readable) (name : String) (added : value.Readable) :
    (Value.map none (entries.put (.str name) value)).Readable := by
  cases readable with
  | map distinct all =>
      rw [put_ofFields]
      refine .map (nodup_putField distinct) fun field member => ?_
      rcases mem_putField member with rfl | given
      · exact added
      · exact all field given

end Value

namespace Json

variable {value : Value}

theorem IsScalar.readable (scalar : IsScalar value) : value.Readable := by
  cases scalar with
  | word listed =>
      simp only [words, List.mem_cons, Prod.mk.injEq, List.not_mem_nil, or_false] at listed
      obtain ⟨-, rfl⟩ | ⟨-, rfl⟩ | ⟨-, rfl⟩ | ⟨-, rfl⟩ | ⟨-, rfl⟩ | ⟨-, rfl⟩ := listed
      · exact .null
      · exact .bool _
      · exact .bool _
      · exact .float fun _ => rfl
      · exact .float (by decide)
      · exact .float (by decide)
  | whole negative all fits => exact .int _
  | fraction negative digits exponent =>
      refine .float fun impossible => ?_
      rw [Number.Binary64.isNaN_ofDecimal] at impossible
      cases impossible

theorem inherited_readable : Inherited Value.Readable where
  scalar _ scalar := scalar.readable
  str := .str
  list _ held := .list held
  empty := @Value.Readable.map [] .nil nofun
  put _ name _ before added := before.put name added

/-- What a text is read as is readable. -/
theorem readable_of_read {text : String} (reads : read text = .ok value) : value.Readable := by
  have settled := inherited_readable.settles_read text
  rw [reads] at settled
  exact settled.good_of_ok

end Json

end MemberOrder
