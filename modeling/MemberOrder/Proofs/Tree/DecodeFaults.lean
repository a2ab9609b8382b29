import MemberOrder.Proofs.Outcome
import MemberOrder.Proofs.Tree.FaultPlace

/-!
# Why reading nodes from a value fails

Reading nodes from a document stops with a fault at a place, or because the document contains
itself, or because a whole number in it has too many digits to be shown
(`Tree.settles_decodeDocument`).
-/

namespace MemberOrder

namespace Value

section Parts

variable {items : List Value} {entries : Entries}

theorem unsharedItems_eq_none_iff :
    unsharedItems items = none ↔ ∃ item ∈ items, item.unshared = none := by
  induction items with
  | nil => simp [unsharedItems]
  | cons item rest ih =>
      simp only [List.mem_cons, exists_eq_or_imp, ← ih, unsharedItems]
      cases item.unshared <;> cases unsharedItems rest <;> simp

theorem unsharedEntries_eq_none_iff :
    unsharedEntries entries = none ↔
      ∃ entry ∈ entries, entry.1.unshared = none ∨ entry.2.unshared = none := by
  induction entries with
  | nil => simp [unsharedEntries]
  | cons entry rest ih =>
      obtain ⟨key, value⟩ := entry
      simp only [List.mem_cons, exists_eq_or_imp, ← ih, unsharedEntries]
      cases key.unshared <;> cases value.unshared <;> cases unsharedEntries rest <;> simp

theorem unshared_list_eq_none_iff {mark : Mark} :
    (list mark items).unshared = none ↔ ∃ item ∈ items, item.unshared = none := by
  rw [unshared, Option.map_eq_none_iff, unsharedItems_eq_none_iff]

theorem unshared_map_eq_none_iff {mark : Mark} :
    (map mark entries).unshared = none ↔
      ∃ entry ∈ entries, entry.1.unshared = none ∨ entry.2.unshared = none := by
  rw [unshared, Option.map_eq_none_iff, unsharedEntries_eq_none_iff]

theorem mem_of_lookup {scope : List (Nat × Value)} {mark : Nat} {value : Value}
    (found : scope.lookup mark = some value) : (mark, value) ∈ scope := by
  induction scope with
  | nil => cases found
  | cons entry rest ih =>
      obtain ⟨other, held⟩ := entry
      rw [List.lookup_cons] at found
      split at found
      · next same =>
          cases found
          rw [beq_iff_eq.mp same]
          exact List.mem_cons_self
      · exact List.mem_cons_of_mem _ (ih found)

end Parts

/-- Whether one value has what makes reading stop only if another has it. -/
structure Reveals (document value : Value) : Prop where
  endless : value.unshared = none → document.unshared = none
  unshowable : value.exceedsDigits → document.exceedsDigits

namespace Reveals

variable {document value : Value} {mark : Mark} {items : List Value} {entries : Entries}
  {scope : List (Nat × Value)}

theorem refl (document : Value) : Reveals document document := ⟨id, id⟩

theorem list_iff :
    Reveals document (.list mark items) ↔ ∀ item ∈ items, Reveals document item := by
  constructor
  · intro reveals item member
    refine ⟨fun endless => reveals.endless ?_, fun exceeds => reveals.unshowable ?_⟩
    · exact unshared_list_eq_none_iff.mpr ⟨item, member, endless⟩
    · rw [exceedsDigits]
      exact anyExceedsDigits_iff.mpr ⟨item, member, exceeds⟩
  · intro each
    constructor
    · intro endless
      obtain ⟨item, member, endless⟩ := unshared_list_eq_none_iff.mp endless
      exact (each item member).endless endless
    · intro exceeds
      rw [exceedsDigits] at exceeds
      obtain ⟨item, member, exceeds⟩ := anyExceedsDigits_iff.mp exceeds
      exact (each item member).unshowable exceeds

theorem map_iff : Reveals document (.map mark entries) ↔
    ∀ entry ∈ entries, Reveals document entry.1 ∧ Reveals document entry.2 := by
  constructor
  · intro reveals entry member
    have part {value : Value} (part : value = entry.1 ∨ value = entry.2) :
        Reveals document value := by
      refine ⟨fun endless => reveals.endless ?_, fun exceeds => reveals.unshowable ?_⟩
      · refine unshared_map_eq_none_iff.mpr ⟨entry, member, ?_⟩
        obtain rfl | rfl := part
        · exact .inl endless
        · exact .inr endless
      · rw [exceedsDigits]
        refine anyEntryExceedsDigits_iff.mpr ⟨entry, member, ?_⟩
        obtain rfl | rfl := part
        · exact .inl exceeds
        · exact .inr exceeds
    exact ⟨part (.inl rfl), part (.inr rfl)⟩
  · intro each
    constructor
    · intro endless
      obtain ⟨entry, member, endless⟩ := unshared_map_eq_none_iff.mp endless
      exact endless.elim (each entry member).1.endless (each entry member).2.endless
    · intro exceeds
      rw [exceedsDigits] at exceeds
      obtain ⟨entry, member, exceeds⟩ := anyEntryExceedsDigits_iff.mp exceeds
      exact exceeds.elim (each entry member).1.unshowable (each entry member).2.unshowable

theorem pair_iff {first second : Value} : Reveals document (.pair first second) ↔
    Reveals document first ∧ Reveals document second := by
  have endless : (Value.pair first second).unshared = none ↔
      first.unshared = none ∨ second.unshared = none := by
    rw [unshared]
    cases first.unshared <;> cases second.unshared <;> simp
  have exceeds : (Value.pair first second).exceedsDigits ↔
      first.exceedsDigits ∨ second.exceedsDigits := by
    rw [exceedsDigits, Bool.or_eq_true]
  constructor
  · intro reveals
    exact ⟨⟨fun found => reveals.endless (endless.mpr (.inl found)),
      fun found => reveals.unshowable (exceeds.mpr (.inl found))⟩,
      ⟨fun found => reveals.endless (endless.mpr (.inr found)),
      fun found => reveals.unshowable (exceeds.mpr (.inr found))⟩⟩
  · rintro ⟨left, right⟩
    exact ⟨fun found => (endless.mp found).elim left.endless right.endless,
      fun found => (exceeds.mp found).elim left.unshowable right.unshowable⟩

/-! Replacing references by what is around a value reveals no more than the values around it. -/

mutual

theorem close (around : ∀ entry ∈ scope, Reveals document entry.2) :
    (value : Value) → Reveals document value → Reveals document (value.close scope)
  | .back mark keyed, reveals => by
      rw [Value.close]
      cases found : scope.lookup mark with
      | none => exact reveals
      | some value => exact around (mark, value) (mem_of_lookup found)
  | .list mark items, reveals => by
      rw [Value.close, list_iff]
      exact closeItems around items (list_iff.mp reveals)
  | .map mark entries, reveals => by
      rw [Value.close, map_iff]
      exact closeEntries around entries (map_iff.mp reveals)
  | .pair first second, reveals => by
      obtain ⟨left, right⟩ := pair_iff.mp reveals
      rw [Value.close]
      exact pair_iff.mpr ⟨close around first left, close around second right⟩
  | .null, reveals | .bool _, reveals | .int _, reveals | .float _, reveals | .str _, reveals
  | .bytes _, reveals | .date _ _, reveals | .moment _ _, reveals | .set _ _, reveals => by
      simpa [Value.close] using reveals

theorem closeItems (around : ∀ entry ∈ scope, Reveals document entry.2) :
    (items : List Value) → (∀ item ∈ items, Reveals document item) →
      ∀ item ∈ Value.closeItems scope items, Reveals document item
  | [], _ => List.forall_mem_nil _
  | item :: rest, each => by
      obtain ⟨first, others⟩ := List.forall_mem_cons.mp each
      rw [Value.closeItems]
      exact List.forall_mem_cons.mpr ⟨close around item first, closeItems around rest others⟩

theorem closeEntries (around : ∀ entry ∈ scope, Reveals document entry.2) :
    (entries : Entries) →
      (∀ entry ∈ entries, Reveals document entry.1 ∧ Reveals document entry.2) →
      ∀ entry ∈ Value.closeEntries scope entries,
        Reveals document entry.1 ∧ Reveals document entry.2
  | [], _ => List.forall_mem_nil _
  | (key, value) :: rest, each => by
      obtain ⟨⟨left, right⟩, others⟩ := List.forall_mem_cons.mp each
      rw [Value.closeEntries]
      exact List.forall_mem_cons.mpr
        ⟨⟨left, close around value right⟩, closeEntries around rest others⟩

end

/-- What a collection's contents are closed over reveals no more than what is around it. -/
theorem enter (around : ∀ entry ∈ scope, Reveals document entry.2)
    (reveals : Reveals document value) (mark : Mark) :
    ∀ entry ∈ Value.enter scope value mark, Reveals document entry.2 := by
  cases mark with
  | none => exact around
  | some mark => exact List.forall_mem_cons.mpr ⟨close around _ reveals, around⟩

theorem of_field? {name : String} {value : Value} (reveals : Reveals document (.map mark entries))
    (found : Entries.field? entries name = some value) : Reveals document value :=
  (map_iff.mp reveals _ (Entries.mem_of_field? found)).2

end Reveals

end Value

namespace Tree

/-- Whether a document shows why reading nodes from it fails. -/
def DecodeFault.Shows (document : Value) : DecodeFault → Prop
  | .tree _ => True
  | .endless => document.unshared = none
  | .unshowable => document.exceedsDigits

section Decoding

variable {document : Value} {entries : Entries}

/-- What is read by rules fails for a fault at the place, or a number that is too long. -/
theorem ReadsBy.settles {α : Type} {fields : Fields} {rules : List (String × Shape)}
    {reading : Except DecodeFault α} (reads : ReadsBy fields rules reading)
    (reveals : document.Reveals (.map none fields.entries)) :
    Settles (fun _ => True) (DecodeFault.Shows document) reading := by
  cases outcome : reading with
  | ok _ => exact .ok trivial
  | error fault =>
      refine .error ?_
      have stops : (firstFlaw? fields.tag fields.entries rules).map (Flaw.fault fields.place) =
          some fault := by
        rw [← reads, outcome]
        rfl
      obtain ⟨flaw, first, rfl⟩ := Option.map_eq_some_iff.mp stops
      cases flaw with
      | broken _ => trivial
      | unshowable =>
          refine reveals.unshowable ?_
          rw [Value.exceedsDigits]
          exact exceedsDigits_of_firstFlaw? first

theorem settles_keepUnknown {tag : Value} (reveals : document.Reveals tag) :
    Settles (fun _ => True) (DecodeFault.Shows document) (keepUnknown tag entries) := by
  unfold keepUnknown
  simp only
  split
  · next exceeds => exact .error (reveals.unshowable exceeds)
  · exact .ok trivial

mutual

theorem settles_decode {scope : List (Nat × Value)}
    (around : ∀ entry ∈ scope, document.Reveals entry.2) (place : Place) :
    (value : Value) → document.Reveals value →
      Settles (fun _ => True) (DecodeFault.Shows document) (decode scope place value)
  | .map mark entries, reveals => by
      have inside := Value.Reveals.enter around reveals mark
      obtain ⟨closed, named⟩ : ∃ closed, closed = Value.closeEntries
        (Value.enter scope (.map mark entries) mark) entries := ⟨_, rfl⟩
      have shown : document.Reveals (.map none closed) := by
        have whole := Value.Reveals.close inside _ reveals
        rw [Value.close, ← named, Value.Reveals.map_iff] at whole
        exact Value.Reveals.map_iff.mpr whole
      rw [decode, ← named]
      simp only
      cases found : tagOf? closed with
      | none => exact .error trivial
      | some pair =>
          obtain ⟨value, tag⟩ := pair
          cases tag with
          | none =>
              obtain ⟨tagValue, field, same⟩ := Option.map_eq_some_iff.mp found
              obtain ⟨rfl, -⟩ := Prod.mk.inj same
              exact settles_keepUnknown (shown.of_field? field)
          | some tag =>
              let fields : Fields := ⟨place, tag.label, closed⟩
              cases holds : tag.isContainer with
              | false =>
                  simp only [holds, Bool.false_eq_true, ↓reduceIte]
                  exact (readsBy_decodeLeaf fields holds).settles shown
              | true =>
                  simp only [holds, ↓reduceIte]
                  have entry := Value.Reveals.map_iff.mp reveals
                  refine ((readsBy_decodeHead fields holds).settles shown).bind fun head _ => ?_
                  refine (settles_decodeMembers inside place entries entry).bind fun members _ => ?_
                  exact ((readsBy_comment fields).settles shown).bind fun _ _ => .ok trivial
  | .back mark keyed, reveals => by
      have endless : (Value.back mark keyed).unshared = none := by rw [Value.unshared]
      cases keyed with
      | true => exact .error (reveals.endless endless)
      | false => exact .error trivial
  | .list _ _, _ | .pair _ _, _ | .null, _ | .bool _, _ | .int _, _ | .float _, _ | .str _, _
  | .bytes _, _ | .date _ _, _ | .moment _ _, _ | .set _ _, _ => .error trivial

theorem settles_decodeMembers {scope : List (Nat × Value)}
    (around : ∀ entry ∈ scope, document.Reveals entry.2) (place : Place) : (entries : Entries) →
      (∀ entry ∈ entries, document.Reveals entry.1 ∧ document.Reveals entry.2) →
      Settles (fun _ => True) (DecodeFault.Shows document) (decodeMembers scope place entries)
  | [], _ => .ok trivial
  | (key, value) :: rest, reveals => by
      rw [decodeMembers]
      split
      · exact settles_decodeList around place value (reveals _ List.mem_cons_self).2
      · exact settles_decodeMembers around place rest fun entry member =>
          reveals entry (List.mem_cons_of_mem _ member)

theorem settles_decodeList {scope : List (Nat × Value)}
    (around : ∀ entry ∈ scope, document.Reveals entry.2) (place : Place) :
    (value : Value) → document.Reveals value →
      Settles (fun _ => True) (DecodeFault.Shows document) (decodeList scope place value)
  | .list mark items, reveals => by
      rw [decodeList]
      exact settles_decodeItems (Value.Reveals.enter around reveals mark) place 0 items
        (Value.Reveals.list_iff.mp reveals)
  | .back mark keyed, reveals => by
      have endless : (Value.back mark keyed).unshared = none := by rw [Value.unshared]
      cases keyed with
      | true => exact .error trivial
      | false => exact .error (reveals.endless endless)
  | .map _ _, _ | .pair _ _, _ | .null, _ | .bool _, _ | .int _, _ | .float _, _ | .str _, _
  | .bytes _, _ | .date _ _, _ | .moment _ _, _ | .set _ _, _ => .error trivial

theorem settles_decodeItems {scope : List (Nat × Value)}
    (around : ∀ entry ∈ scope, document.Reveals entry.2) (place : Place) (index : Nat) :
    (items : List Value) → (∀ item ∈ items, document.Reveals item) →
      Settles (fun _ => True) (DecodeFault.Shows document) (decodeItems scope place index items)
  | [], _ => .ok trivial
  | item :: rest, reveals => by
      rw [decodeItems]
      refine (settles_decode around _ item (reveals _ List.mem_cons_self)).bind fun _ _ => ?_
      exact (settles_decodeItems around place (index + 1) rest fun other member =>
        reveals other (List.mem_cons_of_mem _ member)).bind fun _ _ => .ok trivial

end

theorem settles_decodeDeclarations (list : String) (index : Nat) {items : List Value}
    (reveals : ∀ item ∈ items, document.Reveals item) :
    Settles (fun _ => True) (DecodeFault.Shows document) (decodeDeclarations list index items) := by
  induction items generalizing index with
  | nil => exact .ok trivial
  | cons item rest ih =>
      rw [decodeDeclarations]
      refine (settles_decode (List.forall_mem_nil _) _ item (reveals _ List.mem_cons_self)).bind
        fun _ _ => ?_
      exact (ih (index + 1) fun other member =>
        reveals other (List.mem_cons_of_mem _ member)).bind fun _ _ => .ok trivial

theorem settles_declarationList (document : Value) :
    Settles (fun result => ∀ item ∈ result.2, document.Reveals item)
      (DecodeFault.Shows document) (declarationList document) := by
  have whole := Value.Reveals.refl document
  unfold declarationList
  split
  · next mark entries =>
      have inside := Value.Reveals.enter (List.forall_mem_nil _) whole mark
      simp only
      split
      · exact .error trivial
      · next inner items found =>
          have list := whole.of_field? found
          exact .ok (Value.Reveals.closeItems (Value.Reveals.enter inside list inner) items
            (Value.Reveals.list_iff.mp list))
      · exact .error trivial
  · next mark items =>
      exact .ok (Value.Reveals.closeItems (Value.Reveals.enter (List.forall_mem_nil _) whole mark)
        items (Value.Reveals.list_iff.mp whole))
  · exact .error trivial

/-- Reading nodes from a document fails for a fault at a place, or as the document shows. -/
theorem settles_decodeDocument (document : Value) :
    Settles (fun _ => True) (DecodeFault.Shows document) (decodeDocument document) := by
  unfold decodeDocument
  split
  · exact .ok trivial
  · exact (settles_declarationList document).bind fun _ reveals =>
      settles_decodeDeclarations _ 0 reveals

end Decoding

end Tree

end MemberOrder
