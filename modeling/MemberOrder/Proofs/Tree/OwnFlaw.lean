import MemberOrder.Proofs.Tree.FieldRules

/-!
# What is wrong with an object

The flaw of an object is the first field of its own that breaks its rule, whatever its members are
(`Tree.ownFlaw?`). Reading a value of a JSON text stops at its first flaw, with the faults of the
members at the place of the members among the fields (`Tree.fault?_decode`); so without its members
an object is refused for its own flaw alone (`Tree.fault?_decode_emptied`).
-/

namespace MemberOrder

namespace Tree

/-- What is wrong with an object before its members are looked at. -/
def flawBefore? : Value → Option Flaw
  | .map _ entries =>
    match tagOf? entries with
    | none => some (.broken .missingTag)
    | some (value, none) => if value.exceedsDigits then some .unshowable else none
    | some (_, some tag) => firstFlaw? tag.label entries (rulesBefore tag)
  | value => some (.broken (.notObject value.kindName))

/-- What is wrong with an object after its members. -/
def flawAfter? : Value → Option Flaw
  | .map _ entries =>
    match tagOf? entries with
    | some (_, some tag) => firstFlaw? tag.label entries (rulesAfter tag)
    | _ => none
  | _ => none

/-- What is wrong with an object itself, whatever its members are. -/
def ownFlaw? (value : Value) : Option Flaw := (flawBefore? value).or (flawAfter? value)

/-- The members of an object with the tag of a container. -/
def membersOf : Value → List Value
  | .map _ entries =>
    match tagOf? entries with
    | some (_, some tag) =>
      match tag.isContainer, Entries.field? entries "members" with
      | true, some (.list _ items) => items
      | _, _ => []
    | _ => []
  | _ => []

/-- An object with an empty list in place of its list of members. -/
def emptied : Value → Value
  | .map mark entries =>
    match Entries.field? entries "members" with
    | some (.list inner _) => .map mark (Entries.put entries (.str "members") (.list inner []))
    | _ => .map mark entries
  | value => value

section Decoding

variable {scope : List (Nat × Value)} {place : Place} {entries : Entries} {named : Value}
  {tag : Tag}

theorem decodeMembers_eq (scope : List (Nat × Value)) (place : Place) (entries : Entries) :
    decodeMembers scope place entries =
      match entries.field? "members" with
      | none => .ok []
      | some value => decodeList scope place value := by
  induction entries with
  | nil => rw [decodeMembers]; rfl
  | cons entry rest ih =>
      rw [decodeMembers, ih, Entries.field?_cons]
      split <;> rfl

section Closed

variable (closed : Value.closeEntries scope entries = entries)
include closed

/-! Objects whose entries refer to nothing around them are read from the entries as they stand. -/

theorem decode_untagged (untagged : tagOf? entries = none) :
    decode scope place (.map none entries) = .error (.tree ⟨place, .missingTag⟩) := by
  rw [decode, Value.enter, closed]
  simp only [untagged]

theorem decode_unregistered (found : tagOf? entries = some (named, none)) :
    decode scope place (.map none entries) = keepUnknown named entries := by
  rw [decode, Value.enter, closed]
  simp only [found]

theorem decode_leaf (found : tagOf? entries = some (named, some tag))
    (leaf : tag.isContainer = false) :
    decode scope place (.map none entries) = decodeLeaf ⟨place, tag.label, entries⟩ tag := by
  rw [decode, Value.enter, closed]
  simp only [found, leaf, Bool.false_eq_true, ↓reduceIte]

theorem decode_container (found : tagOf? entries = some (named, some tag))
    (holds : tag.isContainer) :
    decode scope place (.map none entries) =
      (decodeHead ⟨place, tag.label, entries⟩ tag >>= fun head =>
        decodeMembers scope place entries >>= fun members =>
          (Fields.comment ⟨place, tag.label, entries⟩) >>= fun comment =>
            .ok (.container { head with comment := comment } members)) := by
  rw [decode, Value.enter, closed]
  simp only [found, holds, ↓reduceIte]
  rfl

end Closed

theorem fault?_keepUnknown (place : Place) (entries : Entries) :
    fault? (keepUnknown named entries) =
      (if named.exceedsDigits then some Flaw.unshowable else none).map (Flaw.fault place) := by
  unfold keepUnknown
  by_cases exceeds : named.exceedsDigits <;> simp [exceeds, fault?, Flaw.fault]

theorem membersOf_container (found : tagOf? entries = some (named, some tag))
    (holds : tag.isContainer) {mark : Mark} :
    membersOf (.map mark entries) =
      match entries.field? "members" with
      | some (.list _ items) => items
      | _ => [] := by
  simp only [membersOf, found, holds]
  split <;> simp_all

/-- The members are refused if they are no list, and else at the first fault of one of them. -/
theorem fault?_decodeMembers (json : Value.holdJson entries)
    (found : tagOf? entries = some (named, some tag)) (holds : tag.isContainer) :
    fault? (decodeMembers scope place entries) =
      ((Shape.members.flaw? tag.label "members" (entries.field? "members")).map
        (Flaw.fault place)).or
        (fault? (decodeItems scope place 0 (membersOf (.map none entries)))) := by
  rw [decodeMembers_eq, membersOf_container found holds]
  cases field : entries.field? "members" with
  | none => simp [Shape.flaw?, fault?, decodeItems]
  | some value =>
      have jsonValue := Entries.isJson_of_field? json field
      obtain ⟨_, rfl, -⟩ | ⟨items, rfl, -⟩ | plain := Value.isJson_cases jsonValue
      · simp [Shape.flaw?, decodeList, fault?, Flaw.fault]
      · simp [Shape.flaw?, decodeList, Value.enter]
      · cases value with
        | null | bool _ | int _ | float _ | str _ =>
            simp [Shape.flaw?, decodeList, fault?, Flaw.fault]
        | _ => cases plain

theorem flawBefore?_container {mark : Mark} (found : tagOf? entries = some (named, some tag))
    (holds : tag.isContainer) : flawBefore? (.map mark entries) =
      (firstFlaw? tag.label entries (headRules tag)).or
        (Shape.members.flaw? tag.label "members" (entries.field? "members")) := by
  simp only [flawBefore?, found, rulesBefore_of_isContainer holds, firstFlaw?_append, firstFlaw?,
    Option.or_none]

theorem flawAfter?_container {mark : Mark} (found : tagOf? entries = some (named, some tag))
    (holds : tag.isContainer) : flawAfter? (.map mark entries) =
      firstFlaw? tag.label entries [("comment", .optionalText)] := by
  simp only [flawAfter?, found, rulesAfter, holds, ↓reduceIte]

theorem fault?_decode_container (json : Value.holdJson entries)
    (found : tagOf? entries = some (named, some tag)) (holds : tag.isContainer) :
    fault? (decode scope place (.map none entries)) =
      ((flawBefore? (.map none entries)).map (Flaw.fault place)).or
        ((fault? (decodeItems scope place 0 (membersOf (.map none entries)))).or
          ((flawAfter? (.map none entries)).map (Flaw.fault place))) := by
  have closed := Value.closeEntries_of_holdJson scope entries json
  let fields : Fields := ⟨place, tag.label, entries⟩
  rw [decode_container closed found holds,
    fault?_bind fun _ => fault?_bind fun _ => (fault?_bind_ok _ _).trans (readsBy_comment fields),
    readsBy_decodeHead fields holds, fault?_decodeMembers json found holds,
    flawBefore?_container found holds, flawAfter?_container found holds, Option.map_or,
    Option.or_assoc, Option.or_assoc]

/-- Reading a value stops at the first flaw that it has up to its members, else at the first fault
of a member, else at the first flaw that it has after its members. -/
theorem fault?_decode {value : Value} (json : value.isJson) :
    fault? (decode scope place value) =
      ((flawBefore? value).map (Flaw.fault place)).or
        ((fault? (decodeItems scope place 0 (membersOf value))).or
          ((flawAfter? value).map (Flaw.fault place))) := by
  obtain ⟨entries, rfl, jsonEntries⟩ | ⟨_, rfl, -⟩ | plain := Value.isJson_cases json
  · have closed := Value.closeEntries_of_holdJson scope entries jsonEntries
    cases found : tagOf? entries with
    | none =>
        simp [decode_untagged closed found, flawBefore?, found, fault?, Flaw.fault]
    | some pair =>
        obtain ⟨named, _ | tag⟩ := pair
        · rw [decode_unregistered closed found, fault?_keepUnknown place]
          simp [flawBefore?, flawAfter?, membersOf, found, decodeItems, fault?]
        · cases holds : tag.isContainer with
          | false =>
              have reads := readsBy_decodeLeaf ⟨place, tag.label, entries⟩ holds
              rw [decode_leaf closed found holds, reads]
              simp [flawBefore?, flawAfter?, membersOf, found, decodeItems, fault?, rulesAfter,
                holds, firstFlaw?]
          | true => exact fault?_decode_container jsonEntries found holds
  · simp [decode, flawBefore?, fault?, Flaw.fault]
  · cases value with
    | null | bool _ | int _ | float _ | str _ => simp [decode, flawBefore?, fault?, Flaw.fault]
    | _ => cases plain

/-- Only the members are ruled to be a list of members. -/
theorem eq_members_of_mem_rules {tag : Tag} {rule : String × Shape}
    (member : rule ∈ rulesBefore tag ++ rulesAfter tag) (named : rule.1 = "members") :
    rule.2 = .members := by
  have : ∀ rule ∈ rulesBefore tag ++ rulesAfter tag, rule.1 = "members" → rule.2 = .members := by
    cases tag <;> decide
  exact this rule member named

theorem firstFlaw?_congr {tag : String} {later : Entries} {rules : List (String × Shape)}
    (same : ∀ rule ∈ rules, rule.2.flaw? tag rule.1 (later.field? rule.1) =
      rule.2.flaw? tag rule.1 (entries.field? rule.1)) :
    firstFlaw? tag later rules = firstFlaw? tag entries rules := by
  induction rules with
  | nil => rfl
  | cons rule rest ih =>
      rw [firstFlaw?, firstFlaw?, same rule List.mem_cons_self,
        ih fun other member => same other (List.mem_cons_of_mem _ member)]

section Emptied

variable {inner : Mark} {items : List Value}

theorem tagOf?_put_members (entries : Entries) (value : Value) :
    tagOf? (entries.put (.str "members") value) = tagOf? entries := by
  simp [tagOf?, Entries.field?_put]

theorem firstFlaw?_put_members (found : entries.field? "members" = some (.list inner items))
    {rules : List (String × Shape)}
    (within : ∀ rule ∈ rules, rule ∈ rulesBefore tag ++ rulesAfter tag) :
    firstFlaw? tag.label (entries.put (.str "members") (.list inner [])) rules =
      firstFlaw? tag.label entries rules := by
  refine firstFlaw?_congr fun rule member => ?_
  rw [Entries.field?_put]
  split
  · next named =>
      rw [eq_members_of_mem_rules (within rule member) named, named, found]
      rfl
  · rfl

/-- Without its members an object has the flaws that it had. -/
theorem flaws_emptied (value : Value) :
    flawBefore? (emptied value) = flawBefore? value ∧
      flawAfter? (emptied value) = flawAfter? value := by
  cases value with
  | map mark entries =>
      rw [emptied]
      split
      · next inner items found =>
          constructor
          · simp only [flawBefore?, tagOf?_put_members]
            split <;> first
              | rfl
              | exact firstFlaw?_put_members found fun _ => List.mem_append_left _
          · simp only [flawAfter?, tagOf?_put_members]
            split <;> first
              | rfl
              | exact firstFlaw?_put_members found fun _ => List.mem_append_right _
      · exact ⟨rfl, rfl⟩
  | _ => exact ⟨rfl, rfl⟩

theorem membersOf_emptied (value : Value) : membersOf (emptied value) = [] := by
  cases value with
  | map mark entries =>
      rw [emptied]
      split
      · next inner items found =>
          simp only [membersOf, tagOf?_put_members, Entries.field?_put, ↓reduceIte]
          split <;> (try split) <;> simp_all
      · next other =>
          simp only [membersOf]
          split <;> (try split) <;> simp_all
  | _ => rfl

theorem isJson_emptied {value : Value} (json : value.isJson) : (emptied value).isJson := by
  cases value with
  | map mark entries =>
      rw [emptied]
      split
      · next inner items found =>
          obtain ⟨_, same, jsonEntries⟩ | ⟨_, other, -⟩ | plain := Value.isJson_cases json
          · cases same
            rw [Value.isJson]
            refine Entries.holdJson_put "members" jsonEntries ?_
            have jsonList := Entries.isJson_of_field? jsonEntries found
            cases inner with
            | none => simp [Value.isJson, Value.areJson]
            | some _ => simp [Value.isJson] at jsonList
          · cases other
          · cases plain
      · exact json
  | _ => exact json

/-- Without its members an object is refused exactly for its own flaw. -/
theorem fault?_decode_emptied {value : Value} (json : value.isJson) :
    fault? (decode scope place (emptied value)) = (ownFlaw? value).map (Flaw.fault place) := by
  rw [fault?_decode (isJson_emptied json), membersOf_emptied, (flaws_emptied value).1,
    (flaws_emptied value).2, ownFlaw?, Option.map_or]
  simp [decodeItems, fault?]

end Emptied

end Decoding

end Tree

end MemberOrder
