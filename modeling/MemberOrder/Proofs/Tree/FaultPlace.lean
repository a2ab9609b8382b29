import MemberOrder.Proofs.Tree.Positions

/-!
# The place of a fault

Reading a value of a JSON text gives a node exactly if nothing that can be reached through
containers has a flaw of its own. Otherwise the fault is that of a part of the value to which the
members before it have been read, it is told at the place of this part, and the part by itself, with
or without its members, is refused with the same fault (`Tree.decode_stops_at_own_flaw`). The one
fault that has no place is a number that is too long to be shown
(`Tree.decode_long_number_unplaced`).
-/

namespace MemberOrder

namespace Tree

variable {scope : List (Nat × Value)} {place : Place} {value : Value}

/-- Along some member indices, all members before the ones that are taken are read. -/
def EarlierRead (place : Place) (value : Value) (steps : List Nat) : Prop :=
  ∀ before index after, steps = before ++ index :: after → ∀ earlier < index,
    ∃ sibling node, valueAt? value (before ++ [earlier]) = some sibling ∧
      decode [] (place.below (before ++ [earlier])) sibling = .ok node

theorem earlierRead_nil (place : Place) (value : Value) : EarlierRead place value [] := by
  intro before index after split
  simp at split

theorem earlierRead_cons {index : Nat} {steps : List Nat} {member : Value}
    (listed : (membersOf value)[index]? = some member)
    (siblings : ∀ earlier < index, ∃ sibling, (membersOf value)[earlier]? = some sibling ∧
      fault? (decode [] (place.member earlier) sibling) = none)
    (inside : EarlierRead (place.member index) member steps) :
    EarlierRead place value (index :: steps) := by
  intro before taken after split earlier less
  cases before with
  | nil =>
      obtain ⟨rfl, -⟩ := List.cons.inj split
      obtain ⟨sibling, found, reads⟩ := siblings earlier less
      obtain ⟨node, read⟩ := fault?_eq_none_iff.mp reads
      refine ⟨sibling, node, ?_, ?_⟩
      · exact valueAt?_cons_eq_some_iff.mpr ⟨sibling, found, rfl⟩
      · rw [List.nil_append, Place.below_cons, Place.below_nil]
        exact read
  | cons first before =>
      obtain ⟨rfl, rest⟩ := List.cons.inj split
      obtain ⟨sibling, node, found, read⟩ := inside before taken after rest earlier less
      refine ⟨sibling, node, ?_, ?_⟩
      · exact valueAt?_cons_eq_some_iff.mpr ⟨member, listed, found⟩
      · rw [List.cons_append, Place.below_cons]
        exact read

theorem fault?_decodeItems_cons (index : Nat) (item : Value) (rest : List Value) :
    fault? (decodeItems scope place index (item :: rest)) =
      (fault? (decode scope (place.member index) item)).or
        (fault? (decodeItems scope place (index + 1) rest)) := by
  rw [decodeItems]
  exact fault?_bind fun _ => fault?_bind_ok _ _

/-- Reading members stops at the first of them that is refused. -/
theorem exists_of_fault?_decodeItems {items : List Value} {index : Nat} {fault : DecodeFault}
    (stops : fault? (decodeItems scope place index items) = some fault) :
    ∃ skipped item, items[skipped]? = some item ∧
      fault? (decode scope (place.member (index + skipped)) item) = some fault ∧
      ∀ earlier < skipped, ∃ sibling, items[earlier]? = some sibling ∧
        fault? (decode scope (place.member (index + earlier)) sibling) = none := by
  induction items generalizing index with
  | nil => simp [decodeItems, fault?] at stops
  | cons item rest ih =>
      rw [fault?_decodeItems_cons] at stops
      cases first : fault? (decode scope (place.member index) item) with
      | some own =>
          rw [first, Option.some_or, Option.some_inj] at stops
          exact ⟨0, item, rfl, stops ▸ first, fun earlier less => absurd less (Nat.not_lt_zero _)⟩
      | none =>
          rw [first, Option.none_or] at stops
          obtain ⟨skipped, other, listed, refused, siblings⟩ := ih stops
          refine ⟨skipped + 1, other, listed, ?_, fun earlier less => ?_⟩
          · rwa [Nat.add_right_comm] at refused
          · cases earlier with
            | zero => exact ⟨item, rfl, first⟩
            | succ earlier =>
                obtain ⟨sibling, found, read⟩ := siblings earlier (Nat.lt_of_succ_lt_succ less)
                refine ⟨sibling, found, ?_⟩
                rwa [Nat.add_right_comm] at read

theorem fault?_decodeItems_eq_none_iff {items : List Value} {index : Nat} :
    fault? (decodeItems scope place index items) = none ↔
      ∀ skipped item, items[skipped]? = some item →
        fault? (decode scope (place.member (index + skipped)) item) = none := by
  induction items generalizing index with
  | nil => simp [decodeItems, fault?]
  | cons item rest ih =>
      rw [fault?_decodeItems_cons, Option.or_eq_none_iff, ih]
      constructor
      · rintro ⟨first, others⟩ skipped other listed
        cases skipped with
        | zero => cases listed; exact first
        | succ skipped =>
            have read := others skipped other listed
            rwa [Nat.add_right_comm] at read
      · intro all
        refine ⟨all 0 item rfl, fun skipped other listed => ?_⟩
        have read := all (skipped + 1) other listed
        rwa [Nat.add_right_comm]

/-- What stops a reading is the own flaw of a part of the value, to which the members before it have
been read. -/
theorem exists_of_fault?_decode (json : value.isJson) {fault : DecodeFault}
    (stops : fault? (decode [] place value) = some fault) :
    ∃ steps inner flaw, valueAt? value steps = some inner ∧ EarlierRead place value steps ∧
      ownFlaw? inner = some flaw ∧ fault = flaw.fault (place.below steps) ∧
      fault? (decode [] (place.below steps) inner) = some fault := by
  induction size : sizeOf value using Nat.strongRecOn generalizing value place with
  | ind size ih =>
      subst size
      have given := stops
      rw [fault?_decode json] at stops
      -- A flaw of the value itself ends the search; a fault of a member is looked for in it.
      cases before : flawBefore? value with
      | some flaw =>
          rw [before, Option.map_some, Option.some_or, Option.some_inj] at stops
          refine ⟨[], value, flaw, rfl, earlierRead_nil _ _, ?_, ?_, ?_⟩
          · rw [ownFlaw?, before, Option.some_or]
          · rw [Place.below_nil, stops]
          · rwa [Place.below_nil]
      | none =>
          rw [before, Option.map_none, Option.none_or] at stops
          cases items : fault? (decodeItems [] place 0 (membersOf value)) with
          | some own =>
              rw [items, Option.some_or, Option.some_inj] at stops
              obtain ⟨index, member, listed, refused, siblings⟩ :=
                exists_of_fault?_decodeItems items
              simp only [Nat.zero_add] at refused siblings
              have present := List.mem_of_getElem? listed
              obtain ⟨steps, inner, flaw, found, earlier, flawed, told, again⟩ :=
                ih _ (sizeOf_lt_of_mem_membersOf present) (isJson_of_mem_membersOf json present)
                  (stops ▸ refused) rfl
              refine ⟨index :: steps, inner, flaw, ?_, ?_, flawed, ?_, ?_⟩
              · exact valueAt?_cons_eq_some_iff.mpr ⟨member, listed, found⟩
              · exact earlierRead_cons listed siblings earlier
              · rw [Place.below_cons, told]
              · rw [Place.below_cons, again]
          | none =>
              rw [items, Option.none_or] at stops
              obtain ⟨flaw, after, told⟩ := Option.map_eq_some_iff.mp stops
              refine ⟨[], value, flaw, rfl, earlierRead_nil _ _, ?_, ?_, ?_⟩
              · rw [ownFlaw?, before, after, Option.none_or]
              · rw [Place.below_nil, told]
              · rwa [Place.below_nil]

/-- What is read has no flaw anywhere. -/
theorem ownFlaw?_eq_none_of_read (json : value.isJson)
    (reads : fault? (decode [] place value) = none) {steps : List Nat} {inner : Value}
    (found : valueAt? value steps = some inner) : ownFlaw? inner = none := by
  rw [fault?_decode json] at reads
  simp only [Option.or_eq_none_iff, Option.map_eq_none_iff] at reads
  obtain ⟨before, items, after⟩ := reads
  induction steps generalizing value place with
  | nil =>
      cases found
      rw [ownFlaw?, before, after, Option.none_or]
  | cons index steps ih =>
      obtain ⟨member, listed, inside⟩ := valueAt?_cons_eq_some_iff.mp found
      have jsonMember := isJson_of_mem_membersOf json (List.mem_of_getElem? listed)
      have read := fault?_decodeItems_eq_none_iff.mp items index member listed
      rw [fault?_decode jsonMember] at read
      simp only [Option.or_eq_none_iff, Option.map_eq_none_iff] at read
      exact ih jsonMember inside read.1 read.2.1 read.2.2

section LongNumbers

variable {entries : Entries} {rules : List (String × Shape)} {tag name : String}

theorem exists_of_firstFlaw? {flaw : Flaw} (flawed : firstFlaw? tag entries rules = some flaw) :
    ∃ rule ∈ rules, rule.2.flaw? tag rule.1 (entries.field? rule.1) = some flaw := by
  induction rules with
  | nil => cases flawed
  | cons rule rest ih =>
      rw [firstFlaw?, Option.or_eq_some_iff] at flawed
      obtain own | ⟨-, later⟩ := flawed
      · exact ⟨rule, List.mem_cons_self, own⟩
      · obtain ⟨other, member, own⟩ := ih later
        exact ⟨other, List.mem_cons_of_mem _ member, own⟩

theorem exceedsDigits_of_wordFlaw? {words : List String}
    (flawed : wordFlaw? name words value = some .unshowable) : value.exceedsDigits := by
  unfold wordFlaw? at flawed
  split at flawed
  · cases flawed
  · split at flawed
    · assumption
    · cases flawed

/-- Only a choice can be refused for a number that is too long. -/
theorem exists_of_flaw?_unshowable {shape : Shape} {given : Option Value}
    (flawed : shape.flaw? tag name given = some .unshowable) :
    ∃ value, given = some value ∧ value.exceedsDigits := by
  unfold Shape.flaw? at flawed
  split at flawed <;> first
    | exact ⟨_, rfl, exceedsDigits_of_wordFlaw? flawed⟩
    | (split at flawed <;> cases flawed)
    | cases flawed

theorem exceedsDigits_of_firstFlaw? (flawed : firstFlaw? tag entries rules = some .unshowable) :
    Value.anyEntryExceedsDigits entries := by
  obtain ⟨rule, -, own⟩ := exists_of_firstFlaw? flawed
  obtain ⟨value, found, exceeds⟩ := exists_of_flaw?_unshowable own
  exact Entries.anyEntryExceedsDigits_of_field? found exceeds

theorem exceedsDigits_of_ownFlaw? (flawed : ownFlaw? value = some .unshowable) :
    value.exceedsDigits := by
  rw [ownFlaw?, Option.or_eq_some_iff] at flawed
  cases value with
  | map _ entries =>
      rw [Value.exceedsDigits]
      obtain before | ⟨-, after⟩ := flawed
      · simp only [flawBefore?] at before
        split at before
        · cases before
        · next named found =>
            obtain ⟨value, field, same⟩ := Option.map_eq_some_iff.mp found
            split at before
            · next exceeds =>
                obtain ⟨rfl, -⟩ := Prod.mk.inj same
                exact Entries.anyEntryExceedsDigits_of_field? field exceeds
            · cases before
        · exact exceedsDigits_of_firstFlaw? before
      · simp only [flawAfter?] at after
        split at after
        · exact exceedsDigits_of_firstFlaw? after
        · cases after
  | _ => simp [flawBefore?, flawAfter?] at flawed

end LongNumbers

/-- **Where reading stops.** A value of a JSON text gives a node, a fault at a place, or the fault
of a number in it that is too long to be shown. It gives a node exactly if nothing that members lead
to has a flaw of its own. Any fault is that of a part of the value, told at the place of this part:
the members before it are read, and the part is refused with this fault by itself and also without
its members. -/
theorem decode_stops_at_own_flaw (value : Value) (json : value.isJson) (place : Place) :
    ((∃ node, decode [] place value = .ok node) ∨
      (∃ fault, decode [] place value = .error (.tree fault)) ∨
      decode [] place value = .error .unshowable ∧ value.exceedsDigits) ∧
    ((∃ node, decode [] place value = .ok node) ↔
      ∀ steps inner, valueAt? value steps = some inner → ownFlaw? inner = none) ∧
    ∀ fault, decode [] place value = .error fault →
      ∃ steps inner flaw, valueAt? value steps = some inner ∧ EarlierRead place value steps ∧
        ownFlaw? inner = some flaw ∧ fault = flaw.fault (place.below steps) ∧
        decode [] (place.below steps) inner = .error fault ∧
        decode [] (place.below steps) (emptied inner) = .error fault ∧
        (place.below steps).text = place.text ++
          String.join (steps.map fun index => ".members[" ++ toString index ++ "]") := by
  have located : ∀ fault, decode [] place value = .error fault →
      ∃ steps inner flaw, valueAt? value steps = some inner ∧ EarlierRead place value steps ∧
        ownFlaw? inner = some flaw ∧ fault = flaw.fault (place.below steps) ∧
        decode [] (place.below steps) inner = .error fault := by
    intro fault stops
    obtain ⟨steps, inner, flaw, found, earlier, flawed, told, again⟩ :=
      exists_of_fault?_decode json (fault?_eq_some_iff.mpr stops)
    exact ⟨steps, inner, flaw, found, earlier, flawed, told, fault?_eq_some_iff.mp again⟩
  refine ⟨?_, ⟨?_, ?_⟩, ?_⟩
  · cases outcome : decode [] place value with
    | ok node => exact .inl ⟨node, rfl⟩
    | error fault =>
        obtain ⟨steps, inner, flaw, found, -, flawed, rfl, -⟩ := located fault outcome
        cases flaw with
        | broken cause => exact .inr (.inl ⟨_, rfl⟩)
        | unshowable =>
            exact .inr (.inr ⟨rfl, exceedsDigits_of_valueAt? found
              (exceedsDigits_of_ownFlaw? flawed)⟩)
  · intro reads steps inner found
    exact ownFlaw?_eq_none_of_read json (fault?_eq_none_iff.mpr reads) found
  · intro flawless
    cases outcome : decode [] place value with
    | ok node => exact ⟨node, rfl⟩
    | error fault =>
        obtain ⟨steps, inner, flaw, found, -, flawed, -⟩ := located fault outcome
        rw [flawless steps inner found] at flawed
        cases flawed
  · intro fault stops
    obtain ⟨steps, inner, flaw, found, earlier, flawed, told, again⟩ := located fault stops
    refine ⟨steps, inner, flaw, found, earlier, flawed, told, again, ?_, Place.text_below _ _⟩
    refine fault?_eq_some_iff.mp ?_
    rw [fault?_decode_emptied (isJson_of_valueAt? json found), flawed, told]
    rfl

/-- A class with a method, a method without a name and an object without a tag. -/
private def classWithFaults : Value :=
  .map none [(.str "tag", .str "class"), (.str "name", .str "C"), (.str "members", .list none
    [.map none [(.str "tag", .str "method"), (.str "name", .str "x")],
      .map none [(.str "tag", .str "method")], .map none []])]

/-- The second member is refused, with the first one read and the third one not looked at. -/
theorem decode_stops_at_second_member :
    classWithFaults.isJson ∧ ∃ steps inner flaw, valueAt? classWithFaults steps = some inner ∧
      EarlierRead ⟨"node", []⟩ classWithFaults steps ∧ ownFlaw? inner = some flaw ∧
      DecodeFault.tree ⟨⟨"node", [1]⟩, .missingField "name" "method"⟩ =
        flaw.fault (Place.below ⟨"node", []⟩ steps) := by
  have json : classWithFaults.isJson := by rfl
  obtain ⟨-, -, located⟩ := decode_stops_at_own_flaw classWithFaults json ⟨"node", []⟩
  obtain ⟨steps, inner, flaw, found, earlier, flawed, told, -⟩ := located _ rfl
  exact ⟨json, steps, inner, flaw, found, earlier, flawed, told⟩

private def methodOfKind (kind : Value) : Value :=
  .map none [(.str "tag", .str "method"), (.str "name", .str "x"), (.str "kind", kind)]

private def longWhole : Int := Int.ofNat (Nat.pow 10 4300)

private theorem exceedsDigits_ofNat {n : Nat} (long : Nat.pow 10 4300 ≤ n) :
    (Value.int (Int.ofNat n)).exceedsDigits := by
  rw [Value.exceedsDigits]
  exact decide_eq_true long

private theorem flawBefore?_methodOfKind {kind : Value} (other : kind.text? = none)
    (exceeds : kind.exceedsDigits) : flawBefore? (methodOfKind kind) = some .unshowable := by
  have flawed : wordFlaw? "kind" methodWords kind = some .unshowable := by
    simp [wordFlaw?, other, exceeds]
  have tagged : flawBefore? (methodOfKind kind) =
      (wordFlaw? "kind" methodWords kind).or none := by rfl
  rw [tagged, flawed, Option.some_or]

/-- A kind that is a number too long to be shown is refused without a place. -/
theorem decode_long_number_unplaced :
    (methodOfKind (.int longWhole)).isJson ∧
      decode [] ⟨"node", []⟩ (methodOfKind (.int longWhole)) = .error .unshowable := by
  have json : (methodOfKind (.int longWhole)).isJson := by
    simp [methodOfKind, Value.isJson, Value.holdJson]
  have exceeds : (Value.int longWhole).exceedsDigits := exceedsDigits_ofNat (Nat.le_refl _)
  refine ⟨json, fault?_eq_some_iff.mp ?_⟩
  have refused := @fault?_decode [] ⟨"node", []⟩ _ json
  rw [flawBefore?_methodOfKind rfl exceeds, Option.map_some, Option.some_or] at refused
  exact refused

end Tree

end MemberOrder
