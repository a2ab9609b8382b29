import MemberOrder.Proofs.Tree.RoundTrip

/-!
# Documents that were read

A node that was read from a value of a JSON text either has a known tag and fields of their shapes,
or says what the object of its unknown tag says (`Tree.ComesFrom`). So what was read can be written
unless an object of the tag of unknown nodes has a text in place of its entries, and then it is read
back, with every object of an unknown tag where it was and as it was
(`Tree.reload_of_decodeDocument`).
-/

namespace MemberOrder

namespace Tree

section Related

variable {α β : Type} {related : α → β → Prop} {first : List α} {second : List β}

theorem exists_of_getElem?_left (all : List.Forall₂ related first second) {index : Nat} {item : α}
    (listed : first[index]? = some item) :
    ∃ other, second[index]? = some other ∧ related item other := by
  induction all generalizing index with
  | nil => cases listed
  | cons head _ ih =>
      cases index with
      | zero => cases listed; exact ⟨_, rfl, head⟩
      | succ index => exact ih listed

theorem exists_of_mem_left (all : List.Forall₂ related first second) {item : α}
    (member : item ∈ first) : ∃ other ∈ second, related item other := by
  obtain ⟨index, listed⟩ := List.mem_iff_getElem?.mp member
  obtain ⟨other, found, holds⟩ := exists_of_getElem?_left all listed
  exact ⟨other, List.mem_of_getElem? found, holds⟩

theorem exists_of_mem_right (all : List.Forall₂ related first second) {other : β}
    (member : other ∈ second) : ∃ item ∈ first, related item other :=
  exists_of_mem_left all.flip member

end Related

section Yields

variable {α β : Type} {property : β → Prop}

/-- Whether a property holds of whatever a reading gives. -/
def Yields (property : β → Prop) (reading : Except DecodeFault β) : Prop :=
  ∀ result, reading = .ok result → property result

theorem Yields.done {result : β} (holds : property result) : Yields property (.ok result) := by
  intro other same
  cases same
  exact holds

theorem Yields.bind {reading : Except DecodeFault α} {next : α → Except DecodeFault β}
    (all : ∀ value, Yields property (next value)) : Yields property (reading >>= next) := by
  intro result read
  obtain ⟨value, -, continued⟩ := bind_eq_ok_iff.mp read
  exact all value result continued

/-- A node without members has the tag that it was read by. -/
theorem yields_decodeLeaf (fields : Fields) {tag : Tag} (leaf : tag.isContainer = false) :
    Yields (fun node => node.tag? = some tag) (decodeLeaf fields tag) := by
  match tag with
  | .classDecl | .moduleDecl | .interfaceDecl => cases leaf
  | .typeAlias => exact .bind fun _ => .bind fun _ => .bind fun _ => .bind fun _ => .done rfl
  | .constant | .global | .classVariable | .classInstanceVariable | .instanceVariable =>
      exact .bind fun _ => .bind fun _ => .bind fun _ => .done rfl
  | .method =>
      exact .bind fun _ => .bind fun _ => .bind fun _ => .bind fun _ => .bind fun _ => .done rfl
  | .alias =>
      exact .bind fun _ => .bind fun _ => .bind fun _ => .bind fun _ => .bind fun _ => .done rfl
  | .attrReader | .attrWriter | .attrAccessor =>
      exact .bind fun _ => .bind fun _ => .bind fun _ => .bind fun _ => .bind fun _ =>
        .bind fun _ => .done rfl
  | .includes | .prepends | .extends =>
      exact .bind fun _ => .bind fun _ => .bind fun _ => .done rfl
  | .publicMarker | .privateMarker => exact .bind fun _ => .done rfl
  | .unknown =>
      rw [decodeLeaf, decodeUnknown_eq]
      exact .bind fun _ => .bind fun _ => .bind fun _ => .bind fun _ => .done rfl

end Yields

section Reading

variable {place : Place} {nodes : List Node} {value : Value} {node : Node}

/-- What stands in place of the entries of an unknown node, by the field for it. -/
def PayloadOf : Option Value → Payload → Prop
  | none, .entries [] | some .null, .absent => True
  | some (.str text), .text kept => kept = text
  | _, _ => False

theorem payloadOf_of_read {fields : Fields} {payload : Payload}
    (read : fields.payload = .ok payload) :
    PayloadOf (fields.entries.field? "payload") payload := by
  unfold Fields.payload Fields.text? at read
  split at read
  · next absent =>
      cases read
      rw [absent]
      trivial
  · next value found =>
      rw [found]
      rw [found] at read
      cases value with
      | null => cases read; trivial
      | str text => cases read; rfl
      | _ => cases read

/-- How a node was read from a value. -/
inductive ComesFrom : Node → Value → Prop
  /-- From an object with an unknown tag, all of which is kept. -/
  | kept {entries : Entries} {tag : Value} {decl : Unknown}
      (found : tagOf? entries = some (tag, none)) (payload : decl.payload = .entries entries)
      (mirrors : decl.Mirrors entries) : ComesFrom (.unknown decl) (.map none entries)
  /-- From an object that names the tag of unknown nodes itself. -/
  | unknown {entries : Entries} {named : Value} {decl : Unknown}
      (found : tagOf? entries = some (named, some .unknown))
      (payload : PayloadOf (entries.field? "payload") decl.payload) :
      ComesFrom (.unknown decl) (.map none entries)
  | leaf {entries : Entries} {named : Value} {tag : Tag} {node : Node}
      (found : tagOf? entries = some (named, some tag)) (leaf : tag.isContainer = false)
      (other : tag ≠ .unknown) (tagged : node.tag? = some tag) : ComesFrom node (.map none entries)
  | container {entries : Entries} {named : Value} {tag : Tag} {head : Head} {members : List Node}
      (found : tagOf? entries = some (named, some tag)) (holds : tag.isContainer)
      (reads : List.Forall₂ (fun node item => ∃ place, decode [] place item = .ok node) members
        (membersOf (.map none entries))) :
      ComesFrom (.container head members) (.map none entries)

theorem forall₂_of_decodeMembers {entries : Entries} {named : Value} {tag : Tag}
    (json : Value.holdJson entries) (found : tagOf? entries = some (named, some tag))
    (holds : tag.isContainer) (read : decodeMembers [] place entries = .ok nodes) :
    List.Forall₂ (fun node item => ∃ place, decode [] place item = .ok node) nodes
      (membersOf (.map none entries)) := by
  rw [decodeMembers_eq] at read
  rw [membersOf_container found holds]
  cases field : entries.field? "members" with
  | none =>
      rw [field] at read
      cases read
      exact .nil
  | some value =>
      have jsonValue := Entries.isJson_of_field? json field
      rw [field] at read
      obtain ⟨_, rfl, -⟩ | ⟨items, rfl, -⟩ | plain := Value.isJson_cases jsonValue
      · cases read
      · exact forall₂_of_decodeEach ((decodeItems_eq _ _ _).symm.trans read)
      · cases value with
        | null | bool _ | int _ | float _ | str _ => cases read
        | _ => cases plain

theorem exists_of_decodeUnknown {fields : Fields} (read : decodeUnknown fields = .ok node) :
    ∃ decl, node = .unknown decl ∧
      PayloadOf (fields.entries.field? "payload") decl.payload := by
  rw [decodeUnknown_eq] at read
  obtain ⟨kind, -, read⟩ := bind_eq_ok_iff.mp read
  obtain ⟨text, -, read⟩ := bind_eq_ok_iff.mp read
  obtain ⟨payload, inside, read⟩ := bind_eq_ok_iff.mp read
  obtain ⟨comment, -, made⟩ := bind_eq_ok_iff.mp read
  cases made
  exact ⟨_, rfl, payloadOf_of_read inside⟩

/-- What is read from a value of a JSON text is read from an object in one of these ways. -/
theorem comesFrom_of_decode (json : value.isJson) (read : decode [] place value = .ok node) :
    ComesFrom node value := by
  obtain ⟨entries, rfl, jsonEntries⟩ | ⟨_, rfl, -⟩ | plain := Value.isJson_cases json
  · have closed := Value.closeEntries_nil entries
    cases found : tagOf? entries with
    | none =>
        rw [decode_untagged closed found] at read
        cases read
    | some pair =>
        obtain ⟨named, _ | tag⟩ := pair
        · rw [decode_unregistered closed found, keepUnknown] at read
          cases exceeds : named.exceedsDigits with
          | true => simp [exceeds] at read
          | false =>
              simp only [exceeds] at read
              cases read
              exact .kept found rfl ⟨named, found, exceeds, rfl, rfl, rfl⟩
        · cases holds : tag.isContainer with
          | true =>
              rw [decode_container closed found holds] at read
              obtain ⟨head, -, read⟩ := bind_eq_ok_iff.mp read
              obtain ⟨members, inside, read⟩ := bind_eq_ok_iff.mp read
              obtain ⟨comment, -, made⟩ := bind_eq_ok_iff.mp read
              cases made
              exact .container found holds
                (forall₂_of_decodeMembers jsonEntries found holds inside)
          | false =>
              rw [decode_leaf closed found holds] at read
              by_cases unknown : tag = .unknown
              · subst unknown
                obtain ⟨decl, rfl, payload⟩ := exists_of_decodeUnknown read
                exact .unknown found payload
              · exact .leaf found holds unknown (yields_decodeLeaf _ holds node read)
  · simp [decode] at read
  · cases value with
    | null | bool _ | int _ | float _ | str _ => simp [decode] at read
    | _ => cases plain

end Reading

/-- Whether an object has a tag that is not known. -/
def Unregistered : Value → Prop
  | .map _ entries => ∃ tag, tagOf? entries = some (tag, none)
  | _ => False

/-- Whether an object of the tag of unknown nodes has a text in place of its entries. -/
def HasTextPayload : Value → Prop
  | .map _ entries => ∃ named text, tagOf? entries = some (named, some .unknown) ∧
      Entries.field? entries "payload" = some (.str text) ∧ text.isEmpty = false
  | _ => False

section Writing

variable {place : Place} {entries : Entries} {named value dumped : Value} {tag : Tag} {node : Node}

/-- Only objects of the tag of unknown nodes have a text in place of entries. -/
theorem tag_of_hasTextPayload {mark : Mark} {tag? : Option Tag}
    (text : HasTextPayload (.map mark entries))
    (found : tagOf? entries = some (named, tag?)) : tag? = some .unknown := by
  obtain ⟨_, _, again, -⟩ := text
  rw [found] at again
  cases again
  rfl

theorem tag_of_unregistered {mark : Mark} {tag? : Option Tag}
    (unregistered : Unregistered (.map mark entries))
    (found : tagOf? entries = some (named, tag?)) : tag? = none := by
  obtain ⟨_, again⟩ := unregistered
  rw [found] at again
  cases again
  rfl

theorem membersOf_leaf (found : tagOf? entries = some (named, some tag))
    (leaf : tag.isContainer = false) : membersOf (.map none entries) = [] := by
  simp only [membersOf, found, leaf]

theorem membersOf_unregistered (found : tagOf? entries = some (named, none)) :
    membersOf (.map none entries) = [] := by
  simp only [membersOf, found]

/-- The members of a written container are what its members were written as. -/
theorem membersOf_object (head : Head) (values : List Value) :
    membersOf (object head.kind.tag (containerFields head values)) = values := by
  rw [object, membersOf_container (tagOf?_object _ _) (isContainer_tag _),
    field?_object _ _ (by decide), lookup_containerFields_members]
  cases values <;> rfl

theorem exists_of_encode_container {head : Head} {members : List Node}
    (written : encode (.container head members) = .ok dumped) :
    ∃ values, encodeAllWith (.error .foreignMember) members = .ok values ∧
      dumped = object head.kind.tag (containerFields head values) := by
  rw [encode, encodeWith] at written
  obtain ⟨values, all, made⟩ := bind_eq_ok_iff.mp written
  cases made
  exact ⟨values, all, rfl⟩

/-- A container was read from an object with the tag of a container, and its members from the
members of that object. -/
theorem ComesFrom.of_container {head : Head} {members : List Node}
    (comes : ComesFrom (.container head members) value) :
    ¬ HasTextPayload value ∧ ¬ Unregistered value ∧
      List.Forall₂ (fun node item => ∃ place, decode [] place item = .ok node) members
        (membersOf value) := by
  cases comes with
  | leaf found leaf other tagged =>
      cases tagged
      rw [isContainer_tag] at leaf
      cases leaf
  | container found holds reads =>
      refine ⟨fun text => ?_, fun unregistered => ?_, reads⟩
      · cases tag_of_hasTextPayload text found
        cases holds
      · cases tag_of_unregistered unregistered found

theorem ComesFrom.membersOf_eq_nil (comes : ComesFrom node value)
    (bare : node.isContainer = false) : membersOf value = [] := by
  cases comes with
  | kept found payload mirrors => exact membersOf_unregistered found
  | unknown found payload => exact membersOf_leaf found rfl
  | leaf found leaf other tagged => exact membersOf_leaf found leaf
  | container found holds reads => cases bare

/-- A node without members that carries no text in place of entries can be read back. -/
theorem ComesFrom.storable (comes : ComesFrom node value) (bare : node.isContainer = false)
    (fitting : ¬ HasTextPayload value) : node.Storable := by
  cases comes with
  | @kept entries tag decl found payload mirrors =>
      change decl.Storable
      rw [Unknown.Storable, payload]
      exact .inr mirrors
  | @unknown entries named decl found payload =>
      change decl.Storable
      unfold Unknown.Storable
      unfold PayloadOf at payload
      split at payload
      · next kept => rw [kept]; exact .inl rfl
      · next kept => rw [kept]; exact trivial
      · next text given kept =>
          subst payload
          rw [kept]
          cases empty : text.isEmpty with
          | true => exact empty
          | false => exact (fitting ⟨_, _, found, given, empty⟩).elim
      · exact payload.elim
  | leaf found leaf other tagged =>
      match node with
      | .unknown _ => exact (other (Option.some.inj tagged).symm).elim
      | .foreign => cases tagged
      | .container _ _ | .typeAlias _ | .binding _ | .method _ | .alias _ | .attribute _
      | .mixin _ | .marker _ => exact trivial
  | container found holds reads => cases bare

/-- A node that can be written carries no text in place of entries. -/
theorem ComesFrom.not_hasTextPayload (comes : ComesFrom node value)
    (bare : node.isContainer = false) (written : encode node = .ok dumped) :
    ¬ HasTextPayload value := by
  cases comes with
  | kept found payload mirrors =>
      intro text
      cases tag_of_hasTextPayload text found
  | @unknown entries named decl found payload =>
      rintro ⟨_, text, -, given, filled⟩
      rw [given] at payload
      cases kept : decl.payload with
      | text other =>
          rw [kept] at payload
          obtain rfl : other = text := payload
          simp [encode, encodeWith, encodeUnknown, kept, filled] at written
      | entries _ | absent =>
          rw [kept] at payload
          exact payload.elim
  | leaf found leaf other tagged =>
      exact fun text => other (Option.some.inj (tag_of_hasTextPayload text found))
  | container found holds reads => cases bare

/-- What was read is storable if none of its objects has a text in place of entries. -/
theorem storable_of_decode (json : value.isJson) (read : decode [] place value = .ok node)
    (fitting : ∀ steps inner, valueAt? value steps = some inner → ¬ HasTextPayload inner) :
    ∀ steps inner, node.at? steps = some inner → inner.Storable := by
  obtain ⟨own, below⟩ := forall_valueAt?_iff.mp fitting
  induction node using Node.inductionOn generalizing value place with
  | container head members ih =>
      obtain ⟨-, -, reads⟩ := (comesFrom_of_decode json read).of_container
      refine Node.forall_at?_iff.mpr ⟨trivial, fun member inside => ?_⟩
      obtain ⟨item, present, _, readItem⟩ := exists_of_mem_left reads inside
      obtain ⟨ownItem, belowItem⟩ := forall_valueAt?_iff.mp (below item present)
      exact ih member inside (isJson_of_mem_membersOf json present) readItem (below item present)
        ownItem belowItem
  | leaf node bare =>
      exact (Node.forall_at?_iff_of_leaf bare).mpr
        ((comesFrom_of_decode json read).storable bare own)

/-- What was read and can be written has no object with a text in place of entries. -/
theorem not_hasTextPayload_of_encode (json : value.isJson) (read : decode [] place value = .ok node)
    (written : encode node = .ok dumped) :
    ∀ steps inner, valueAt? value steps = some inner → ¬ HasTextPayload inner := by
  induction node using Node.inductionOn generalizing value place dumped with
  | container head members ih =>
      obtain ⟨own, -, reads⟩ := (comesFrom_of_decode json read).of_container
      obtain ⟨values, all, -⟩ := exists_of_encode_container written
      refine forall_valueAt?_iff.mpr ⟨own, fun item present => ?_⟩
      obtain ⟨member, inside, _, readItem⟩ := exists_of_mem_right reads present
      obtain ⟨_, -, writtenItem⟩ := exists_of_mem_left (encodeAllWith_eq_ok_iff.mp all) inside
      exact ih member inside (isJson_of_mem_membersOf json present) readItem writtenItem
  | leaf node bare =>
      have comes := comesFrom_of_decode json read
      refine forall_valueAt?_iff.mpr ⟨comes.not_hasTextPayload bare written, ?_⟩
      rw [comes.membersOf_eq_nil bare]
      exact fun _ impossible => nomatch impossible

/-- An object with an unknown tag is written where it was read and as it was. -/
theorem valueAt?_of_encode (json : value.isJson) (read : decode [] place value = .ok node)
    (written : encode node = .ok dumped) {steps : List Nat} {inner : Value}
    (found : valueAt? value steps = some inner) (unregistered : Unregistered inner) :
    valueAt? dumped steps = some inner := by
  induction steps generalizing value place node dumped with
  | nil =>
      cases found
      cases comesFrom_of_decode json read with
      | kept tagged payload mirrors =>
          rw [encode_kept payload tagged] at written
          cases written
          rfl
      | unknown tagged | leaf tagged | container tagged =>
          cases tag_of_unregistered unregistered tagged
  | cons index steps ih =>
      obtain ⟨item, listed, inside⟩ := valueAt?_cons_eq_some_iff.mp found
      cases node with
      | container head members =>
          obtain ⟨-, -, reads⟩ := (comesFrom_of_decode json read).of_container
          obtain ⟨member, listedMember, _, readItem⟩ := exists_of_getElem?_left reads.flip listed
          obtain ⟨values, all, made⟩ := exists_of_encode_container written
          obtain ⟨dumpedItem, listedDumped, writtenItem⟩ :=
            exists_of_getElem?_left (encodeAllWith_eq_ok_iff.mp all) listedMember
          have jsonItem := isJson_of_mem_membersOf json (List.mem_of_getElem? listed)
          refine valueAt?_cons_eq_some_iff.mpr ⟨dumpedItem, ?_, ?_⟩
          · rwa [made, membersOf_object]
          · exact ih jsonItem readItem writtenItem inside
      | _ =>
          rw [(comesFrom_of_decode json read).membersOf_eq_nil rfl] at listed
          cases listed

end Writing

/-- The declarations of a document. -/
def declarationsOf : Value → List Value
  | .list _ items => items
  | .map _ entries =>
    match Entries.field? entries "declarations" with
    | some (.list _ items) => items
    | _ => []
  | _ => []

/-- What the index of a declaration and member indices lead to in a document. -/
def objectAt? (document : Value) (index : Nat) (steps : List Nat) : Option Value :=
  (declarationsOf document)[index]?.bind fun decl => valueAt? decl steps

section Documents

variable {document dumped : Value} {decls : List Node}

theorem objectAt?_eq_some_iff {index : Nat} {steps : List Nat} {object : Value} :
    objectAt? document index steps = some object ↔
      ∃ decl, (declarationsOf document)[index]? = some decl ∧ valueAt? decl steps = some object :=
  Option.bind_eq_some_iff

theorem forall_objectAt?_iff {property : Value → Prop} :
    (∀ index steps object, objectAt? document index steps = some object → property object) ↔
      ∀ decl ∈ declarationsOf document, ∀ steps object, valueAt? decl steps = some object →
        property object := by
  constructor
  · intro everywhere decl member steps object found
    obtain ⟨index, listed⟩ := List.mem_iff_getElem?.mp member
    exact everywhere index steps object (objectAt?_eq_some_iff.mpr ⟨decl, listed, found⟩)
  · intro each index steps object found
    obtain ⟨decl, listed, inside⟩ := objectAt?_eq_some_iff.mp found
    exact each decl (List.mem_of_getElem? listed) steps object inside

theorem declarationList_of_isJson (json : document.isJson) {list : String} {items : List Value}
    (listed : declarationList document = .ok (list, items)) :
    items = declarationsOf document ∧ Value.areJson (declarationsOf document) := by
  obtain ⟨entries, rfl, jsonEntries⟩ | ⟨given, rfl, jsonItems⟩ | plain := Value.isJson_cases json
  · simp only [declarationList] at listed
    split at listed
    · cases listed
    · next mark given found =>
        have jsonList := Entries.isJson_of_field? jsonEntries found
        obtain ⟨_, other, -⟩ | ⟨_, same, jsonItems⟩ | plain := Value.isJson_cases jsonList
        · cases other
        · cases same
          rw [Value.closeItems_of_areJson _ _ jsonItems] at listed
          cases listed
          simp only [declarationsOf, found]
          exact ⟨trivial, jsonItems⟩
        · cases plain
    · cases listed
  · simp only [declarationList, Value.closeItems_of_areJson _ _ jsonItems] at listed
    cases listed
    exact ⟨rfl, jsonItems⟩
  · cases document with
    | null | bool _ | int _ | float _ | str _ => cases listed
    | _ => cases plain

theorem declarations_of_decodeDocument (json : document.isJson)
    (loads : decodeDocument document = .ok decls) :
    Value.areJson (declarationsOf document) ∧
      List.Forall₂ (fun decl item => ∃ place, decode [] place item = .ok decl) decls
        (declarationsOf document) := by
  unfold decodeDocument at loads
  split at loads
  · cases loads
    exact ⟨rfl, .nil⟩
  · obtain ⟨⟨list, items⟩, listed, read⟩ := bind_eq_ok_iff.mp loads
    obtain ⟨rfl, jsonItems⟩ := declarationList_of_isJson json listed
    exact ⟨jsonItems, forall₂_of_decodeEach ((decodeDeclarations_eq _ _ _).symm.trans read)⟩

theorem exists_of_encodeDocument (written : encodeDocument decls = .ok dumped) :
    List.Forall₂ (fun decl value => encode decl = .ok value) decls (declarationsOf dumped) := by
  obtain ⟨values, all, made⟩ := bind_eq_ok_iff.mp written
  cases made
  have listed : declarationsOf (.map none [(.str "declarations", .list none values)]) = values := by
    simp [declarationsOf, Entries.field?_cons, Value.sameKey_str_iff]
  rw [listed]
  exact encodeAllWith_eq_ok_iff.mp all

/-- **What loads can be dumped.** Declarations read from a document of a JSON text can be written
exactly if no object of the document that was read has the tag of unknown nodes and a text in place
of its entries. What they are written as is read as the same declarations, and every object of an
unknown tag that was read stands in it where it stood in the document and as it stood there. -/
theorem reload_of_decodeDocument (document : Value) (json : document.isJson) (decls : List Node)
    (loads : decodeDocument document = .ok decls) :
    ((∃ dumped, encodeDocument decls = .ok dumped) ↔
      ∀ index steps object, objectAt? document index steps = some object →
        ¬ HasTextPayload object) ∧
    ∀ dumped, encodeDocument decls = .ok dumped →
      decodeDocument dumped = .ok decls ∧
      ∀ index steps object, objectAt? document index steps = some object →
        Unregistered object → objectAt? dumped index steps = some object := by
  obtain ⟨jsonDecls, reads⟩ := declarations_of_decodeDocument json loads
  have jsonDecl := Value.areJson_iff.mp jsonDecls
  have recovers (fitting : ∀ decl ∈ declarationsOf document, ∀ steps object,
      valueAt? decl steps = some object → ¬ HasTextPayload object) :
      ∀ decl ∈ decls, Recovers decl := by
    intro decl member
    obtain ⟨item, present, _, read⟩ := exists_of_mem_left reads member
    exact recovers_of_storable
      (storable_of_decode (jsonDecl item present) read (fitting item present))
  have fitting {dumped : Value} (written : encodeDocument decls = .ok dumped) :
      ∀ decl ∈ declarationsOf document, ∀ steps object,
        valueAt? decl steps = some object → ¬ HasTextPayload object := by
    intro item present
    obtain ⟨decl, member, _, read⟩ := exists_of_mem_right reads present
    obtain ⟨_, -, writtenDecl⟩ := exists_of_mem_left (exists_of_encodeDocument written) member
    exact not_hasTextPayload_of_encode (jsonDecl item present) read writtenDecl
  rw [forall_objectAt?_iff]
  refine ⟨⟨?_, ?_⟩, ?_⟩
  · rintro ⟨dumped, written⟩
    exact fitting written
  · intro none
    obtain ⟨dumped, written, -⟩ := exists_document (recovers none)
    exact ⟨dumped, written⟩
  · intro dumped written
    refine ⟨?_, ?_⟩
    · obtain ⟨again, same, read⟩ := exists_document (recovers (fitting written))
      rw [written] at same
      cases same
      exact read
    · intro index steps object found unregistered
      obtain ⟨item, listed, inside⟩ := objectAt?_eq_some_iff.mp found
      obtain ⟨decl, listedDecl, _, read⟩ := exists_of_getElem?_left reads.flip listed
      obtain ⟨value, listedValue, writtenDecl⟩ :=
        exists_of_getElem?_left (exists_of_encodeDocument written) listedDecl
      exact objectAt?_eq_some_iff.mpr ⟨value, listedValue, valueAt?_of_encode
        (jsonDecl item (List.mem_of_getElem? listed)) read writtenDecl inside unregistered⟩

end Documents

/-- A class with a method and an object of an unknown tag, in a document. -/
private def annotatedDocument : Value :=
  .list none [.map none [(.str "name", .str "C"), (.str "members", .list none
    [.map none [(.str "tag", .str "method"), (.str "name", .str "x"), (.str "note", .null)],
      .map none [(.str "b", .int 1), (.str "tag", .str "annotation"), (.str "a", .null)]]),
    (.str "tag", .str "class")]]

/-- The document can be dumped, and the object of the unknown tag is kept. -/
theorem reload_annotatedDocument :
    annotatedDocument.isJson ∧ ∃ decls dumped, decodeDocument annotatedDocument = .ok decls ∧
      encodeDocument decls = .ok dumped ∧ decodeDocument dumped = .ok decls ∧
      objectAt? dumped 0 [1] = some
        (.map none [(.str "b", .int 1), (.str "tag", .str "annotation"), (.str "a", .null)]) := by
  have json : annotatedDocument.isJson := by rfl
  have both : ∃ decls dumped, decodeDocument annotatedDocument = .ok decls ∧
      encodeDocument decls = .ok dumped := ⟨_, _, rfl, rfl⟩
  obtain ⟨decls, dumped, loads, written⟩ := both
  obtain ⟨-, dumps⟩ := reload_of_decodeDocument annotatedDocument json decls loads
  obtain ⟨reads, kept⟩ := dumps dumped written
  exact ⟨json, decls, dumped, loads, written, reads, kept 0 [1] _ rfl ⟨_, rfl⟩⟩

/-- An object of the tag of unknown nodes with a text in place of its entries is read, but the node
that it gives cannot be written. -/
theorem text_payload_not_written :
    ∃ decls, decodeDocument (.list none [.map none [(.str "tag", .str "unknown"),
        (.str "kind", .str "k"), (.str "payload", .str "abc")]]) = .ok decls ∧
      encodeDocument decls = .error .textPayload :=
  ⟨_, rfl, rfl⟩

end Tree

end MemberOrder
