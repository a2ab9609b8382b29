import MemberOrder.Proofs.Json.RoundTrip
import MemberOrder.Proofs.Tree.Reload
import MemberOrder.Tree.Document

/-!
# Texts of trees

Nodes that were read from a JSON text are written as values that a JSON text can hold
(`Tree.readable_of_encode`). So what is dumped of them, sorted or not, is read as the same
declarations again (`Tree.loadText_of_dumpText`).
-/

namespace MemberOrder

namespace Value.Readable

variable {entries : Entries} {mark : Mark} {items : List Value} {name : String} {value : Value}

theorem of_mem_list (readable : (Value.list mark items).Readable) :
    ∀ item ∈ items, item.Readable := by
  cases readable with
  | list all => exact all

theorem of_field? (readable : (Value.map mark entries).Readable)
    (found : entries.field? name = some value) : value.Readable := by
  cases readable with
  | @map fields distinct all =>
      obtain ⟨field, listed, same⟩ := List.mem_map.mp (Entries.mem_of_field? found)
      cases same
      exact all field listed

end Value.Readable

/-- Whether an unknown node has nothing beyond what it says, or the entries that say it, which a
JSON text can hold, or a text in their place. -/
def Unknown.Loaded (decl : Unknown) : Prop :=
  ∀ entries, decl.payload = .entries entries →
    entries = [] ∨ (decl.Mirrors entries ∧ (Value.map none entries).Readable)

/-- Whether a node can have been read from a JSON text. -/
def Node.Loaded : Node → Prop
  | .unknown decl => decl.Loaded
  | .foreign => False
  | _ => True

/-- A text, a list of texts, or null. -/
inductive Value.Textual : Value → Prop
  | null : Textual .null
  | text (s : String) : Textual (.str s)
  | texts (given : List String) : Textual (.list none (given.map .str))

theorem Value.Textual.readable {value : Value} (textual : value.Textual) : value.Readable := by
  cases textual with
  | null => exact .null
  | text s => exact .str s
  | texts given =>
      refine .list fun item member => ?_
      obtain ⟨text, -, rfl⟩ := List.mem_map.mp member
      exact .str text

namespace Tree

section Reading

variable {place : Place} {value : Value} {node : Node}

theorem readable_of_mem_membersOf (readable : value.Readable) {member : Value}
    (present : member ∈ membersOf value) : member.Readable := by
  obtain ⟨mark, entries, inner, items, rfl, found, inside⟩ := exists_of_mem_membersOf present
  exact (readable.of_field? found).of_mem_list member inside

theorem readable_of_mem_declarationsOf (readable : value.Readable) {item : Value}
    (present : item ∈ declarationsOf value) : item.Readable := by
  unfold declarationsOf at present
  split at present
  · exact readable.of_mem_list item present
  · split at present
    · next found => exact (readable.of_field? found).of_mem_list item present
    · cases present
  · cases present

theorem ComesFrom.loaded (comes : ComesFrom node value) (readable : value.Readable)
    (bare : node.isContainer = false) : node.Loaded := by
  cases comes with
  | @kept entries tag decl found payload mirrors =>
      intro others same
      rw [payload] at same
      cases same
      exact .inr ⟨mirrors, readable⟩
  | @unknown entries named decl found payload =>
      intro others same
      rw [same] at payload
      unfold PayloadOf at payload
      split at payload
      · next kept => cases kept; exact .inl rfl
      · next impossible => cases impossible
      · next impossible => cases impossible
      · exact payload.elim
  | leaf found leaf other tagged =>
      match node with
      | .unknown _ => exact (other (Option.some.inj tagged).symm).elim
      | .foreign => cases tagged
      | .container _ _ | .typeAlias _ | .binding _ | .method _ | .alias _ | .attribute _
      | .mixin _ | .marker _ => exact trivial
  | container found holds reads => cases bare

/-- What was read from a value of a JSON text consists of nodes that can have been read from it. -/
theorem loaded_of_decode (readable : value.Readable) (read : decode [] place value = .ok node) :
    ∀ steps inner, node.at? steps = some inner → inner.Loaded := by
  induction node using Node.inductionOn generalizing value place with
  | container head members ih =>
      obtain ⟨-, -, reads⟩ := (comesFrom_of_decode readable.isJson read).of_container
      refine Node.forall_at?_iff.mpr ⟨trivial, fun member inside => ?_⟩
      obtain ⟨item, present, _, readItem⟩ := exists_of_mem_left reads inside
      exact ih member inside (readable_of_mem_membersOf readable present) readItem
  | leaf node bare =>
      exact (Node.forall_at?_iff_of_leaf bare).mpr
        ((comesFrom_of_decode readable.isJson read).loaded readable bare)

theorem loaded_sortTree (deep : Bool) {node : Node}
    (loaded : ∀ steps inner, node.at? steps = some inner → inner.Loaded) :
    ∀ steps inner, (sortTree deep node).at? steps = some inner → inner.Loaded := by
  refine forall_at?_sortTree (fun _ _ => trivial) (fun given bears => ?_) deep loaded
  cases given with
  | method _ | «attribute» _ | «alias» _ => exact trivial
  | _ => cases bears

end Reading

section Objects

variable {names others : List String} {fields more : List (String × Value)} {tag : Tag}

/-- Whether fields have some of the given names, in order, and hold texts only. -/
structure Plain (names : List String) (fields : List (String × Value)) : Prop where
  named : (fields.map Prod.fst).Sublist names
  textual : ∀ field ∈ fields, field.2.Textual

theorem Plain.append (first : Plain names fields) (second : Plain others more) :
    Plain (names ++ others) (fields ++ more) where
  named := by
    rw [List.map_append]
    exact first.named.append second.named
  textual := List.forall_mem_append.mpr ⟨first.textual, second.textual⟩

theorem Plain.single (name : String) {value : Value} (textual : value.Textual) :
    Plain [name] [(name, value)] :=
  ⟨.refl _, fun field only => by rw [List.mem_singleton.mp only]; exact textual⟩

theorem Plain.none (names : List String) : Plain names [] :=
  ⟨List.nil_sublist _, nofun⟩

theorem plain_textField (name value : String) : Plain [name] (textField name value) :=
  .single name (.text value)

theorem plain_optionalField (name : String) (value : Option String) :
    Plain [name] (optionalField name value) := by
  cases value with
  | none => exact .none _
  | some value => exact .single name (.text value)

theorem plain_textsField (name : String) (texts : List String) :
    Plain [name] (textsField name texts) := by
  unfold textsField
  split
  · exact .none _
  · exact .single name (.texts texts)

theorem plain_choiceField {α : Type} [DecidableEq α] (name : String) (label : α → String)
    (default value : α) : Plain [name] (choiceField name label default value) := by
  unfold choiceField
  split
  · exact .none _
  · exact .single name (.text _)

theorem plain_headFields (head : Head) :
    Plain ["name", "type_params", "super_class", "self_types"] (headFields head) := by
  have front := (plain_textField "name" head.name).append
    (plain_textsField "type_params" head.typeParams)
  unfold headFields
  cases head.kind with
  | classDecl superclass =>
      have middle := front.append (plain_optionalField "super_class" superclass)
      have whole := middle.append (.none ["self_types"])
      rwa [List.append_nil] at whole
  | moduleDecl selfTypes =>
      have middle := front.append (.none ["super_class"])
      rw [List.append_nil] at middle
      exact middle.append (plain_textsField "self_types" selfTypes)
  | interfaceDecl => exact front.append (.none ["super_class", "self_types"])

/-- Whether a node is written as an object with fields of different names that hold texts only. -/
def WrittenPlainly (node : Node) : Prop :=
  ∃ tag names fields, encode node = .ok (object tag fields) ∧ Plain names fields ∧
    ("tag" :: names).Nodup

theorem writtenPlainly_of_leaf {node : Node} (bare : node.isContainer = false)
    (known : ∀ decl, node ≠ .unknown decl) (own : node ≠ .foreign) : WrittenPlainly node := by
  have comment := plain_optionalField "comment"
  match node with
  | .container _ _ => cases bare
  | .foreign => exact absurd rfl own
  | .unknown decl => exact absurd rfl (known decl)
  | .typeAlias decl =>
      exact ⟨_, _, _, rfl, (((plain_textField "name" _).append (plain_textField "type" _)).append
        (plain_textsField "type_params" _)).append (comment _), by decide⟩
  | .binding decl =>
      exact ⟨_, _, _, rfl, ((plain_textField "name" _).append (plain_textField "type" _)).append
        (comment _), by decide⟩
  | .method decl =>
      exact ⟨_, _, _, rfl, ((((plain_textField "name" _).append
        (plain_choiceField "kind" _ _ _)).append (plain_textsField "overloads" _)).append
        (plain_optionalField "visibility" _)).append (comment _), by decide⟩
  | .alias decl =>
      exact ⟨_, _, _, rfl, ((((plain_textField "new_name" _).append
        (plain_textField "old_name" _)).append (plain_choiceField "kind" _ _ _)).append
        (plain_optionalField "visibility" _)).append (comment _), by decide⟩
  | .attribute decl =>
      exact ⟨_, _, _, rfl, (((((plain_textField "name" _).append (plain_textField "type" _)).append
        (plain_choiceField "kind" _ _ _)).append (plain_optionalField "ivar_name" _)).append
        (plain_optionalField "visibility" _)).append (comment _), by decide⟩
  | .mixin decl =>
      exact ⟨_, _, _, rfl, ((plain_textField "name" _).append (plain_textsField "args" _)).append
        (comment _), by decide⟩
  | .marker decl => exact ⟨_, _, _, rfl, comment _, by decide⟩

theorem plain_unknownFields (decl : Unknown) {payload : List (String × Value)}
    (plain : Plain ["payload"] payload) : Plain ["kind", "text", "payload", "comment"]
      (textField "kind" decl.kind ++ optionalField "text" decl.text ++ payload ++
        optionalField "comment" decl.comment) :=
  (((plain_textField "kind" decl.kind).append (plain_optionalField "text" decl.text)).append
    plain).append (plain_optionalField "comment" decl.comment)

/-- An unknown node is written plainly unless it keeps entries, which it is then written as, or a
text in their place. -/
theorem encode_unknown_cases (decl : Unknown) :
    (∃ entries, decl.payload = .entries entries ∧ entries ≠ [] ∧
      encode (.unknown decl) = .ok (.map none entries)) ∨
    (∃ text, decl.payload = .text text ∧ text.isEmpty = false ∧
      encode (.unknown decl) = .error .textPayload) ∨
    WrittenPlainly (.unknown decl) ∧ (∀ entries, decl.payload = .entries entries → entries = []) ∧
      ∀ text, decl.payload = .text text → text.isEmpty := by
  obtain ⟨kind, text, payload, comment⟩ := decl
  have plainly {fields : List (String × Value)} (plain : Plain ["payload"] fields)
      (written : encode (.unknown ⟨kind, text, payload, comment⟩) =
        .ok (unknownObject ⟨kind, text, payload, comment⟩ fields)) :
      WrittenPlainly (.unknown ⟨kind, text, payload, comment⟩) :=
    ⟨_, _, _, written, plain_unknownFields ⟨kind, text, payload, comment⟩ plain, by decide⟩
  cases payload with
  | entries entries =>
      cases entries with
      | nil =>
          refine .inr (.inr ⟨plainly (.none _) rfl, fun entries same => ?_, fun text same => ?_⟩)
          · cases same
            rfl
          · cases same
      | cons entry rest => exact .inl ⟨_, rfl, List.cons_ne_nil _ _, rfl⟩
  | text given =>
      cases empty : given.isEmpty with
      | true =>
          refine .inr (.inr ⟨plainly (.single "payload" (.text given)) ?_, fun entries same => ?_,
            fun text same => ?_⟩)
          · rw [encode, encodeWith, encodeUnknown]
            simp only [empty, ↓reduceIte]
          · cases same
          · cases same
            exact empty
      | false =>
          refine .inr (.inl ⟨given, rfl, empty, ?_⟩)
          rw [encode, encodeWith, encodeUnknown]
          simp [empty]
  | absent =>
      refine .inr (.inr ⟨plainly (.single "payload" .null) rfl, fun entries same => ?_,
        fun text same => ?_⟩)
      · cases same
      · cases same

theorem named_containerFields (head : Head) (values : List Value) :
    ((containerFields head values).map Prod.fst).Sublist
      ["name", "type_params", "super_class", "self_types", "members", "comment"] := by
  have members : ((membersField values).map Prod.fst).Sublist ["members"] := by
    unfold membersField
    split
    · exact List.nil_sublist _
    · exact .refl _
  rw [containerFields, List.map_append, List.map_append]
  exact ((plain_headFields head).named.append members).append
    (plain_optionalField "comment" head.comment).named

theorem forall_containerFields {property : Value → Prop} {head : Head} {values : List Value}
    (textual : ∀ value : Value, value.Textual → property value)
    (members : values ≠ [] → property (.list none values)) :
    ∀ field ∈ containerFields head values, property field.2 := by
  refine List.forall_mem_append.mpr ⟨List.forall_mem_append.mpr ⟨?_, ?_⟩, ?_⟩
  · exact fun field member => textual _ ((plain_headFields head).textual field member)
  · unfold membersField
    split
    · exact List.forall_mem_nil _
    · next some => exact List.forall_mem_singleton.mpr (members (by simpa using some))
  · exact fun field member =>
      textual _ ((plain_optionalField "comment" head.comment).textual field member)

theorem readable_object (named : (fields.map Prod.fst).Sublist names)
    (distinct : ("tag" :: names).Nodup) (readable : ∀ field ∈ fields, field.2.Readable) :
    (object tag fields).Readable :=
  .map ((named.cons_cons "tag").nodup distinct) (List.forall_mem_cons.mpr ⟨.str _, readable⟩)

theorem WrittenPlainly.readable {node : Node} {value : Value} (plainly : WrittenPlainly node)
    (written : encode node = .ok value) : value.Readable := by
  obtain ⟨tag, names, fields, object, plain, distinct⟩ := plainly
  rw [written] at object
  cases object
  exact readable_object plain.named distinct fun field member =>
    (plain.textual field member).readable

/-- A node that can have been read from a JSON text is written as a value that one can hold. -/
theorem readable_of_encode {node : Node} {value : Value}
    (loaded : ∀ steps inner, node.at? steps = some inner → inner.Loaded)
    (written : encode node = .ok value) : value.Readable := by
  induction node using Node.inductionOn generalizing value with
  | container head members ih =>
      obtain ⟨-, below⟩ := Node.forall_at?_iff.mp loaded
      obtain ⟨values, all, rfl⟩ := exists_of_encode_container written
      have readable : ∀ value ∈ values, value.Readable := by
        intro value present
        obtain ⟨member, inside, written⟩ :=
          exists_of_mem_right (encodeAllWith_eq_ok_iff.mp all) present
        exact ih member inside (below member inside) written
      exact readable_object (named_containerFields head values) (by decide)
        (forall_containerFields (fun _ textual => textual.readable) fun _ => .list readable)
  | leaf node bare =>
      have own := loaded [] node rfl
      match node with
      | .foreign => exact own.elim
      | .unknown decl =>
          obtain ⟨entries, kept, some, object⟩ | ⟨text, -, -, fails⟩ | ⟨plainly, -⟩ :=
            encode_unknown_cases decl
          · rw [written] at object
            cases object
            exact ((own entries kept).resolve_left some).2
          · rw [written] at fails
            cases fails
          · exact plainly.readable written
      | .container _ _ | .typeAlias _ | .binding _ | .method _ | .alias _ | .attribute _
      | .mixin _ | .marker _ =>
          exact (writtenPlainly_of_leaf bare (by simp) (by simp)).readable written

/-- A node that can have been read from a JSON text and can be written is read back. -/
theorem storable_of_encode {node : Node} {value : Value}
    (loaded : ∀ steps inner, node.at? steps = some inner → inner.Loaded)
    (written : encode node = .ok value) :
    ∀ steps inner, node.at? steps = some inner → inner.Storable := by
  induction node using Node.inductionOn generalizing value with
  | container head members ih =>
      obtain ⟨-, below⟩ := Node.forall_at?_iff.mp loaded
      obtain ⟨values, all, -⟩ := exists_of_encode_container written
      refine Node.forall_at?_iff.mpr ⟨trivial, fun member inside => ?_⟩
      obtain ⟨_, -, writtenMember⟩ := exists_of_mem_left (encodeAllWith_eq_ok_iff.mp all) inside
      exact ih member inside (below member inside) writtenMember
  | leaf node bare =>
      have own := loaded [] node rfl
      rw [Node.forall_at?_iff_of_leaf bare]
      match node with
      | .container _ _ => cases bare
      | .foreign => exact own.elim
      | .unknown decl =>
          change decl.Storable
          rw [encode, encodeWith, encodeUnknown] at written
          unfold Unknown.Storable
          split
          · next entries kept =>
              exact (own entries kept).imp_right And.left
          · next text kept =>
              rw [kept] at written
              cases empty : text.isEmpty with
              | true => rfl
              | false => simp [empty] at written
          · trivial
      | .typeAlias _ | .binding _ | .method _ | .alias _ | .attribute _ | .mixin _ | .marker _ =>
          exact trivial

end Objects

section Texts

variable {value : Value} {decls : List Node} {given text : String}

theorem mem_dropWhile {test : Char → Bool} {chars : List Char} {c : Char} (member : c ∈ chars)
    (fails : test c = false) : c ∈ chars.dropWhile test := by
  induction chars with
  | nil => cases member
  | cons first rest ih =>
      rw [List.dropWhile_cons]
      split
      · next passes =>
          rcases List.mem_cons.mp member with rfl | later
          · rw [fails] at passes
            cases passes
          · exact ih later
      · exact member

/-- What is not blank is left when a text is trimmed. -/
theorem isEmpty_trim {c : Char} (member : c ∈ given.toList) (solid : Text.isBlank c = false) :
    (Text.trim given).isEmpty = false := by
  have left : c ∈ Text.trimChars given.toList :=
    List.mem_reverse.mpr (mem_dropWhile (List.mem_reverse.mpr (mem_dropWhile member solid)) solid)
  rw [Bool.eq_false_iff]
  intro empty
  have none : Text.trim given = "" := String.isEmpty_iff.mp empty
  rw [Text.trim] at none
  rw [String.ofList_eq_empty_iff.mp none] at left
  cases left

theorem readable_of_readText (reads : readText .json given = .ok value) : value.Readable := by
  simp only [readText] at reads
  split at reads
  · cases reads
    exact .null
  · split at reads
    · next read =>
        cases reads
        exact Json.readable_of_read read
    · cases reads
    · cases reads

theorem exists_of_loadText (loads : loadText "json" given = .ok decls) :
    ∃ value, value.Readable ∧ decodeDocument value = .ok decls := by
  obtain ⟨value, reads, decoded⟩ := bind_eq_ok_iff.mp loads
  refine ⟨value, readable_of_readText reads, ?_⟩
  unfold loadValue at decoded
  split at decoded
  · next same =>
      cases decoded
      exact same
  all_goals cases decoded

/-- Declarations of a JSON text consist of nodes that can have been read from it. -/
theorem loaded_of_loadText (loads : loadText "json" given = .ok decls) :
    ∀ decl ∈ decls, ∀ steps inner, decl.at? steps = some inner → inner.Loaded := by
  obtain ⟨value, readable, decoded⟩ := exists_of_loadText loads
  obtain ⟨-, reads⟩ := declarations_of_decodeDocument readable.isJson decoded
  intro decl member
  obtain ⟨item, present, _, read⟩ := exists_of_mem_left reads member
  exact loaded_of_decode (readable_of_mem_declarationsOf readable present) read

/-- A document of declarations that were read is a value that a JSON text can hold, and is read as
the declarations. -/
theorem decodeDocument_of_encodeDocument
    (loaded : ∀ decl ∈ decls, ∀ steps inner, decl.at? steps = some inner → inner.Loaded)
    (written : encodeDocument decls = .ok value) :
    (∃ values, value = .map none [(.str "declarations", .list none values)]) ∧ value.Readable ∧
      decodeDocument value = .ok decls := by
  obtain ⟨values, all, made⟩ := bind_eq_ok_iff.mp written
  cases made
  have each := encodeAllWith_eq_ok_iff.mp all
  have readable : ∀ value ∈ values, value.Readable := by
    intro value present
    obtain ⟨decl, member, writtenDecl⟩ := exists_of_mem_right each present
    exact readable_of_encode (loaded decl member) writtenDecl
  have recovers : ∀ decl ∈ decls, Recovers decl := by
    intro decl member
    obtain ⟨_, -, writtenDecl⟩ := exists_of_mem_left each member
    exact recovers_of_storable (storable_of_encode (loaded decl member) writtenDecl)
  obtain ⟨document, same, read⟩ := exists_document recovers
  rw [written] at same
  cases same
  refine ⟨⟨values, rfl⟩, ?_, read⟩
  exact @Value.Readable.map [("declarations", .list none values)] (by simp)
    (by simpa using .list readable)

/-- What is written of a document as JSON is read as the document in its spelling, and has line
breaks of one kind only. -/
theorem loadText_of_writeText {mark : Mark} {entries : Entries}
    (wrote : writeText .json (.map mark entries) = .ok text) :
    loadText "json" text = loadValue (Value.map mark entries).respelled ∧ '\r' ∉ text.toList := by
  unfold writeText at wrote
  simp only at wrote
  split at wrote
  · next body written =>
      cases wrote
      obtain ⟨read, oneKind⟩ := Json.read_of_write rfl written
      have brace : '\x7b' ∈ (body ++ "\n").toList := by
        rw [String.toList_append]
        exact List.mem_append_left _ (Json.brace_mem_of_write written)
      have given : readText .json (body ++ "\n") = .ok (Value.map mark entries).respelled := by
        rw [readText, isEmpty_trim brace (by decide), read]
        rfl
      refine ⟨?_, oneKind⟩
      change readText .json (body ++ "\n") >>= loadValue = _
      rw [given]
      rfl
  · cases wrote

/-- **Dumping and loading.** What is dumped of declarations that were read from a JSON text is read
as the declarations, and has line breaks of one kind only. -/
theorem loadText_of_dumpText
    (loaded : ∀ decl ∈ decls, ∀ steps inner, decl.at? steps = some inner → inner.Loaded)
    (dumps : dumpText "json" decls = .ok text) :
    loadText "json" text = .ok decls ∧ '\r' ∉ text.toList := by
  unfold dumpText at dumps
  split at dumps
  · cases dumps
  · next value written =>
      obtain ⟨⟨values, rfl⟩, readable, decoded⟩ :=
        decodeDocument_of_encodeDocument loaded written
      obtain ⟨loads, oneKind⟩ := loadText_of_writeText dumps
      refine ⟨?_, oneKind⟩
      rw [loads, readable.respelled_eq, loadValue, decoded]

end Texts

end Tree

end MemberOrder
