import Mathlib.Data.List.Forall2
import MemberOrder.Proofs.Order.TreeSort
import MemberOrder.Proofs.Outcome
import MemberOrder.Proofs.Tree.Positions
import MemberOrder.Proofs.Tree.WrittenFields

/-!
# Writing and reading nodes

Every known node is read back from the object that it is written as. An unknown node is read back if
it has no entries, or if it says what its entries say (`Unknown.Storable`). Writing and reading is
then the identity on trees and on documents, also after sorting (`Tree.decode_encode_of_storable`).
-/

namespace MemberOrder

/-- Whether an unknown node says what an object with an unknown tag says. -/
def Unknown.Mirrors (decl : Unknown) (entries : Entries) : Prop :=
  ∃ tag, Tree.tagOf? entries = some (tag, none) ∧ tag.exceedsDigits = false ∧
    decl.kind = tag.display ∧ decl.text = (entries.field? "text").bind Value.text? ∧
    decl.comment = (entries.field? "comment").bind Value.text?

/-- Whether an unknown node has nothing beyond what it says, or the entries that say it. -/
def Unknown.Storable (decl : Unknown) : Prop :=
  match decl.payload with
  | .entries entries => entries = [] ∨ decl.Mirrors entries
  | .text text => text.isEmpty
  | .absent => True

/-- Whether a node can be read back: unknown nodes if they are storable, and no foreign member. -/
def Node.Storable : Node → Prop
  | .unknown decl => decl.Storable
  | .foreign => False
  | _ => True

namespace Tree

section Objects

variable {tag : Tag} {written : List (String × Value)} {node : Node}

/-- Whether a node is written as an object that is read as the node again, wherever it stands. -/
def Recovers (node : Node) : Prop :=
  ∃ value, encode node = .ok value ∧ ∀ place, decode [] place value = .ok node

theorem recovers_of_leaf (encoded : encode node = .ok (object tag written))
    (leaf : tag.isContainer = false)
    (reads : ∀ fields : Fields,
      (∀ name, name ≠ "tag" → fields.entries.field? name = written.lookup name) →
        decodeLeaf fields tag = .ok node) : Recovers node := by
  refine ⟨_, encoded, fun place => ?_⟩
  rw [object, decode_leaf (Value.closeEntries_nil _) (tagOf?_object tag written) leaf]
  exact reads _ fun name other => field?_object tag written other

theorem recovers_typeAlias (decl : TypeAlias) : Recovers (.typeAlias decl) := by
  refine recovers_of_leaf rfl rfl fun fields given => ?_
  have name : fields.text "name" = .ok decl.name := text_of (by simp [given, List.lookup_append])
  have type : fields.text "type" = .ok decl.type := text_of (by simp [given, List.lookup_append])
  have typeParams : fields.texts "type_params" = .ok decl.typeParams :=
    texts_of (by simp [given, List.lookup_append])
  have comment : fields.comment = .ok decl.comment :=
    optionalText_of (by simp [given, List.lookup_append])
  rw [decodeLeaf, decodeTypeAlias, name, type, typeParams, comment]
  rfl

theorem recovers_binding (decl : Binding) : Recovers (.binding decl) := by
  refine recovers_of_leaf rfl (by cases decl.kind <;> rfl) fun fields given => ?_
  have dispatch : decodeLeaf fields decl.kind.tag = decodeBinding decl.kind fields := by
    cases decl.kind <;> rfl
  have name : fields.text "name" = .ok decl.name := text_of (by simp [given, List.lookup_append])
  have type : fields.text "type" = .ok decl.type := text_of (by simp [given, List.lookup_append])
  have comment : fields.comment = .ok decl.comment :=
    optionalText_of (by simp [given, List.lookup_append])
  rw [dispatch, decodeBinding, name, type, comment]
  rfl

theorem recovers_method (decl : Method) : Recovers (.method decl) := by
  refine recovers_of_leaf rfl rfl fun fields given => ?_
  have name : fields.text "name" = .ok decl.name := text_of (by simp [given, List.lookup_append])
  have kind : fields.choice "kind" MethodKind.label .onInstance [.onSelf, .onBoth] =
      .ok decl.kind :=
    choice_of (by simp [given, List.lookup_append]) (by cases decl.kind <;> rfl)
  have overloads : fields.texts "overloads" = .ok decl.overloads :=
    texts_of (by simp [given, List.lookup_append])
  have visibility : fields.visibility = .ok decl.visibility :=
    visibility_of (by simp [given, List.lookup_append])
  have comment : fields.comment = .ok decl.comment :=
    optionalText_of (by simp [given, List.lookup_append])
  rw [decodeLeaf, decodeMethod, name, kind, overloads, visibility, comment]
  rfl

theorem recovers_alias (decl : Alias) : Recovers (.alias decl) := by
  refine recovers_of_leaf rfl rfl fun fields given => ?_
  have newName : fields.text "new_name" = .ok decl.newName :=
    text_of (by simp [given, List.lookup_append])
  have oldName : fields.text "old_name" = .ok decl.oldName :=
    text_of (by simp [given, List.lookup_append])
  have scope : fields.choice "kind" Scope.label .onInstance [.onSelf] = .ok decl.scope :=
    choice_of (by simp [given, List.lookup_append]) (by cases decl.scope <;> rfl)
  have visibility : fields.visibility = .ok decl.visibility :=
    visibility_of (by simp [given, List.lookup_append])
  have comment : fields.comment = .ok decl.comment :=
    optionalText_of (by simp [given, List.lookup_append])
  rw [decodeLeaf, decodeAlias, newName, oldName, scope, visibility, comment]
  rfl

theorem recovers_attribute (decl : Attribute) : Recovers (.attribute decl) := by
  refine recovers_of_leaf rfl (by cases decl.kind <;> rfl) fun fields given => ?_
  have dispatch : decodeLeaf fields decl.kind.tag = decodeAttribute decl.kind fields := by
    cases decl.kind <;> rfl
  have name : fields.text "name" = .ok decl.name := text_of (by simp [given, List.lookup_append])
  have type : fields.text "type" = .ok decl.type := text_of (by simp [given, List.lookup_append])
  have scope : fields.choice "kind" Scope.label .onInstance [.onSelf] = .ok decl.scope :=
    choice_of (by simp [given, List.lookup_append]) (by cases decl.scope <;> rfl)
  have variableName : fields.text? "ivar_name" = .ok decl.variableName :=
    optionalText_of (by simp [given, List.lookup_append])
  have visibility : fields.visibility = .ok decl.visibility :=
    visibility_of (by simp [given, List.lookup_append])
  have comment : fields.comment = .ok decl.comment :=
    optionalText_of (by simp [given, List.lookup_append])
  rw [dispatch, decodeAttribute, name, type, scope, variableName, visibility, comment]
  rfl

theorem recovers_mixin (decl : Mixin) : Recovers (.mixin decl) := by
  refine recovers_of_leaf rfl (by cases decl.kind <;> rfl) fun fields given => ?_
  have dispatch : decodeLeaf fields decl.kind.tag = decodeMixin decl.kind fields := by
    cases decl.kind <;> rfl
  have name : fields.text "name" = .ok decl.name := text_of (by simp [given, List.lookup_append])
  have args : fields.texts "args" = .ok decl.args :=
    texts_of (by simp [given, List.lookup_append])
  have comment : fields.comment = .ok decl.comment :=
    optionalText_of (by simp [given, List.lookup_append])
  rw [dispatch, decodeMixin, name, args, comment]
  rfl

theorem recovers_marker (decl : Marker) : Recovers (.marker decl) := by
  refine recovers_of_leaf rfl (by cases decl.visibility <;> rfl) fun fields given => ?_
  have dispatch : decodeLeaf fields decl.visibility.markerTag =
      decodeMarker decl.visibility fields := by
    cases decl.visibility <;> rfl
  have comment : fields.comment = .ok decl.comment :=
    optionalText_of (by simp [given])
  rw [dispatch, decodeMarker, comment]
  rfl

/-- What stands in place of the entries of a node that names the tag of unknown nodes itself. -/
def Fields.payload (fields : Fields) : Except DecodeFault Payload :=
  match fields.entries.field? "payload" with
  | none => .ok (.entries [])
  | some _ => (fun text => (text.map Payload.text).getD .absent) <$> fields.text? "payload"

theorem decodeUnknown_eq (fields : Fields) :
    decodeUnknown fields =
      (fields.text "kind" >>= fun kind => fields.text? "text" >>= fun text =>
        fields.payload >>= fun payload => fields.comment >>= fun comment =>
          .ok (.unknown ⟨kind, text, payload, comment⟩)) := by
  unfold decodeUnknown Fields.payload
  cases fields.text "kind" with
  | error fault => rfl
  | ok kind =>
      cases fields.text? "text" with
      | error fault => rfl
      | ok text =>
          cases fields.entries.field? "payload" with
          | none => rfl
          | some value => cases fields.text? "payload" <;> rfl

theorem payload_of_text {fields : Fields} {text : String}
    (found : fields.entries.field? "payload" = some (.str text)) :
    fields.payload = .ok (.text text) := by
  rw [Fields.payload, found, Fields.text?, found]
  rfl

theorem payload_of_null {fields : Fields} (found : fields.entries.field? "payload" = some .null) :
    fields.payload = .ok .absent := by
  rw [Fields.payload, found, Fields.text?, found]
  rfl

theorem recovers_unknownObject {decl : Unknown} (payload : List (String × Value))
    (encoded : encodeUnknown decl = .ok (unknownObject decl payload))
    (others : ∀ name, name ≠ "payload" → payload.lookup name = none)
    (read : ∀ fields : Fields, fields.entries.field? "payload" = payload.lookup "payload" →
      fields.payload = .ok decl.payload) : Recovers (.unknown decl) := by
  have object : encode (.unknown decl) = .ok (unknownObject decl payload) := by
    rw [encode, encodeWith, encoded]
  refine recovers_of_leaf object rfl fun fields given => ?_
  have kind : fields.text "kind" = .ok decl.kind :=
    text_of (by simp [given, List.lookup_append])
  have text : fields.text? "text" = .ok decl.text :=
    optionalText_of (by simp [given, List.lookup_append, others])
  have payload : fields.payload = .ok decl.payload :=
    read fields (by simp [given, List.lookup_append])
  have comment : fields.comment = .ok decl.comment :=
    optionalText_of (by simp [given, List.lookup_append, others])
  rw [decodeLeaf, decodeUnknown_eq, kind, text, payload, comment]
  rfl

theorem encode_kept {decl : Unknown} {entries : Entries} {tag : Value × Option Tag}
    (kept : decl.payload = .entries entries) (tagged : tagOf? entries = some tag) :
    encode (.unknown decl) = .ok (.map none entries) := by
  cases entries with
  | nil => cases tagged
  | cons entry rest => simp only [encode, encodeWith, encodeUnknown, kept]

/-- An unknown node that says what its entries say is written as these entries. -/
theorem recovers_of_mirrors {decl : Unknown} {entries : Entries}
    (kept : decl.payload = .entries entries) (mirrors : decl.Mirrors entries) :
    Recovers (.unknown decl) := by
  obtain ⟨tag, found, short, kind, text, comment⟩ := mirrors
  refine ⟨.map none entries, encode_kept kept found, fun place => ?_⟩
  rw [decode_unregistered (Value.closeEntries_nil _) found, keepUnknown, short]
  simp only [← kind, ← text, ← comment, ← kept, Bool.false_eq_true, ↓reduceIte]

theorem recovers_unknown {decl : Unknown} (storable : decl.Storable) :
    Recovers (.unknown decl) := by
  unfold Unknown.Storable at storable
  split at storable
  · next entries kept =>
      obtain rfl | mirrors := storable
      · refine recovers_unknownObject [] ?_ (fun _ _ => rfl) fun fields absent => ?_
        · simp only [encodeUnknown, kept]
        · rw [Fields.payload, absent, kept]
          rfl
      · exact recovers_of_mirrors kept mirrors
  · next text kept =>
      obtain rfl : text = "" := String.isEmpty_iff.mp storable
      refine recovers_unknownObject [("payload", .str "")] ?_ ?_ fun fields found => ?_
      · simp [encodeUnknown, kept]
      · intro name other
        rw [lookup_single, if_neg other]
      · rw [kept, payload_of_text found]
  · next kept =>
      refine recovers_unknownObject [("payload", .null)] ?_ ?_ fun fields found => ?_
      · simp only [encodeUnknown, kept]
      · intro name other
        rw [lookup_single, if_neg other]
      · rw [kept, payload_of_null found]

end Objects

section Lists

/-- Nodes are written one by one. -/
theorem encodeAllWith_eq_ok_iff {foreign : Except EncodeFault Value} {nodes : List Node}
    {values : List Value} : encodeAllWith foreign nodes = .ok values ↔
      List.Forall₂ (fun node value => encodeWith foreign node = .ok value) nodes values := by
  induction nodes generalizing values with
  | nil => simp [encodeAllWith, @eq_comm _ []]
  | cons node rest ih =>
      simp only [encodeAllWith, bind_eq_ok_iff, ih, List.forall₂_cons_left_iff]
      constructor
      · rintro ⟨value, first, others, all, made⟩
        exact ⟨value, others, first, all, (Except.ok.inj made).symm⟩
      · rintro ⟨value, others, first, all, rfl⟩
        exact ⟨value, first, others, all, rfl⟩

/-- Reads values one by one from an index on, each at the place of its index. -/
def decodeEach (placeOf : Nat → Place) (index : Nat) : List Value → Except DecodeFault (List Node)
  | [] => .ok []
  | item :: rest => do
    let node ← decode [] (placeOf index) item
    return node :: (← decodeEach placeOf (index + 1) rest)

theorem decodeItems_eq (place : Place) (index : Nat) (items : List Value) :
    decodeItems [] place index items = decodeEach place.member index items := by
  induction items generalizing index with
  | nil => rw [decodeItems, decodeEach]
  | cons item rest ih => simp only [decodeItems, decodeEach, ih]

theorem decodeDeclarations_eq (list : String) (index : Nat) (items : List Value) :
    decodeDeclarations list index items = decodeEach (Place.item list) index items := by
  induction items generalizing index with
  | nil => rw [decodeDeclarations, decodeEach]
  | cons item rest ih => simp only [decodeDeclarations, decodeEach, ih]

variable {placeOf : Nat → Place} {items : List Value} {nodes : List Node}

theorem decodeEach_of_forall₂ (index : Nat)
    (reads : List.Forall₂ (fun node item => ∀ place, decode [] place item = .ok node) nodes items) :
    decodeEach placeOf index items = .ok nodes := by
  induction reads generalizing index with
  | nil => rfl
  | cons first _ ih =>
      rw [decodeEach, first, ih]
      rfl

theorem forall₂_of_decodeEach {index : Nat} (read : decodeEach placeOf index items = .ok nodes) :
    List.Forall₂ (fun node item => ∃ place, decode [] place item = .ok node) nodes items := by
  induction items generalizing index nodes with
  | nil =>
      cases read
      exact .nil
  | cons item rest ih =>
      obtain ⟨node, first, read⟩ := bind_eq_ok_iff.mp read
      obtain ⟨others, later, made⟩ := bind_eq_ok_iff.mp read
      cases made
      exact .cons ⟨_, first⟩ (ih later)

/-- Nodes that can be read back are read back together. -/
theorem exists_of_forall_recovers (recovers : ∀ node ∈ nodes, Recovers node) :
    ∃ values, encodeAllWith (.error .foreignMember) nodes = .ok values ∧
      List.Forall₂ (fun node item => ∀ place, decode [] place item = .ok node) nodes values := by
  induction nodes with
  | nil => exact ⟨[], encodeAllWith_eq_ok_iff.mpr .nil, .nil⟩
  | cons node rest ih =>
      obtain ⟨value, written, read⟩ := recovers node List.mem_cons_self
      obtain ⟨values, all, reads⟩ := ih fun other member =>
        recovers other (List.mem_cons_of_mem _ member)
      exact ⟨value :: values,
        encodeAllWith_eq_ok_iff.mpr (.cons written (encodeAllWith_eq_ok_iff.mp all)),
        .cons read reads⟩

theorem exists_document (recovers : ∀ node ∈ nodes, Recovers node) :
    ∃ document, encodeDocument nodes = .ok document ∧ decodeDocument document = .ok nodes := by
  obtain ⟨values, all, reads⟩ := exists_of_forall_recovers recovers
  refine ⟨.map none [(.str "declarations", .list none values)], ?_, ?_⟩
  · rw [encodeDocument, all]
    rfl
  · have listed : declarationList (.map none [(.str "declarations", .list none values)]) =
        .ok ("declarations", values) := by
      simp [declarationList, Entries.field?_cons, Value.sameKey_str_iff, Value.enter,
        Value.closeItems_nil]
    refine bind_eq_ok_iff.mpr ⟨_, listed, ?_⟩
    exact (decodeDeclarations_eq _ _ _).trans (decodeEach_of_forall₂ 0 reads)

end Lists

section Containers

variable (head : Head) {values : List Value} {members : List Node}

/-- The list of members, which is written unless it is empty. -/
def membersField (values : List Value) : List (String × Value) :=
  if values.isEmpty then [] else [("members", .list none values)]

@[simp]
theorem lookup_membersField (values : List Value) (name : String) :
    (membersField values).lookup name =
      if name = "members" ∧ values ≠ [] then some (.list none values) else none := by
  cases values with
  | nil => simp [membersField]
  | cons value rest => simp [membersField, lookup_single]

/-- The fields of a container whose members were written as some values. -/
def containerFields (head : Head) (values : List Value) : List (String × Value) :=
  headFields head ++ membersField values ++ optionalField "comment" head.comment

theorem encode_container {foreign : Except EncodeFault Value}
    (all : encodeAllWith foreign members = .ok values) :
    encodeWith foreign (.container head members) =
      .ok (object head.kind.tag (containerFields head values)) := by
  rw [encodeWith, all]
  rfl

theorem isContainer_tag (kind : ContainerKind) : kind.tag.isContainer := by
  cases kind <;> rfl

theorem lookup_containerFields_members : (containerFields head values).lookup "members" =
    if values ≠ [] then some (.list none values) else none := by
  cases kind : head.kind <;> simp [containerFields, headFields, kind, List.lookup_append]

theorem lookup_containerFields_comment :
    (containerFields head values).lookup "comment" = head.comment.map Value.str := by
  cases kind : head.kind <;> simp [containerFields, headFields, kind, List.lookup_append]

theorem decodeHead_of {fields : Fields}
    (given : ∀ name, name ≠ "tag" →
      fields.entries.field? name = (containerFields head values).lookup name) :
    decodeHead fields head.kind.tag = .ok { head with comment := none } := by
  obtain ⟨kind, name, typeParams, comment⟩ := head
  have named : fields.text "name" = .ok name :=
    text_of (by simp [given, containerFields, headFields, List.lookup_append])
  have params : fields.texts "type_params" = .ok typeParams :=
    texts_of (by cases kind <;> simp [given, containerFields, headFields, List.lookup_append])
  rw [decodeHead, named, params]
  cases kind with
  | classDecl superclass =>
      have above : fields.text? "super_class" = .ok superclass :=
        optionalText_of (by simp [given, containerFields, headFields, List.lookup_append])
      simp only [ContainerKind.tag, above]
      rfl
  | moduleDecl selfTypes =>
      have types : fields.texts "self_types" = .ok selfTypes :=
        texts_of (by simp [given, containerFields, headFields, List.lookup_append])
      simp only [ContainerKind.tag, types]
      rfl
  | interfaceDecl => rfl

theorem decode_container_of {entries : Entries} {named : Value} (place : Place)
    (found : tagOf? entries = some (named, some head.kind.tag))
    (given : ∀ name, name ≠ "tag" → entries.field? name = (containerFields head values).lookup name)
    (reads : List.Forall₂ (fun node item => ∀ place, decode [] place item = .ok node)
      members values) :
    decode [] place (.map none entries) = .ok (.container head members) := by
  have inside : decodeMembers [] place entries = .ok members := by
    rw [decodeMembers_eq, given "members" (by decide), lookup_containerFields_members]
    by_cases empty : values = []
    · subst empty
      cases reads
      rfl
    · rw [if_pos empty]
      exact (decodeItems_eq _ _ _).trans (decodeEach_of_forall₂ 0 reads)
  have last : Fields.comment ⟨place, head.kind.tag.label, entries⟩ = .ok head.comment :=
    optionalText_of ((given "comment" (by decide)).trans (lookup_containerFields_comment head))
  rw [decode_container (Value.closeEntries_nil _) found (isContainer_tag _),
    decodeHead_of head given, inside, last]
  rfl

theorem recovers_container (recovers : ∀ member ∈ members, Recovers member) :
    Recovers (.container head members) := by
  obtain ⟨values, all, reads⟩ := exists_of_forall_recovers recovers
  refine ⟨_, encode_container head all, fun place => ?_⟩
  exact decode_container_of head place (tagOf?_object _ _) (fun name => field?_object _ _) reads

end Containers

/-- A tree of storable nodes is written, and what was written is read as the tree again. -/
theorem recovers_of_storable {node : Node}
    (storable : ∀ steps inner, node.at? steps = some inner → inner.Storable) : Recovers node := by
  induction node using Node.inductionOn with
  | container head members ih =>
      obtain ⟨-, below⟩ := Node.forall_at?_iff.mp storable
      exact recovers_container head fun member present => ih member present (below member present)
  | leaf node bare =>
      have own := storable [] node rfl
      match node with
      | .container _ _ => cases bare
      | .typeAlias decl => exact recovers_typeAlias decl
      | .binding decl => exact recovers_binding decl
      | .method decl => exact recovers_method decl
      | .alias decl => exact recovers_alias decl
      | .attribute decl => exact recovers_attribute decl
      | .mixin decl => exact recovers_mixin decl
      | .marker decl => exact recovers_marker decl
      | .unknown decl => exact recovers_unknown own
      | .foreign => exact own.elim

/-- What holds of every container and of every node that bears a visibility holds of all that a
sorted tree contains if it held of all that the tree contained. -/
theorem forall_at?_sortTree {property : Node → Prop}
    (containers : ∀ head members, property (.container head members))
    (bearers : ∀ node : Node, node.bearsVisibility → property node) (deep : Bool) {node : Node}
    (everywhere : ∀ steps inner, node.at? steps = some inner → property inner) :
    ∀ steps inner, (sortTree deep node).at? steps = some inner → property inner := by
  induction node using Node.inductionOn with
  | container head members ih =>
      obtain ⟨-, below⟩ := Node.forall_at?_iff.mp everywhere
      rw [Node.sortTree_container, Node.forall_at?_iff]
      refine ⟨containers _ _, fun member present => ?_⟩
      obtain ⟨given, inside, rfl⟩ := List.mem_map.mp present
      cases bears : given.bearsVisibility with
      | true =>
          have bare : given.isContainer = false := by
            cases given <;> first | rfl | cases bears
          rw [(Node.keepsHeads_sortInner deep).leaf given bare, Node.forall_at?_iff_of_leaf bare]
          exact bearers given bears
      | false =>
          have member := (mem_sortMembers_iff_of_not_bears bears
            (isMarker_of_mem_sortMembers inside)).mp inside
          cases deep with
          | false => exact below given member
          | true => exact ih given member (below given member)
  | leaf node bare =>
      rwa [(Node.keepsHeads_sortTree deep).leaf node bare]

/-- Sorting leaves no node behind that cannot be read back. -/
theorem storable_sortTree (deep : Bool) {node : Node}
    (storable : ∀ steps inner, node.at? steps = some inner → inner.Storable) :
    ∀ steps inner, (sortTree deep node).at? steps = some inner → inner.Storable := by
  refine forall_at?_sortTree (fun _ _ => trivial) (fun given bears => ?_) deep storable
  cases given with
  | method _ | «attribute» _ | «alias» _ => exact trivial
  | _ => cases bears

/-- **Writing and reading.** Declarations of nodes that are no foreign members, and of unknown nodes
that say what their entries say, are written one by one as objects that are read as the declarations
again, wherever they stand; so are they as a document, and so are they when they have been
sorted. -/
theorem decode_encode_of_storable (decls : List Node)
    (storable : ∀ decl ∈ decls, ∀ steps inner, decl.at? steps = some inner → inner.Storable) :
    (∀ decl ∈ decls, ∃ value, encode decl = .ok value ∧
      ∀ place, decode [] place value = .ok decl) ∧
    (∃ document, encodeDocument decls = .ok document ∧ decodeDocument document = .ok decls) ∧
    ∀ deep, ∃ document, encodeDocument (sortTrees deep decls) = .ok document ∧
      decodeDocument document = .ok (sortTrees deep decls) := by
  refine ⟨fun decl member => recovers_of_storable (storable decl member), ?_, fun deep => ?_⟩
  · exact exists_document fun decl member => recovers_of_storable (storable decl member)
  · refine exists_document fun decl member => ?_
    rw [Node.sortTrees_eq_map] at member
    obtain ⟨given, present, rfl⟩ := List.mem_map.mp member
    exact recovers_of_storable (storable_sortTree deep (storable given present))

/-- A class with a hidden section, a method in it, an annotation and a node of no tag at all. -/
private def annotatedClass : Node :=
  .container ⟨.classDecl (some "Base"), "C", ["T"], none⟩
    [.marker ⟨.hidden, none⟩, .method ⟨"x", .onSelf, ["() -> T"], none, some "note"⟩,
      .unknown ⟨"annotation", some "@a", .entries [(.str "tag", .str "annotation"),
        (.str "text", .str "@a"), (.str "args", .list none [.int 1, .null])], none⟩,
      .unknown ⟨"blank", none, .entries [], none⟩]

/-- The class is written in a document that is read as the class again. -/
theorem decode_encode_annotatedClass :
    (∀ decl ∈ [annotatedClass], ∀ steps inner, decl.at? steps = some inner → inner.Storable) ∧
      ∃ document, encodeDocument [annotatedClass] = .ok document ∧
        decodeDocument document = .ok [annotatedClass] := by
  have storable : ∀ decl ∈ [annotatedClass], ∀ steps inner, decl.at? steps = some inner →
      inner.Storable := by
    intro decl only
    obtain rfl := List.mem_singleton.mp only
    refine Node.forall_at?_iff.mpr ⟨trivial, fun member present => ?_⟩
    simp only [annotatedClass, Node.members, List.mem_cons, List.not_mem_nil, or_false] at present
    obtain rfl | rfl | rfl | rfl := present
    · exact (Node.forall_at?_iff_of_leaf rfl).mpr trivial
    · exact (Node.forall_at?_iff_of_leaf rfl).mpr trivial
    · exact (Node.forall_at?_iff_of_leaf rfl).mpr
        (.inr ⟨.str "annotation", rfl, rfl, rfl, rfl, rfl⟩)
    · exact (Node.forall_at?_iff_of_leaf rfl).mpr (.inl rfl)
  exact ⟨storable, (decode_encode_of_storable [annotatedClass] storable).2.1⟩

end Tree

end MemberOrder
