import MemberOrder.Proofs.Json.Writable
import MemberOrder.Proofs.Tree.KeptEntries

/-!
# Converting trees to JSON

JSON spells what unknown nodes keep in its own way. Declarations that were loaded from a text in
either format are dumped as JSON exactly if JSON has a form for what is kept, and are then loaded
again as the same declarations exactly if the kept tags are shown alike
(`Tree.loadText_of_dumpText_json`).
-/

namespace MemberOrder

/-- The entries of a map as JSON spells them. -/
def Entries.respelled (entries : Entries) : Entries :=
  Value.unite [] (Value.respelledFields entries)

namespace Value

theorem respelled_map (mark : Mark) (entries : Entries) :
    (map mark entries).respelled = .map none entries.respelled := by
  rw [respelled]
  rfl

theorem text?_respelled (value : Value) : value.respelled.text? = value.text? := by
  cases value <;> simp [respelled, text?]

section Names

variable {name : String}

/-- Whether a text is no number, truth value or null of JSON. -/
def IsWord (name : String) : Prop :=
  name ≠ "" ∧ name ≠ "true" ∧ name ≠ "false" ∧ name ≠ "null" ∧
    ∀ value, ¬Json.Reads name.toList value

theorem isWord_of_stuck (word : ["", "true", "false", "null"].contains name = false)
    (stuck : (Json.readValue (2 * name.toList.length + 1) ⟨name.toList, 0⟩).toOption.isNone) :
    IsWord name := by
  simp only [List.contains_eq_mem, decide_eq_false_iff_not, List.mem_cons, List.not_mem_nil,
    or_false, not_or] at word
  refine ⟨word.1, word.2.1, word.2.2.1, word.2.2.2, fun value reads => ?_⟩
  obtain ⟨place, given⟩ := reads.given (2 * name.toList.length + 1) 0 [] (by simp [Json.Ends])
    (by omega)
  rw [List.append_nil] at given
  rw [given] at stuck
  cases stuck

/-- No key but a text itself is spelled as a word. -/
theorem eq_str_of_keyName {key : Value} (word : IsWord name) (spelled : key.keyName = name) :
    key = .str name := by
  obtain ⟨some, notTrue, notFalse, notNull, unread⟩ := word
  cases key with
  | str s => exact congrArg Value.str spelled
  | bool b =>
      cases b with
      | true => exact absurd spelled.symm notTrue
      | false => exact absurd spelled.symm notFalse
  | null => exact absurd spelled.symm notNull
  | int n =>
      unfold keyName at spelled
      cases made : Json.keyText (.int n) with
      | error fault =>
          rw [made] at spelled
          exact absurd spelled.symm some
      | ok text =>
          rw [made] at spelled
          cases spelled
          exact absurd (Json.reads_wholeText made) (unread _)
  | float x =>
      have reads := @Json.returns_float .document x 0 _ rfl
      rw [show x.text .named = name from spelled] at reads
      exact absurd reads (unread _)
  | _ => exact absurd spelled.symm some

theorem isWord_tag : IsWord "tag" := isWord_of_stuck (by decide) (by decide)

theorem isWord_text : IsWord "text" := isWord_of_stuck (by decide) (by decide)

theorem isWord_comment : IsWord "comment" := isWord_of_stuck (by decide) (by decide)

/-- The value of a word is that of the entry with the word as its key, or what was there before. -/
theorem field?_unite (word : IsWord name) {entries before : Entries} (distinct : entries.Distinct) :
    (unite before (respelledFields entries)).field? name =
      ((entries.field? name).map respelled).or (before.field? name) := by
  induction entries generalizing before with
  | nil => rfl
  | cons entry rest ih =>
      obtain ⟨key, value⟩ := entry
      obtain ⟨fresh, distinct⟩ := Entries.distinct_cons.mp distinct
      have step : unite before (respelledFields ((key, value) :: rest)) =
          unite (before.put (.str key.keyName) value.respelled) (respelledFields rest) := by
        rw [respelledFields]
        rfl
      rw [step, ih distinct, Entries.field?_put, Entries.field?_cons]
      by_cases named : key = .str name
      · have later : Entries.field? rest name = none := by
          cases found : Entries.field? rest name with
          | none => rfl
          | some held => exact absurd rfl (fresh name named _ (Entries.mem_of_field? found))
        rw [later, if_pos (by rw [named]; rfl), if_pos (sameKey_str_iff.mpr named)]
        rfl
      · have other : name ≠ key.keyName := fun same => named (eq_str_of_keyName word same.symm)
        rw [if_neg other, if_neg fun same => named (sameKey_str_iff.mp same)]

end Names

end Value

namespace Entries

variable {entries : Entries} {name : String}

theorem field?_respelled (word : Value.IsWord name) (distinct : entries.Distinct) :
    entries.respelled.field? name = (entries.field? name).map Value.respelled := by
  rw [respelled, Value.field?_unite word distinct]
  exact Option.or_none

theorem text_respelled (word : Value.IsWord name) (distinct : entries.Distinct) :
    (entries.respelled.field? name).bind Value.text? =
      (entries.field? name).bind Value.text? := by
  rw [field?_respelled word distinct]
  cases entries.field? name with
  | none => rfl
  | some value => exact value.text?_respelled

theorem respelled_ne_nil (some : entries ≠ []) : entries.respelled ≠ [] := by
  have grows (fields : List (String × Value)) {before : Entries} (some : before ≠ []) :
      Value.unite before fields ≠ [] := by
    induction fields generalizing before with
    | nil => exact some
    | cons field rest ih =>
        refine ih fun empty => ?_
        cases before with
        | nil => exact some rfl
        | cons entry others =>
            obtain ⟨key, value⟩ := entry
            simp only [put] at empty
            split at empty <;> cases empty
  cases entries with
  | nil => exact absurd rfl some
  | cons entry rest =>
      obtain ⟨key, value⟩ := entry
      rw [respelled, Value.respelledFields]
      exact @grows _ [(.str key.keyName, value.respelled)] (List.cons_ne_nil _ _)

end Entries

/-- An unknown node that says what entries say. -/
def Unknown.saying (entries : Entries) : Unknown where
  kind := ((entries.field? "tag").map Value.display).getD ""
  text := (entries.field? "text").bind Value.text?
  payload := .entries entries
  comment := (entries.field? "comment").bind Value.text?

/-- An unknown node as JSON spells what it keeps. -/
def Unknown.respelled (decl : Unknown) : Unknown :=
  match decl.payload with
  | .entries (entry :: rest) => .saying (Entries.respelled (entry :: rest))
  | _ => decl

/-- Whether JSON has a form for what an unknown node keeps. -/
def Unknown.IsWritable (decl : Unknown) : Prop :=
  match decl.payload with
  | .entries entries => (Value.map none entries).isWritable
  | .text text => text.isEmpty
  | .absent => True

namespace Node

mutual

/-- A node whose unknown members are as JSON spells them. -/
def respelled : Node → Node
  | .container head members => .container head (respelledAll members)
  | .unknown decl => .unknown decl.respelled
  | node => node

def respelledAll : List Node → List Node
  | [] => []
  | node :: rest => node.respelled :: respelledAll rest

end

theorem respelledAll_eq_map (nodes : List Node) : respelledAll nodes = nodes.map respelled := by
  induction nodes with
  | nil => rfl
  | cons node rest ih => rw [respelledAll, ih]; rfl

/-- Whether JSON has a form for what a node keeps. -/
def IsWritable : Node → Prop
  | .unknown decl => decl.IsWritable
  | _ => True

/-- Whether JSON shows the tag of what an unknown node keeps as it is shown. -/
def ShownAlike : Node → Prop
  | .unknown decl => ∀ entries tag, decl.payload = .entries entries →
      entries.field? "tag" = some tag → tag.respelled.display = tag.display
  | _ => True

end Node

namespace Unknown

variable {decl : Unknown} {entries : Entries}

theorem respelled_of_entries (kept : decl.payload = .entries entries) (some : entries ≠ []) :
    decl.respelled = .saying entries.respelled := by
  unfold respelled
  rw [kept]
  cases entries with
  | nil => exact absurd rfl some
  | cons entry rest => rfl

theorem respelled_of_bare (bare : ∀ entries, decl.payload = .entries entries → entries = []) :
    decl.respelled = decl := by
  unfold respelled
  split
  · next kept => cases bare _ kept
  · rfl

/-- What is spelled by JSON says what its entries say. -/
theorem Mirrors.respelled (mirrors : decl.Mirrors entries) (distinct : entries.Distinct)
    (writable : (Value.map none entries).isWritable) :
    (saying entries.respelled).Mirrors entries.respelled := by
  obtain ⟨tag, found, short, -, -, -⟩ := mirrors
  obtain ⟨value, field, same⟩ := Option.map_eq_some_iff.mp found
  obtain ⟨rfl, unregistered⟩ := Prod.mk.inj same
  have again := Entries.field?_respelled Value.isWord_tag distinct
  rw [field] at again
  have writableTag : value.isWritable :=
    (Value.holdWritable_iff.mp (by simpa [Value.isWritable] using writable) _
      (Entries.mem_of_field? field)).2
  refine ⟨value.respelled, ?_, Json.short_respelled writableTag, ?_, rfl, rfl⟩
  · rw [Tree.tagOf?, again]
    simp only [Option.map_some, Value.text?_respelled, unregistered]
  · rw [saying, again]
    rfl

/-- JSON spells an unknown node as the same one exactly if it shows the tag alike. -/
theorem respelled_same_iff (kept : (Node.unknown decl).Kept) :
    (Node.unknown decl.respelled).same (.unknown decl) ↔ (Node.unknown decl).ShownAlike := by
  by_cases bare : ∀ entries, decl.payload = .entries entries → entries = []
  · rw [respelled_of_bare bare]
    refine iff_of_true (Node.same_refl _) fun entries tag same found => ?_
    rw [bare entries same] at found
    cases found
  · simp only [not_forall] at bare
    obtain ⟨entries, same, some⟩ := bare
    obtain ⟨⟨tag, found, short, kind, text, comment⟩, distinct⟩ :=
      (kept entries same).resolve_left some
    obtain ⟨value, field, pair⟩ := Option.map_eq_some_iff.mp found
    obtain ⟨rfl, -⟩ := Prod.mk.inj pair
    have shown : (Node.unknown decl).ShownAlike ↔ value.respelled.display = value.display := by
      constructor
      · exact fun alike => alike entries value same field
      · intro alike others tag sameOthers foundTag
        rw [same] at sameOthers
        cases sameOthers
        rw [field] at foundTag
        cases foundTag
        exact alike
    rw [shown, respelled_of_entries same some, Node.same, saying,
      Entries.text_respelled Value.isWord_text distinct,
      Entries.text_respelled Value.isWord_comment distinct,
      Entries.field?_respelled Value.isWord_tag distinct, field, text, comment, kind]
    simp

end Unknown

namespace Tree

/-- Whether JSON has a form for what everything in a tree keeps. -/
def WritableWithin (node : Node) : Prop :=
  ∀ steps inner, node.at? steps = some inner → inner.IsWritable

/-- Whether JSON shows all tags that are kept in a tree as they are shown. -/
def ShownAlikeWithin (node : Node) : Prop :=
  ∀ steps inner, node.at? steps = some inner → inner.ShownAlike

section Values

variable {tag : Tag} {names : List String} {fields : List (String × Value)} {value : Value}
  {node : Node}

theorem respelled_object (named : (fields.map Prod.fst).Sublist names)
    (distinct : ("tag" :: names).Nodup) : (object tag fields).respelled =
      object tag (fields.map fun field => (field.1, field.2.respelled)) := by
  have own : (Value.str tag.label).respelled = .str tag.label := (Value.Readable.str _).respelled_eq
  have spelled : Value.respelledFields (Entries.ofFields (("tag", .str tag.label) :: fields)) =
      ("tag", .str tag.label) :: fields.map fun field => (field.1, field.2.respelled) := by
    rw [Value.respelledFields_eq_map, Entries.ofFields, List.map_map, List.map_cons]
    exact congrArg₂ List.cons (Prod.ext rfl own) rfl
  rw [object, Value.respelled_map, Entries.respelled, spelled]
  refine congrArg _ (@Value.unite_of_nodup _ [] ?_)
  rw [List.nil_append, List.map_cons, List.map_map]
  exact (named.cons_cons "tag").nodup distinct

theorem isWritable_object :
    (object tag fields).isWritable ↔ ∀ field ∈ fields, field.2.isWritable := by
  rw [object, Value.isWritable, Value.holdWritable_iff]
  constructor
  · intro each field member
    exact (each _ (List.mem_map_of_mem (List.mem_cons_of_mem _ member))).2
  · intro each entry member
    obtain ⟨field, listed, rfl⟩ := List.mem_map.mp member
    refine ⟨rfl, ?_⟩
    obtain rfl | later := List.mem_cons.mp listed
    · rfl
    · exact each field later

theorem isWritable_of_textual (textual : value.Textual) : value.isWritable := by
  cases textual with
  | null | text => rfl
  | texts given =>
      rw [Value.isWritable, Value.areWritable_iff]
      intro item member
      obtain ⟨text, -, rfl⟩ := List.mem_map.mp member
      rfl

theorem WrittenPlainly.isWritable (plainly : WrittenPlainly node)
    (written : encode node = .ok value) : value.isWritable := by
  obtain ⟨tag, names, fields, object, plain, -⟩ := plainly
  rw [written] at object
  cases object
  exact isWritable_object.mpr fun field member =>
    isWritable_of_textual (plain.textual field member)

end Values

section Encoding

variable {node : Node} {nodes : List Node} {value : Value} {values : List Value}

theorem encodeAll_respelled
    (each : ∀ node ∈ nodes, ∀ value, encode node = .ok value →
      encode node.respelled = .ok value.respelled)
    (all : encodeAllWith (.error .foreignMember) nodes = .ok values) :
    encodeAllWith (.error .foreignMember) (Node.respelledAll nodes) =
      .ok (values.map Value.respelled) := by
  rw [Node.respelledAll_eq_map, encodeAllWith_eq_ok_iff, List.forall₂_map_left_iff,
    List.forall₂_map_right_iff]
  have pairs := encodeAllWith_eq_ok_iff.mp all
  clear all
  induction pairs with
  | nil => exact .nil
  | cons first _ ih =>
      obtain ⟨own, others⟩ := List.forall_mem_cons.mp each
      exact .cons (own _ first) (ih others)

/-- What a node is written as is spelled like what its spelling is written as. -/
theorem encode_respelled (written : encode node = .ok value) :
    encode node.respelled = .ok value.respelled := by
  induction node using Node.inductionOn generalizing value with
  | container head members ih =>
      obtain ⟨values, all, rfl⟩ := exists_of_encode_container written
      have spelled := encodeAll_respelled (fun member inside _ => ih member inside) all
      have plain {given : List (String × Value)} {names : List String}
          (plain : Plain names given) :
          given.map (fun field => (field.1, field.2.respelled)) = given := by
        conv_rhs => rw [← List.map_id given]
        exact List.map_congr_left fun field member =>
          Prod.ext rfl (plain.textual field member).readable.respelled_eq
      rw [Node.respelled, encode, encode_container head spelled,
        respelled_object (named_containerFields head values) (by decide), containerFields,
        containerFields, List.map_append, List.map_append, plain (plain_headFields head),
        plain (plain_optionalField "comment" head.comment)]
      cases values with
      | nil => rfl
      | cons value rest =>
          simp [membersField, Value.respelled, Value.respelledItems_eq_map]
  | leaf node bare =>
      cases node with
      | container _ _ => cases bare
      | foreign => cases written
      | unknown decl =>
          obtain ⟨entries, kept, some, object⟩ | ⟨text, -, -, fails⟩ | ⟨plainly, bare, -⟩ :=
            encode_unknown_cases decl
          · rw [written] at object
            cases object
            rw [Node.respelled, Unknown.respelled_of_entries kept some, Value.respelled_map]
            obtain ⟨entry, rest, same⟩ := List.exists_cons_of_ne_nil (Entries.respelled_ne_nil some)
            rw [same]
            rfl
          · rw [written] at fails
            cases fails
          · rw [Node.respelled, Unknown.respelled_of_bare bare, written,
              (plainly.readable written).respelled_eq]
      | _ =>
          have plainly := writtenPlainly_of_leaf bare (by simp) (by simp)
          simp only [Node.respelled, written, (plainly.readable written).respelled_eq]

/-- Nodes are written as values that JSON has a form for exactly if each of them is. -/
theorem exists_encodeAll_iff {property : Node → Prop}
    (each : ∀ node ∈ nodes, (∃ value, encode node = .ok value ∧ value.isWritable) ↔ property node) :
    (∃ values, encodeAllWith (.error .foreignMember) nodes = .ok values ∧
      ∀ value ∈ values, value.isWritable) ↔ ∀ node ∈ nodes, property node := by
  constructor
  · rintro ⟨values, all, writable⟩ node member
    obtain ⟨value, listed, written⟩ := exists_of_mem_left (encodeAllWith_eq_ok_iff.mp all) member
    exact (each node member).mp ⟨value, written, writable value listed⟩
  · intro holds
    induction nodes with
    | nil => exact ⟨[], rfl, List.forall_mem_nil _⟩
    | cons node rest ih =>
        obtain ⟨first, others⟩ := List.forall_mem_cons.mp each
        obtain ⟨own, later⟩ := List.forall_mem_cons.mp holds
        obtain ⟨value, written, writable⟩ := first.mpr own
        obtain ⟨values, all, allWritable⟩ := ih others later
        refine ⟨value :: values, ?_, List.forall_mem_cons.mpr ⟨writable, allWritable⟩⟩
        exact encodeAllWith_eq_ok_iff.mpr (.cons written (encodeAllWith_eq_ok_iff.mp all))

theorem isWritable_container {head : Head} :
    (object head.kind.tag (containerFields head values)).isWritable ↔
      ∀ value ∈ values, value.isWritable := by
  rw [isWritable_object]
  constructor
  · intro writable value inside
    have held : ("members", Value.list none values) ∈ containerFields head values := by
      cases values with
      | nil => cases inside
      | cons value rest => simp [containerFields, membersField]
    have list := writable _ held
    rw [Value.isWritable, Value.areWritable_iff] at list
    exact list value inside
  · intro writable
    refine forall_containerFields (fun _ textual => isWritable_of_textual textual) fun _ => ?_
    rw [Value.isWritable, Value.areWritable_iff]
    exact writable

/-- An unknown node is written as a value that JSON has a form for exactly if it keeps no text and
JSON has a form for the entries that it keeps. -/
theorem exists_encode_unknown_iff (decl : Unknown) :
    (∃ value, encode (.unknown decl) = .ok value ∧ value.isWritable) ↔ decl.IsWritable := by
  unfold Unknown.IsWritable
  obtain ⟨entries, same, some, object⟩ | ⟨text, same, full, fails⟩ | ⟨plainly, bare, empty⟩ :=
    encode_unknown_cases decl
  · rw [same, object]
    simp
  · rw [same, fails]
    simp [full]
  · obtain ⟨tag, names, fields, object, plain, distinct⟩ := id plainly
    refine iff_of_true ⟨_, object, plainly.isWritable object⟩ ?_
    split
    · next entries same =>
        rw [bare entries same]
        rfl
    · next text same => exact empty text same
    · trivial

/-- A node is written as a value that JSON has a form for exactly if JSON has one for everything
that is kept in it. -/
theorem exists_encode_iff (kept : KeptWithin node) :
    (∃ value, encode node = .ok value ∧ value.isWritable) ↔ WritableWithin node := by
  induction node using Node.inductionOn with
  | container head members ih =>
      obtain ⟨-, keptMembers⟩ := Node.forall_at?_iff.mp kept
      have each := exists_encodeAll_iff fun member inside => ih member inside (keptMembers _ inside)
      rw [WritableWithin, Node.forall_at?_iff]
      refine Iff.trans ?_ (each.trans (and_iff_right trivial).symm)
      constructor
      · rintro ⟨value, written, writable⟩
        obtain ⟨values, all, rfl⟩ := exists_of_encode_container written
        exact ⟨values, all, isWritable_container.mp writable⟩
      · rintro ⟨values, all, writable⟩
        exact ⟨_, encode_container head all, isWritable_container.mpr writable⟩
  | leaf node bare =>
      rw [WritableWithin, Node.forall_at?_iff_of_leaf bare]
      cases node with
      | container _ _ => cases bare
      | foreign => exact (kept [] _ rfl).elim
      | unknown decl => exact exists_encode_unknown_iff decl
      | _ =>
          have plainly := writtenPlainly_of_leaf bare (by simp) (by simp)
          obtain ⟨tag, names, fields, object, plain, distinct⟩ := id plainly
          exact iff_of_true ⟨_, object, plainly.isWritable object⟩ trivial

/-- Nodes that keep what they say, and for all of which JSON has a form, are spelled as nodes that
can have been read from a JSON text. -/
theorem loaded_respelled (kept : KeptWithin node) (writable : WritableWithin node) :
    ∀ steps inner, node.respelled.at? steps = some inner → inner.Loaded := by
  induction node using Node.inductionOn with
  | container head members ih =>
      obtain ⟨-, keptMembers⟩ := Node.forall_at?_iff.mp kept
      obtain ⟨-, writableMembers⟩ := Node.forall_at?_iff.mp writable
      refine Node.forall_at?_iff.mpr ⟨trivial, fun member inside => ?_⟩
      rw [Node.respelled, Node.members, Node.respelledAll_eq_map] at inside
      obtain ⟨before, present, rfl⟩ := List.mem_map.mp inside
      exact ih before present (keptMembers before present) (writableMembers before present)
  | leaf node bare =>
      cases node with
      | container _ _ => cases bare
      | foreign => exact (kept [] _ rfl).elim
      | unknown decl =>
          refine (Node.forall_at?_iff_of_leaf rfl).mpr (?_ : decl.respelled.Loaded)
          by_cases bare : ∀ entries, decl.payload = .entries entries → entries = []
          · rw [Unknown.respelled_of_bare bare]
            exact fun entries same => .inl (bare entries same)
          · simp only [not_forall] at bare
            obtain ⟨entries, same, some⟩ := bare
            obtain ⟨mirrors, distinct⟩ := (kept [] _ rfl entries same).resolve_left some
            have form : (Value.map none entries).isWritable := by
              have own : decl.IsWritable := writable [] _ rfl
              unfold Unknown.IsWritable at own
              rwa [same] at own
            rw [Unknown.respelled_of_entries same some]
            intro others spelled
            cases spelled
            have readable := Json.readable_respelled form
            rw [Value.respelled_map] at readable
            exact .inr ⟨mirrors.respelled distinct form, readable⟩
      | _ =>
          exact (Node.forall_at?_iff_of_leaf rfl).mpr trivial

theorem respelled_same_iff (kept : KeptWithin node) :
    node.respelled.same node ↔ ShownAlikeWithin node := by
  induction node using Node.inductionOn with
  | container head members ih =>
      obtain ⟨-, keptMembers⟩ := Node.forall_at?_iff.mp kept
      have agree := Node.sameAll_map_map_iff Node.respelled id members
      rw [List.map_id, ← Node.respelledAll_eq_map] at agree
      rw [Node.respelled, Node.same, Bool.and_eq_true, and_iff_right (by simp), agree,
        ShownAlikeWithin, Node.forall_at?_iff]
      refine Iff.trans ?_ (and_iff_right trivial).symm
      exact forall₂_congr fun member inside => ih member inside (keptMembers member inside)
  | leaf node bare =>
      rw [ShownAlikeWithin, Node.forall_at?_iff_of_leaf bare]
      cases node with
      | container _ _ => cases bare
      | foreign => exact (kept [] _ rfl).elim
      | unknown decl => exact Unknown.respelled_same_iff (kept [] _ rfl)
      | _ =>
          exact iff_of_true (Node.same_refl _) trivial

theorem kept_sortTree (deep : Bool) (kept : KeptWithin node) : KeptWithin (sortTree deep node) := by
  refine forall_at?_sortTree (fun _ _ => trivial) (fun given bears => ?_) deep kept
  cases given with
  | method _ | «attribute» _ | «alias» _ => exact trivial
  | _ => cases bears

theorem writable_sortTree (deep : Bool) (writable : WritableWithin node) :
    WritableWithin (sortTree deep node) := by
  refine forall_at?_sortTree (fun _ _ => trivial) (fun given bears => ?_) deep writable
  cases given with
  | method _ | «attribute» _ | «alias» _ => exact trivial
  | _ => cases bears

end Encoding

section Documents

variable {decls : List Node} {dumped : String}

/-- Declarations have a JSON text exactly if JSON has a form for everything that is kept in them. -/
theorem exists_dumpText_json_iff (kept : ∀ decl ∈ decls, KeptWithin decl) :
    (∃ dumped, dumpText "json" decls = .ok dumped) ↔ ∀ decl ∈ decls, WritableWithin decl := by
  rw [← exists_encodeAll_iff fun decl member => exists_encode_iff (kept decl member)]
  have document (values : List Value) :
      (Value.map none [(.str "declarations", .list none values)]).isWritable ↔
        ∀ value ∈ values, value.isWritable := by
    simp [Value.isWritable, Value.holdWritable, Value.isWritableKey, Value.isScalar,
      Value.exceedsDigits, Value.areWritable_iff]
  cases all : encodeAllWith (.error .foreignMember) decls with
  | error fault =>
      have fails : dumpText "json" decls = .error (.encode fault) := by
        rw [dumpText, encodeDocument, all]
        rfl
      simp [fails]
  | ok values =>
      have written : dumpText "json" decls =
          writeText .json (.map none [(.str "declarations", .list none values)]) := by
        rw [dumpText, encodeDocument, all]
        rfl
      have text := (@Json.exists_write_iff .document _).trans (document values)
      simp only [Except.ok.injEq, exists_eq_left', ← text, written, writeText]
      cases Json.write .document (.map none [(.str "declarations", .list none values)]) <;> simp

/-- Declarations are dumped in either format if JSON has a form for everything that is kept. -/
theorem exists_dumpText (format : Format) (kept : ∀ decl ∈ decls, KeptWithin decl)
    (writable : ∀ decl ∈ decls, WritableWithin decl) :
    ∃ dumped, dumpText format.label decls = .ok dumped := by
  cases format with
  | json => exact (exists_dumpText_json_iff kept).mpr writable
  | yaml =>
      obtain ⟨values, all, each⟩ := (exists_encodeAll_iff fun decl member =>
        exists_encode_iff (kept decl member)).mpr writable
      have written : encodeDocument decls =
          .ok (.map none [(.str "declarations", .list none values)]) := by
        rw [encodeDocument, all]
        rfl
      have short : (Value.map none [(.str "declarations", .list none values)]).exceedsDigits =
          false := by
        refine Value.exceedsDigits_of_isWritable _ ?_
        simpa [Value.isWritable, Value.holdWritable, Value.isWritableKey, Value.isScalar,
          Value.exceedsDigits, Value.areWritable_iff] using each
      have dumps : dumpText Format.yaml.label decls =
          writeText .yaml (.map none [(.str "declarations", .list none values)]) := by
        rw [dumpText, written]
        rfl
      rw [dumps, writeText, short]
      exact ⟨_, rfl⟩

/-- What is dumped as JSON is loaded as JSON spells it. -/
theorem loadText_respelled (kept : ∀ decl ∈ decls, KeptWithin decl)
    (dumps : dumpText "json" decls = .ok dumped) :
    loadText "json" dumped = .ok (decls.map Node.respelled) := by
  have writable := (exists_dumpText_json_iff kept).mp ⟨dumped, dumps⟩
  unfold dumpText at dumps
  split at dumps
  · cases dumps
  · next value written =>
      obtain ⟨values, all, made⟩ := bind_eq_ok_iff.mp written
      cases made
      have spelled : encodeDocument (decls.map Node.respelled) =
          .ok (.map none [(.str "declarations", .list none (values.map Value.respelled))]) := by
        rw [encodeDocument, ← Node.respelledAll_eq_map,
          encodeAll_respelled (fun _ _ _ => encode_respelled) all]
        rfl
      have loaded : ∀ decl ∈ decls.map Node.respelled, ∀ steps inner,
          decl.at? steps = some inner → inner.Loaded := by
        intro decl member
        obtain ⟨before, present, rfl⟩ := List.mem_map.mp member
        exact loaded_respelled (kept before present) (writable before present)
      obtain ⟨-, -, decoded⟩ := decodeDocument_of_encodeDocument loaded spelled
      rw [(loadText_of_writeText dumps).1, Value.respelled_map, Entries.respelled,
        Value.respelledFields, Value.respelledFields, Value.respelled, Value.respelledItems_eq_map]
      change loadValue (.map none [(.str "declarations", _)]) = _
      rw [loadValue, decoded]

end Documents

end Tree

end MemberOrder
