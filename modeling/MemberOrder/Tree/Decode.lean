import MemberOrder.Tree.Fault
import MemberOrder.Tree.Node
import MemberOrder.Value.Writable

/-!
# Reading nodes from values

`decode` reads a node from an object with a `tag`, the fields in the order of the node's kind and
the members between them; the first fault wins. An object of an unknown tag becomes an unknown node
with all its entries. `decodeDocument` reads a list of nodes, bare or under `declarations`.
-/

namespace MemberOrder

namespace Tree

/-- Why reading a tree stops. -/
inductive DecodeFault
  | tree (fault : TreeFault)
  /-- An object or a list of members holds itself as a member. -/
  | endless
  /-- A whole number that has to be shown has too many digits for that. -/
  | unshowable
deriving Repr

/-- The fields of one object. -/
structure Fields where
  place : Place
  tag : String
  entries : Entries

namespace Fields

def fail {α : Type} (fields : Fields) (cause : TreeCause) : Except DecodeFault α :=
  .error (.tree ⟨fields.place, cause⟩)

/-- A text that has to be there. -/
def text (fields : Fields) (name : String) : Except DecodeFault String :=
  match fields.entries.field? name with
  | none => fields.fail (.missingField name fields.tag)
  | some (.str s) => .ok s
  | some _ => fields.fail (.notText name)

/-- A text that may be missing or null. -/
def text? (fields : Fields) (name : String) : Except DecodeFault (Option String) :=
  match fields.entries.field? name with
  | none | some .null => .ok none
  | some (.str s) => .ok (some s)
  | some _ => fields.fail (.notText name)

/-- A list of texts, empty if it is missing. -/
def texts (fields : Fields) (name : String) : Except DecodeFault (List String) :=
  match fields.entries.field? name with
  | none => .ok []
  | some (.list _ items) =>
    match items.mapM Value.text? with
    | some texts => .ok texts
    | none => fields.fail (.notTexts name)
  | some _ => fields.fail (.notTexts name)

/-- The choice that a word names. -/
def choose {α : Type} (fields : Fields) (name : String) (label : α → String) (choices : List α)
    (value : Value) : Except DecodeFault α :=
  match choices.find? fun choice => value.text? == some (label choice) with
  | some choice => .ok choice
  | none =>
    if value.exceedsDigits then .error .unshowable
    else fields.fail (.badChoice name value (choices.map label))

/-- One of the choices, with the first of them for a missing field. -/
def choice {α : Type} (fields : Fields) (name : String) (label : α → String) (first : α)
    (others : List α) : Except DecodeFault α :=
  match fields.entries.field? name with
  | none => .ok first
  | some value => fields.choose name label (first :: others) value

/-- The visibility that an object states, if it does. -/
def visibility (fields : Fields) : Except DecodeFault (Option Visibility) :=
  match fields.entries.field? "visibility" with
  | none | some .null => .ok none
  | some value => do
    return some (← fields.choose "visibility" Visibility.label [.shown, .hidden] value)

def comment (fields : Fields) : Except DecodeFault (Option String) := fields.text? "comment"

end Fields

/-- What a container says before its members. -/
def decodeHead (fields : Fields) (tag : Tag) : Except DecodeFault Head := do
  let name ← fields.text "name"
  let typeParams ← fields.texts "type_params"
  let kind ← match tag with
    | .classDecl => ContainerKind.classDecl <$> fields.text? "super_class"
    | .moduleDecl => ContainerKind.moduleDecl <$> fields.texts "self_types"
    | _ => pure .interfaceDecl
  return ⟨kind, name, typeParams, none⟩

def decodeTypeAlias (fields : Fields) : Except DecodeFault Node := do
  let name ← fields.text "name"
  let type ← fields.text "type"
  let typeParams ← fields.texts "type_params"
  return .typeAlias ⟨name, type, typeParams, ← fields.comment⟩

def decodeBinding (kind : BindingKind) (fields : Fields) : Except DecodeFault Node := do
  let name ← fields.text "name"
  let type ← fields.text "type"
  return .binding ⟨kind, name, type, ← fields.comment⟩

def decodeMethod (fields : Fields) : Except DecodeFault Node := do
  let name ← fields.text "name"
  let kind ← fields.choice "kind" MethodKind.label .onInstance [.onSelf, .onBoth]
  let overloads ← fields.texts "overloads"
  let visibility ← fields.visibility
  return .method ⟨name, kind, overloads, visibility, ← fields.comment⟩

def decodeAlias (fields : Fields) : Except DecodeFault Node := do
  let newName ← fields.text "new_name"
  let oldName ← fields.text "old_name"
  let scope ← fields.choice "kind" Scope.label .onInstance [.onSelf]
  let visibility ← fields.visibility
  return .alias ⟨newName, oldName, scope, visibility, ← fields.comment⟩

def decodeAttribute (kind : AttributeKind) (fields : Fields) : Except DecodeFault Node := do
  let name ← fields.text "name"
  let type ← fields.text "type"
  let scope ← fields.choice "kind" Scope.label .onInstance [.onSelf]
  let variableName ← fields.text? "ivar_name"
  let visibility ← fields.visibility
  return .attribute ⟨kind, name, type, scope, variableName, visibility, ← fields.comment⟩

def decodeMixin (kind : MixinKind) (fields : Fields) : Except DecodeFault Node := do
  let name ← fields.text "name"
  let args ← fields.texts "args"
  return .mixin ⟨kind, name, args, ← fields.comment⟩

def decodeMarker (visibility : Visibility) (fields : Fields) : Except DecodeFault Node := do
  return .marker ⟨visibility, ← fields.comment⟩

/-- A node that names the tag of unknown nodes itself. Its payload is a text or null. -/
def decodeUnknown (fields : Fields) : Except DecodeFault Node := do
  let kind ← fields.text "kind"
  let text ← fields.text? "text"
  let payload ← match fields.entries.field? "payload" with
    | none => pure (Payload.entries [])
    | some _ => return .unknown ⟨kind, text,
        ((← fields.text? "payload").map Payload.text).getD .absent, ← fields.comment⟩
  return .unknown ⟨kind, text, payload, ← fields.comment⟩

/-- A node without members, by its tag. -/
def decodeLeaf (fields : Fields) : Tag → Except DecodeFault Node
  | .typeAlias => decodeTypeAlias fields
  | .constant => decodeBinding .constant fields
  | .global => decodeBinding .global fields
  | .classVariable => decodeBinding .classVariable fields
  | .classInstanceVariable => decodeBinding .classInstanceVariable fields
  | .instanceVariable => decodeBinding .instanceVariable fields
  | .method => decodeMethod fields
  | .alias => decodeAlias fields
  | .attrReader => decodeAttribute .reader fields
  | .attrWriter => decodeAttribute .writer fields
  | .attrAccessor => decodeAttribute .accessor fields
  | .includes => decodeMixin .includes fields
  | .prepends => decodeMixin .prepends fields
  | .extends => decodeMixin .extends fields
  | .publicMarker => decodeMarker .shown fields
  | .privateMarker => decodeMarker .hidden fields
  | .unknown | .classDecl | .moduleDecl | .interfaceDecl => decodeUnknown fields

/-- The node of an object whose tag is unknown. Its kind is the tag in words. -/
def keepUnknown (tag : Value) (entries : Entries) : Except DecodeFault Node :=
  let textOf (name : String) := (entries.field? name).bind Value.text?
  if tag.exceedsDigits then .error .unshowable
  else .ok (.unknown ⟨tag.display, textOf "text", .entries entries, textOf "comment"⟩)

/-- The known tag of an object: nothing if there is no tag, and otherwise the value of the tag and
what it names. -/
def tagOf? (entries : Entries) : Option (Value × Option Tag) :=
  (entries.field? "tag").map fun value => (value, value.text?.bind Tag.ofLabel?)

mutual

/-- The node that a value stands for. `scope` holds the nodes and lists of members around it. -/
def decode (scope : List (Nat × Value)) (place : Place) : Value → Except DecodeFault Node
  | .map mark entries =>
    let inside := Value.enter scope (.map mark entries) mark
    let closed := Value.closeEntries inside entries
    match tagOf? closed with
    | none => .error (.tree ⟨place, .missingTag⟩)
    | some (value, none) => keepUnknown value closed
    | some (_, some tag) =>
      let fields : Fields := ⟨place, tag.label, closed⟩
      if tag.isContainer then do
        let head ← decodeHead fields tag
        let members ← decodeMembers inside place entries
        return .container { head with comment := ← fields.comment } members
      else decodeLeaf fields tag
  | .back _ true => .error .endless
  | value => .error (.tree ⟨place, .notObject value.kindName⟩)

/-- The nodes under `members`; none if there is no such key. -/
def decodeMembers (scope : List (Nat × Value)) (place : Place) :
    List (Value × Value) → Except DecodeFault (List Node)
  | [] => .ok []
  | (key, value) :: rest =>
    if key.sameKey (.str "members") then decodeList scope place value
    else decodeMembers scope place rest

/-- The nodes of a list of members. -/
def decodeList (scope : List (Nat × Value)) (place : Place) :
    Value → Except DecodeFault (List Node)
  | .list mark items =>
    decodeItems (Value.enter scope (.list mark items) mark) place 0 items
  | .back _ false => .error .endless
  | _ => .error (.tree ⟨place, .membersNotList⟩)

/-- The nodes of the members from an index on. -/
def decodeItems (scope : List (Nat × Value)) (place : Place) (index : Nat) :
    List Value → Except DecodeFault (List Node)
  | [] => .ok []
  | item :: rest => do
    let node ← decode scope (place.member index) item
    return node :: (← decodeItems scope place (index + 1) rest)

end

/-- The nodes of a list that a word names, from an index on. -/
def decodeDeclarations (list : String) (index : Nat) : List Value → Except DecodeFault (List Node)
  | [] => .ok []
  | item :: rest => do
    let node ← decode [] (.item list index) item
    return node :: (← decodeDeclarations list (index + 1) rest)

/-- The list of declarations that a document holds, with its name. A declaration in which the
document or the list occurs holds all of it. -/
def declarationList (document : Value) : Except DecodeFault (String × List Value) :=
  match document with
  | .map mark entries =>
    let scope := Value.enter [] (.map mark entries) mark
    match Entries.field? entries "declarations" with
    | none => .error (.tree ⟨⟨"document", []⟩, .missingDeclarations⟩)
    | some (.list inner items) =>
      .ok ("declarations", Value.closeItems (Value.enter scope (.list inner items) inner) items)
    | some _ => .error (.tree ⟨⟨"declarations", []⟩, .declarationsNotList⟩)
  | .list mark items =>
    .ok ("document", Value.closeItems (Value.enter [] (.list mark items) mark) items)
  | _ => .error (.tree ⟨⟨"document", []⟩, .declarationsNotList⟩)

/-- The declarations of a document: a list of nodes or a map with one under `declarations`. A null
document has none. -/
def decodeDocument (document : Value) : Except DecodeFault (List Node) :=
  match document with
  | .null => .ok []
  | _ => do
    let (list, items) ← declarationList document
    decodeDeclarations list 0 items

/-- An object with an unknown tag that was met while reading. -/
structure Sighting where
  tag : Value
  place : Place

namespace Sighting

def message (sighting : Sighting) : String :=
  "Unknown tag " ++ sighting.tag.literal ++ " at " ++ sighting.place.text ++
    "; keeping it as an unknown member"

end Sighting

mutual

/-- The objects with an unknown tag that reading a value meets, up to its first fault. -/
def sightings (scope : List (Nat × Value)) (place : Place) : Value → List Sighting
  | .map mark entries =>
    let inside := Value.enter scope (.map mark entries) mark
    let closed := Value.closeEntries inside entries
    match tagOf? closed with
    | none => []
    | some (value, none) => [⟨value, place⟩]
    | some (_, some tag) =>
      if tag.isContainer && (decodeHead ⟨place, tag.label, closed⟩ tag).isOk then
        memberSightings inside place entries
      else []
  | _ => []

def memberSightings (scope : List (Nat × Value)) (place : Place) :
    List (Value × Value) → List Sighting
  | [] => []
  | (key, value) :: rest =>
    if key.sameKey (.str "members") then listSightings scope place value
    else memberSightings scope place rest

def listSightings (scope : List (Nat × Value)) (place : Place) : Value → List Sighting
  | .list mark items => itemSightings (Value.enter scope (.list mark items) mark) place 0 items
  | _ => []

def itemSightings (scope : List (Nat × Value)) (place : Place) (index : Nat) :
    List Value → List Sighting
  | [] => []
  | item :: rest =>
    sightings scope (place.member index) item ++
      if (decode scope (place.member index) item).isOk then
        itemSightings scope place (index + 1) rest
      else []

end

/-- The objects with an unknown tag that reading a list of declarations meets. -/
def declarationSightings (list : String) (index : Nat) : List Value → List Sighting
  | [] => []
  | item :: rest =>
    sightings [] (.item list index) item ++
      if (decode [] (.item list index) item).isOk then declarationSightings list (index + 1) rest
      else []

/-- The objects with an unknown tag that reading a document meets. -/
def documentSightings (document : Value) : List Sighting :=
  match declarationList document with
  | .ok (list, items) => declarationSightings list 0 items
  | .error _ => []

end Tree

end MemberOrder
