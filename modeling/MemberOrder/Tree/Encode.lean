import MemberOrder.Tree.Node

/-!
# Writing nodes as values

`encode` gives a node as an object: its tag, then the fields that differ from their default, in the
order of the node's kind. An unknown node with entries is written as those entries.
-/

namespace MemberOrder

namespace Tree

/-- Why a node has no value form. -/
inductive EncodeFault
  /-- An unknown node carries a text where its entries should be. -/
  | textPayload
  /-- A foreign member has no fields. -/
  | foreignMember
deriving DecidableEq, Repr

def EncodeFault.message : EncodeFault → String
  | .textPayload => "dictionary update sequence element #0 has length 1; 2 is required"
  | .foreignMember => "a foreign member has no fields"

/-- A field that is always written. -/
def textField (name value : String) : List (String × Value) := [(name, .str value)]

/-- A field that is written if it has a value. -/
def optionalField (name : String) : Option String → List (String × Value)
  | none => []
  | some value => [(name, .str value)]

/-- A list of texts that is written unless it is empty. -/
def textsField (name : String) (texts : List String) : List (String × Value) :=
  if texts.isEmpty then [] else [(name, .list none (texts.map Value.str))]

/-- A choice that is written unless it is the default. -/
def choiceField {α : Type} [DecidableEq α] (name : String) (label : α → String)
    (default value : α) : List (String × Value) :=
  if value = default then [] else [(name, .str (label value))]

def visibilityField (visibility : Option Visibility) : List (String × Value) :=
  optionalField "visibility" (visibility.map Visibility.label)

/-- What a container says before its members. -/
def headFields (head : Head) : List (String × Value) :=
  textField "name" head.name ++ textsField "type_params" head.typeParams ++
    match head.kind with
    | .classDecl superclass => optionalField "super_class" superclass
    | .moduleDecl selfTypes => textsField "self_types" selfTypes
    | .interfaceDecl => []

/-- An object with a tag. -/
def object (tag : Tag) (fields : List (String × Value)) : Value :=
  .map none (Entries.ofFields (("tag", .str tag.label) :: fields))

def encodeAttribute (decl : Attribute) : Value :=
  object decl.kind.tag <|
    textField "name" decl.name ++ textField "type" decl.type ++
      choiceField "kind" Scope.label .onInstance decl.scope ++
      optionalField "ivar_name" decl.variableName ++ visibilityField decl.visibility ++
      optionalField "comment" decl.comment

def encodeMethod (decl : Method) : Value :=
  object .method <|
    textField "name" decl.name ++ choiceField "kind" MethodKind.label .onInstance decl.kind ++
      textsField "overloads" decl.overloads ++ visibilityField decl.visibility ++
      optionalField "comment" decl.comment

def encodeAlias (decl : Alias) : Value :=
  object .alias <|
    textField "new_name" decl.newName ++ textField "old_name" decl.oldName ++
      choiceField "kind" Scope.label .onInstance decl.scope ++ visibilityField decl.visibility ++
      optionalField "comment" decl.comment

/-- The fields of an unknown node that has no entries; `payload` is what stands in their place. -/
def unknownObject (decl : Unknown) (payload : List (String × Value)) : Value :=
  object .unknown <|
    textField "kind" decl.kind ++ optionalField "text" decl.text ++ payload ++
      optionalField "comment" decl.comment

def encodeUnknown (decl : Unknown) : Except EncodeFault Value :=
  match decl.payload with
  | .entries [] => .ok (unknownObject decl [])
  | .entries entries => .ok (.map none entries)
  | .text text =>
    if text.isEmpty then .ok (unknownObject decl [("payload", .str text)])
    else .error .textPayload
  | .absent => .ok (unknownObject decl [("payload", .null)])

mutual

/-- A node as an object, with the given outcome for foreign members. -/
def encodeWith (foreign : Except EncodeFault Value) : Node → Except EncodeFault Value
  | .container head members => do
    let values ← encodeAllWith foreign members
    return object head.kind.tag <|
      headFields head ++ (if values.isEmpty then [] else [("members", .list none values)]) ++
        optionalField "comment" head.comment
  | .typeAlias decl => .ok <| object .typeAlias <|
      textField "name" decl.name ++ textField "type" decl.type ++
        textsField "type_params" decl.typeParams ++ optionalField "comment" decl.comment
  | .binding decl => .ok <| object decl.kind.tag <|
      textField "name" decl.name ++ textField "type" decl.type ++
        optionalField "comment" decl.comment
  | .method decl => .ok (encodeMethod decl)
  | .alias decl => .ok (encodeAlias decl)
  | .attribute decl => .ok (encodeAttribute decl)
  | .mixin decl => .ok <| object decl.kind.tag <|
      textField "name" decl.name ++ textsField "args" decl.args ++
        optionalField "comment" decl.comment
  | .marker decl => .ok <| object decl.visibility.markerTag (optionalField "comment" decl.comment)
  | .unknown decl => encodeUnknown decl
  | .foreign => foreign

def encodeAllWith (foreign : Except EncodeFault Value) :
    List Node → Except EncodeFault (List Value)
  | [] => .ok []
  | node :: rest => do
    let value ← encodeWith foreign node
    return value :: (← encodeAllWith foreign rest)

end

/-- A node as an object. A foreign member has none. -/
def encode (node : Node) : Except EncodeFault Value :=
  encodeWith (.error .foreignMember) node

/-- Declarations as a document. -/
def encodeDocument (decls : List Node) : Except EncodeFault Value := do
  let values ← encodeAllWith (.error .foreignMember) decls
  return .map none [(.str "declarations", .list none values)]

end Tree

end MemberOrder
