import MemberOrder.Value.Basic

/-!
# Declaration trees

A signature file is a list of nodes. Classes, modules and interfaces are containers with a list of
members; every other node is a leaf. Nodes of a tag that is not known are kept with all that they
said, and a foreign member stands for something that is no node at all.
-/

namespace MemberOrder

/-- Who may call a method. -/
inductive Visibility
  | shown
  | hidden
deriving DecidableEq, Repr

/-- Whether a name belongs to the object itself or to its instances. -/
inductive Scope
  | onInstance
  | onSelf
deriving DecidableEq, Repr

/-- Where a method is defined; a module function is defined in both scopes. -/
inductive MethodKind
  | onInstance
  | onSelf
  | onBoth
deriving DecidableEq, Repr

/-- What is special about each kind of container. -/
inductive ContainerKind
  | classDecl (superclass : Option String)
  | moduleDecl (selfTypes : List String)
  | interfaceDecl
deriving DecidableEq, Repr

/-- A container without its members. -/
structure Head where
  kind : ContainerKind
  name : String
  typeParams : List String
  comment : Option String
deriving DecidableEq, Repr

structure TypeAlias where
  name : String
  type : String
  typeParams : List String
  comment : Option String
deriving DecidableEq, Repr

/-- The kinds of name that are declared with nothing but a type. -/
inductive BindingKind
  | constant
  | global
  | classVariable
  | classInstanceVariable
  | instanceVariable
deriving DecidableEq, Repr

structure Binding where
  kind : BindingKind
  name : String
  type : String
  comment : Option String
deriving DecidableEq, Repr

structure Method where
  name : String
  kind : MethodKind
  overloads : List String
  visibility : Option Visibility
  comment : Option String
deriving DecidableEq, Repr

structure Alias where
  newName : String
  oldName : String
  scope : Scope
  visibility : Option Visibility
  comment : Option String
deriving DecidableEq, Repr

inductive AttributeKind
  | reader
  | writer
  | accessor
deriving DecidableEq, Repr

/-- An attribute. Its variable is the default one, none at all (the empty name) or a named one. -/
structure Attribute where
  kind : AttributeKind
  name : String
  type : String
  scope : Scope
  variableName : Option String
  visibility : Option Visibility
  comment : Option String
deriving DecidableEq, Repr

inductive MixinKind
  | includes
  | prepends
  | extends
deriving DecidableEq, Repr

structure Mixin where
  kind : MixinKind
  name : String
  args : List String
  comment : Option String
deriving DecidableEq, Repr

/-- A line that sets the visibility of the members after it. -/
structure Marker where
  visibility : Visibility
  comment : Option String
deriving DecidableEq, Repr

/-- What a node of an unknown tag said. -/
inductive Payload
  | entries (entries : Entries)
  /-- A text in place of the entries. -/
  | text (text : String)
  /-- An explicit absence in place of the entries. -/
  | absent
deriving Repr

/-- A node of an unknown tag. -/
structure Unknown where
  kind : String
  text : Option String
  payload : Payload
  comment : Option String
deriving Repr

inductive Node
  | container (head : Head) (members : List Node)
  | typeAlias (decl : TypeAlias)
  | binding (decl : Binding)
  | method (decl : Method)
  | alias (decl : Alias)
  | attribute (decl : Attribute)
  | mixin (decl : Mixin)
  | marker (decl : Marker)
  | unknown (decl : Unknown)
  /-- A member that is no node. -/
  | foreign
deriving Repr, Inhabited

namespace Visibility

def label : Visibility → String
  | .shown => "public"
  | .hidden => "private"

end Visibility

namespace Scope

def label : Scope → String
  | .onInstance => "instance"
  | .onSelf => "singleton"

end Scope

namespace MethodKind

def label : MethodKind → String
  | .onInstance => "instance"
  | .onSelf => "singleton"
  | .onBoth => "singleton_instance"

end MethodKind

namespace Method

/-- Whether the method makes or sets up an object. -/
def isConstructor (m : Method) : Bool :=
  match m.kind with
  | .onSelf => m.name == "new"
  | .onInstance => m.name == "initialize"
  | .onBoth => false

end Method

/-- The tags of the known nodes. -/
inductive Tag
  | classDecl
  | moduleDecl
  | interfaceDecl
  | typeAlias
  | constant
  | global
  | method
  | alias
  | attrReader
  | attrWriter
  | attrAccessor
  | includes
  | prepends
  | extends
  | classVariable
  | classInstanceVariable
  | instanceVariable
  | publicMarker
  | privateMarker
  | unknown
deriving DecidableEq, Repr

namespace Tag

def all : List Tag :=
  [.classDecl, .moduleDecl, .interfaceDecl, .typeAlias, .constant, .global, .method, .alias,
    .attrReader, .attrWriter, .attrAccessor, .includes, .prepends, .extends, .classVariable,
    .classInstanceVariable, .instanceVariable, .publicMarker, .privateMarker, .unknown]

/-- The word that names a tag in documents. -/
def label : Tag → String
  | .classDecl => "class"
  | .moduleDecl => "module"
  | .interfaceDecl => "interface"
  | .typeAlias => "type_alias"
  | .constant => "constant"
  | .global => "global"
  | .method => "method"
  | .alias => "alias"
  | .attrReader => "attr_reader"
  | .attrWriter => "attr_writer"
  | .attrAccessor => "attr_accessor"
  | .includes => "include"
  | .prepends => "prepend"
  | .extends => "extend"
  | .classVariable => "class_variable"
  | .classInstanceVariable => "class_instance_variable"
  | .instanceVariable => "instance_variable"
  | .publicMarker => "public"
  | .privateMarker => "private"
  | .unknown => "unknown"

/-- The tag that a word names. -/
def ofLabel? (word : String) : Option Tag :=
  all.find? fun tag => tag.label == word

/-- Whether nodes of the tag have members. -/
def isContainer : Tag → Bool
  | .classDecl | .moduleDecl | .interfaceDecl => true
  | _ => false

end Tag

namespace ContainerKind

def tag : ContainerKind → Tag
  | .classDecl _ => .classDecl
  | .moduleDecl _ => .moduleDecl
  | .interfaceDecl => .interfaceDecl

end ContainerKind

namespace BindingKind

def tag : BindingKind → Tag
  | .constant => .constant
  | .global => .global
  | .classVariable => .classVariable
  | .classInstanceVariable => .classInstanceVariable
  | .instanceVariable => .instanceVariable

end BindingKind

namespace AttributeKind

def tag : AttributeKind → Tag
  | .reader => .attrReader
  | .writer => .attrWriter
  | .accessor => .attrAccessor

end AttributeKind

namespace MixinKind

def tag : MixinKind → Tag
  | .includes => .includes
  | .prepends => .prepends
  | .extends => .extends

end MixinKind

namespace Visibility

/-- The tag of the marker that sets a visibility. -/
def markerTag : Visibility → Tag
  | .shown => .publicMarker
  | .hidden => .privateMarker

end Visibility

namespace Node

/-- The tag of a node; a foreign member has none. -/
def tag? : Node → Option Tag
  | .container head _ => some head.kind.tag
  | .typeAlias _ => some .typeAlias
  | .binding decl => some decl.kind.tag
  | .method _ => some .method
  | .alias _ => some .alias
  | .attribute decl => some decl.kind.tag
  | .mixin decl => some decl.kind.tag
  | .marker decl => some decl.visibility.markerTag
  | .unknown _ => some .unknown
  | .foreign => none

/-- The members of a container; no other node has any. -/
def members : Node → List Node
  | .container _ members => members
  | _ => []

def isContainer : Node → Bool
  | .container _ _ => true
  | _ => false

/-- The name that a node declares, if its kind has one. -/
def name? : Node → Option String
  | .container head _ => some head.name
  | .typeAlias decl => some decl.name
  | .binding decl => some decl.name
  | .method decl => some decl.name
  | .attribute decl => some decl.name
  | .mixin decl => some decl.name
  | .alias _ | .marker _ | .unknown _ | .foreign => none

/-- The node with another name, if its kind has one. -/
def mapName (change : String → String) : Node → Node
  | .container head members => .container { head with name := change head.name } members
  | .typeAlias decl => .typeAlias { decl with name := change decl.name }
  | .binding decl => .binding { decl with name := change decl.name }
  | .method decl => .method { decl with name := change decl.name }
  | .attribute decl => .attribute { decl with name := change decl.name }
  | .mixin decl => .mixin { decl with name := change decl.name }
  | node => node

mutual

/-- Equality of nodes. What an unknown node said beyond its kind, text and comment does not
count. -/
def same : Node → Node → Bool
  | .container head members, .container head' members' =>
    head == head' && sameAll members members'
  | .typeAlias decl, .typeAlias decl' => decl == decl'
  | .binding decl, .binding decl' => decl == decl'
  | .method decl, .method decl' => decl == decl'
  | .alias decl, .alias decl' => decl == decl'
  | .attribute decl, .attribute decl' => decl == decl'
  | .mixin decl, .mixin decl' => decl == decl'
  | .marker decl, .marker decl' => decl == decl'
  | .unknown decl, .unknown decl' =>
    decl.kind == decl'.kind && decl.text == decl'.text && decl.comment == decl'.comment
  | .foreign, .foreign => true
  | _, _ => false

def sameAll : List Node → List Node → Bool
  | [], [] => true
  | node :: rest, node' :: rest' => same node node' && sameAll rest rest'
  | _, _ => false

end

end Node

end MemberOrder
