import MemberOrder.Text.Blank
import MemberOrder.Tree.Node

/-!
# The words of a stub

The text of each node without its place on the page: the head of a container, and the lines of every
other node.
-/

namespace MemberOrder

namespace Stub

/-- Parameters in brackets, nothing if there are none. -/
def bracketed (params : List String) : String :=
  if params.isEmpty then "" else "[" ++ String.intercalate ", " params ++ "]"

/-- The word of a stated visibility, with the space after it. -/
def visibilityText : Option Visibility → String
  | none => ""
  | some visibility => visibility.label ++ " "

/-- The lines of a comment. -/
def commentLines : Option String → List String
  | none => []
  | some comment => (Text.lines comment).map fun line => Text.trimEnd ("# " ++ line)

/-- The line that opens a container. -/
def headText (head : Head) : String :=
  let name := head.name ++ bracketed head.typeParams
  match head.kind with
  | .classDecl superclass =>
    let above := superclass.getD ""
    "class " ++ name ++ if above.isEmpty then "" else " < " ++ above
  | .moduleDecl selfTypes =>
    "module " ++ name ++
      if selfTypes.isEmpty then "" else " : " ++ String.intercalate ", " selfTypes
  | .interfaceDecl => "interface " ++ name

/-- A name as it is written where it is declared with a type. -/
def boundName (decl : Binding) : String :=
  match decl.kind with
  | .constant => decl.name
  | .global => "$" ++ Text.dropLeading '$' decl.name
  | .classVariable => "@@" ++ Text.dropLeading '@' decl.name
  | .classInstanceVariable => "self.@" ++ Text.dropLeading '@' decl.name
  | .instanceVariable => "@" ++ Text.dropLeading '@' decl.name

/-- The owner of a method, as it stands before the name. -/
def ownerText : MethodKind → String
  | .onInstance => ""
  | .onSelf => "self."
  | .onBoth => "self?."

def scopeText : Scope → String
  | .onInstance => ""
  | .onSelf => "self."

/-- A method: one line for each overload, the later ones under the first. -/
def methodLines (decl : Method) : List String :=
  let head := visibilityText decl.visibility ++ "def " ++ ownerText decl.kind ++ decl.name
  match decl.overloads with
  | [] => [head ++ ": () -> untyped"]
  | first :: others =>
    (head ++ ": " ++ first) :: others.map fun overload =>
      String.ofList (List.replicate head.length ' ') ++ "| " ++ overload

def aliasText (decl : Alias) : String :=
  "alias " ++ scopeText decl.scope ++ decl.newName ++ " " ++ scopeText decl.scope ++ decl.oldName

def AttributeKind.keyword : AttributeKind → String
  | .reader => "attr_reader"
  | .writer => "attr_writer"
  | .accessor => "attr_accessor"

/-- The variable of an attribute, where it is not the default one. -/
def variableText : Option String → String
  | none => ""
  | some name => if name.isEmpty then " ()" else " (@" ++ Text.dropLeading '@' name ++ ")"

def attributeText (decl : Attribute) : String :=
  visibilityText decl.visibility ++ AttributeKind.keyword decl.kind ++ " " ++
    scopeText decl.scope ++ decl.name ++ variableText decl.variableName ++ ": " ++ decl.type

def MixinKind.keyword : MixinKind → String
  | .includes => "include"
  | .prepends => "prepend"
  | .extends => "extend"

/-- An unknown node: its own text, or a comment that names its kind. -/
def unknownLines (decl : Unknown) : List String :=
  let text := decl.text.getD ("# unknown member: " ++ decl.kind)
  match Text.lines text with
  | [] => [text]
  | lines => lines

/-- The lines of a node that is neither a container nor a marker. -/
def leafLines : Node → List String
  | .typeAlias decl => ["type " ++ decl.name ++ bracketed decl.typeParams ++ " = " ++ decl.type]
  | .binding decl => [boundName decl ++ ": " ++ decl.type]
  | .method decl => methodLines decl
  | .alias decl => [aliasText decl]
  | .attribute decl => [attributeText decl]
  | .mixin decl => [MixinKind.keyword decl.kind ++ " " ++ decl.name ++ bracketed decl.args]
  | .unknown decl => unknownLines decl
  | .container _ _ | .marker _ | .foreign => []

end Stub

end MemberOrder
