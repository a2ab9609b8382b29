import MemberOrder.Tree.Node

/-!
# Categories of members

The nineteen categories in the order in which a sorted declaration shows them, and the category of a
member with a given effective visibility.
-/

namespace MemberOrder

inductive Category
  | typeAlias
  | constant
  | nestedDeclaration
  | includes
  | prepends
  | extends
  | classVariable
  | classInstanceVariable
  | instanceVariable
  | singletonAttribute
  | instanceAttribute
  | moduleFunction
  | singletonNew
  | publicSingletonMethod
  | privateSingletonMethod
  | instanceInitialize
  | publicInstanceMethod
  | privateInstanceMethod
  | other
deriving DecidableEq, Repr

namespace Category

/-- The categories in output order. -/
def all : List Category :=
  [.typeAlias, .constant, .nestedDeclaration, .includes, .prepends, .extends, .classVariable,
    .classInstanceVariable, .instanceVariable, .singletonAttribute, .instanceAttribute,
    .moduleFunction, .singletonNew, .publicSingletonMethod, .privateSingletonMethod,
    .instanceInitialize, .publicInstanceMethod, .privateInstanceMethod, .other]

/-- The position of a category in output order. -/
def rank : Category → Nat
  | .typeAlias => 0
  | .constant => 1
  | .nestedDeclaration => 2
  | .includes => 3
  | .prepends => 4
  | .extends => 5
  | .classVariable => 6
  | .classInstanceVariable => 7
  | .instanceVariable => 8
  | .singletonAttribute => 9
  | .instanceAttribute => 10
  | .moduleFunction => 11
  | .singletonNew => 12
  | .publicSingletonMethod => 13
  | .privateSingletonMethod => 14
  | .instanceInitialize => 15
  | .publicInstanceMethod => 16
  | .privateInstanceMethod => 17
  | .other => 18

def label : Category → String
  | .typeAlias => "type_alias"
  | .constant => "constant"
  | .nestedDeclaration => "nested_declaration"
  | .includes => "include"
  | .prepends => "prepend"
  | .extends => "extend"
  | .classVariable => "class_variable"
  | .classInstanceVariable => "class_instance_variable"
  | .instanceVariable => "instance_variable"
  | .singletonAttribute => "singleton_attribute"
  | .instanceAttribute => "instance_attribute"
  | .moduleFunction => "module_function"
  | .singletonNew => "singleton_new"
  | .publicSingletonMethod => "public_singleton_method"
  | .privateSingletonMethod => "private_singleton_method"
  | .instanceInitialize => "instance_initialize"
  | .publicInstanceMethod => "public_instance_method"
  | .privateInstanceMethod => "private_instance_method"
  | .other => "other"

/-- The category that a word names. -/
def ofLabel? (word : String) : Option Category :=
  all.find? fun category => category.label == word

/-- The message about a word that names no category. -/
def unknownMessage (word : String) : String := "'" ++ word ++ "' is not a valid Category"

/-- The category of a name that is called on a scope with a visibility. -/
def ofScope (scope : Scope) (visibility : Visibility) : Category :=
  match scope, visibility with
  | .onSelf, .shown => .publicSingletonMethod
  | .onSelf, .hidden => .privateSingletonMethod
  | .onInstance, .shown => .publicInstanceMethod
  | .onInstance, .hidden => .privateInstanceMethod

/-- The category of a method. Only a shown `initialize` sets up an object. -/
def ofMethod (decl : Method) (visibility : Visibility) : Category :=
  match decl.kind with
  | .onBoth => .moduleFunction
  | .onSelf => if decl.isConstructor then .singletonNew else ofScope .onSelf visibility
  | .onInstance =>
    if decl.isConstructor && visibility == .shown then .instanceInitialize
    else ofScope .onInstance visibility

/-- The category of a name that is declared with a type. -/
def ofBinding : BindingKind → Category
  | .constant => .constant
  | .global => .other
  | .classVariable => .classVariable
  | .classInstanceVariable => .classInstanceVariable
  | .instanceVariable => .instanceVariable

def ofMixin : MixinKind → Category
  | .includes => .includes
  | .prepends => .prepends
  | .extends => .extends

def ofAttribute : Scope → Category
  | .onSelf => .singletonAttribute
  | .onInstance => .instanceAttribute

/-- The category of a member with an effective visibility. -/
def of (member : Node) (visibility : Option Visibility) : Category :=
  match member, visibility with
  | .container _ _, _ => .nestedDeclaration
  | .typeAlias _, _ => .typeAlias
  | .binding decl, _ => ofBinding decl.kind
  | .mixin decl, _ => ofMixin decl.kind
  | .method decl, some visibility => ofMethod decl visibility
  | .alias decl, some visibility => ofScope decl.scope visibility
  | .attribute decl, _ => ofAttribute decl.scope
  | _, _ => .other

end Category

end MemberOrder
