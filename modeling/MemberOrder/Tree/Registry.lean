import MemberOrder.Tree.Node

/-!
# Registries of tags

A registry knows the kind of node that each tag stands for. A tag stands for one kind for good.
-/

namespace MemberOrder

namespace Tag

/-- The name of the kind of node that a tag stands for. -/
def kindName : Tag → String
  | .classDecl => "ClassDecl"
  | .moduleDecl => "ModuleDecl"
  | .interfaceDecl => "InterfaceDecl"
  | .typeAlias => "TypeAliasDecl"
  | .constant => "ConstantDecl"
  | .global => "GlobalDecl"
  | .method => "MethodDefinition"
  | .alias => "Alias"
  | .attrReader => "AttrReader"
  | .attrWriter => "AttrWriter"
  | .attrAccessor => "AttrAccessor"
  | .includes => "Include"
  | .prepends => "Prepend"
  | .extends => "Extend"
  | .classVariable => "ClassVariable"
  | .classInstanceVariable => "ClassInstanceVariable"
  | .instanceVariable => "InstanceVariable"
  | .publicMarker => "Public"
  | .privateMarker => "Private"
  | .unknown => "UnknownMember"

end Tag

/-- Tags with the names of the kinds of node that they stand for. -/
structure Registry where
  kinds : List (String × String)
deriving DecidableEq, Repr

/-- A tag that stands for a kind already. -/
structure TagTaken where
  tag : String
  kind : String
deriving DecidableEq, Repr

namespace TagTaken

def message (taken : TagTaken) : String :=
  "Tag '" ++ taken.tag ++ "' already registered to " ++ taken.kind ++ ". Choose a different tag."

end TagTaken

namespace Registry

/-- The tags of the known nodes. -/
def known : Registry := ⟨Tag.all.map fun tag => (tag.label, tag.kindName)⟩

/-- The kind that a tag stands for. -/
def lookup (registry : Registry) (tag : String) : Option String := registry.kinds.lookup tag

/-- The registry with another kind, under a tag that is still free. -/
def register (registry : Registry) (kind tag : String) : Except TagTaken Registry :=
  match registry.lookup tag with
  | some other => .error ⟨tag, other⟩
  | none => .ok ⟨registry.kinds ++ [(tag, kind)]⟩

end Registry

end MemberOrder
