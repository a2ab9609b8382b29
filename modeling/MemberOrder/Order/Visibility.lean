import MemberOrder.Tree.Node

/-!
# Effective visibility

Markers set the visibility of the members after them. A method or attribute has its own visibility
or else the one that is set; an alias has that of what it points at, wherever in the list that is
defined. `Table.resolve` follows aliases, and ends because each key is followed once on a path.
-/

namespace MemberOrder

/-- A member that is no marker, with the visibility that the markers before it set. -/
structure Placed where
  member : Node
  running : Visibility
deriving Repr

/-- What an alias can point at: a name in a scope. -/
structure MethodKey where
  scope : Scope
  name : String
deriving DecidableEq, Repr

/-- An alias with the visibility that is set where it stands. -/
structure PlacedAlias where
  decl : Alias
  running : Visibility
deriving DecidableEq, Repr

namespace Visibility

/-- The visibility of a name with several definitions: shown if one of them is. -/
def widest (visibilities : List Visibility) : Visibility :=
  if .shown ∈ visibilities then .shown else .hidden

end Visibility

namespace Alias

/-- The key that an alias defines. -/
def newKey (decl : Alias) : MethodKey := ⟨decl.scope, decl.newName⟩

/-- The key that an alias points at. -/
def target (decl : Alias) : MethodKey := ⟨decl.scope, decl.oldName⟩

end Alias

/-- The members without the markers, each with the visibility that is set before it. -/
def place (running : Visibility) : List Node → List Placed
  | [] => []
  | .marker decl :: rest => place decl.visibility rest
  | member :: rest => ⟨member, running⟩ :: place running rest

namespace Placed

/-- The names that a method or attribute defines, with their visibility. A module function is a
shown method of the object itself and a hidden one of its instances. -/
def definitions (placed : Placed) : List (MethodKey × Visibility) :=
  match placed.member with
  | .method decl =>
    let visibility := decl.visibility.getD placed.running
    match decl.kind with
    | .onInstance => [(⟨.onInstance, decl.name⟩, visibility)]
    | .onSelf => [(⟨.onSelf, decl.name⟩, visibility)]
    | .onBoth => [(⟨.onSelf, decl.name⟩, .shown), (⟨.onInstance, decl.name⟩, .hidden)]
  | .attribute decl =>
    let visibility := decl.visibility.getD placed.running
    let read := (MethodKey.mk decl.scope decl.name, visibility)
    let write := (MethodKey.mk decl.scope (decl.name ++ "="), visibility)
    match decl.kind with
    | .reader => [read]
    | .writer => [write]
    | .accessor => [read, write]
  | _ => []

/-- The member as an alias, if it is one. -/
def alias? (placed : Placed) : Option PlacedAlias :=
  match placed.member with
  | .alias decl => some ⟨decl, placed.running⟩
  | _ => none

end Placed

/-- What the names of a member list stand for. -/
structure Table where
  definitions : List (MethodKey × Visibility)
  aliases : List PlacedAlias
deriving Repr

namespace Table

def ofPlaced (members : List Placed) : Table :=
  ⟨members.flatMap Placed.definitions, members.filterMap Placed.alias?⟩

/-- The visibilities of the methods and attributes that define a key. -/
def definedAs (table : Table) (key : MethodKey) : List Visibility :=
  table.definitions.filterMap fun (defined, visibility) =>
    if defined = key then some visibility else none

/-- The aliases that define a key. -/
def aliasesOf (table : Table) (key : MethodKey) : List PlacedAlias :=
  table.aliases.filter fun placed => placed.decl.newKey = key

/-- The keys that aliases define. -/
def aliasKeys (table : Table) : List MethodKey :=
  table.aliases.map fun placed => placed.decl.newKey

/-- Some keys without one of them. -/
def without (keys : List MethodKey) (key : MethodKey) : List MethodKey := keys.filter (· ≠ key)

theorem length_without_lt {keys : List MethodKey} {key : MethodKey} (member : key ∈ keys) :
    (without keys key).length < keys.length :=
  List.length_filter_lt_length_iff_exists.2 ⟨key, member, by simp⟩

/-- The visibility of an alias: its own, else that of the methods and attributes it points at, else
that of the aliases it points at, else the one that is set where it stands. `unseen` are the keys of
aliases that may still be followed. -/
def resolve (table : Table) (unseen : List MethodKey) (placed : PlacedAlias) : Visibility :=
  match placed.decl.visibility with
  | some visibility => visibility
  | none =>
    match table.definedAs placed.decl.target with
    | visibility :: others => .widest (visibility :: others)
    | [] =>
      if placed.decl.target ∈ unseen then
        .widest <| (table.aliasesOf placed.decl.target).map fun next =>
          table.resolve (without unseen placed.decl.target) next
      else placed.running
termination_by unseen.length
decreasing_by exact length_without_lt ‹placed.decl.target ∈ unseen›

/-- The visibility of an alias of the list. -/
def aliasVisibility (table : Table) (placed : PlacedAlias) : Visibility :=
  table.resolve table.aliasKeys placed

/-- The effective visibility of a member, if members of its kind have one. -/
def effective (table : Table) (placed : Placed) : Option Visibility :=
  match placed.member with
  | .method decl => some (decl.visibility.getD placed.running)
  | .attribute decl => some (decl.visibility.getD placed.running)
  | .alias decl => some (table.aliasVisibility ⟨decl, placed.running⟩)
  | _ => none

end Table

/-- A step of following an alias that found nothing and took the visibility that is set. -/
structure Fallback where
  oldName : String
  newName : String
  visibility : Visibility
deriving DecidableEq, Repr

namespace Fallback

def message (fallback : Fallback) : String :=
  "Alias target " ++ fallback.oldName ++ " of " ++ fallback.newName ++ " not found; using " ++
    fallback.visibility.label ++ " visibility"

end Fallback

namespace Table

/-- The fallbacks on the way of resolving an alias, in the order in which they are met. -/
def fallbacks (table : Table) (unseen : List MethodKey) (placed : PlacedAlias) : List Fallback :=
  if placed.decl.visibility.isSome || !(table.definedAs placed.decl.target).isEmpty then []
  else if placed.decl.target ∈ unseen then
    (table.aliasesOf placed.decl.target).flatMap fun next =>
      table.fallbacks (without unseen placed.decl.target) next
  else [⟨placed.decl.oldName, placed.decl.newName, placed.running⟩]
termination_by unseen.length
decreasing_by exact length_without_lt ‹placed.decl.target ∈ unseen›

end Table

end MemberOrder
