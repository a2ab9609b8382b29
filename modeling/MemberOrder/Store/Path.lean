/-!
# Paths

A path is a root and the names between its slashes, without empty names and names for the place
itself. Two slashes in front are a root of their own, three or more are one.
-/

namespace MemberOrder

/-- A path without redundant parts. -/
structure Path where
  /-- No slash, one or two. -/
  root : String
  parts : List String
deriving DecidableEq, Repr

namespace Path

/-- The pieces of a text between slashes. -/
def pieces (text : List Char) : List (List Char) :=
  text.foldr (fun c pieces =>
    match c, pieces with
    | '/', pieces => [] :: pieces
    | c, piece :: rest => (c :: piece) :: rest
    | c, [] => [[c]]) [[]]

/-- The root that a text begins with. -/
def rootOf : List Char → String
  | '/' :: '/' :: '/' :: _ => "/"
  | '/' :: '/' :: _ => "//"
  | '/' :: _ => "/"
  | _ => ""

/-- The path that a text names. -/
def ofText (text : String) : Path :=
  ⟨rootOf text.toList,
    ((pieces text.toList).map String.ofList).filter fun part => part ≠ "" ∧ part ≠ "."⟩

/-- The text of a path; the empty path is a dot. -/
def text (path : Path) : String :=
  if path.root = "" ∧ path.parts = [] then "." else path.root ++ String.intercalate "/" path.parts

/-- The last name of a path, empty if it has none. -/
def name (path : Path) : String := path.parts.getLast?.getD ""

/-- The ending of a name from its last dot on, unless the name begins or ends with that dot. -/
def suffixOf (name : String) : String :=
  let reversed := name.toList.reverse
  let ending := reversed.takeWhile (· != '.')
  let before := reversed.drop (ending.length + 1)
  if ending.isEmpty || before.isEmpty || ending.length == reversed.length then ""
  else "." ++ String.ofList ending.reverse

def suffix (path : Path) : String := suffixOf path.name

/-- The path with another last name. -/
def withName (path : Path) (name : String) : Path :=
  { path with parts := path.parts.dropLast ++ [name] }

end Path

end MemberOrder
