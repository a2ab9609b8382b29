import MemberOrder.Value.Literal

/-!
# Why a tree cannot be read

A fault of a tree document is a cause at a place: the position of the faulty object, as a root and
the member indices that lead from it to the object.
-/

namespace MemberOrder

/-- The position of a value in a document. -/
structure Place where
  root : String
  steps : List Nat
deriving DecidableEq, Repr

namespace Place

/-- The place of a member of the object at a place. -/
def member (place : Place) (index : Nat) : Place := ⟨place.root, place.steps ++ [index]⟩

/-- The root with one index for each step. -/
def text (place : Place) : String :=
  place.root ++ String.join (place.steps.map fun index => ".members[" ++ toString index ++ "]")

/-- A position in the list that a word names. -/
def item (list : String) (index : Nat) : Place := ⟨list ++ "[" ++ toString index ++ "]", []⟩

end Place

/-- What is wrong with an object or document. -/
inductive TreeCause
  | notObject (kind : String)
  | missingTag
  | missingField (field tag : String)
  | membersNotList
  | notTexts (field : String)
  | notText (field : String)
  | badChoice (field : String) (value : Value) (allowed : List String)
  | missingDeclarations
  | declarationsNotList
  | unsupportedFormat (format : String)
  | malformed (format details : String)
  | undetectedFormat (suffix : String) (known : List String)
deriving Repr

/-- A cause at a place. -/
structure TreeFault where
  place : Place
  cause : TreeCause
deriving Repr

namespace TreeCause

def message : TreeCause → String
  | .notObject kind => "Expected an object with a 'tag' field, got " ++ kind
  | .missingTag => "Missing required 'tag' field"
  | .missingField field tag => "Missing required field '" ++ field ++ "' for '" ++ tag ++ "'"
  | .membersNotList => "'members' must be a list"
  | .notTexts field => "'" ++ field ++ "' must be a list of strings"
  | .notText field => "'" ++ field ++ "' must be a string"
  | .badChoice field value allowed =>
    "Invalid " ++ field ++ " " ++ value.literal ++ " (expected one of: " ++
      Value.listLiteral allowed ++ ")"
  | .missingDeclarations => "Missing required 'declarations' list"
  | .declarationsNotList => "Declarations must be a list"
  | .unsupportedFormat format => "Unsupported format '" ++ format ++ "'"
  | .malformed format details => "Invalid " ++ format ++ " document: " ++ details
  | .undetectedFormat suffix known =>
    "Cannot detect format from extension '" ++ suffix ++ "' (expected one of: " ++
      String.intercalate ", " known ++ ")"

end TreeCause

/-- A message after the place it is about, if there is one. -/
def placed (place message : String) : String :=
  if place.isEmpty then message else place ++ ": " ++ message

namespace TreeFault

def message (fault : TreeFault) : String := placed fault.place.text fault.cause.message

end TreeFault

end MemberOrder
