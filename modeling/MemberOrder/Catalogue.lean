/-!
# The catalogue of public names

The names under which the parts of the program are offered, and its version.
-/

namespace MemberOrder

/-- The name that the program goes by. -/
def programName : String := "sigsort"

def version : String := "0.1.0"

namespace Catalogue

/-- The name under which the version is offered. -/
def versionName : String := "__version__"

/-- All names that are offered. -/
def names : List String :=
  [versionName, "SigSort", "SortResult", "SigsortConfig", "ConfigurationError", "Category",
    "sort_members", "sort_declaration", "sort_declarations", "is_sorted", "SigsortError",
    "SerializationError"]

/-- What is offered under a name: the version, or what has that name itself. -/
def lookup (name : String) : Option String :=
  if name ∉ names then none
  else if name = versionName then some version
  else some name

/-- The message about a name that is not offered. -/
def missingMessage (name : String) : String :=
  "module '" ++ programName ++ "' has no attribute '" ++ name ++ "'"

end Catalogue

end MemberOrder
