import MemberOrder.Order.Sort

/-!
# Counts of members by category

For every container, under its qualified name, how many members it has of each category. A name that
is declared more than once is counted as one container.
-/

namespace MemberOrder

/-- How often each category occurs, in the order in which the categories were first met. -/
abbrev Counts := List (Category × Int)

namespace Counts

/-- The count of a category. -/
def get (counts : Counts) (category : Category) : Int := (counts.lookup category).getD 0

/-- Sets the count of a category, in its place if it has one. -/
def set (counts : Counts) (category : Category) (count : Int) : Counts :=
  match counts with
  | [] => [(category, count)]
  | (c, n) :: rest =>
    if c = category then (c, count) :: rest else (c, n) :: set rest category count

/-- Adds to the count of a category. -/
def add (counts : Counts) (category : Category) (count : Int) : Counts :=
  counts.set category (counts.get category + count)

/-- Adds all counts of another table. -/
def merge (counts others : Counts) : Counts :=
  others.foldl (fun counts (category, count) => counts.add category count) counts

/-- The counts of a list of categories. -/
def ofList (categories : List Category) : Counts :=
  categories.foldl (fun counts category => counts.add category 1) []

/-- The number of all members counted. -/
def total (counts : Counts) : Int := (counts.map Prod.snd).foldr (· + ·) 0

/-- The categories that occur, in category order, with their counts. -/
def present (counts : Counts) : Counts :=
  Category.all.filterMap fun category =>
    if counts.get category = 0 then none else some (category, counts.get category)

/-- The counts of the categories that occur, as words. -/
def text (counts : Counts) : String :=
  let parts := counts.present.map fun (category, count) =>
    category.label ++ "=" ++ toString count
  if parts.isEmpty then "(empty)" else String.intercalate ", " parts

end Counts

/-- Counts by qualified name, in the order in which the names were first met. -/
abbrev Tally := List (String × Counts)

namespace Tally

/-- Adds counts under a name. -/
def add (tally : Tally) (name : String) (counts : Counts) : Tally :=
  match tally with
  | [] => [(name, counts)]
  | (n, c) :: rest =>
    if n = name then (n, c.merge counts) :: rest else (n, c) :: add rest name counts

mutual

/-- Counts a node inside containers with the given names, outermost first. -/
def visit (path : List String) (tally : Tally) : Node → Tally
  | .container head members =>
    let path := path ++ [head.name]
    let counts := Counts.ofList ((categorize members).map Prod.fst)
    visitAll path (tally.add (String.intercalate "::" path) counts) members
  | _ => tally

def visitAll (path : List String) (tally : Tally) : List Node → Tally
  | [] => tally
  | node :: rest => visitAll path (visit path tally node) rest

end

/-- The counts of all containers among declarations. -/
def of (decls : List Node) : Tally := visitAll [] [] decls

/-- The counts of all names together. -/
def totals (tally : Tally) : Counts :=
  tally.foldl (fun totals (_, counts) => totals.merge counts) []

/-- A row of a report: name, number of members and the counts as words. -/
def rows (tally : Tally) : List (String × Int × String) :=
  tally.map fun (name, counts) => (name, counts.total, counts.text)

/-- The counts of a name as an object. -/
def countsObject (counts : Counts) : Value :=
  .map none (Entries.ofFields (counts.map fun (category, count) => (category.label, .int count)))

/-- The counts under every name as an object. -/
def object (tally : Tally) : Value :=
  .map none (Entries.ofFields (tally.map fun (name, counts) => (name, countsObject counts)))

/-- The report on a file: its path and, in category order, what occurs under each name. -/
def report (path : String) (tally : Tally) : Value :=
  .map none (Entries.ofFields [("path", .str path),
    ("declarations", object (tally.map fun (name, counts) => (name, counts.present)))])

/-- The fallbacks of counting nodes, outer containers first. -/
def containerFallbacks : Node → List Fallback
  | .container _ members => fallbacks members
  | _ => []

end Tally

end MemberOrder
