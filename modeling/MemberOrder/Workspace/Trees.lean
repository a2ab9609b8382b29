import MemberOrder.Order.Sorting
import MemberOrder.Workspace.Basic

/-!
# Trees in a workspace

Loading trees from files, sorting and checking them, and writing them back as stubs or documents.
-/

namespace MemberOrder

namespace Work

/-- The declarations in a file. -/
def load (path : Path) (format : String) : Work (List Node) := do
  tell ⟨.files, .info, "Opening " ++ path.text ++ "..."⟩
  let format ←
    if format = Tree.automatic then
      ofExcept .tree ((Tree.formatOf path.text).map Tree.Format.label)
    else pure format
  let text ← readText .store path.text
  if let some format := Tree.Format.ofLabel? format then
    tellAll ((Tree.textSightings format text).map fun sighting =>
      ⟨.documents, .debug, sighting.message⟩)
  ofExcept (Failure.ofLoad path.text) (Tree.loadText format text)

/-- Sorts declarations. -/
def sort (settings : Settings) (source : Option Path) (decls : List Node) : Work Sorting := do
  let sorting := Sorting.of settings.deep source decls
  tellAll (sorting.notices settings.deep)
  return sorting

/-- Sorts the declarations in a file. -/
def sortFile (settings : Settings) (path : Path) (format : String) : Work Sorting := do
  sort settings (some path) (← load path format)

/-- Whether a file is sorted. -/
def checkFile (settings : Settings) (address format : String) : Work Bool := do
  let sorting ← sortFile settings (.ofText address) format
  if sorting.changed then tell ⟨.files, .info, address ++ " is not canonically ordered"⟩
  return !sorting.changed

/-- The format of output: the given one, or else that of the settings. -/
def outputFormat (settings : Settings) (format : Option String) : Value :=
  match format.filter (!·.isEmpty) with
  | some format => .str format
  | none => settings.format

/-- Declarations as a stub, or as a document in one of the formats for trees. -/
def render (settings : Settings) (format : Option String) (decls : List Node) : Work String := do
  match outputFormat settings format with
  | .str "rbs" =>
    tellAll (Stub.notices decls)
    ofExcept .stub (Stub.stub settings.indent decls)
  | .str format =>
    if format ∈ Settings.formats then ofExcept Failure.ofDump (Tree.dumpText format decls)
    else throw (.outputFormat (.str format))
  | format => throw (.outputFormat format)

/-- The format in which a file is written: the given one, or else the one that the ending of its
name stands for. -/
def fileFormat (path : Path) (format : Option String) : Option String :=
  match format with
  | some format => some format
  | none => (Tree.Format.ofSuffix? path.suffix).map Tree.Format.label

/-- Copies a file to one with a longer name. -/
def backUp (path : Path) : Work Unit := do
  if path.name.isEmpty then throw (.unnamed path.text)
  let backup := path.withName (path.name ++ ".bak")
  let copied ← ofExcept .store ((← store).copy path backup.text)
  modify fun workspace => { workspace with store := copied }
  tell ⟨.files, .info, "Backup written to " ++ backup.text⟩

/-- Whether there is something at a path. A path that is too long is a fault. -/
def isTaken (path : Path) : Work Bool := do
  let store ← store
  if let .error .nameTooLong := store.locate path.text then
    throw (.store ⟨.nameTooLong, path.text⟩)
  return store.holds path.text

/-- Writes the sorted declarations to a file. What the file held before is backed up if the settings
say so. -/
def write (settings : Settings) (sorting : Sorting) (path : Path) (format : Option String) :
    Work Unit := do
  let text ← render settings (fileFormat path format) sorting.sorted
  if (← isTaken path) && settings.backup.isPresent then backUp path
  tell ⟨.files, .info, "Writing " ++ path.text ++ "..."⟩
  writeText .store path.text text

/-- The counts of the members of declarations. -/
def statistics (decls : List Node) : Work Tally := do
  tellAll (Sorting.tallyNotices decls)
  return Tally.of decls

end Work

end MemberOrder
