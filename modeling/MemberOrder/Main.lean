import MemberOrder.CommandLine.Run
import Std.Time.Format

/-!
# The program

`main` takes what a command line is about from the file system into a workspace, runs the command
line there, and puts what comes of it back: files, results and messages.
-/

namespace MemberOrder

namespace Program

/-- What is at a location of the file system. -/
def entryAt (location : Location) : IO (Option Entry) := do
  try
    let content ← IO.FS.readBinFile ("/" ++ String.intercalate "/" location)
    return some (.file content.toList)
  catch
    | .inappropriateType .. => return some .directory
    | _ => return none

/-- Takes what is on the way to an address, and at its end, into a store. -/
def gather (store : Store) (address : String) : IO Store := do
  let mut store := store
  let mut place := store.start address
  for name in Store.names address do
    if name = ".." then place := place.dropLast
    else if name ≠ "" ∧ name ≠ "." then
      place := place ++ [name]
      if let some entry ← entryAt place then store := store.put place entry
  return store

/-- The addresses that work on a file may reach: its own, and those of its backup. -/
def reached (address : String) : List String :=
  let path := Path.ofText address
  let backup := path.text ++ ".bak"
  [address, backup, backup ++ "/" ++ path.name]

/-- The addresses that a command line may reach. -/
def addresses (words : List String) : List String :=
  match CommandLine.read CommandLine.programGrammar words with
  | .ok reading =>
    Work.settingsAddresses ++ (CommandLine.Request.ofReading reading).addresses.flatMap reached
  | .error _ => []

/-- The variables that settings may come from. -/
def environment : IO Environment :=
  Setting.all.filterMapM fun setting => do
    let name := Settings.variableOf setting
    return (← IO.getEnv name).map fun text => (name, text)

/-- The workspace in which a command line is run. -/
def workspace (words : List String) : IO Workspace := do
  let here := (← IO.currentDir).toString
  let top ← gather .empty here
  let store := { top with here := (Store.names here).filter (· ≠ "") }
  return ⟨← (addresses words).foldlM gather store, ← environment, false, []⟩

/-- Writes the files that have changed. -/
def save (before after : Store) : IO Unit :=
  after.files.forM fun (location, content) => do
    if before.fileAt? location ≠ some content then
      IO.FS.writeBinFile ("/" ++ String.intercalate "/" location) ⟨content.toArray⟩

/-- The time of day with its date. -/
def timestamp : IO String := do
  return (← Std.Time.PlainDateTime.now).format "uuuu-MM-dd HH:mm:ss"

/-- Shows what was put out. -/
def present (output : Output) : IO Unit := do
  match output with
  | .result text => IO.print text
  | .message text => IO.eprint text
  | .notice notice => IO.eprint (notice.line (← timestamp))
  | .cause failure => IO.eprintln (reprStr failure)

end Program

end MemberOrder

open MemberOrder in
/-- Runs a command line. A failure that nobody has reported is shown as it is. -/
def main (words : List String) : IO UInt32 := do
  let before ← Program.workspace words
  let (ending, after) := (CommandLine.run words).run before
  Program.save before.store after.store
  after.output.forM Program.present
  match ending with
  | .ok ending => return ending.status.toUInt32
  | .error failure =>
    IO.eprintln (reprStr failure)
    return 1
