import MemberOrder.CommandLine.Commands
import MemberOrder.CommandLine.Help
import MemberOrder.Workspace.Settings
import MemberOrder.Workspace.Trees

/-!
# Running commands

`run` reads a command line and does what it asks for. How that ended is an `Ending`; a failure that
is not the person's at work to mend is left to whoever runs the command.
-/

namespace MemberOrder

namespace CommandLine

/-- How a run ends. -/
inductive Ending
  | done
  /-- What was asked for could not be done, or the answer is no. -/
  | failed
  /-- The command line cannot be read. -/
  | misused
deriving DecidableEq, Repr

namespace Ending

/-- The status by which others learn how a run ended. -/
def status : Ending → Nat
  | .done => 0
  | .failed => 1
  | .misused => 2

end Ending

open Work

/-- Puts out a result. -/
def print (text : String) : Work Unit := emit (.result text)

/-- Puts out a message. -/
def say (manner : Terminal.Manner) (kind : Terminal.MessageKind) (text : String) : Work Unit := do
  emit (.message (← ofExcept .markup (Terminal.message manner kind text)))

/-- The format in which a file is sorted in its place. -/
def sourceFormat (path : Path) (inputFormat : String) : Option String → Except TreeFault String
  | some format => .ok format
  | none =>
    if inputFormat = Tree.automatic then (Tree.formatOf path.text).map Tree.Format.label
    else .ok inputFormat

/-- Writes sorted declarations into the file that they come from, unless they were sorted before. -/
def sortInPlace (manner : Terminal.Manner) (settings : Settings) (path : Path) (sorting : Sorting)
    (format : String) : Work Ending := do
  if format = "rbs" then
    say manner .error "--in-place rewrites the serialized tree; use --output for stub text"
    return .failed
  else if sorting.changed then
    write settings sorting path (some format)
    say manner .success ("Sorted " ++ path.text)
  else say manner .info (path.text ++ " is already sorted")
  return .done

/-- Sorts the declarations in a file. -/
def runSort (manner : Terminal.Manner) (settings : Settings) (address inputFormat : String)
    (destination : Destination) (format : Option String) : Work Ending := do
  let path := Path.ofText address
  let sorting ← sortFile settings path inputFormat
  match destination with
  | .source =>
    let format ← ofExcept .tree (sourceFormat path inputFormat format)
    sortInPlace manner settings path sorting format
  | .file address =>
    let path := Path.ofText address
    write settings sorting path format
    say manner .success ("Wrote sorted declarations to " ++ path.text)
    return .done
  | .screen =>
    print (← render settings format sorting.sorted)
    return .done

/-- Tells for each file whether it is sorted, and how many are not. -/
def runCheck (manner : Terminal.Manner) (settings : Settings) (addresses : List String)
    (inputFormat : String) : Work Ending := do
  let verdicts ← addresses.mapM fun address => do
    let sorted ← checkFile settings address inputFormat
    if sorted then say manner .success (address ++ " is sorted")
    else say manner .warning (address ++ " would be reordered")
    return sorted
  let unsorted := verdicts.count false
  if unsorted = 0 then return .done
  else
    say manner .error (toString unsorted ++ " of " ++ toString addresses.length ++
      " file(s) need sorting")
    return .failed

/-- The counts of members as a table. -/
def statisticsTable (address : String) (tally : Tally) : Terminal.Table :=
  ⟨"Member categories: " ++ address, ["Declaration", "Members", "Categories"],
    tally.rows.map fun (name, count, text) => [name, toString count, text]⟩

/-- Shows how many members of which categories the declarations in a file have. -/
def runStatistics (manner : Terminal.Manner) (address inputFormat : String) (asValue : Bool) :
    Work Ending := do
  let tally ← statistics (← load (.ofText address) inputFormat)
  if asValue then
    print (← ofExcept (.dump ∘ .write) (Terminal.valueText (tally.report address)))
  else if tally.isEmpty then
    say manner .info ("No class, module or interface declarations in " ++ address)
  else print (← ofExcept .markup (Terminal.tableText manner (statisticsTable address tally)))
  return .done

/-- Tells whether the settings in a file can be used. -/
def runCheckSettings (manner : Terminal.Manner) (address : String) : Work Ending :=
  tryCatch
    (do
      let _ ← loadSettings (some address) false true
      say manner .success ("Configuration file " ++ address ++ " is valid")
      return .done)
    fun failure =>
      match failure with
      | .settings fault => do
        say manner .error ("Configuration file is invalid: " ++ fault.message)
        return .failed
      | failure => throw failure

/-- Does what a command says, with the settings at an address. -/
def perform (manner : Terminal.Manner) (settings : Option String) : Command → Work Ending
  | .sort address inputFormat destination format => do
    runSort manner (← loadSettings settings true true) address inputFormat destination format
  | .check addresses inputFormat => do
    runCheck manner (← loadSettings settings true true) addresses inputFormat
  | .statistics address inputFormat asValue => do
    let _ ← loadSettings settings true true
    runStatistics manner address inputFormat asValue
  | .showSettings => do
    let settings ← loadSettings settings true true
    print "Current sigsort Configuration:\n"
    print ((← settingsSummary settings) ++ "\n")
    return .done
  | .createSettings address format => do
    saveSettings .default address format
    say manner .success ("Default configuration file created at " ++ address)
    return .done
  | .checkSettings address => runCheckSettings manner address
  | .unspecified => do
    say manner .error "Specify a config action: show, init or validate"
    return .failed

/-- Reports a failure that is the person's at work to mend. -/
def report (manner : Terminal.Manner) (failure : Failure) : Work Ending :=
  match failure.report? with
  | some text => do
    if (← get).verbose then
      tell ⟨.program, .debug, "Command failed"⟩
      emit (.cause failure)
    say manner .error text
    return .failed
  | none => throw failure

/-- Does what is asked for. -/
def answer (request : Request) : Work Ending :=
  match request.command with
  | none => do
    print (help programGrammar)
    return .done
  | some command => do
    modify fun workspace => { workspace with verbose := request.verbose }
    tryCatch (perform request.manner request.settings command) (report request.manner)

/-- Tells why a command line is not done as a whole. -/
def runStop : Stop → Work Ending
  | .help grammar => do
    print (help grammar)
    return .done
  | .version => do
    print (programName ++ " " ++ version ++ "\n")
    return .done
  | .fault grammar fault => do
    emit (.message (usage grammar ++ grammar.face.program ++ ": error: " ++ fault.message ++ "\n"))
    return .misused

/-- Does what a command line asks for. -/
def run (words : List String) : Work Ending :=
  match read programGrammar words with
  | .ok reading => answer (.ofReading reading)
  | .error stop => runStop stop

end CommandLine

end MemberOrder
