import MemberOrder.Settings.Check
import MemberOrder.Settings.Record
import MemberOrder.Store.Fault
import MemberOrder.Stub.Writer
import MemberOrder.Terminal.Markup
import MemberOrder.Tree.Document

/-!
# Why work on files fails

A failure that lies in a tree, in settings or in the store has a message for the person at work; the
others are left to whoever asked for the work.
-/

namespace MemberOrder

/-- What is wrong with settings or with the file that they are in. -/
inductive SettingsFault
  | notFound (address : String)
  | malformed (details : String)
  | unreadable (fault : StoreFault)
  | notMapping (address : String)
  | check (cause : Settings.CheckCause)
  | unsaved (fault : StoreFault)
deriving DecidableEq, Repr

namespace SettingsFault

def message : SettingsFault → String
  | .notFound address => "Configuration file not found: " ++ address
  | .malformed details => "Invalid configuration file format: " ++ details
  | .unreadable fault => "Error reading configuration file: " ++ fault.message
  | .notMapping address => "Configuration file must contain a mapping: " ++ address
  | .check cause => cause.message
  | .unsaved fault => "Error saving configuration file: " ++ fault.message

end SettingsFault

inductive Failure
  | tree (fault : TreeFault)
  /-- A fault in the tree of a file. -/
  | treeFile (path : String) (fault : TreeFault)
  | settings (fault : SettingsFault)
  | store (fault : StoreFault)
  /-- A file holds octets that are no text. -/
  | encoding
  /-- A text that breaks no rule of its format has no value, or no tree. -/
  | load (fault : Tree.LoadFault)
  | dump (fault : Tree.DumpFault)
  | stub (fault : Stub.Fault)
  | record (fault : Settings.RecordFault)
  /-- Settings cannot be shown as a document. -/
  | object (fault : Settings.ObjectFault)
  | outputFormat (format : Value)
  /-- A backup needs a name to go by. -/
  | unnamed (path : String)
  /-- A message has marks that make no sense. -/
  | markup (fault : Terminal.MarkupFault)
deriving Repr

namespace Failure

/-- The failure of loading a tree from a file. -/
def ofLoad (path : String) : Tree.LoadFault → Failure
  | .tree fault => .treeFile path fault
  | fault => .load fault

/-- The failure of dumping a tree. -/
def ofDump : Tree.DumpFault → Failure
  | .unsupportedFormat format => .tree (Tree.nowhere (.unsupportedFormat format))
  | fault => .dump fault

/-- The message about a format that no output has. -/
def outputFormatMessage (format : Value) : String :=
  if format.exceedsDigits then Json.WriteFault.tooManyDigits.message
  else
    "Unsupported output format '" ++ format.display ++ "' (expected one of: (" ++
      String.intercalate ", " (Settings.formats.map Value.quotedText) ++ "))"

/-- The message about a path without a name. -/
def unnamedMessage (path : String) : String :=
  "PosixPath(" ++ Value.quotedText path ++ ") has an empty name"

/-- The message for the person at work, if the failure is theirs to mend. -/
def report? : Failure → Option String
  | .tree fault => some fault.message
  | .treeFile path fault => some (placed path fault.message)
  | .settings fault => some fault.message
  | .store fault => if fault.cause = .nullCharacter then none else some fault.shortMessage
  | _ => none

end Failure

end MemberOrder
