import MemberOrder.Value.Literal
import MemberOrder.Value.Writable

/-!
# Settings

The four settings and their values. A setting belongs to a part of a settings document and has a key
there; its value may be any value, and `Settings.Check` says which ones make sense.
-/

namespace MemberOrder

/-- The parts of a settings document. -/
inductive Part
  | sort
  | output
deriving DecidableEq, Repr

inductive Setting
  | recursive
  | indent
  | format
  | backup
deriving DecidableEq, Repr

/-- What of a part of the settings is shown in a document. -/
inductive Outline
  | whole
  | nothing
  /-- What should say so makes no sense. -/
  | broken
deriving DecidableEq, Repr

structure Settings where
  recursive : Value
  indent : Value
  format : Value
  backup : Value
  sortOutline : Outline
  outputOutline : Outline
deriving Repr

/-- Why settings cannot be shown as a document. -/
inductive Settings.ObjectFault
  /-- A value contains itself. -/
  | endless
  | outline
deriving DecidableEq, Repr

namespace Part

def key : Part → String
  | .sort => "sort"
  | .output => "output"

end Part

namespace Setting

/-- The settings in the order in which they are shown. -/
def all : List Setting := [.recursive, .indent, .format, .backup]

def part : Setting → Part
  | .recursive => .sort
  | .indent | .format | .backup => .output

def key : Setting → String
  | .recursive => "recursive"
  | .indent => "indent"
  | .format => "format"
  | .backup => "backup_enabled"

/-- The setting with a key in a part of a document. -/
def ofKey? (part : Part) (key : String) : Option Setting :=
  all.find? fun setting => setting.part = part ∧ setting.key = key

/-- The settings of a part. -/
def inPart (part : Part) : List Setting := all.filter fun setting => setting.part = part

end Setting

namespace Settings

def default : Settings := ⟨.bool true, .int 2, .str "rbs", .bool false, .whole, .whole⟩

def get (settings : Settings) : Setting → Value
  | .recursive => settings.recursive
  | .indent => settings.indent
  | .format => settings.format
  | .backup => settings.backup

def set (settings : Settings) (setting : Setting) (value : Value) : Settings :=
  match setting with
  | .recursive => { settings with recursive := value }
  | .indent => { settings with indent := value }
  | .format => { settings with format := value }
  | .backup => { settings with backup := value }

def outline (settings : Settings) : Part → Outline
  | .sort => settings.sortOutline
  | .output => settings.outputOutline

def setOutline (settings : Settings) (part : Part) (outline : Outline) : Settings :=
  match part with
  | .sort => { settings with sortOutline := outline }
  | .output => { settings with outputOutline := outline }

/-- The settings of a part as a document shows them. -/
def partObject (settings : Settings) (part : Part) : Except ObjectFault Value :=
  match settings.outline part with
  | .nothing => .ok (.map none [])
  | .broken => .error .outline
  | .whole =>
    let field (setting : Setting) : Option (String × Value) :=
      (settings.get setting).unshared.map (setting.key, ·)
    match (Setting.inPart part).mapM field with
    | some fields => .ok (.map none (Entries.ofFields fields))
    | none => .error .endless

/-- Settings as a document. -/
def object (settings : Settings) : Except ObjectFault Value := do
  let parts ← [Part.sort, Part.output].mapM fun part => do
    return (part.key, ← settings.partObject part)
  return .map none (Entries.ofFields parts)

/-- Settings in words, if their numbers can be written. -/
def summary? (settings : Settings) : Option String :=
  if Setting.all.any fun setting => (settings.get setting).exceedsDigits then none
  else some <|
    "sigsort Configuration Summary:\nSort:\n  - Recursive: " ++ settings.recursive.display ++
      "\n\nOutput:\n  - Indent: " ++ settings.indent.display ++
      "\n  - Format: " ++ settings.format.display ++
      "\n  - Backup enabled: " ++ settings.backup.display ++ "\n"

/-- Whether containers inside containers are sorted. Only a plain no turns it off. -/
def deep (settings : Settings) : Bool :=
  match settings.recursive with
  | .bool false => false
  | _ => true

end Settings

end MemberOrder
