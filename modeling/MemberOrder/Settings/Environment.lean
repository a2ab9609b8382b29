import MemberOrder.Notice
import MemberOrder.Number.Whole
import MemberOrder.Settings.Check
import MemberOrder.Text.Lowercase

/-!
# Settings from the environment

Each setting has a variable. An empty variable counts as unset, and one with a text that the setting
does not accept is told about and then counts as unset too.
-/

namespace MemberOrder

/-- Variables with their texts. The first entry for a name counts. -/
abbrev Environment := List (String × String)

namespace Environment

/-- The environment with a variable set, or taken away. -/
def put (environment : Environment) (name : String) (text : Option String) : Environment :=
  let others := environment.filter fun (other, _) => other ≠ name
  match text with
  | some text => (name, text) :: others
  | none => others

end Environment

namespace Settings

def variableOf : Setting → String
  | .recursive => "SIGSORT_RECURSIVE"
  | .indent => "SIGSORT_INDENT"
  | .format => "SIGSORT_OUTPUT_FORMAT"
  | .backup => "SIGSORT_BACKUP_ENABLED"

/-- The truth value that a word stands for, in any case and between any blanks. -/
def truthOf? (text : String) : Option Bool :=
  let word := Text.lowercase (Text.trim text)
  if word ∈ ["1", "true", "yes", "on"] then some true
  else if word ∈ ["0", "false", "no", "off"] then some false
  else none

/-- The value that a text gives a setting. -/
def accept? (setting : Setting) (text : String) : Option Value :=
  match setting with
  | .recursive | .backup => (truthOf? text).map .bool
  | .indent => (Number.parseWhole 10 text).toOption.map .int
  | .format =>
    let word := Text.lowercase text
    if word ∈ formats then some (.str word) else none

/-- The text of the variable of a setting, if it is set. -/
def variableText? (environment : Environment) (setting : Setting) : Option String :=
  (environment.lookup (variableOf setting)).filter (!·.isEmpty)

/-- The value that the environment gives a setting. -/
def fromVariable? (environment : Environment) (setting : Setting) : Option Value :=
  (variableText? environment setting).bind (accept? setting)

/-- The entries of a part that the environment gives. -/
def partFromEnvironment (environment : Environment) (part : Part) : Entries :=
  Entries.ofFields <| (Setting.inPart part).filterMap fun setting =>
    (fromVariable? environment setting).map fun value => (setting.key, value)

/-- The document that the environment gives; it has only the parts in which something is set. -/
def fromEnvironment (environment : Environment) : Entries :=
  Entries.ofFields <| [Part.sort, Part.output].filterMap fun part =>
    match partFromEnvironment environment part with
    | [] => none
    | entries => some (part.key, .map none entries)

/-- What is told about the variables that are not accepted. -/
def environmentNotices (environment : Environment) : List Notice :=
  Setting.all.filterMap fun setting =>
    (variableText? environment setting).bind fun text =>
      match accept? setting text with
      | some _ => none
      | none =>
        some ⟨.settings, .warning, "Invalid " ++ variableOf setting ++ " value, using default"⟩

end Settings

end MemberOrder
