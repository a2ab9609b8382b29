import MemberOrder.Settings.Merge
import MemberOrder.Workspace.Basic
import MemberOrder.Yaml.KeyOrder

/-!
# Settings in a workspace

Settings come from a file, the named one or the first that is found, and from the environment, which
wins. `loadSettings` reads, merges and checks them; `saveSettings` writes them to a file.
-/

namespace MemberOrder

namespace Work

/-- Where settings are looked for, in this order. -/
def settingsAddresses : List String :=
  ["sigsort.json", "sigsort.yaml", "sigsort.yml", ".sigsort.json", ".sigsort.yaml", ".sigsort.yml"]

/-- The first of some addresses that there is something at. -/
def findSettings (store : Store) (addresses : List String) : Option String :=
  (if addresses.isEmpty then settingsAddresses else addresses).find? store.holds

/-- The value of the text of a settings file, by the ending of the address. Nothing and the like in
a YAML file is an empty document. -/
def settingsValue (address text : String) : Except Failure Value :=
  if address.endsWith ".yaml" || address.endsWith ".yml" then
    match Yaml.read text with
    | .ok value => .ok (if value.isPresent then value else .map none [])
    | .error .malformed => .error (.settings (.malformed Tree.yamlDetails))
    | .error fault => .error (.load (.scalar fault))
  else
    match Json.read text with
    | .ok value => .ok value
    | .error (.tooManyDigits count) => .error (.load (.tooManyDigits count))
    | .error (.malformed cause offset) =>
      .error (.settings (.malformed (Json.placedMessage text cause offset)))

/-- The document in a settings file. -/
def readSettings (address : String) : Work Entries := do
  if (← store).holds address then
    let text ← readText (fun fault => .settings (.unreadable fault)) address
    match ← ofExcept id (settingsValue address text) with
    | .map mark entries =>
      return Value.closeEntries (Value.enter [] (.map mark entries) mark) entries
    | _ => throw (.settings (.notMapping address))
  else throw (.settings (.notFound address))

/-- The document in the named settings file, or in the first that is found. -/
def settingsDocument (address : Option String) : Work Entries := do
  match address.filter (!·.isEmpty) with
  | some address => readSettings address
  | none =>
    match findSettings (← store) [] with
    | none => return []
    | some address =>
      let document ← readSettings address
      tell ⟨.settings, .info, "Loaded configuration from: " ++ address⟩
      return document

/-- The document that the environment gives. -/
def environmentDocument : Work Entries := do
  let environment := (← get).environment
  tellAll (Settings.environmentNotices environment)
  return Settings.fromEnvironment environment

/-- The settings of a file with those of the environment. -/
def loadSettings (address : Option String) (useEnvironment validate : Bool) : Work Settings := do
  let document ← settingsDocument address
  let above ← if useEnvironment then environmentDocument else pure []
  let merged := Settings.mergeEntries (Settings.mergeEntries [] document) above
  if validate then
    ofExcept (fun cause => .settings (.check cause)) (Settings.checkEntries merged)
  ofExcept .record (Settings.ofDocument merged)

/-- The text of a settings document, as YAML if that is asked for and as JSON otherwise. A value
that the format does not have ends a JSON text before it, and leaves nothing of a YAML text. -/
def settingsDraft (document : Value) (format : String) : Json.Draft :=
  if Text.lowercase format ≠ "yaml" then Json.valueDraft .portable 0 document
  else if document.exceedsDigits then .failed .tooManyDigits
  else .done (Yaml.write ⟨false, true⟩ (Yaml.sortKeys document)).toList

/-- Settings in words. -/
def settingsSummary (settings : Settings) : Work String :=
  match settings.summary? with
  | some text => return text
  | none => throw (.dump (.write .tooManyDigits))

/-- Writes settings to a file. -/
def saveSettings (settings : Settings) (address format : String) : Work Unit := do
  let document ← ofExcept .object settings.object
  let draft := settingsDraft document format
  writeText (fun fault => .settings (.unsaved fault)) address (String.ofList draft.text)
  match draft.fault with
  | some fault => throw (.dump (.write fault))
  | none => return

end Work

end MemberOrder
