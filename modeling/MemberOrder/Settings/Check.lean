import MemberOrder.Settings.Basic

/-!
# Checking settings

Which values of a settings document make sense. Parts and keys that are absent are fine, and so are
keys that name no setting.
-/

namespace MemberOrder

namespace Settings

/-- The formats that output can have. -/
def formats : List String := ["rbs", "json", "yaml"]

/-- The widest step of indentation. -/
def widestIndent : Int := 8

/-- What makes no sense about settings. -/
inductive CheckCause
  | partKind (part : Part)
  | recursiveKind
  | indentKind
  | indentRange
  | format
  | backupKind
deriving DecidableEq, Repr

/-- Why a check fails: the settings make no sense, or there is no document to look into. -/
inductive CheckFault
  | cause (cause : CheckCause)
  | noDocument
deriving DecidableEq, Repr

def CheckCause.message : CheckCause → String
  | .partKind part => "'" ++ part.key ++ "' must be a mapping"
  | .recursiveKind => "recursive must be true or false"
  | .indentKind => "indent must be an integer"
  | .indentRange => "indent must be between 0 and " ++ toString widestIndent
  | .format => "format must be one of: " ++ Value.listLiteral formats
  | .backupKind => "backup_enabled must be true or false"

def isBool : Value → Bool
  | .bool _ => true
  | _ => false

/-- What makes no sense about the value of a setting. -/
def fault? (setting : Setting) (value : Value) : Option CheckCause :=
  match setting, value with
  | .recursive, .bool _ => none
  | .recursive, _ => some .recursiveKind
  | .indent, .int width => if 0 ≤ width ∧ width ≤ widestIndent then none else some .indentRange
  | .indent, _ => some .indentKind
  | .format, .str word => if word ∈ formats then none else some .format
  | .format, _ => some .format
  | .backup, .bool _ => none
  | .backup, _ => some .backupKind

/-- The first fault of the settings of a part. -/
def partFault? (entries : Entries) (part : Part) : Option CheckCause :=
  (Setting.inPart part).findSome? fun setting =>
    (entries.field? setting.key).bind (fault? setting)

/-- The parts that are there but hold no entries. -/
def partKindFault? (document : Entries) (part : Part) : Option CheckCause :=
  match document.field? part.key with
  | none | some (.map _ _) => none
  | some _ => some (.partKind part)

/-- The first fault of a part that holds entries. -/
def documentFault? (document : Entries) (part : Part) : Option CheckCause :=
  match document.field? part.key with
  | some (.map _ entries) => partFault? entries part
  | _ => none

/-- Checks the entries of a document: first what the parts are, then what is in them. -/
def checkEntries (document : Entries) : Except CheckCause Unit :=
  let parts := [Part.sort, Part.output]
  let inKinds := parts.findSome? (partKindFault? document)
  match inKinds.or (parts.findSome? (documentFault? document)) with
  | none => .ok ()
  | some cause => .error cause

/-- Whether a word is a piece of a text. -/
def occursIn (word : List Char) : List Char → Bool
  | [] => word.isEmpty
  | c :: rest => word.isPrefixOf (c :: rest) || occursIn word rest

/-- Whether something that is no map can be asked for a part, and has none. -/
def hasNoPart (value : Value) (part : Part) : Bool :=
  match value with
  | .str text => !occursIn part.key.toList text.toList
  | .list _ items => !items.any (·.sameKey (.str part.key))
  | _ => false

/-- Checks a document of any kind. -/
def check (document : Value) : Except CheckFault Unit :=
  match document with
  | .map _ entries => (checkEntries entries).mapError .cause
  | value =>
    if hasNoPart value .sort && hasNoPart value .output then .ok () else .error .noDocument

end Settings

end MemberOrder
