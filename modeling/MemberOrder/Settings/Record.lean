import MemberOrder.Settings.Basic

/-!
# Settings from a document

The settings that a merged document gives: for each part the values of the keys that name a setting,
and the defaults for the rest. Keys that name nothing are passed over.
-/

namespace MemberOrder

namespace Settings

/-- Why a document gives no settings. -/
inductive RecordFault
  /-- A part holds no entries. -/
  | noEntries
  /-- A key is no text. -/
  | keyKind
  /-- The kind of a record cannot be changed to a value. -/
  | recordKind
  /-- All settings of a part can be replaced by those of a map only. -/
  | replacementKind
  /-- What refers to a record cannot be changed. -/
  | reference
deriving DecidableEq, Repr

/-- The key of the outline of a part. -/
def outlineKey : String := "__dataclass_fields__"

/-- The outline that a value stands for: an empty map leaves nothing, and nothing else makes
sense. -/
def outlineOf : Value → Outline
  | .map _ [] => .nothing
  | _ => .broken

/-- The settings with a part as a map gives it. -/
def replacePart (settings : Settings) (part : Part) (entries : Entries) : Settings :=
  let outline := ((entries.field? outlineKey).map outlineOf).getD .whole
  (Setting.inPart part).foldl (fun settings setting =>
    settings.set setting ((entries.field? setting.key).getD (default.get setting)))
    (settings.setOutline part outline)

/-- Takes over one entry of a part. Some keys between double underscores are about the record of the
part as a whole. -/
def takeEntry (part : Part) (settings : Settings) (entry : Value × Value) :
    Except RecordFault Settings :=
  match entry with
  | (.str key, value) =>
    match Setting.ofKey? part key, key, value with
    | some setting, _, value => .ok (settings.set setting value)
    | none, "__dict__", .map _ entries => .ok (settings.replacePart part entries)
    | none, "__dict__", _ => .error .replacementKind
    | none, "__class__", _ => .error .recordKind
    | none, "__weakref__", _ => .error .reference
    | none, key, value =>
      .ok (if key = outlineKey then settings.setOutline part (outlineOf value) else settings)
  | _ => .error .keyKind

/-- Takes over a part of a document. -/
def takePart (document : Entries) (settings : Settings) (part : Part) :
    Except RecordFault Settings :=
  match document.field? part.key with
  | none => .ok settings
  | some (.map _ entries) => entries.foldlM (takeEntry part) settings
  | some _ => .error .noEntries

/-- The settings that a document gives. -/
def ofDocument (document : Entries) : Except RecordFault Settings :=
  [Part.sort, Part.output].foldlM (takePart document) default

end Settings

end MemberOrder
