import MemberOrder.Proofs.Outcome
import MemberOrder.Proofs.Settings.Merging
import MemberOrder.Settings.Check
import MemberOrder.Settings.Record

/-!
# Settings that a document gives

A document is plain if its parts have only texts as keys, none of them about the record of a part as
a whole. A plain document that passes the check gives each setting its value there, or the default
(`Settings.exists_ofDocument`), and the settings that it gives are valid
(`Settings.valid_ofDocument`).
-/

namespace MemberOrder

namespace Settings

/-- Whether every setting has a value that makes sense, and all settings are shown. -/
structure Valid (settings : Settings) : Prop where
  recursive : ∃ deep, settings.recursive = .bool deep
  indent : ∃ width, settings.indent = .int width ∧ 0 ≤ width ∧ width ≤ widestIndent
  format : ∃ word ∈ formats, settings.format = .str word
  backup : ∃ kept, settings.backup = .bool kept
  whole : ∀ part, settings.outline part = .whole

/-- Whether settings pass the check that documents have to pass. -/
def Passes (settings : Settings) : Prop :=
  ∃ document, settings.object = .ok document ∧ check document = .ok ()

/-- The entries of a part of a document, if it holds any. -/
def partEntries (document : Entries) (part : Part) : Entries :=
  match document.field? part.key with
  | some (.map _ entries) => entries
  | _ => []

/-- The value that a document has for a setting. -/
def given? (document : Entries) (setting : Setting) : Option Value :=
  (partEntries document setting.part).field? setting.key

/-- The keys that are about the record of a part as a whole. -/
def recordKeys : List String := ["__dict__", "__class__", "__weakref__", outlineKey]

/-- Whether a key is a text that is not about a record as a whole. -/
def PlainKey (key : Value) : Prop := ∃ word, key = .str word ∧ word ∉ recordKeys

/-- Whether the parts of a document have plain keys only. -/
def Plain (document : Entries) : Prop :=
  ∀ part, ∀ entry ∈ partEntries document part, PlainKey entry.1

/-- Whether no part of a document has a text as a key twice. -/
def PartsDistinct (document : Entries) : Prop :=
  ∀ part, (partEntries document part).Distinct

instance (key : Value) : Decidable (PlainKey key) :=
  decidable_of_iff (key.text?.any fun word => word ∉ recordKeys) <| by
    simp only [PlainKey, Option.any_eq_true, Value.text?_eq_some_iff, decide_eq_true_iff]

theorem forall_part {holds : Part → Prop} :
    (∀ part, holds part) ↔ holds .sort ∧ holds .output :=
  ⟨fun all => ⟨all _, all _⟩, fun ⟨sort, output⟩ part => by cases part <;> assumption⟩

instance (document : Entries) : Decidable (Plain document) :=
  decidable_of_iff _ forall_part.symm

section Records

variable {settings : Settings} {setting other : Setting} {part : Part} {value : Value}

theorem ext_get {left right : Settings} (values : ∀ setting, left.get setting = right.get setting)
    (outlines : ∀ part, left.outline part = right.outline part) : left = right := by
  cases left
  cases right
  cases values .recursive
  cases values .indent
  cases values .format
  cases values .backup
  cases outlines .sort
  cases outlines .output
  rfl

theorem get_set (settings : Settings) (setting other : Setting) (value : Value) :
    (settings.set setting value).get other =
      if other = setting then value else settings.get other := by
  cases setting <;> cases other <;> rfl

theorem outline_set (settings : Settings) (setting : Setting) (value : Value) (part : Part) :
    (settings.set setting value).outline part = settings.outline part := by
  cases setting <;> cases part <;> rfl

theorem ofKey?_key (setting : Setting) :
    Setting.ofKey? setting.part setting.key = some setting := by
  cases setting <;> decide

theorem eq_of_ofKey? {key : String} (named : Setting.ofKey? part key = some setting) :
    setting.part = part ∧ setting.key = key := by
  simpa using List.find?_some named

/-- Valid settings are those in which no value has a fault. -/
theorem valid_iff : settings.Valid ↔
    (∀ setting, fault? setting (settings.get setting) = none) ∧
      ∀ part, settings.outline part = .whole := by
  constructor
  · intro valid
    refine ⟨fun setting => ?_, valid.whole⟩
    obtain ⟨deep, recursive⟩ := valid.recursive
    obtain ⟨width, indent, least, most⟩ := valid.indent
    obtain ⟨word, listed, format⟩ := valid.format
    obtain ⟨kept, backup⟩ := valid.backup
    cases setting with
    | recursive => simp [get, recursive, fault?]
    | indent => simp [get, indent, fault?, least, most]
    | format => simp [get, format, fault?, listed]
    | backup => simp [get, backup, fault?]
  · rintro ⟨sound, whole⟩
    have recursive := sound .recursive
    have indent := sound .indent
    have format := sound .format
    have backup := sound .backup
    simp only [get] at recursive indent format backup
    refine ⟨?_, ?_, ?_, ?_, whole⟩
    · unfold fault? at recursive
      split at recursive <;> simp_all
    · unfold fault? at indent
      split at indent <;> simp_all
    · unfold fault? at format
      split at format <;> simp_all
    · unfold fault? at backup
      split at backup <;> simp_all

end Records

section Checking

variable {document : Entries}

theorem findSome?_inPart_eq_none_iff {part : Part} {cause : Setting → Option CheckCause} :
    (Setting.inPart part).findSome? cause = none ↔
      ∀ setting, setting.part = part → cause setting = none := by
  rw [List.findSome?_eq_none_iff]
  constructor
  · intro all setting same
    refine all setting (List.mem_filter.mpr ⟨?_, by simpa using same⟩)
    cases setting <;> simp [Setting.all]
  · intro all setting member
    exact all setting (by simpa using (List.mem_filter.mp member).2)

theorem findSome?_parts_eq_none_iff {cause : Part → Option CheckCause} :
    [Part.sort, Part.output].findSome? cause = none ↔ ∀ part, cause part = none := by
  rw [forall_part, List.findSome?_eq_none_iff]
  simp

theorem documentFault?_eq_none_iff {part : Part} : documentFault? document part = none ↔
    ∀ setting, setting.part = part → (given? document setting).bind (fault? setting) = none := by
  have own : documentFault? document part = partFault? (partEntries document part) part := by
    unfold documentFault? partEntries
    cases document.field? part.key with
    | none => cases part <;> rfl
    | some value => cases value <;> first | rfl | (cases part <;> rfl)
  rw [own]
  refine findSome?_inPart_eq_none_iff.trans (forall_congr' fun setting => ?_)
  refine forall_congr' fun same => ?_
  rw [given?, same]

/-- A document passes if its parts hold entries, and the settings in them values without a fault. -/
theorem checkEntries_eq_ok_iff : checkEntries document = .ok () ↔
    (∀ part, partKindFault? document part = none) ∧
      ∀ setting value, given? document setting = some value → fault? setting value = none := by
  have passes : checkEntries document = .ok () ↔
      [Part.sort, Part.output].findSome? (partKindFault? document) = none ∧
        [Part.sort, Part.output].findSome? (documentFault? document) = none := by
    unfold checkEntries
    simp only
    rw [← Option.or_eq_none_iff]
    split
    · next none => simp [none]
    · next cause found => simp [found]
  rw [passes, findSome?_parts_eq_none_iff, findSome?_parts_eq_none_iff]
  refine and_congr_right fun _ => ?_
  simp only [documentFault?_eq_none_iff, Option.bind_eq_none_iff]
  exact ⟨fun all setting => all _ setting rfl, fun all _ setting _ => all setting⟩

end Checking

section Recording

variable {document : Entries}

theorem plainKey_cons {key value : Value} {rest : Entries}
    (plain : ∀ entry ∈ ((key, value) :: rest : Entries), PlainKey entry.1) :
    (∃ word, key = .str word ∧ word ∉ recordKeys) ∧ ∀ entry ∈ rest, PlainKey entry.1 :=
  List.forall_mem_cons.mp plain

/-- An entry with a plain key gives the setting that the key names its value, if it names one. -/
theorem takeEntry_of_plain (part : Part) (settings : Settings) {word : String} (value : Value)
    (plain : word ∉ recordKeys) : takeEntry part settings (.str word, value) =
      .ok (((Setting.ofKey? part word).map fun setting => settings.set setting value).getD
        settings) := by
  simp only [recordKeys, List.mem_cons, List.not_mem_nil, or_false, not_or] at plain
  unfold takeEntry
  simp only
  split <;> simp_all

/-- Entries with plain keys give the settings of a part their values and leave the rest as it is. -/
theorem exists_foldlM_takeEntry (part : Part) {entries : Entries} (distinct : entries.Distinct)
    (plain : ∀ entry ∈ entries, PlainKey entry.1) (before : Settings) :
    ∃ after, entries.foldlM (takeEntry part) before = .ok after ∧
      (∀ setting, after.get setting =
        if setting.part = part then (entries.field? setting.key).getD (before.get setting)
        else before.get setting) ∧
      ∀ other, after.outline other = before.outline other := by
  induction entries generalizing before with
  | nil => exact ⟨before, rfl, fun setting => by simp [Entries.field?, Entries.get?], fun _ => rfl⟩
  | cons entry rest ih =>
      obtain ⟨key, value⟩ := entry
      obtain ⟨⟨word, rfl, allowed⟩, others⟩ := plainKey_cons plain
      obtain ⟨apart, distinctRest⟩ := Entries.distinct_cons.mp distinct
      obtain ⟨after, taken, values, outlines⟩ := ih distinctRest others
        (((Setting.ofKey? part word).map fun setting => before.set setting value).getD before)
      refine ⟨after, ?_, fun setting => ?_, fun other => ?_⟩
      · rw [List.foldlM_cons, takeEntry_of_plain part before value allowed]
        exact taken
      · rw [values, Entries.field?_cons]
        by_cases named : setting.part = part ∧ setting.key = word
        · obtain ⟨rfl, rfl⟩ := named
          have absent : Entries.field? rest setting.key = none := by
            cases found : Entries.field? rest setting.key with
            | none => rfl
            | some held => exact absurd rfl (apart _ rfl _ (Entries.mem_of_field? found))
          rw [ofKey?_key, absent, if_pos rfl, if_pos rfl,
            if_pos (Value.sameKey_str_iff.mpr rfl)]
          exact (get_set _ _ _ _).trans (if_pos rfl)
        · have kept : (((Setting.ofKey? part word).map fun setting =>
              before.set setting value).getD before).get setting = before.get setting := by
            cases found : Setting.ofKey? part word with
            | none => rfl
            | some taken =>
                refine (get_set _ _ _ _).trans (if_neg fun same => ?_)
                rw [← same] at found
                exact named (eq_of_ofKey? found)
          rw [kept]
          by_cases same : setting.part = part
          · have unnamed : ¬ (Value.str word).sameKey (.str setting.key) := fun equal => by
              cases Value.sameKey_str_iff.mp equal
              exact named ⟨same, rfl⟩
            rw [if_pos same, if_pos same, if_neg unnamed]
          · rw [if_neg same, if_neg same]
      · rw [outlines]
        cases Setting.ofKey? part word with
        | none => rfl
        | some taken => exact outline_set _ _ _ _

theorem takePart_of_kind {part : Part} (kind : partKindFault? document part = none)
    (before : Settings) : takePart document before part =
      (partEntries document part).foldlM (takeEntry part) before := by
  unfold partKindFault? at kind
  unfold takePart partEntries
  split at kind
  · next absent => rw [absent]; rfl
  · next mark entries held => rw [held]
  · cases kind

theorem exists_takePart (plain : Plain document) (distinct : PartsDistinct document) {part : Part}
    (kind : partKindFault? document part = none) (before : Settings) :
    ∃ after, takePart document before part = .ok after ∧
      (∀ setting, after.get setting =
        if setting.part = part then (given? document setting).getD (before.get setting)
        else before.get setting) ∧
      ∀ other, after.outline other = before.outline other := by
  obtain ⟨after, taken, values, outlines⟩ := exists_foldlM_takeEntry part (distinct part)
    (plain part) before
  refine ⟨after, (takePart_of_kind kind before).trans taken, fun setting => ?_, outlines⟩
  rw [values]
  split
  · next same => rw [given?, same]
  · rfl

/-- **Settings of a document.** A plain document gives each setting the value that it has there, or
else the default. -/
theorem exists_ofDocument (plain : Plain document) (distinct : PartsDistinct document)
    (kinds : ∀ part, partKindFault? document part = none) :
    ∃ settings, ofDocument document = .ok settings ∧
      (∀ setting, settings.get setting =
        (given? document setting).getD (default.get setting)) ∧
      ∀ part, settings.outline part = .whole := by
  obtain ⟨sorts, first, sortValues, sortOutlines⟩ :=
    exists_takePart plain distinct (kinds .sort) default
  obtain ⟨settings, second, values, outlines⟩ :=
    exists_takePart plain distinct (kinds .output) sorts
  refine ⟨settings, ?_, fun setting => ?_, fun part => ?_⟩
  · rw [ofDocument, List.foldlM_cons, first]
    exact (congrArg (· >>= pure) second).trans rfl
  · rw [values, sortValues]
    cases setting <;> rfl
  · rw [outlines, sortOutlines]
    cases part <;> rfl

theorem fault?_default (setting : Setting) : fault? setting (default.get setting) = none := by
  cases setting <;> decide

/-- What a plain document gives is valid if the document passes the check. -/
theorem valid_ofDocument (plain : Plain document) (distinct : PartsDistinct document)
    (passes : checkEntries document = .ok ()) :
    ∃ settings, ofDocument document = .ok settings ∧ settings.Valid := by
  obtain ⟨kinds, sound⟩ := checkEntries_eq_ok_iff.mp passes
  obtain ⟨settings, recorded, values, outlines⟩ := exists_ofDocument plain distinct kinds
  refine ⟨settings, recorded, valid_iff.mpr ⟨fun setting => ?_, outlines⟩⟩
  rw [values]
  cases held : given? document setting with
  | none => exact fault?_default setting
  | some value => exact sound setting value held

end Recording

section Showing

variable {settings : Settings}

/-- The document that valid settings are shown as. -/
def shown (settings : Settings) : Entries :=
  Entries.ofFields <| [Part.sort, Part.output].map fun part =>
    (part.key, .map none (Entries.ofFields ((Setting.inPart part).map fun setting =>
      (setting.key, settings.get setting))))

theorem Valid.unshared_get (valid : settings.Valid) (setting : Setting) :
    (settings.get setting).unshared = some (settings.get setting) := by
  obtain ⟨_, recursive⟩ := valid.recursive
  obtain ⟨_, indent, -⟩ := valid.indent
  obtain ⟨_, -, format⟩ := valid.format
  obtain ⟨_, backup⟩ := valid.backup
  cases setting with
  | recursive => rw [get, recursive]; rfl
  | indent => rw [get, indent]; rfl
  | format => rw [get, format]; rfl
  | backup => rw [get, backup]; rfl

theorem Valid.object (valid : settings.Valid) :
    settings.object = .ok (.map none settings.shown) := by
  have parts (part : Part) : settings.partObject part = .ok (.map none (Entries.ofFields
      ((Setting.inPart part).map fun setting => (setting.key, settings.get setting)))) := by
    have fields : (Setting.inPart part).mapM (fun setting =>
        (settings.get setting).unshared.map (setting.key, ·)) =
          some ((Setting.inPart part).map fun setting => (setting.key, settings.get setting)) := by
      simp only [valid.unshared_get, Option.map_some]
      exact List.mapM_pure
    rw [partObject, valid.whole]
    simp only [fields]
  unfold Settings.object
  simp only [List.mapM_cons, List.mapM_nil, parts]
  rfl

theorem given?_shown (settings : Settings) (setting : Setting) :
    given? settings.shown setting = some (settings.get setting) := by
  cases setting <;> rfl

theorem partKindFault?_shown (settings : Settings) (part : Part) :
    partKindFault? settings.shown part = none := by
  cases part <;> rfl

/-- Valid settings pass the check. -/
theorem Valid.passes (valid : settings.Valid) : settings.Passes := by
  refine ⟨_, valid.object, ?_⟩
  have sound : checkEntries settings.shown = .ok () :=
    checkEntries_eq_ok_iff.mpr ⟨partKindFault?_shown settings, fun setting value held => by
      rw [given?_shown] at held
      rw [← Option.some.inj held]
      exact (valid_iff.mp valid).1 setting⟩
  change (checkEntries settings.shown).mapError CheckFault.cause = .ok ()
  rw [sound]
  rfl

end Showing

end Settings

end MemberOrder
