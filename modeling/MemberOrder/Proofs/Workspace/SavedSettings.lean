import MemberOrder.Proofs.Settings.WrittenSettings
import MemberOrder.Proofs.Store.Frame
import MemberOrder.Proofs.Store.Writing
import MemberOrder.Proofs.Text.Utf8
import MemberOrder.Proofs.Workspace.LoadedSettings

/-!
# Saved settings

The format that settings are saved in is asked for, and the one that they are loaded in is that of
the address. Valid settings that were saved are loaded again, unless they were saved as YAML at an
address of JSON (`Work.loadSettings_saveSettings_iff`).
-/

namespace MemberOrder

namespace Work

open Settings
open Yaml (WordParts blockText flowText partsValue)

variable {settings : Settings} {address format : String} {before after : Workspace}

/-- Whether what is saved in a format is loaded in that format from an address. A YAML file may hold
a JSON text, but not the other way round. -/
def Fits (address format : String) : Prop :=
  Text.lowercase format = "yaml" → settingsFormat address = .yaml

instance (address format : String) : Decidable (Fits address format) :=
  inferInstanceAs (Decidable (_ → _))

/-- What valid settings are written as. -/
def savedText (settings : Settings) (format : String) : List Char :=
  if Text.lowercase format ≠ "yaml" then flowText (settings.arranged shownOrder)
  else blockText (settings.arranged sortedOrder)

section Texts

theorem settingsDraft_shown (valid : settings.Valid) (format : String) :
    settingsDraft (.map none settings.shown) format = .done (savedText settings format) := by
  unfold settingsDraft savedText
  split
  · rw [← partsValue_shownOrder]
    exact Yaml.valueDraft_partsValue rfl (valid.wordParts (.inl rfl))
  · have short := Yaml.exceedsDigits_partsValue (valid.wordParts (.inl rfl))
    rw [partsValue_shownOrder] at short
    rw [if_neg (by rw [short]; exact Bool.false_ne_true), valid.sortKeys_shown,
      Yaml.write_partsValue (valid.wordParts (.inr rfl)), String.toList_ofList]

theorem carriage_not_mem_savedText (valid : settings.Valid) (format : String) :
    '\r' ∉ savedText settings format := by
  unfold savedText
  split
  · exact (Yaml.jsonRead_flowText (valid.wordParts (.inl rfl))).2
  · exact Yaml.carriage_not_mem_blockText (valid.wordParts (.inr rfl))

/-- No JSON text begins with the name of a part. -/
theorem exists_jsonRead_eq_error (settings : Settings) : ∃ details,
    Json.read (String.ofList (blockText (settings.arranged sortedOrder))) =
      .error (.malformed .value details) := by
  obtain ⟨rest, begins⟩ : ∃ rest, blockText (settings.arranged sortedOrder) = 'o' :: rest := by
    have word : "output".toList = 'o' :: "utput".toList := by decide
    obtain ⟨fields, more, parts⟩ : ∃ fields more,
      settings.arranged sortedOrder = ("output", fields) :: more := ⟨_, _, rfl⟩
    rw [parts, blockText, ← Yaml.flatten_map_append, Yaml.blockPart, word]
    exact ⟨_, rfl⟩
  refine ⟨0, ?_⟩
  rw [begins, Json.read, String.toList_ofList]
  rfl

theorem isPresent_of_unshared {given : Value} {parts : Yaml.Parts} (words : WordParts parts)
    (copy : given.unshared = some (partsValue parts)) :
    ∃ mark document, given = .map mark document ∧ given.isPresent := by
  obtain ⟨mark, document, rfl, copied⟩ := Value.unshared_eq_map_iff.mp copy
  refine ⟨mark, document, rfl, ?_⟩
  cases document with
  | cons entry rest => rfl
  | nil =>
      rw [Value.unsharedEntries] at copied
      have none := List.map_eq_nil_iff.mp (List.map_eq_nil_iff.mp (Option.some.inj copied).symm)
      exact absurd none words.nonempty

theorem settingsValue_of_yaml (yaml : settingsFormat address = .yaml) {text : String}
    {given : Value} (read : Yaml.read text = .ok given) (present : given.isPresent) :
    settingsValue address text = .ok given := by
  unfold settingsFormat at yaml
  unfold settingsValue
  split at yaml
  · next ends =>
      rw [if_pos ends, read]
      simp only [present, if_true]
  · cases yaml

theorem settingsValue_of_json (json : settingsFormat address = .json) (text : String) :
    settingsValue address text = match Json.read text with
      | .ok value => .ok value
      | .error (.tooManyDigits count) => .error (.load (.tooManyDigits count))
      | .error (.malformed cause offset) =>
        .error (.settings (.malformed (Json.placedMessage text cause offset))) := by
  unfold settingsFormat at json
  unfold settingsValue
  split at json
  · cases json
  · next ends => exact if_neg ends

/-- What settings were saved as has them as its value where it is loaded in a format that fits. -/
theorem exists_settingsValue_eq (valid : settings.Valid) (fits : Fits address format) :
    ∃ mark document order, (order = shownOrder ∨ order = sortedOrder) ∧
      settingsValue address (String.ofList (savedText settings format)) =
        .ok (.map mark document) ∧
      (Value.map mark document).unshared = some (partsValue (settings.arranged order)) := by
  have fromYaml {order : Order} {text : List Char}
      (listed : order = shownOrder ∨ order = sortedOrder)
      (yaml : settingsFormat address = .yaml) (read : ∃ given, Yaml.read (String.ofList text) =
        .ok given ∧ given.unshared = some (partsValue (settings.arranged order))) :
      ∃ mark document order, (order = shownOrder ∨ order = sortedOrder) ∧
        settingsValue address (String.ofList text) = .ok (.map mark document) ∧
        (Value.map mark document).unshared = some (partsValue (settings.arranged order)) := by
    obtain ⟨given, reads, copy⟩ := read
    obtain ⟨mark, document, rfl, present⟩ := isPresent_of_unshared (valid.wordParts listed) copy
    exact ⟨mark, document, order, listed, settingsValue_of_yaml yaml reads present, copy⟩
  unfold savedText
  split
  · have words := valid.wordParts (.inl rfl)
    by_cases yaml : settingsFormat address = .yaml
    · exact fromYaml (.inl rfl) yaml (Yaml.read_flowText words)
    · have json : settingsFormat address = .json := by
        cases found : settingsFormat address with
        | yaml => exact absurd found yaml
        | json => rfl
      refine ⟨none, settings.shown, shownOrder, .inl rfl, ?_, ?_⟩
      · rw [settingsValue_of_json json, (Yaml.jsonRead_flowText words).1]
        rfl
      · exact (Yaml.readable_partsValue words).unshared_eq
  · next saved =>
      exact fromYaml (.inr rfl) (fits (not_not.mp saved))
        (Yaml.read_blockText (valid.wordParts (.inr rfl)))

/-- What settings were saved as is malformed where it is loaded in a format that does not fit. -/
theorem exists_settingsValue_eq_error (unfit : ¬ Fits address format) (settings : Settings) :
    ∃ details, settingsValue address (String.ofList (savedText settings format)) =
      .error (.settings (.malformed details)) := by
  obtain ⟨saved, other⟩ := Classical.not_imp.mp unfit
  have json : settingsFormat address = .json := by
    cases found : settingsFormat address with
    | yaml => exact absurd found other
    | json => rfl
  obtain ⟨offset, fails⟩ := exists_jsonRead_eq_error settings
  rw [savedText, if_neg (not_not.mpr saved), settingsValue_of_json json, fails]
  exact ⟨_, rfl⟩

end Texts

section Stored

/-- Settings that are saved are written as their text. -/
theorem exists_write_of_saveSettings (valid : settings.Valid)
    (saved : (saveSettings settings address format).run before = (.ok (), after)) :
    before.store.write address (Text.encodeUtf8 (String.ofList (savedText settings format))) =
      .ok after.store := by
  have steps : saveSettings settings address format = Work.writeText
      (fun fault => .settings (.unsaved fault)) address
        (String.ofList (savedText settings format)) := by
    unfold saveSettings
    rw [valid.object]
    simp only [ofExcept, pure_bind, settingsDraft_shown valid, Json.Draft.done]
    exact bind_pure _
  rw [steps] at saved
  exact store_of_run_writeText saved

/-- Settings that give all settings of a document are recorded from it. -/
theorem record_of_shows (valid : settings.Valid) {document : Entries}
    (shows : Shows document settings) (distinct : DistinctThrough document)
    (environment : Environment) :
    record environment false document = .ok settings := by
  have plain := plain_layered distinct.1 shows.plain environment false
  have parts := partsDistinct_layered distinct.1 distinct.2 environment false
  have kinds := partKindFault?_layered distinct.1 shows.kinds environment false
  have given (setting : Setting) : given? (layered environment false document) setting =
      some (settings.get setting) := by
    rw [given?_layered distinct.1, shows.given]
    rfl
  obtain ⟨recorded, outcome, values, outlines⟩ := exists_ofDocument plain parts kinds
  have same : recorded = settings := by
    apply ext_get
    · intro setting
      rw [values, given, Option.getD_some]
    · intro part
      rw [outlines, valid.whole]
  refine record_eq_ok_iff.mpr ⟨checkEntries_eq_ok_iff.mpr ⟨kinds, fun setting value held => ?_⟩, ?_⟩
  · rw [given] at held
    rw [← Option.some.inj held]
    exact (valid_iff.mp valid).1 setting
  · rw [outcome, same]

section Loading

theorem outcome_settingsDocument {octets : List UInt8}
    (held : before.store.read address = .ok octets) :
    ((settingsDocument (some address)).run before).1 = ((readSettings address).run before).1 := by
  have named : (some address).filter (fun address => !address.isEmpty) = some address := by
    obtain ⟨location, located, -⟩ := Store.exists_of_read held
    rw [Option.filter_some, if_pos]
    rw [Bool.not_eq_true', Bool.eq_false_iff, ne_eq, String.isEmpty_iff]
    rintro rfl
    cases located
  unfold settingsDocument
  rw [named]

variable (valid : settings.Valid) (held : before.store.read address =
  .ok (Text.encodeUtf8 (String.ofList (savedText settings format))))
include valid held

theorem outcome_readSettings :
    ((readSettings address).run before).1 =
      ((ofExcept id (settingsValue address (String.ofList (savedText settings format))) >>=
        entriesOf address).run before).1 := by
  have holds : before.store.holds address := by
    obtain ⟨location, located, found⟩ := Store.exists_of_read held
    rw [Store.holds, Store.at?, located]
    exact congrArg Option.isSome found
  have reads (text : String) : OnlyReads (ofExcept id (settingsValue address text) >>=
      entriesOf address) := (OnlyReads.ofExcept _ _).bind (OnlyReads.entriesOf address)
  have text : ((readText (fun fault => .settings (.unreadable fault)) address).run before).1 =
      .ok (String.ofList (savedText settings format)) := by
    refine OnlyReads.outcome_readText_eq_ok_iff.mpr ⟨_, _, held, Text.decodeUtf8?_encodeUtf8 _, ?_⟩
    rw [String.toList_ofList,
      Text.unifyNewlines_of_not_mem (carriage_not_mem_savedText valid format)]
  rw [readSettings_eq]
  change (((if before.store.holds address then _ else _ : Work Entries)).run before).1 = _
  rw [if_pos holds]
  exact (OnlyReads.readText _ _).outcome_bind_of_ok reads text

/-- Settings that an address holds are loaded from it if they were saved in a format that fits. -/
theorem outcome_loadSettings_of_fits (fits : Fits address format) :
    ((loadSettings (some address) false true).run before).1 = .ok settings := by
  obtain ⟨mark, document, order, listed, value, copy⟩ := exists_settingsValue_eq valid fits
  have closed :
      Value.closeEntries (Value.enter [] (.map mark document) mark) document = document := by
    obtain ⟨_, _, same, copied⟩ := Value.unshared_eq_map_iff.mp copy
    cases same
    exact Value.closeEntries_of_unshared document _ copied
  have read : ((settingsDocument (some address)).run before).1 = .ok document := by
    rw [outcome_settingsDocument held, outcome_readSettings valid held, value]
    change ((entriesOf address (.map mark document)).run before).1 = _
    rw [entriesOf, closed]
    rfl
  have distinct := settles_settingsDocument (some address) before
  rw [read] at distinct
  rw [outcome_loadSettings, read]
  exact record_of_shows valid (valid.shows listed copy) distinct.good_of_ok _

/-- Settings that an address holds are malformed if they were saved in a format that does not
fit. -/
theorem outcome_loadSettings_of_not_fits (unfit : ¬ Fits address format) : ∃ details,
    ((loadSettings (some address) false true).run before).1 =
      .error (.settings (.malformed details)) := by
  obtain ⟨details, fails⟩ := @exists_settingsValue_eq_error address format unfit settings
  refine ⟨details, ?_⟩
  rw [outcome_loadSettings, outcome_settingsDocument held, outcome_readSettings valid held, fails]
  rfl

end Loading

end Stored

end Work

end MemberOrder
