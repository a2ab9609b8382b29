import Mathlib.Tactic.IntervalCases
import MemberOrder.Proofs.Json.RoundTrip
import MemberOrder.Proofs.Settings.Layers
import MemberOrder.Proofs.Value.Unshared
import MemberOrder.Proofs.Yaml.WrittenWords
import MemberOrder.Yaml.KeyOrder

/-!
# Written settings

Valid settings are shown as a document of words.
-/

namespace MemberOrder

namespace Settings

open Yaml (IsWord WordValue WordFields WordParts Fields Parts partsValue scalarValue implicitTag)

section Words

variable {settings : Settings} {setting : Setting}

theorem wordValue_str {text : String} (isWord : IsWord text.toList)
    (tag : implicitTag text = .str) : WordValue (.str text) := ⟨isWord, tag, rfl⟩

theorem wordValue_bool (truth : Bool) : WordValue (.bool truth) := by
  cases truth with
  | true => exact ⟨by decide, by decide +kernel, rfl⟩
  | false => exact ⟨by decide, by decide +kernel, rfl⟩

theorem wordValue_int {width : Int} (least : 0 ≤ width) (most : width ≤ widestIndent) :
    WordValue (.int width) := by
  change width ≤ 8 at most
  interval_cases width <;> exact ⟨by decide +kernel, by decide +kernel, by rfl⟩

theorem Valid.wordValue_get (valid : settings.Valid) (setting : Setting) :
    WordValue (settings.get setting) := by
  obtain ⟨_, recursive⟩ := valid.recursive
  obtain ⟨_, indent, least, most⟩ := valid.indent
  obtain ⟨word, listed, format⟩ := valid.format
  obtain ⟨_, backup⟩ := valid.backup
  cases setting with
  | recursive => rw [get, recursive]; exact wordValue_bool _
  | indent => rw [get, indent]; exact wordValue_int least most
  | format =>
      rw [get, format]
      simp only [formats, List.mem_cons, List.not_mem_nil, or_false] at listed
      obtain rfl | rfl | rfl := listed <;> exact wordValue_str (by decide) (by decide +kernel)
  | backup => rw [get, backup]; exact wordValue_bool _

theorem wordValue_partKey (part : Part) : WordValue (.str part.key) := by
  cases part <;> exact wordValue_str (by decide) (by decide +kernel)

theorem wordValue_settingKey (setting : Setting) : WordValue (.str setting.key) := by
  cases setting <;> exact wordValue_str (by decide) (by decide +kernel)

end Words

/-! ### Documents -/

/-- Parts with the settings in them. -/
abbrev Order := List (Part × List Setting)

/-- The order in which settings are shown. -/
def shownOrder : Order := [(.sort, [.recursive]), (.output, [.indent, .format, .backup])]

/-- The order of the keys of settings. -/
def sortedOrder : Order := [(.output, [.backup, .format, .indent]), (.sort, [.recursive])]

/-- Settings in some order. -/
def arranged (settings : Settings) (order : Order) : Parts :=
  order.map fun part => (part.1.key, part.2.map fun setting => (setting.key, settings.get setting))

/-- Whether the parts of a document give settings their values and nothing else. -/
structure Shows (document : Entries) (settings : Settings) : Prop where
  plain : Plain document
  kinds : ∀ part, partKindFault? document part = none
  given : ∀ setting, given? document setting = some (settings.get setting)

section Documents

variable {settings : Settings} {order : Order}

theorem partsValue_shownOrder (settings : Settings) :
    partsValue (settings.arranged shownOrder) = .map none settings.shown := rfl

theorem Valid.sortKeys_get (valid : settings.Valid) (setting : Setting) :
    Yaml.sortKeys (settings.get setting) = settings.get setting := by
  obtain ⟨_, same⟩ | ⟨_, same⟩ | ⟨_, same⟩ := (valid.wordValue_get setting).cases <;>
    rw [same, Yaml.sortKeys] <;> exact nofun

theorem sortEntries_output (indent format backup : Value) :
    Yaml.sortEntries (Entries.ofFields
        [("indent", indent), ("format", format), ("backup_enabled", backup)]) =
      Entries.ofFields [("backup_enabled", backup), ("format", format), ("indent", indent)] := by
  rfl

theorem sortEntries_parts (sort output : Value) :
    Yaml.sortEntries (Entries.ofFields [("sort", sort), ("output", output)]) =
      Entries.ofFields [("output", output), ("sort", sort)] := by
  rfl

theorem sortKeys_ofFields (fields : Fields) : Yaml.sortKeys (.map none (Entries.ofFields fields)) =
    .map none (Yaml.sortEntries (Entries.ofFields (fields.map fun field =>
      (field.1, Yaml.sortKeys field.2)))) := by
  have keys : Yaml.sortEntryKeys (Entries.ofFields fields) =
      Entries.ofFields (fields.map fun field => (field.1, Yaml.sortKeys field.2)) := by
    induction fields with
    | nil => rfl
    | cons field rest ih =>
        change Yaml.sortEntryKeys ((.str field.1, field.2) :: Entries.ofFields rest) = _
        rw [Yaml.sortEntryKeys, ih]
        rfl
  rw [Yaml.sortKeys, keys]

/-- Settings with their keys in order. -/
theorem Valid.sortKeys_shown (valid : settings.Valid) :
    Yaml.sortKeys (.map none settings.shown) = partsValue (settings.arranged sortedOrder) := by
  have sort : Yaml.sortKeys (.map none (Entries.ofFields
      [("recursive", settings.get .recursive)])) = .map none (Entries.ofFields
        [("recursive", settings.get .recursive)]) := by
    rw [sortKeys_ofFields]
    simp only [List.map_cons, List.map_nil, valid.sortKeys_get]
    rfl
  have output : Yaml.sortKeys (.map none (Entries.ofFields [("indent", settings.get .indent),
      ("format", settings.get .format), ("backup_enabled", settings.get .backup)])) =
        .map none (Entries.ofFields [("backup_enabled", settings.get .backup),
          ("format", settings.get .format), ("indent", settings.get .indent)]) := by
    rw [sortKeys_ofFields]
    simp only [List.map_cons, List.map_nil, valid.sortKeys_get]
    rw [sortEntries_output]
  have parts : settings.shown = Entries.ofFields
      [("sort", .map none (Entries.ofFields [("recursive", settings.get .recursive)])),
        ("output", .map none (Entries.ofFields [("indent", settings.get .indent),
          ("format", settings.get .format), ("backup_enabled", settings.get .backup)]))] := rfl
  rw [parts, sortKeys_ofFields]
  simp only [List.map_cons, List.map_nil, sort, output]
  rw [sortEntries_parts]
  rfl

variable (listed : order = shownOrder ∨ order = sortedOrder)
include listed

/-- Valid settings are words, in either order. -/
theorem Valid.wordParts (valid : settings.Valid) : WordParts (settings.arranged order) := by
  have words (listed : List Setting) (nonempty : listed ≠ [])
      (distinct : (listed.map Setting.key).Nodup) : WordFields (listed.map fun setting =>
        (setting.key, settings.get setting)) := by
    refine ⟨List.map_eq_nil_iff.not.mpr nonempty, by rwa [List.map_map], fun field member => ?_⟩
    obtain ⟨setting, -, rfl⟩ := List.mem_map.mp member
    exact ⟨wordValue_settingKey setting, valid.wordValue_get setting⟩
  have checked : order ≠ [] ∧ (order.map fun part => part.1.key).Nodup ∧
      ∀ part ∈ order, part.2 ≠ [] ∧ (part.2.map Setting.key).Nodup := by
    obtain rfl | rfl := listed <;> decide
  obtain ⟨nonempty, distinct, each⟩ := checked
  refine ⟨List.map_eq_nil_iff.not.mpr nonempty, ?_, fun part member => ?_⟩
  · rwa [arranged, List.map_map]
  · obtain ⟨given, found, rfl⟩ := List.mem_map.mp member
    exact ⟨wordValue_partKey given.1, words given.2 (each given found).1 (each given found).2⟩

/-- A part of settings in either order has the settings of the part. -/
theorem exists_field?_arranged (settings : Settings) (part : Part) : ∃ held : List Setting,
    Entries.field? (Entries.ofFields ((settings.arranged order).map fun part =>
        (part.1, .map none (Entries.ofFields part.2)))) part.key =
      some (.map none (Entries.ofFields (held.map fun setting =>
        (setting.key, settings.get setting)))) ∧
    ∀ setting : Setting, setting.part = part → Entries.field? (Entries.ofFields
      (held.map fun setting => (setting.key, settings.get setting))) setting.key =
        some (settings.get setting) := by
  obtain rfl | rfl := listed <;> cases part <;>
    exact ⟨_, rfl, fun setting same => by cases setting <;> first | rfl | cases same⟩

/-- A document with a copy that has settings in either order shows the settings. -/
theorem Valid.shows (valid : settings.Valid) {mark : Mark} {document : Entries}
    (unshared : (Value.map mark document).unshared = some (partsValue (settings.arranged order))) :
    Shows document settings := by
  obtain ⟨_, _, same, copied⟩ := Value.unshared_eq_map_iff.mp unshared
  cases same
  have parts (part : Part) : ∃ mark entries, document.field? part.key = some (.map mark entries) ∧
      (∀ entry ∈ entries, PlainKey entry.1) ∧ ∀ setting : Setting, setting.part = part →
        Entries.field? entries setting.key = some (settings.get setting) := by
    obtain ⟨held, found, fields⟩ := exists_field?_arranged listed settings part
    obtain ⟨value, there, copy⟩ := Entries.exists_field?_of_unshared copied found
    obtain ⟨mark, entries, rfl, inner⟩ := Value.unshared_eq_map_iff.mp copy
    refine ⟨mark, entries, there, fun entry member => ?_, fun setting same => ?_⟩
    · obtain ⟨key, _, copyListed, one, -⟩ := Entries.exists_mem_of_unshared inner member
      obtain ⟨field, fieldListed, equal⟩ := List.mem_map.mp copyListed
      obtain ⟨setting, -, rfl⟩ := List.mem_map.mp fieldListed
      cases equal
      refine ⟨setting.key, Value.unshared_eq_str_iff.mp one, ?_⟩
      cases setting <;> decide
    · obtain ⟨value, there, copy⟩ := Entries.exists_field?_of_unshared inner (fields setting same)
      rw [there, (valid.wordValue_get setting).eq_of_unshared copy]
  refine ⟨fun part => ?_, fun part => ?_, fun setting => ?_⟩
  · obtain ⟨mark, entries, found, plain, -⟩ := parts part
    rw [partEntries, found]
    exact plain
  · obtain ⟨mark, entries, found, -⟩ := parts part
    rw [partKindFault?, found]
  · obtain ⟨mark, entries, found, -, given⟩ := parts setting.part
    rw [given?, partEntries, found]
    exact given setting rfl

end Documents

end Settings

end MemberOrder
