import MemberOrder.Proofs.Workspace.LoadedSettings

/-!
# Where a setting comes from

A setting has the value of its variable, if that is set to a text that the setting accepts, or else
the value that the settings file has for it, or else the default (`Settings.chosen`). Loading gives
the settings that are chosen in this way, and it gives settings exactly if every chosen value makes
sense and every part holds entries in the file or in the environment
(`Work.loadSettings_eq_chosen`). A variable with a text that is not accepted counts as one that is
not set.
-/

namespace MemberOrder

namespace Settings

/-- The value of a setting by its sources, the environment before the document. -/
def chosen (environment : Environment) (document : Entries) (setting : Setting) : Value :=
  ((fromVariable? environment setting).or (given? document setting)).getD (default.get setting)

/-- Whether settings are those that an environment and a document choose, and make sense. -/
structure Chosen (environment : Environment) (document : Entries) (settings : Settings) :
    Prop where
  value : ∀ setting, settings.get setting = chosen environment document setting
  sound : ∀ setting, fault? setting (chosen environment document setting) = none
  /-- A part that holds no entries in the document has a setting from the environment. -/
  kinds : ∀ part, partKindFault? document part = none ∨
    ∃ setting, setting.part = part ∧ (fromVariable? environment setting).isSome
  whole : ∀ part, settings.outline part = .whole

section Sources

variable {environment other : Environment} {document : Entries} {settings : Settings}
  {setting : Setting} {part : Part}

theorem partFromEnvironment_eq_nil_iff : partFromEnvironment environment part = [] ↔
    ∀ setting, setting.part = part → fromVariable? environment setting = none := by
  unfold partFromEnvironment Entries.ofFields
  rw [List.map_eq_nil_iff, List.filterMap_eq_nil_iff]
  simp only [Option.map_eq_none_iff, mem_inPart]

/-- The layers have entries in a part if the document has, or if the environment gives any. -/
theorem partKindFault?_layered_eq_none_iff (distinct : document.Distinct) :
    partKindFault? (layered environment true document) part = none ↔
      partKindFault? document part = none ∨
        ∃ setting, setting.part = part ∧ (fromVariable? environment setting).isSome := by
  have field : (layered environment true document).field? part.key =
      mergeField (document.field? part.key) (environmentPart? environment part) := by
    unfold layered
    rw [if_pos rfl, field?_mergeEntries (distinct_fromEnvironment environment),
      field?_mergeEntries_nil distinct, field?_fromEnvironment]
  cases added : partFromEnvironment environment part with
  | nil =>
      have unset : ¬ ∃ setting, setting.part = part ∧
          (fromVariable? environment setting).isSome := by
        rintro ⟨setting, same, given⟩
        rw [partFromEnvironment_eq_nil_iff.mp added setting same] at given
        cases given
      have kept : (layered environment true document).field? part.key =
          document.field? part.key := by
        rw [field, environmentPart?, added]
        rfl
      rw [or_iff_left unset]
      unfold partKindFault?
      rw [kept]
  | cons entry rest =>
      have set : ∃ setting, setting.part = part ∧
          (fromVariable? environment setting).isSome := by
        refine Classical.byContradiction fun none => ?_
        have empty := partFromEnvironment_eq_nil_iff.mpr fun setting same =>
          Option.not_isSome_iff_eq_none.mp fun given => none ⟨setting, same, given⟩
        rw [added] at empty
        cases empty
      have whole := extended_mergeField (document.field? part.key) (entry :: rest)
      refine iff_of_true ?_ (.inr set)
      unfold partKindFault?
      rw [field, environmentPart?, added]
      generalize document.field? part.key = before at whole ⊢
      generalize mergeField before _ = merged at whole ⊢
      cases whole with
      | kept nothing => cases nothing
      | merged | replaced => rfl

theorem given?_layered_getD (distinct : document.Distinct) (setting : Setting) :
    (given? (layered environment true document) setting).getD (default.get setting) =
      chosen environment document setting := by
  rw [given?_layered distinct]
  rfl

/-- A plain document gives the chosen settings with the environment, if it gives any. -/
theorem record_eq_ok_iff_chosen (distinct : document.Distinct) (parts : PartsDistinct document)
    (plain : Plain document) :
    record environment true document = .ok settings ↔ Chosen environment document settings := by
  have recorded := @exists_ofDocument (layered environment true document)
    (plain_layered distinct plain environment true)
    (partsDistinct_layered distinct parts environment true)
  rw [record_eq_ok_iff, checkEntries_eq_ok_iff]
  constructor
  · rintro ⟨⟨kinds, sound⟩, given⟩
    obtain ⟨others, same, values, whole⟩ := recorded kinds
    rw [given] at same
    cases same
    refine ⟨fun setting => ?_, fun setting => ?_, fun part =>
      (partKindFault?_layered_eq_none_iff distinct).mp (kinds part), whole⟩
    · rw [values, given?_layered_getD distinct]
    · rw [← given?_layered_getD distinct]
      cases held : given? (layered environment true document) setting with
      | none => exact fault?_default setting
      | some value => exact sound setting value held
  · rintro ⟨values, sound, kinds, whole⟩
    have layers (part : Part) : partKindFault? (layered environment true document) part = none :=
      (partKindFault?_layered_eq_none_iff distinct).mpr (kinds part)
    obtain ⟨others, given, valuesThere, wholeThere⟩ := recorded layers
    refine ⟨⟨layers, fun setting value held => ?_⟩, ?_⟩
    · have fine := sound setting
      rw [← given?_layered_getD distinct, held] at fine
      exact fine
    · rw [given]
      refine congrArg Except.ok (ext_get (fun setting => ?_) fun part => ?_)
      · rw [valuesThere, given?_layered_getD distinct, values]
      · rw [wholeThere, whole]

theorem variableOf_injective : Function.Injective variableOf := by
  intro first second same
  cases first <;> cases second <;> first | rfl | exact absurd same (by decide)

/-- A refused text gives a setting nothing, and no other setting anything else. -/
theorem fromVariable?_put_of_refused {text : String} (refused : accept? setting text = none)
    (environment : Environment) (asked : Setting) :
    fromVariable? (environment.put (variableOf setting) (some text)) asked =
      fromVariable? (environment.put (variableOf setting) none) asked := by
  unfold fromVariable? variableText? Environment.put
  simp only
  by_cases same : asked = setting
  · subst same
    have absent : (environment.filter fun entry => entry.1 ≠ variableOf asked).lookup
        (variableOf asked) = none := by
      rw [List.lookup_eq_none_iff]
      intro entry listed
      exact bne_iff_ne.mpr (Ne.symm (of_decide_eq_true (List.mem_filter.mp listed).2))
    rw [List.lookup_cons, beq_self_eq_true, absent, Option.filter_some]
    split
    · exact refused
    · rfl
  · have apart : (variableOf asked == variableOf setting) = false :=
      beq_false_of_ne fun equal => same (variableOf_injective equal)
    rw [List.lookup_cons, apart]

theorem fromEnvironment_congr
    (same : ∀ setting, fromVariable? environment setting = fromVariable? other setting) :
    fromEnvironment environment = fromEnvironment other := by
  have parts (part : Part) : partFromEnvironment environment part =
      partFromEnvironment other part := by
    unfold partFromEnvironment
    simp only [same]
  unfold fromEnvironment
  simp only [parts]

end Sources

end Settings

namespace Work

open Settings

section Environments

variable {α β : Type} {work : Work α} {next : α → Work β}

/-- Whether how work ends does not depend on the environment. -/
def IgnoresEnvironment (work : Work α) : Prop :=
  ∀ (before : Workspace) (environment : Environment),
    (work.run { before with environment }).1 = (work.run before).1

theorem IgnoresEnvironment.bind (ignores : IgnoresEnvironment work) (first : OnlyReads work)
    (rest : ∀ value, OnlyReads (next value))
    (ignoresRest : ∀ value, IgnoresEnvironment (next value)) :
    IgnoresEnvironment (work >>= next) := by
  intro before environment
  rw [first.outcome_bind rest, first.outcome_bind rest, ignores]
  exact bind_congr fun value => ignoresRest value before environment

theorem ignoresEnvironment_ofExcept {ε : Type} (failure : ε → Failure) (outcome : Except ε α) :
    IgnoresEnvironment (ofExcept failure outcome) := by
  cases outcome <;> exact fun _ _ => rfl

theorem ignoresEnvironment_store : IgnoresEnvironment store := fun _ _ => rfl

theorem ignoresEnvironment_tell (notice : Notice) : IgnoresEnvironment (tell notice) :=
  fun before environment => by rw [OnlyReads.outcome_tell, OnlyReads.outcome_tell]

theorem ignoresEnvironment_readText (unreadable : StoreFault → Failure) (address : String) :
    IgnoresEnvironment (readText unreadable address) := by
  refine ignoresEnvironment_store.bind .store (fun _ => (OnlyReads.ofExcept _ _).bind .textOf)
    fun given => (ignoresEnvironment_ofExcept _ _).bind (.ofExcept _ _) .textOf fun octets => ?_
  split <;> exact fun _ _ => rfl

theorem ignoresEnvironment_readSettings (address : String) :
    IgnoresEnvironment (readSettings address) := by
  have reads (text : String) : OnlyReads (ofExcept id (settingsValue address text) >>=
      entriesOf address) := (OnlyReads.ofExcept _ _).bind (.entriesOf address)
  rw [readSettings_eq]
  refine ignoresEnvironment_store.bind .store (fun given => ?_) fun given => ?_
  · split
    · exact (OnlyReads.readText _ _).bind reads
    · exact .failed _
  · split
    · refine (ignoresEnvironment_readText _ _).bind (.readText _ _) reads fun text => ?_
      refine (ignoresEnvironment_ofExcept _ _).bind (.ofExcept _ _) (.entriesOf address)
        fun value => ?_
      cases value <;> exact fun _ _ => rfl
    · exact fun _ _ => rfl

theorem ignoresEnvironment_settingsDocument (asked : Option String) :
    IgnoresEnvironment (settingsDocument asked) := by
  unfold settingsDocument
  split
  · exact ignoresEnvironment_readSettings _
  · have told (address : String) (document : Entries) : OnlyReads (do
        tell ⟨.settings, .info, "Loaded configuration from: " ++ address⟩
        return document) := (OnlyReads.tell _).bind fun _ => .done _
    refine ignoresEnvironment_store.bind .store (fun given => ?_) fun given => ?_
    · split
      · exact .done _
      · exact (OnlyReads.readSettings _).bind (told _)
    · split
      · exact fun _ _ => rfl
      · exact (ignoresEnvironment_readSettings _).bind (.readSettings _) (told _) fun _ =>
          (ignoresEnvironment_tell _).bind (.tell _) (fun _ => .done _) fun _ _ _ => rfl

end Environments

variable {before : Workspace} {asked : Option String} {document : Entries}

theorem outcome_loadSettings_congr {first second : Environment}
    (same : ∀ setting, fromVariable? first setting = fromVariable? second setting) :
    ((loadSettings asked true true).run { before with environment := first }).1 =
      ((loadSettings asked true true).run { before with environment := second }).1 := by
  have layers (document : Entries) :
      layered first true document = layered second true document := by
    unfold layered
    rw [fromEnvironment_congr same]
  rw [outcome_loadSettings, outcome_loadSettings,
    ignoresEnvironment_settingsDocument asked before first,
    ignoresEnvironment_settingsDocument asked before second]
  cases ((settingsDocument asked).run before).1 with
  | error failure => rfl
  | ok document =>
      change record first true document = record second true document
      unfold record
      rw [layers]

theorem loadSettings_eq_ok_iff_chosen
    (reads : ((settingsDocument asked).run before).1 = .ok document) (plain : Plain document)
    (settings : Settings) :
    ((loadSettings asked true true).run before).1 = .ok settings ↔
      Chosen before.environment document settings := by
  have read := settles_settingsDocument asked before
  rw [reads] at read
  obtain ⟨distinct, parts⟩ := read.good_of_ok
  rw [outcome_loadSettings, reads]
  exact record_eq_ok_iff_chosen distinct parts plain

/-- **Where a setting comes from.** With a plain settings file, loading gives settings exactly if
these are the chosen ones and make sense. A setting that has the same sources elsewhere has the same
value there, whatever the sources of the others. A variable with a text that its setting does not
accept changes the outcome no more than one that is not set. -/
theorem loadSettings_eq_chosen (reads : ((settingsDocument asked).run before).1 = .ok document)
    (plain : Plain document) :
    (∀ settings, ((loadSettings asked true true).run before).1 = .ok settings ↔
      Chosen before.environment document settings) ∧
    (∀ (askedThere : Option String) (there : Workspace) (documentThere : Entries)
      (settings settingsThere : Settings),
      ((settingsDocument askedThere).run there).1 = .ok documentThere → Plain documentThere →
      ((loadSettings asked true true).run before).1 = .ok settings →
      ((loadSettings askedThere true true).run there).1 = .ok settingsThere →
      ∀ setting, fromVariable? there.environment setting =
          fromVariable? before.environment setting →
        given? documentThere setting = given? document setting →
          settingsThere.get setting = settings.get setting) ∧
    ∀ setting text, accept? setting text = none →
      ((loadSettings asked true true).run { before with
        environment := before.environment.put (variableOf setting) (some text) }).1 =
      ((loadSettings asked true true).run { before with
        environment := before.environment.put (variableOf setting) none }).1 := by
  refine ⟨loadSettings_eq_ok_iff_chosen reads plain, ?_, fun setting text refused =>
    outcome_loadSettings_congr (fromVariable?_put_of_refused refused before.environment)⟩
  intro askedThere there documentThere settings settingsThere readsThere plainThere loads
    loadsThere setting sameVariable sameField
  have here := (loadSettings_eq_ok_iff_chosen reads plain settings).mp loads
  have elsewhere :=
    (loadSettings_eq_ok_iff_chosen readsThere plainThere settingsThere).mp loadsThere
  rw [here.value, elsewhere.value, chosen, chosen, sameVariable, sameField]

/-- A settings file in which one part holds no entries, under variables of which one is not
accepted. -/
private def mixedSources : Workspace where
  store := Store.empty.put ["a.json"] (.file (Text.encodeUtf8
    "\x7b\"sort\": 5, \"output\": \x7b\"indent\": 3, \"format\": \"json\", \"colour\": 1\x7d\x7d"))
  environment := [("SIGSORT_RECURSIVE", " Off "), ("SIGSORT_INDENT", "many"),
    ("SIGSORT_OUTPUT_FORMAT", "YAML")]
  verbose := false
  output := []

/-- Whether settings come from every kind of source. -/
private def isMixed (settings : Settings) : Bool :=
  match settings.recursive, settings.indent, settings.format, settings.backup with
  | .bool false, .int 3, .str "yaml", .bool false => true
  | _, _, _, _ => false

theorem loadSettings_eq_chosen_mixedSources : ∃ document settings,
    ((settingsDocument (some "a.json")).run mixedSources).1 = .ok document ∧ Plain document ∧
      ((loadSettings (some "a.json") true true).run mixedSources).1 = .ok settings ∧
      Chosen mixedSources.environment document settings ∧ settings.recursive = .bool false ∧
      settings.indent = .int 3 ∧ settings.format = .str "yaml" ∧ settings.backup = .bool false := by
  have readsPlain : (((settingsDocument (some "a.json")).run mixedSources).1.toOption.any
      fun document => Plain document) = true := by decide +kernel
  have loadsMixed : (((loadSettings (some "a.json") true true).run mixedSources).1.toOption.any
      isMixed) = true := by decide +kernel
  obtain ⟨document, found, plain⟩ := Option.any_eq_true _ _ |>.mp readsPlain
  obtain ⟨settings, given, mixed⟩ := Option.any_eq_true _ _ |>.mp loadsMixed
  have reads := eq_ok_of_toOption found
  have loads := eq_ok_of_toOption given
  have chosen := ((loadSettings_eq_chosen reads (of_decide_eq_true plain)).1 settings).mp loads
  refine ⟨document, settings, reads, of_decide_eq_true plain, loads, chosen, ?_⟩
  unfold isMixed at mixed
  split at mixed
  · next recursive indent format backup => exact ⟨recursive, indent, format, backup⟩
  · cases mixed

end Work

end MemberOrder
