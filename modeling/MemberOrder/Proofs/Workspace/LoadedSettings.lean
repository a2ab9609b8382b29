import MemberOrder.Proofs.Settings.Layers
import MemberOrder.Proofs.Tree.KeptEntries
import MemberOrder.Proofs.Workspace.Running

/-!
# Loaded settings

Loading settings fails because of what is wrong with them, or for one of few other causes that the
file shows (`Work.SettingsCause`). Settings that are loaded from a plain document are valid, and
nothing in the document but the values of the settings decides what they are
(`Work.loadSettings_settles`).
-/

namespace MemberOrder

namespace Settings

/-- Whether another document has the same values for the settings, in parts that hold entries. -/
structure SameValues (document another : Entries) : Prop where
  plain : Plain another
  kinds : ∀ part, partKindFault? another part = none
  given : ∀ setting, given? another setting = given? document setting

/-- The settings that a document gives with those of the environment, if the environment counts. -/
def record (environment : Environment) (counts : Bool) (document : Entries) :
    Except Failure Settings := do
  (checkEntries (layered environment counts document)).mapError fun cause => .settings (.check cause)
  (ofDocument (layered environment counts document)).mapError .record

section Recorded

variable {environment : Environment} {counts : Bool} {document another : Entries}
  {settings : Settings}

theorem record_eq_ok_iff : record environment counts document = .ok settings ↔
    checkEntries (layered environment counts document) = .ok () ∧
      ofDocument (layered environment counts document) = .ok settings := by
  unfold record
  cases checkEntries (layered environment counts document) with
  | error cause => exact iff_of_false nofun nofun
  | ok _ =>
      cases ofDocument (layered environment counts document) with
      | error fault => exact iff_of_false nofun nofun
      | ok given =>
          refine ⟨fun same => ⟨rfl, ?_⟩, fun same => ?_⟩
          · cases same
            rfl
          · cases same.2
            rfl

theorem valid_of_record (distinct : document.Distinct) (parts : PartsDistinct document)
    (plain : Plain document) (recorded : record environment counts document = .ok settings) :
    settings.Valid := by
  obtain ⟨passes, given⟩ := record_eq_ok_iff.mp recorded
  obtain ⟨others, givenAgain, valid⟩ := valid_ofDocument
    (plain_layered distinct plain environment counts)
    (partsDistinct_layered distinct parts environment counts) passes
  rw [given] at givenAgain
  cases givenAgain
  exact valid

/-- Settings are those of any other document that has the same values for them. -/
theorem record_of_sameValues (distinct : document.Distinct) (parts : PartsDistinct document)
    (plain : Plain document) (recorded : record environment counts document = .ok settings)
    (distinctOther : another.Distinct) (partsOther : PartsDistinct another)
    (same : SameValues document another) : record environment counts another = .ok settings := by
  obtain ⟨passes, given⟩ := record_eq_ok_iff.mp recorded
  obtain ⟨kinds, sound⟩ := checkEntries_eq_ok_iff.mp passes
  have values (setting : Setting) : given? (layered environment counts another) setting =
      given? (layered environment counts document) setting := by
    rw [given?_layered distinctOther, given?_layered distinct, same.given]
  have kindsOther := partKindFault?_layered distinctOther same.kinds environment counts
  obtain ⟨here, givenHere, valuesHere, outlinesHere⟩ := exists_ofDocument
    (plain_layered distinct plain environment counts)
    (partsDistinct_layered distinct parts environment counts) kinds
  obtain ⟨there, givenThere, valuesThere, outlinesThere⟩ := exists_ofDocument
    (plain_layered distinctOther same.plain environment counts)
    (partsDistinct_layered distinctOther partsOther environment counts) kindsOther
  rw [given] at givenHere
  cases givenHere
  refine record_eq_ok_iff.mpr ⟨checkEntries_eq_ok_iff.mpr ⟨kindsOther, ?_⟩, ?_⟩
  · intro setting value held
    exact sound setting value (by rw [← values, held])
  · rw [givenThere]
    refine congrArg Except.ok (ext_get (fun setting => ?_) fun part => ?_)
    · rw [valuesThere, valuesHere, values]
    · rw [outlinesThere, outlinesHere]

/-- Settings that are not given have a fault that a check finds, or a key about a whole record. -/
theorem settles_record (environment : Environment) (counts : Bool) (distinct : document.Distinct)
    (parts : PartsDistinct document) :
    Settles (fun _ => True) (fun failure => (∃ fault, failure = .settings fault) ∨
      ∃ fault, failure = .record fault ∧ ¬ Plain document)
      (record environment counts document) := by
  cases passes : checkEntries (layered environment counts document) with
  | error cause =>
      unfold record
      rw [passes]
      exact .error (.inl ⟨_, rfl⟩)
  | ok _ =>
      unfold record
      rw [passes]
      cases given : ofDocument (layered environment counts document) with
      | ok settings => exact .ok trivial
      | error fault =>
          refine .error (.inr ⟨fault, rfl, fun plain => ?_⟩)
          obtain ⟨settings, givenAgain, -⟩ := exists_ofDocument
            (plain_layered distinct plain environment counts)
            (partsDistinct_layered distinct parts environment counts)
            (checkEntries_eq_ok_iff.mp passes).1
          rw [given] at givenAgain
          cases givenAgain

end Recorded

end Settings

namespace Work

open Settings

/-- The format in which a settings file is read. -/
def settingsFormat (address : String) : Tree.Format :=
  if address.endsWith ".yaml" || address.endsWith ".yml" then .yaml else .json

/-- The file that settings are read from, and the octets in it. -/
structure SettingsFile (store : Store) (asked : Option String) (address : String)
    (octets : List UInt8) : Prop where
  found : (asked.filter (!·.isEmpty)).or (findSettings store []) = some address
  holds : store.read address = .ok octets

/-- Why loading settings fails with something else than what is wrong with settings. -/
inductive SettingsCause (before : Workspace) (asked : Option String) : Failure → Prop
  /-- The octets of the file are no text. -/
  | encoding {address : String} {octets : List UInt8}
      (file : SettingsFile before.store asked address octets)
      (noText : Text.decodeUtf8? octets = none) : SettingsCause before asked .encoding
  /-- The text of the file breaks no rule of its format and has no value. -/
  | load {address : String} {octets : List UInt8} {chars : List Char} {fault : Tree.LoadFault}
      (file : SettingsFile before.store asked address octets)
      (text : Text.decodeUtf8? octets = some chars)
      (other : Tree.OtherCause (String.ofList (Text.unifyNewlines chars)) (settingsFormat address)
        fault) : SettingsCause before asked (.load fault)
  /-- The document of the file has a key that is no text or about the record of a part. -/
  | record {document : Entries} {fault : RecordFault}
      (reads : ((settingsDocument asked).run before).1 = .ok document)
      (odd : ¬ Plain document) : SettingsCause before asked (.record fault)

/-- The value of a settings file has no text as a key twice, and fails to be there for a cause that
its text shows. -/
theorem settles_settingsValue (address text : String) :
    Settles Value.Keyed (fun failure => (∃ fault, failure = .settings fault) ∨
      ∃ fault, failure = .load fault ∧ Tree.OtherCause text (settingsFormat address) fault)
      (settingsValue address text) := by
  unfold settingsValue settingsFormat
  split
  · have keyed := Yaml.settles_read text
    split
    · next value outcome =>
        rw [outcome] at keyed
        split
        · exact .ok keyed.good_of_ok
        · exact .ok (.map Entries.distinct_nil (List.forall_mem_nil _))
    · exact .error (.inl ⟨_, rfl⟩)
    · next fault other outcome =>
        have reads : Tree.readText .yaml text = .error (.scalar fault) := by
          simp only [Tree.readText, outcome]
        have shown := @Tree.settles_readText_yaml text
        rw [reads] at shown
        obtain ⟨_, ⟨⟩⟩ | cause := shown.bad_of_error
        · exact .error (.inr ⟨_, rfl, cause⟩)
  · have settled := Json.settles_read text
    split
    · next value outcome => exact .ok (Json.readable_of_read outcome).keyed
    · next count outcome =>
        rw [outcome] at settled
        obtain ⟨row, long, rfl⟩ := settled.bad_of_error
        exact .error (.inr ⟨_, rfl, .longNumber long⟩)
    · exact .error (.inl ⟨_, rfl⟩)

/-- Whether no text is a key twice, in a document or in a part of it. -/
def DistinctThrough (document : Entries) : Prop := document.Distinct ∧ PartsDistinct document

theorem distinctThrough_of_keyed {mark : Mark} {entries : Entries}
    (keyed : (Value.map mark entries).Keyed) : DistinctThrough entries := by
  cases keyed with
  | other solid => cases solid
  | map distinct all =>
      refine ⟨distinct, fun part => ?_⟩
      unfold partEntries
      split
      · next inner held found =>
          cases all _ (Entries.mem_of_field? found) with
          | other solid => cases solid
          | map distinct _ => exact distinct
      · exact Entries.distinct_nil

variable {before : Workspace}

/-- The text of a file, or why there is none. -/
theorem settles_readText (unreadable : StoreFault → Failure) (address : String)
    (before : Workspace) :
    Settles (fun text => ∃ octets chars, before.store.read address = .ok octets ∧
        Text.decodeUtf8? octets = some chars ∧ text = String.ofList (Text.unifyNewlines chars))
      (fun failure => (∃ fault, before.store.read address = .error fault ∧
          failure = storeFailure unreadable fault) ∨ (failure = .encoding ∧
        ∃ octets, before.store.read address = .ok octets ∧ Text.decodeUtf8? octets = none))
      ((readText unreadable address).run before).1 := by
  have steps : ((readText unreadable address).run before).1 = ((ofExcept (storeFailure unreadable)
      (before.store.read address) >>= textOf).run before).1 := rfl
  rw [steps]
  cases read : before.store.read address with
  | error fault => exact .error (.inl ⟨fault, rfl, rfl⟩)
  | ok octets =>
      change Settles _ _ ((textOf octets).run before).1
      unfold textOf
      cases text : Text.decodeUtf8? octets with
      | none => exact .error (.inr ⟨rfl, octets, rfl, text⟩)
      | some chars => exact .ok ⟨octets, chars, rfl, text, rfl⟩

/-- The address of something that there is holds no null character. -/
theorem storeFailure_of_holds {unreadable : StoreFault → Failure} {address : String}
    {fault : StoreFault} (holds : before.store.holds address)
    (read : before.store.read address = .error fault) :
    storeFailure unreadable fault = unreadable fault := by
  refine if_neg fun null => ?_
  unfold Store.holds Store.at? at holds
  unfold Store.read at read
  split at read
  · next cause located =>
      rw [located] at holds
      cases holds
  · split at read <;> cases read <;> cases null

/-- The entries of the value of a settings file. -/
def entriesOf (address : String) : Value → Work Entries
  | .map mark entries =>
    return Value.closeEntries (Value.enter [] (.map mark entries) mark) entries
  | _ => throw (.settings (.notMapping address))

theorem readSettings_eq (address : String) : readSettings address = store >>= fun given =>
    if given.holds address then
      readText (fun fault => .settings (.unreadable fault)) address >>= fun text =>
        ofExcept id (settingsValue address text) >>= entriesOf address
    else throw (.settings (.notFound address)) := by
  unfold readSettings
  refine bind_congr fun given => ?_
  split
  · refine bind_congr fun text => bind_congr fun value => ?_
    cases value <;> rfl
  · rfl

theorem OnlyReads.entriesOf (address : String) (value : Value) :
    OnlyReads (Work.entriesOf address value) := by
  unfold Work.entriesOf
  split
  · exact done _
  · exact failed _

theorem settles_entriesOf (address : String) {value : Value} (keyed : value.Keyed) :
    Settles DistinctThrough (fun failure => ∃ fault, failure = .settings fault)
      ((entriesOf address value).run before).1 := by
  unfold entriesOf
  split
  · next mark entries =>
      have outside : ∀ entry ∈ ([] : List (Nat × Value)), entry.2.Keyed := List.forall_mem_nil _
      have closed := Value.keyed_close (Value.keyed_enter outside keyed mark) _ keyed
      rw [Value.close] at closed
      exact .ok (distinctThrough_of_keyed closed)
  · exact .error ⟨_, rfl⟩

/-- The document of a settings file has no text as a key twice. -/
theorem settles_readSettings {address : String} {asked : Option String}
    (found : (asked.filter (!·.isEmpty)).or (findSettings before.store []) = some address) :
    Settles DistinctThrough (fun failure => (∃ fault, failure = .settings fault) ∨
      SettingsCause before asked failure) ((readSettings address).run before).1 := by
  have reads (text : String) : OnlyReads (ofExcept id (settingsValue address text) >>=
      entriesOf address) := (OnlyReads.ofExcept _ _).bind (OnlyReads.entriesOf address)
  rw [readSettings_eq]
  change Settles _ _ (((if before.store.holds address then _ else _ : Work Entries)).run before).1
  split
  · next holds =>
      rw [(OnlyReads.readText _ _).outcome_bind reads]
      refine ((settles_readText _ _ _).excuse fun failure bad => ?_).bind fun text given => ?_
      · obtain ⟨fault, read, rfl⟩ | ⟨rfl, octets, held, noText⟩ := bad
        · exact .inl ⟨_, storeFailure_of_holds holds read⟩
        · exact .inr (.encoding ⟨found, held⟩ noText)
      obtain ⟨octets, chars, held, decoded, rfl⟩ := given
      rw [(OnlyReads.ofExcept _ _).outcome_bind (OnlyReads.entriesOf address)]
      have settled := settles_settingsValue address (String.ofList (Text.unifyNewlines chars))
      cases outcome : settingsValue address (String.ofList (Text.unifyNewlines chars)) with
      | ok value =>
          rw [outcome] at settled
          exact (settles_entriesOf address settled.good_of_ok).excuse fun failure bad => .inl bad
      | error failure =>
          rw [outcome] at settled
          refine .error (settled.bad_of_error.imp id ?_)
          rintro ⟨fault, rfl, cause⟩
          exact .load ⟨found, held⟩ decoded cause
  · exact .error (.inl ⟨_, rfl⟩)

theorem settles_settingsDocument (asked : Option String) (before : Workspace) :
    Settles DistinctThrough (fun failure => (∃ fault, failure = .settings fault) ∨
      SettingsCause before asked failure) ((settingsDocument asked).run before).1 := by
  unfold settingsDocument
  split
  · next address given => exact settles_readSettings (by rw [given]; rfl)
  · next given =>
      rw [run_bind]
      simp only [run_store]
      split
      · exact .ok ⟨Entries.distinct_nil, fun _ => Entries.distinct_nil⟩
      · next address found =>
          have told (document : Entries) : OnlyReads (do
              tell ⟨.settings, .info, "Loaded configuration from: " ++ address⟩
              return document) := (OnlyReads.tell _).bind fun _ => OnlyReads.done _
          rw [(OnlyReads.readSettings address).outcome_bind told]
          have reads := settles_readSettings (by rw [given]; exact found)
          refine reads.bind fun document distinct => ?_
          rw [(OnlyReads.tell _).outcome_bind_of_ok (fun _ => OnlyReads.done _)
            (OnlyReads.outcome_tell _ before)]
          exact .ok distinct

/-- How loading settings ends is decided by the document and the environment. -/
theorem outcome_loadSettings (asked : Option String) (counts : Bool) (before : Workspace) :
    ((loadSettings asked counts true).run before).1 =
      ((settingsDocument asked).run before).1 >>= record before.environment counts := by
  have checked (document above : Entries) : OnlyReads (do
      ofExcept (fun cause => .settings (.check cause))
        (checkEntries (mergeEntries (mergeEntries [] document) above))
      ofExcept .record (ofDocument (mergeEntries (mergeEntries [] document) above))) :=
    (OnlyReads.ofExcept _ _).bind fun _ => OnlyReads.ofExcept _ _
  have recorded (document above : Entries) : ((do
      ofExcept (fun cause => .settings (.check cause))
        (checkEntries (mergeEntries (mergeEntries [] document) above))
      ofExcept .record (ofDocument (mergeEntries (mergeEntries [] document) above)) :
        Work Settings).run before).1 = (do
      (checkEntries (mergeEntries (mergeEntries [] document) above)).mapError
        fun cause => .settings (.check cause)
      (ofDocument (mergeEntries (mergeEntries [] document) above)).mapError .record) := by
    rw [(OnlyReads.ofExcept _ _).outcome_bind fun _ => OnlyReads.ofExcept _ _]
    cases checkEntries (mergeEntries (mergeEntries [] document) above) with
    | error cause => rfl
    | ok _ => cases ofDocument (mergeEntries (mergeEntries [] document) above) <;> rfl
  cases counts with
  | false =>
      refine ((OnlyReads.settingsDocument asked).outcome_bind
        (fun document => checked document []) before).trans (bind_congr fun document => ?_)
      exact recorded document []
  | true =>
      refine ((OnlyReads.settingsDocument asked).outcome_bind (fun document =>
        OnlyReads.environmentDocument.bind (checked document)) before).trans
          (bind_congr fun document => ?_)
      have above : (environmentDocument.run before).1 =
          .ok (fromEnvironment before.environment) :=
        (OnlyReads.tellAll _).outcome_bind_of_ok (fun _ => OnlyReads.done _)
          (OnlyReads.outcome_tellAll _ before)
      rw [OnlyReads.environmentDocument.outcome_bind_of_ok (checked document) above]
      exact recorded document _

/-- Loaded settings are those of a document and the environment. -/
theorem settles_loadSettings (asked : Option String) (counts : Bool) (before : Workspace) :
    Settles (fun settings => ∃ document, ((settingsDocument asked).run before).1 = .ok document ∧
        DistinctThrough document ∧ record before.environment counts document = .ok settings)
      (fun failure => (∃ fault, failure = .settings fault) ∨ SettingsCause before asked failure)
      ((loadSettings asked counts true).run before).1 := by
  have read := settles_settingsDocument asked before
  rw [outcome_loadSettings]
  cases reads : ((settingsDocument asked).run before).1 with
  | error failure =>
      rw [reads] at read
      exact .error read.bad_of_error
  | ok document =>
      rw [reads] at read
      obtain ⟨distinct, parts⟩ := read.good_of_ok
      change Settles _ _ (record before.environment counts document)
      have recorded := settles_record before.environment counts distinct parts
      cases outcome : record before.environment counts document with
      | error failure =>
          rw [outcome] at recorded
          refine .error (recorded.bad_of_error.imp id ?_)
          rintro ⟨fault, rfl, odd⟩
          exact .record reads odd
      | ok settings => exact .ok ⟨document, rfl, ⟨distinct, parts⟩, outcome⟩

/-- **Loaded settings.** Loading gives settings, or fails because of what is wrong with them or for
one of few other causes that the file shows. The settings of a plain document are valid and pass the
check, and any other document that has the same values for them gives the same settings. -/
theorem loadSettings_settles (asked : Option String) (counts : Bool) (before : Workspace) :
    Settles (fun settings => ∃ document, ((settingsDocument asked).run before).1 = .ok document ∧
        (Plain document → settings.Valid ∧ settings.Passes ∧
          ∀ (askedThere : Option String) (there : Workspace) (another : Entries),
            there.environment = before.environment →
              ((settingsDocument askedThere).run there).1 = .ok another →
                SameValues document another →
                  ((loadSettings askedThere counts true).run there).1 = .ok settings))
      (fun failure => (∃ fault, failure = .settings fault) ∨ SettingsCause before asked failure)
      ((loadSettings asked counts true).run before).1 := by
  refine (settles_loadSettings asked counts before).mono ?_
  rintro settings ⟨document, reads, ⟨distinct, parts⟩, recorded⟩
  refine ⟨document, reads, fun plain => ?_⟩
  have valid := valid_of_record distinct parts plain recorded
  refine ⟨valid, valid.passes, fun askedThere there another same readsThere values => ?_⟩
  have readThere := settles_settingsDocument askedThere there
  rw [readsThere] at readThere
  obtain ⟨distinctThere, partsThere⟩ := readThere.good_of_ok
  rw [outcome_loadSettings, readsThere, same]
  exact record_of_sameValues distinct parts plain recorded distinctThere partsThere values

/-- A workspace with one file, in which settings are. -/
private def settingsWorkspace (text : String) : Workspace :=
  ⟨Store.empty.put ["a.json"] (.file (Text.encodeUtf8 text)), [], false, []⟩

private def withUnknownKeys : Workspace := settingsWorkspace
  "\x7b\"output\": \x7b\"colour\": [1], \"indent\": 3\x7d, \"more\": 4\x7d"

private def withIndentOnly : Workspace := settingsWorkspace
  "\x7b\"output\": \x7b\"indent\": 3\x7d\x7d"

private def withRecordKey : Workspace := settingsWorkspace
  "\x7b\"output\": \x7b\"__dict__\": \x7b\"indent\": 99\x7d\x7d\x7d"

private def isWide (width : Int) (settings : Settings) : Bool :=
  match settings.indent with
  | .int given => given = width
  | _ => false

private theorem indent_of_isWide {width : Int} {settings : Settings}
    (wide : isWide width settings) : settings.indent = .int width := by
  unfold isWide at wide
  split at wide
  · next given => rw [given, of_decide_eq_true wide]
  · cases wide

/-- Whether two whole numbers are the same, or none is there. -/
private def sameWhole : Option Value → Option Value → Bool
  | some (.int m), some (.int n) => m = n
  | none, none => true
  | _, _ => false

private theorem eq_of_sameWhole {first second : Option Value} (same : sameWhole first second) :
    first = second := by
  unfold sameWhole at same
  split at same
  · rw [of_decide_eq_true same]
  · rfl
  · cases same

/-- Whether documents of whole numbers are plain and have the same values for the settings. -/
private def alike (document another : Entries) : Bool :=
  Plain document && Plain another && [Part.sort, Part.output].all (fun part =>
    partKindFault? another part = none) && Setting.all.all fun setting =>
      sameWhole (given? another setting) (given? document setting)

private theorem sameValues_of_alike {document another : Entries} (same : alike document another) :
    Plain document ∧ SameValues document another := by
  simp only [alike, Bool.and_eq_true, decide_eq_true_iff] at same
  obtain ⟨⟨⟨plain, plainOther⟩, kinds⟩, values⟩ := same
  refine ⟨plain, plainOther, forall_part.mpr (by simpa using kinds), fun setting => ?_⟩
  refine eq_of_sameWhole (List.all_eq_true.mp values setting ?_)
  cases setting <;> simp [Setting.all]

/-- Keys that name no setting are passed over. -/
theorem loadSettings_settles_unknownKeys : ∃ settings : Settings,
    ((loadSettings (some "a.json") true true).run withUnknownKeys).1 = .ok settings ∧
      settings.Valid ∧ settings.Passes ∧ settings.indent = .int 3 ∧
      ((loadSettings (some "a.json") true true).run withIndentOnly).1 = .ok settings := by
  have loads : (((loadSettings (some "a.json") true true).run withUnknownKeys).1.toOption.any
      (isWide 3)) = true := by decide +kernel
  have documents : (((settingsDocument (some "a.json")).run withUnknownKeys).1.toOption.any
      fun document => ((settingsDocument (some "a.json")).run withIndentOnly).1.toOption.any
        (alike document)) = true := by decide +kernel
  obtain ⟨settings, found, wide⟩ := Option.any_eq_true _ _ |>.mp loads
  obtain ⟨document, foundHere, others⟩ := Option.any_eq_true _ _ |>.mp documents
  obtain ⟨another, foundThere, same⟩ := Option.any_eq_true _ _ |>.mp others
  have settled := loadSettings_settles (some "a.json") true withUnknownKeys
  rw [eq_ok_of_toOption found] at settled
  obtain ⟨given, reads, rest⟩ := settled.good_of_ok
  rw [eq_ok_of_toOption foundHere] at reads
  cases reads
  obtain ⟨plain, values⟩ := sameValues_of_alike same
  obtain ⟨valid, passes, again⟩ := rest plain
  exact ⟨settings, eq_ok_of_toOption found, valid, passes, indent_of_isWide wide,
    again _ withIndentOnly another rfl (eq_ok_of_toOption foundThere) values⟩

/-- A key that is about the record of a part replaces its settings, whatever the check allows. -/
theorem loadSettings_recordKey : ∃ settings,
    ((loadSettings (some "a.json") true true).run withRecordKey).1 = .ok settings ∧
      settings.indent = .int 99 ∧ ¬ settings.Valid ∧ ¬ settings.Passes := by
  have loads : (((loadSettings (some "a.json") true true).run withRecordKey).1.toOption.any
      fun settings => isWide 99 settings && !settings.object.toOption.any fun document =>
        (check document).toOption.isSome) = true := by decide +kernel
  obtain ⟨settings, found, shown⟩ := Option.any_eq_true _ _ |>.mp loads
  obtain ⟨wide, fails⟩ := Bool.and_eq_true_iff.mp shown
  have indent := indent_of_isWide wide
  refine ⟨settings, eq_ok_of_toOption found, indent, fun valid => ?_, ?_⟩
  · obtain ⟨width, given, -, most⟩ := valid.indent
    rw [indent] at given
    cases given
    exact absurd most (by decide)
  · rintro ⟨document, object, passes⟩
    simp [object, passes, Except.toOption] at fails

end Work

end MemberOrder
