import MemberOrder.Proofs.CommandLine.Answering
import MemberOrder.Proofs.Workspace.SavedSettings

/-!
# Reloading settings

Settings are saved in the format that is asked for, but loaded in the format of the address. What is
saved is loaded again, and a settings file that was created passes the check, exactly where YAML
that is asked for goes to an address of YAML (`CommandLine.saved_settings_reload`).
-/

namespace MemberOrder

namespace CommandLine

open Work

variable {words : List String} {config : Option String} {verbose : Bool}
  {manner : Terminal.Manner} {before after later : Workspace} {address format shown : String}
  {settings : Settings}

theorem valid_default : Settings.default.Valid :=
  Settings.valid_iff.mpr ⟨Settings.fault?_default, fun part => by cases part <;> rfl⟩

/-- Saved settings are loaded again exactly where the formats fit. -/
theorem outcome_loadSettings_iff_fits (valid : settings.Valid)
    (saved : (saveSettings settings address format).run before = (.ok (), after))
    (same : later.store = after.store) :
    ((loadSettings (some address) false true).run later).1 = .ok settings ↔
      Fits address format := by
  have held := Store.read_of_write (exists_write_of_saveSettings valid saved)
  rw [← same] at held
  constructor
  · intro loads
    by_contra unfit
    obtain ⟨details, fails⟩ := outcome_loadSettings_of_not_fits valid held unfit
    rw [loads] at fails
    cases fails
  · exact outcome_loadSettings_of_fits valid held

/-- A command that creates a settings file saves the default settings. -/
theorem exists_run_saveSettings
    (asks : Asks words ⟨config, verbose, manner, some (.createSettings address format)⟩)
    (ran : (run words).run before = (.ok .done, after)) :
    ∃ saved, (saveSettings .default address format).run { before with verbose := verbose } =
      (.ok (), saved) ∧ after.store = saved.store := by
  obtain ⟨_, saved, saves, ran⟩ := run_bind_eq_ok_iff.mp ((run_eq_done_iff asks).mp ran)
  obtain ⟨_, _, said, ran⟩ := run_bind_eq_ok_iff.mp ran
  cases ran
  refine ⟨saved, saves, ?_⟩
  rw [← onlyReads_say.store_eq saved, said]

section Checking

variable (asks : Asks words ⟨config, verbose, manner, some (.checkSettings address)⟩)
include asks

theorem onlySays_checkSettings
    (loads : ((loadSettings (some address) false true).run before).1 = .ok settings)
    (shows : Terminal.message manner .success ("Configuration file " ++ address ++ " is valid") =
      .ok shown) : OnlySays words before shown := by
  let given : Workspace := { before with verbose := verbose }
  have loadsGiven : ((loadSettings (some address) false true).run given).1 = .ok settings :=
    ((OnlyReads.loadSettings _ _ _).depends given before rfl rfl).trans loads
  obtain ⟨told, ran⟩ := (OnlyReads.loadSettings _ _ _).exists_run_eq loadsGiven
  refine ⟨verbose, told, (run_eq_done_iff asks).mpr ?_⟩
  change (runCheckSettings manner address).run given = _
  rw [runCheckSettings, run_tryCatch, run_bind_eq_ok_iff.mpr ⟨_, _, ran,
    run_bind_eq_ok_iff.mpr ⟨_, _, run_say shows _, rfl⟩⟩]

theorem run_checkSettings_ne_done {fault : SettingsFault}
    (fails : ((loadSettings (some address) false true).run before).1 = .error (.settings fault)) :
    ((run words).run before).1 ≠ .ok .done := by
  intro ends
  let given : Workspace := { before with verbose := verbose }
  have failsGiven : ((loadSettings (some address) false true).run given).1 =
      .error (.settings fault) :=
    ((OnlyReads.loadSettings _ _ _).depends given before rfl rfl).trans fails
  have ran := (run_eq_done_iff asks).mp (Prod.ext ends rfl)
  obtain ⟨middle, loaded⟩ : ∃ middle, (loadSettings (some address) false true).run given =
      (.error (.settings fault), middle) := ⟨_, Prod.ext failsGiven rfl⟩
  change (runCheckSettings manner address).run given = _ at ran
  rw [runCheckSettings, run_tryCatch, run_bind, loaded] at ran
  obtain ⟨_, _, -, ran⟩ := run_bind_eq_ok_iff.mp ran
  cases ran

end Checking

/-- **Saving and loading.** Valid settings that were saved are loaded from their address again
exactly where the format of the address fits the one that was asked for. A settings file that was
created passes the check exactly there, if the command that checks it is able to show its
address. -/
theorem saved_settings_reload (address format : String) :
    (∀ (settings : Settings) (before after later : Workspace), settings.Valid →
      (saveSettings settings address format).run before = (.ok (), after) →
      later.store = after.store →
      (((loadSettings (some address) false true).run later).1 = .ok settings ↔
        Fits address format)) ∧
    ∀ (words : List String) (config : Option String) (verbose : Bool) (manner : Terminal.Manner)
      (before after later : Workspace),
      Asks words ⟨config, verbose, manner, some (.createSettings address format)⟩ →
      (run words).run before = (.ok .done, after) → later.store = after.store →
      ∀ (words : List String) (config : Option String) (verbose : Bool) (manner : Terminal.Manner)
        (shown : String), Asks words ⟨config, verbose, manner, some (.checkSettings address)⟩ →
        Terminal.message manner .success ("Configuration file " ++ address ++ " is valid") =
          .ok shown →
        (Fits address format → OnlySays words later shown) ∧
          (((run words).run later).1 = .ok .done → Fits address format) := by
  refine ⟨fun settings before after later valid saved same =>
    outcome_loadSettings_iff_fits valid saved same, ?_⟩
  intro words config verbose manner before after later asks ran same
  obtain ⟨saved, saves, stored⟩ := exists_run_saveSettings asks ran
  have held := Store.read_of_write (exists_write_of_saveSettings valid_default saves)
  rw [← stored, ← same] at held
  intro words config verbose manner shown asksCheck shows
  constructor
  · intro fits
    exact onlySays_checkSettings asksCheck (outcome_loadSettings_of_fits valid_default held fits)
      shows
  · intro ends
    by_contra unfit
    obtain ⟨details, fails⟩ := outcome_loadSettings_of_not_fits valid_default held unfit
    exact run_checkSettings_ne_done asksCheck fails ends

private def emptyWorkspace : Workspace := ⟨Store.empty, [], false, []⟩

private def wideSettings : Settings :=
  ⟨.bool false, .int 8, .str "json", .bool true, .whole, .whole⟩

private theorem valid_wideSettings : wideSettings.Valid :=
  ⟨⟨_, rfl⟩, ⟨_, rfl, by decide, by decide⟩, ⟨_, by decide, rfl⟩, ⟨_, rfl⟩, fun part => by
    cases part <;> rfl⟩

private def saving : Except Failure Unit × Workspace :=
  (saveSettings wideSettings "sigsort.yaml" "yaml").run emptyWorkspace

private def createYaml : List String := ["--no-rich", "config", "init", "sigsort.yaml"]

private def createdYaml : Workspace := ((run createYaml).run emptyWorkspace).2

private def checkYaml : List String := ["--no-rich", "config", "validate", "sigsort.yaml"]

/-- Settings are saved as YAML and loaded again, and a settings file that is created as YAML passes
the check. -/
theorem saved_settings_reload_yaml :
    saving.1 = .ok () ∧
      ((loadSettings (some "sigsort.yaml") false true).run saving.2).1 = .ok wideSettings ∧
      (run createYaml).run emptyWorkspace = (.ok .done, createdYaml) ∧
      OnlySays checkYaml createdYaml "✓ Configuration file sigsort.yaml is valid\n" := by
  obtain ⟨reloads, passes⟩ := saved_settings_reload "sigsort.yaml" "yaml"
  have fits : Fits "sigsort.yaml" "yaml" := by decide +kernel
  have saves : saving.1.toOption = some () := by decide +kernel
  have saved : (saveSettings wideSettings "sigsort.yaml" "yaml").run emptyWorkspace =
      (.ok (), saving.2) := by
    rw [← eq_ok_of_toOption saves]
    exact (Prod.eta _).symm
  have ends : ((run createYaml).run emptyWorkspace).1.toOption = some .done := by decide +kernel
  have ran : (run createYaml).run emptyWorkspace = (.ok .done, createdYaml) := by
    rw [createdYaml, ← eq_ok_of_toOption ends]
    exact (Prod.eta _).symm
  have created : Asks createYaml
      ⟨none, false, .plain, some (.createSettings "sigsort.yaml" "yaml")⟩ := by decide +kernel
  have checked : Asks checkYaml ⟨none, false, .plain, some (.checkSettings "sigsort.yaml")⟩ := by
    decide +kernel
  refine ⟨eq_ok_of_toOption saves, ?_, ran, ?_⟩
  · exact (reloads _ _ _ _ valid_wideSettings saved rfl).mpr fits
  · exact (passes _ _ _ _ _ _ _ created ran rfl _ _ _ _ _ checked rfl).1 fits

private def createJson : List String := ["config", "init", "sigsort.json"]

private def checkJson : List String := ["config", "validate", "sigsort.json"]

/-- A settings file that is created at an address of JSON has YAML in it and fails the check. -/
theorem saved_settings_reload_json :
    ((run createJson).run emptyWorkspace).1 = .ok .done ∧
      ((run checkJson).run ((run createJson).run emptyWorkspace).2).1 = .ok .failed := by
  have ends : ((run createJson).run emptyWorkspace).1.toOption = some .done ∧
      ((run checkJson).run ((run createJson).run emptyWorkspace).2).1.toOption = some .failed := by
    decide +kernel
  exact ⟨eq_ok_of_toOption ends.1, eq_ok_of_toOption ends.2⟩

end CommandLine

end MemberOrder
