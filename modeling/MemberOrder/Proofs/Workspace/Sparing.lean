import MemberOrder.Proofs.Workspace.Running

/-!
# Work that spares the store

Work is sparing if it changes a store at some addresses at most, and not at all when it fails
(`Work.Sparing`). Writing sorted declarations is sparing (`Work.Sparing.write`): all that can fail
comes before the backup, and once there is a backup the file itself can be written.
-/

namespace MemberOrder

namespace Work

variable {α β : Type} {before after : Workspace}

/-- Work that changes what is at some addresses at most, and nothing if it fails. -/
structure Sparing (addresses : Store → List String) (work : Work α) : Prop where
  agrees : ∀ before : Workspace,
    before.store.AgreesOutside (addresses before.store) (work.run before).2.store
  whole : ∀ before failure after,
    work.run before = (.error failure, after) → after.store = before.store

namespace Sparing

variable {addresses : Store → List String} {work : Work α} {next : α → Work β}

theorem of_onlyReads (reads : OnlyReads work) (addresses : Store → List String) :
    Sparing addresses work where
  agrees before := by
    rw [reads.store_eq before]
    exact .refl _ _
  whole before failure after ran := by rw [← reads.store_eq before, ran]

/-- What is read first does no harm. -/
theorem bind (reads : OnlyReads work) (rest : ∀ value, Sparing addresses (next value)) :
    Sparing addresses (work >>= next) where
  agrees before := by
    have same := reads.store_eq before
    rw [run_bind]
    split
    · next value middle first =>
        rw [first] at same
        rw [← same]
        exact (rest value).agrees middle
    · next failure middle first =>
        rw [first] at same
        rw [same]
        exact .refl _ _
  whole before failure after ran := by
    have same := reads.store_eq before
    rw [run_bind] at ran
    split at ran
    · next value middle first =>
        rw [first] at same
        exact ((rest value).whole middle failure after ran).trans same
    · next given middle first =>
        rw [first] at same
        cases ran
        exact same

end Sparing

section Files

variable {unwritable : StoreFault → Failure} {address text : String}

theorem Sparing.writeText (unwritable : StoreFault → Failure) (address text : String) :
    Sparing (fun _ => [address]) (Work.writeText unwritable address text) where
  agrees before := by
    obtain ⟨_, after, ran, ⟨_, _, -, same, -⟩ | ⟨-, written⟩⟩ :=
      run_writeText unwritable address text before
    · rw [ran, same]
      exact .refl _ _
    · rw [ran]
      exact Store.agrees_write written
  whole before failure after ran := by
    obtain ⟨_, _, ranAgain, ⟨_, _, -, same, -⟩ | ⟨done, -⟩⟩ :=
      run_writeText unwritable address text before
    · cases ran.symm.trans ranAgain
      exact same
    · subst done
      cases ran.symm.trans ranAgain

end Files

section Trees

variable {settings : Settings} {sorting : Sorting} {path : Path} {format : Option String}

/-- The addresses at which writing a file changes a store: its own, and that of its backup. -/
def fileAddresses (path : Path) (store : Store) : List String :=
  [path.text, store.copyAddress path (backupAddress path)]

/-- What is told before a text is written changes neither what is written nor how that ends. -/
theorem Sparing.tell_writeText (notice : Notice) (unwritable : StoreFault → Failure)
    (address text : String) : Sparing (fun _ => [address]) (do
      tell notice
      Work.writeText unwritable address text) :=
  .bind (.tell notice) fun _ => .writeText unwritable address text

theorem Sparing.mono {addresses more : Store → List String} {work : Work α}
    (spares : Sparing addresses work) (listed : ∀ store, addresses store ⊆ more store) :
    Sparing more work where
  agrees before := (spares.agrees before).mono (listed _)
  whole := spares.whole

theorem Sparing.backUp_writeText (notice : Notice) (path : Path) (text : String) :
    Sparing (fileAddresses path) (do
      backUp path
      tell notice
      Work.writeText .store path.text text) where
  agrees before := by
    obtain ⟨_, after, ran, ⟨_, -, same⟩ | ⟨-, -, kept, copies, written⟩⟩ :=
      run_backUp_writeText notice path text before
    · rw [ran, same]
      exact .refl _ _
    · rw [ran]
      exact Store.agrees_write_of_copy copies written
  whole before failure after ran := by
    obtain ⟨_, _, ranAgain, ⟨_, -, same⟩ | ⟨done, -⟩⟩ :=
      run_backUp_writeText notice path text before
    · cases ran.symm.trans ranAgain
      exact same
    · subst done
      cases ran.symm.trans ranAgain

theorem OnlyReads.isTaken (path : Path) : OnlyReads (Work.isTaken path) := by
  apply OnlyReads.store.bind
  intro given
  split
  · exact (failed _).bind fun _ => done _
  · exact done _

/-- Writing sorted declarations changes the file and its backup at most, and nothing if it fails. -/
theorem Sparing.write (settings : Settings) (sorting : Sorting) (path : Path)
    (format : Option String) :
    Sparing (fileAddresses path) (Work.write settings sorting path format) := by
  refine .bind (.render _ _ _) fun text => .bind (.isTaken path) fun taken => ?_
  split
  · exact .backUp_writeText _ path text
  · refine (Sparing.tell_writeText _ _ _ _).mono fun _ => ?_
    exact List.cons_subset_cons _ (List.nil_subset _)

end Trees

section Saving

/-- The default settings have a text in every format. -/
theorem exists_settingsDraft_default (format : String) : ∃ document text,
    Settings.object .default = .ok document ∧ settingsDraft document format = .done text := by
  obtain ⟨document, made⟩ : ∃ document, Settings.object .default = .ok document := ⟨_, rfl⟩
  refine ⟨document, (settingsDraft document format).text, made, ?_⟩
  cases made
  unfold settingsDraft
  split
  · rfl
  · split
    · next exceeds => exact absurd exceeds (by decide +kernel)
    · rfl

/-- To save the default settings is to write a text. -/
theorem exists_saveSettings_default (address format : String) : ∃ text,
    saveSettings .default address format =
      Work.writeText (fun fault => .settings (.unsaved fault)) address text := by
  obtain ⟨document, text, made, drafted⟩ := exists_settingsDraft_default format
  refine ⟨String.ofList text, ?_⟩
  unfold saveSettings
  rw [made]
  simp only [ofExcept, pure_bind, drafted, Json.Draft.done]
  exact bind_pure _

theorem Sparing.saveSettings_default (address format : String) :
    Sparing (fun _ => [address]) (Work.saveSettings .default address format) := by
  obtain ⟨text, same⟩ := exists_saveSettings_default address format
  rw [same]
  exact .writeText _ _ _

end Saving

end Work

end MemberOrder
