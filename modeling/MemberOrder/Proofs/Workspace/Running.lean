import MemberOrder.Proofs.Store.Frame
import MemberOrder.Workspace.Settings
import MemberOrder.Workspace.Trees

/-!
# Running work

Work that succeeds has succeeded in each of its steps (`Work.run_bind_eq_ok_iff`). Work that only
reads puts out what it has to tell and leaves the rest of the workspace as it is, and how it ends
depends on the store and the environment alone (`Work.OnlyReads`). A file that is backed up first is
backed up and written, or nothing has changed (`Work.run_backUp_writeText`).
-/

namespace MemberOrder

namespace Work

/-- The word for the format in which a file is read. -/
def formatLabel (path : Path) (format : String) : Except TreeFault String :=
  if format = Tree.automatic then (Tree.formatOf path.text).map Tree.Format.label else .ok format

/-- The text of octets, with one kind of newline. -/
def textOf (octets : List UInt8) : Work String :=
  match Text.decodeUtf8? octets with
  | some chars => return String.ofList (Text.unifyNewlines chars)
  | none => throw .encoding

/-- The declarations of a text from a file. -/
def declarationsOf (path : Path) (label text : String) : Work (List Node) := do
  if let some format := Tree.Format.ofLabel? label then
    tellAll ((Tree.textSightings format text).map fun sighting =>
      ⟨.documents, .debug, sighting.message⟩)
  ofExcept (Failure.ofLoad path.text) (Tree.loadText label text)

theorem load_eq (path : Path) (format : String) :
    load path format = tell ⟨.files, .info, "Opening " ++ path.text ++ "..."⟩ >>= fun _ =>
      ofExcept Failure.tree (formatLabel path format) >>= fun label =>
        readText .store path.text >>= declarationsOf path label := by
  unfold load formatLabel
  split <;> rfl

variable {α β : Type} {before after middle other : Workspace}

section Steps

variable {work : Work α} {next : α → Work β}

theorem run_pure (value : α) (before : Workspace) :
    (pure value : Work α).run before = (.ok value, before) := rfl

theorem run_throw (failure : Failure) (before : Workspace) :
    (throw failure : Work α).run before = (.error failure, before) := rfl

theorem run_store (before : Workspace) : Work.store.run before = (.ok before.store, before) := rfl

theorem run_bind (work : Work α) (next : α → Work β) (before : Workspace) :
    (work >>= next).run before =
      match work.run before with
      | (.ok value, middle) => (next value).run middle
      | (.error failure, middle) => (.error failure, middle) := by
  have steps : (work >>= next).run before =
      ExceptT.bindCont next (work.run before).1 (work.run before).2 := rfl
  rw [steps]
  cases work.run before with
  | mk outcome middle => cases outcome <;> rfl

theorem run_bind_eq_ok_iff {result : β} :
    (work >>= next).run before = (.ok result, after) ↔
      ∃ value middle, work.run before = (.ok value, middle) ∧
        (next value).run middle = (.ok result, after) := by
  rw [run_bind]
  constructor
  · intro run
    split at run
    · next value middle first => exact ⟨value, middle, first, run⟩
    · cases run
  · rintro ⟨value, middle, first, run⟩
    rw [first]
    exact run

end Steps

/-- Work that leaves all but the output of a workspace as it is, and that does not see what has been
put out, nor whether everything is to be told. -/
structure OnlyReads (work : Work α) : Prop where
  leaves : ∀ before, ∃ told,
    (work.run before).2 = { before with output := before.output ++ told }
  depends : ∀ before other : Workspace, before.store = other.store →
    before.environment = other.environment → (work.run before).1 = (work.run other).1

namespace OnlyReads

variable {work : Work α} {next : α → Work β}

theorem store_eq (reads : OnlyReads work) (before : Workspace) :
    (work.run before).2.store = before.store := by
  obtain ⟨told, left⟩ := reads.leaves before
  rw [left]

theorem environment_eq (reads : OnlyReads work) (before : Workspace) :
    (work.run before).2.environment = before.environment := by
  obtain ⟨told, left⟩ := reads.leaves before
  rw [left]

theorem exists_run_eq {value : α} (reads : OnlyReads work)
    (ended : (work.run before).1 = .ok value) : ∃ told, work.run before =
      (.ok value, { before with output := before.output ++ told }) := by
  obtain ⟨told, left⟩ := reads.leaves before
  exact ⟨told, Prod.ext ended left⟩

theorem done (value : α) : OnlyReads (pure value : Work α) where
  leaves before := ⟨[], by simp [run_pure]⟩
  depends _ _ _ _ := rfl

theorem failed (failure : Failure) : OnlyReads (throw failure : Work α) where
  leaves before := ⟨[], by simp [run_throw]⟩
  depends _ _ _ _ := rfl

theorem bind (first : OnlyReads work) (rest : ∀ value, OnlyReads (next value)) :
    OnlyReads (work >>= next) where
  leaves before := by
    obtain ⟨told, left⟩ := first.leaves before
    rw [run_bind]
    cases run : work.run before with
    | mk outcome middle =>
        rw [run] at left
        obtain rfl : middle = _ := left
        cases outcome with
        | error failure => exact ⟨told, rfl⟩
        | ok value =>
            obtain ⟨later, leftLater⟩ := (rest value).leaves
              { before with output := before.output ++ told }
            exact ⟨told ++ later, by rw [leftLater, List.append_assoc]⟩
  depends before other sameStore sameEnvironment := by
    have outcomes := first.depends before other sameStore sameEnvironment
    have stores : (work.run before).2.store = (work.run other).2.store := by
      rw [first.store_eq, first.store_eq, sameStore]
    have environments : (work.run before).2.environment = (work.run other).2.environment := by
      rw [first.environment_eq, first.environment_eq, sameEnvironment]
    rw [run_bind, run_bind]
    cases run : work.run before with
    | mk outcome middle =>
        cases runOther : work.run other with
        | mk outcomeOther middleOther =>
            rw [run, runOther] at outcomes stores environments
            obtain rfl : outcome = outcomeOther := outcomes
            cases outcome with
            | error failure => rfl
            | ok value => exact (rest value).depends _ _ stores environments

/-- How work ends that only reads is decided by how its steps end, all in the given workspace. -/
theorem outcome_bind (first : OnlyReads work) (rest : ∀ value, OnlyReads (next value))
    (before : Workspace) : ((work >>= next).run before).1 =
      (work.run before).1 >>= fun value => ((next value).run before).1 := by
  have stores := first.store_eq before
  have environments := first.environment_eq before
  rw [run_bind]
  cases run : work.run before with
  | mk outcome middle =>
      rw [run] at stores environments
      cases outcome with
      | error failure => rfl
      | ok value => exact (rest value).depends _ _ stores environments

theorem outcome_bind_of_ok {value : α} (first : OnlyReads work)
    (rest : ∀ value, OnlyReads (next value)) (ended : (work.run before).1 = .ok value) :
    ((work >>= next).run before).1 = ((next value).run before).1 := by
  rw [first.outcome_bind rest, ended]
  rfl

theorem outcome_bind_eq_ok_iff (first : OnlyReads work) (rest : ∀ value, OnlyReads (next value))
    {result : β} : ((work >>= next).run before).1 = .ok result ↔
      ∃ value, (work.run before).1 = .ok value ∧ ((next value).run before).1 = .ok result := by
  rw [first.outcome_bind rest]
  constructor
  · intro ended
    cases given : (work.run before).1 with
    | error failure => rw [given] at ended; cases ended
    | ok value => rw [given] at ended; exact ⟨value, rfl, ended⟩
  · rintro ⟨value, given, ended⟩
    rw [given]
    exact ended

/-- Work that asks for the workspace, and sees no more of it than its store and environment. -/
theorem get_bind {next : Workspace → Work β} (rest : ∀ given, OnlyReads (next given))
    (same : ∀ given other : Workspace, given.store = other.store →
      given.environment = other.environment →
        ∀ before, ((next given).run before).1 = ((next other).run before).1) :
    OnlyReads (get >>= next) where
  leaves before := (rest before).leaves before
  depends before other sameStore sameEnvironment :=
    (same before other sameStore sameEnvironment before).trans
      ((rest other).depends before other sameStore sameEnvironment)

theorem emit (output : Output) : OnlyReads (Work.emit output) where
  leaves _ := ⟨[output], rfl⟩
  depends _ _ _ _ := rfl

theorem tell (notice : Notice) : OnlyReads (Work.tell notice) := by
  refine get_bind (fun given => ?_) fun given other _ _ before => ?_
  · split
    · exact emit _
    · exact done _
  · split <;> split <;> rfl

theorem outcome_tell (notice : Notice) (before : Workspace) :
    ((Work.tell notice).run before).1 = .ok () := by
  change ((if notice.isUsual || before.verbose then Work.emit (.notice notice)
    else pure () : Work Unit).run before).1 = .ok ()
  split <;> rfl

theorem tellAll (notices : List Notice) : OnlyReads (Work.tellAll notices) := by
  induction notices with
  | nil => exact done _
  | cons notice rest ih => exact (tell notice).bind fun _ => ih

theorem outcome_tellAll (notices : List Notice) (before : Workspace) :
    ((Work.tellAll notices).run before).1 = .ok () := by
  induction notices generalizing before with
  | nil => rfl
  | cons notice rest ih =>
      refine ((tell notice).outcome_bind (fun _ => tellAll rest) before).trans ?_
      rw [outcome_tell]
      exact ih before

theorem ofExcept {ε : Type} (failure : ε → Failure) (outcome : Except ε α) :
    OnlyReads (Work.ofExcept failure outcome) := by
  cases outcome with
  | ok value => exact done value
  | error fault => exact failed _

theorem store : OnlyReads Work.store :=
  get_bind (fun _ => done _) fun given other same _ before => by rw [same]

theorem textOf (octets : List UInt8) : OnlyReads (Work.textOf octets) := by
  unfold Work.textOf
  split
  · exact done _
  · exact failed _

theorem declarationsOf (path : Path) (label text : String) :
    OnlyReads (Work.declarationsOf path label text) := by
  unfold Work.declarationsOf
  split
  · exact (tellAll _).bind fun _ => ofExcept _ _
  · exact ofExcept _ _

theorem readText (unreadable : StoreFault → Failure) (address : String) :
    OnlyReads (Work.readText unreadable address) :=
  store.bind fun _ => (ofExcept _ _).bind textOf

theorem load (path : Path) (format : String) : OnlyReads (Work.load path format) := by
  rw [load_eq]
  exact (tell _).bind fun _ => (ofExcept _ _).bind fun label => (readText _ _).bind
    (declarationsOf path label)

theorem readSettings (address : String) : OnlyReads (Work.readSettings address) := by
  apply store.bind
  intro _
  split
  · refine (readText _ _).bind fun _ => (ofExcept _ _).bind fun value => ?_
    split
    · exact done _
    · exact failed _
  · exact failed _

theorem settingsDocument (address : Option String) : OnlyReads (Work.settingsDocument address) := by
  unfold Work.settingsDocument
  split
  · exact readSettings _
  · apply store.bind
    intro _
    split
    · exact done _
    · exact (readSettings _).bind fun _ => (tell _).bind fun _ => done _

theorem environmentDocument : OnlyReads Work.environmentDocument := by
  refine get_bind (fun _ => (tellAll _).bind fun _ => done _) fun given other _ same before => ?_
  rw [same]

theorem loadSettings (address : Option String) (useEnvironment validate : Bool) :
    OnlyReads (Work.loadSettings address useEnvironment validate) := by
  have checked (document above : Entries) : OnlyReads (do
      let merged := Settings.mergeEntries (Settings.mergeEntries [] document) above
      if validate then
        Work.ofExcept (fun cause => .settings (.check cause)) (Settings.checkEntries merged)
      Work.ofExcept .record (Settings.ofDocument merged)) := by
    cases validate with
    | false => exact ofExcept _ _
    | true => exact (ofExcept _ _).bind fun _ => ofExcept _ _
  apply (settingsDocument address).bind
  intro document
  cases useEnvironment with
  | false => exact checked document []
  | true => exact environmentDocument.bind fun above => checked document above

theorem sort (settings : Settings) (source : Option Path) (decls : List Node) :
    OnlyReads (Work.sort settings source decls) :=
  (tellAll _).bind fun _ => done _

theorem sortFile (settings : Settings) (path : Path) (format : String) :
    OnlyReads (Work.sortFile settings path format) :=
  (load path format).bind fun _ => sort _ _ _

theorem checkFile (settings : Settings) (address format : String) :
    OnlyReads (Work.checkFile settings address format) := by
  apply (sortFile _ _ _).bind
  intro sorting
  split
  · exact (tell _).bind fun _ => done _
  · exact done _

theorem render (settings : Settings) (format : Option String) (decls : List Node) :
    OnlyReads (Work.render settings format decls) := by
  unfold Work.render
  split
  · exact (tellAll _).bind fun _ => ofExcept _ _
  · split
    · exact ofExcept _ _
    · exact failed _
  · exact failed _

theorem outcome_ofExcept_eq_ok_iff {ε : Type} {failure : ε → Failure} {outcome : Except ε α}
    {value : α} : ((Work.ofExcept failure outcome).run before).1 = .ok value ↔
      outcome = .ok value := by
  cases outcome <;> simp [Work.ofExcept, run_pure, run_throw]

theorem outcome_readText_eq_ok_iff {unreadable : StoreFault → Failure} {address text : String} :
    ((Work.readText unreadable address).run before).1 = .ok text ↔
      ∃ octets chars, before.store.read address = .ok octets ∧
        Text.decodeUtf8? octets = some chars ∧ String.ofList (Text.unifyNewlines chars) = text := by
  have steps : ((Work.ofExcept (storeFailure unreadable) (before.store.read address) >>=
      Work.textOf).run before).1 = .ok text ↔ _ := (ofExcept _ _).outcome_bind_eq_ok_iff textOf
  simp only [outcome_ofExcept_eq_ok_iff] at steps
  refine steps.trans (exists_congr fun octets => ?_)
  rw [Work.textOf]
  cases Text.decodeUtf8? octets <;> simp [run_pure, run_throw]

theorem outcome_declarationsOf (path : Path) (label text : String) (before : Workspace) :
    ((Work.declarationsOf path label text).run before).1 =
      ((Work.ofExcept (Failure.ofLoad path.text) (Tree.loadText label text)).run before).1 := by
  unfold Work.declarationsOf
  split
  · exact (tellAll _).outcome_bind_of_ok (fun _ => ofExcept _ _) (outcome_tellAll _ before)
  · rfl

/-- A file loads if it is a text of the format and has declarations in it. -/
theorem outcome_load_eq_ok_iff {path : Path} {format : String} {decls : List Node} :
    ((Work.load path format).run before).1 = .ok decls ↔
      ∃ label text, formatLabel path format = .ok label ∧
        ((Work.readText .store path.text).run before).1 = .ok text ∧
        Tree.loadText label text = .ok decls := by
  have reads (label : String) : OnlyReads (Work.readText Failure.store path.text >>=
      Work.declarationsOf path label) :=
    (readText _ _).bind (declarationsOf path label)
  rw [load_eq, (tell _).outcome_bind_of_ok (fun _ => (ofExcept _ _).bind reads)
    (outcome_tell _ before), (ofExcept _ _).outcome_bind_eq_ok_iff reads]
  simp only [(readText _ _).outcome_bind_eq_ok_iff (declarationsOf path _),
    outcome_ofExcept_eq_ok_iff, outcome_declarationsOf, exists_and_left]

section Files

variable {settings : Settings} {path : Path} {format : String} {decls : List Node}

/-- What a file holds depends on the store alone. -/
theorem outcome_load_of_store_eq (same : other.store = before.store)
    (loads : ((Work.load path format).run before).1 = .ok decls) :
    ((Work.load path format).run other).1 = .ok decls := by
  simp only [outcome_load_eq_ok_iff, outcome_readText_eq_ok_iff] at loads ⊢
  rw [same]
  exact loads

theorem outcome_sortFile (loads : ((Work.load path format).run before).1 = .ok decls) :
    ((Work.sortFile settings path format).run before).1 =
      .ok (.of settings.deep (some path) decls) := by
  refine ((load path format).outcome_bind_of_ok (fun _ => sort _ _ _) loads).trans ?_
  exact (tellAll _).outcome_bind_of_ok (fun _ => done _) (outcome_tellAll _ before)

end Files

end OnlyReads

section Written

variable {settings : Settings} {sorting : Sorting} {path : Path} {format : Option String}

theorem run_writeText_eq (unwritable : StoreFault → Failure) (address text : String)
    (before : Workspace) : (writeText unwritable address text).run before =
      (ofExcept (storeFailure unwritable) (before.store.write address (Text.encodeUtf8 text)) >>=
        fun given => (modify fun workspace => { workspace with store := given } :
          Work Unit)).run before := rfl

/-- A text that cannot be written changes nothing. -/
theorem run_writeText (unwritable : StoreFault → Failure) (address text : String)
    (before : Workspace) : ∃ outcome after,
      (writeText unwritable address text).run before = (outcome, after) ∧
      ((∃ failure fault, outcome = .error failure ∧ after.store = before.store ∧
          before.store.write address (Text.encodeUtf8 text) = .error fault) ∨
        (outcome = .ok () ∧
          before.store.write address (Text.encodeUtf8 text) = .ok after.store)) := by
  rw [run_writeText_eq]
  cases wrote : before.store.write address (Text.encodeUtf8 text) with
  | error fault => exact ⟨_, _, rfl, .inl ⟨_, fault, rfl, rfl, rfl⟩⟩
  | ok later => exact ⟨_, _, rfl, .inr ⟨rfl, rfl⟩⟩

theorem store_of_run_writeText {unwritable : StoreFault → Failure} {address text : String}
    (run : (writeText unwritable address text).run before = (.ok (), after)) :
    before.store.write address (Text.encodeUtf8 text) = .ok after.store := by
  obtain ⟨_, _, ran, ⟨_, _, rfl, -, -⟩ | ⟨rfl, written⟩⟩ :=
    run_writeText unwritable address text before
  · cases run.symm.trans ran
  · cases run.symm.trans ran
    exact written

/-- Where the backup of a file is put. -/
def backupAddress (path : Path) : String := (path.withName (path.name ++ ".bak")).text

theorem run_backUp_eq (named : ¬path.name.isEmpty) (before : Workspace) :
    (backUp path).run before =
      (ofExcept .store (before.store.copy path (backupAddress path)) >>= fun copied =>
        (do
          modify fun workspace => { workspace with store := copied }
          tell ⟨.files, .info, "Backup written to " ++ backupAddress path⟩ :
            Work Unit)).run before := by
  unfold backUp
  rw [if_neg named]
  rfl

/-- A backup that fails changes nothing. -/
theorem run_backUp (path : Path) (before : Workspace) : ∃ outcome after,
    (backUp path).run before = (outcome, after) ∧
      ((∃ failure, outcome = .error failure ∧ after.store = before.store) ∨
        (outcome = .ok () ∧ path.name ≠ "" ∧
          before.store.copy path (backupAddress path) = .ok after.store)) := by
  by_cases unnamed : path.name.isEmpty
  · have stops : (backUp path).run before = (.error (.unnamed path.text), before) := by
      unfold backUp
      rw [if_pos unnamed]
      rfl
    exact ⟨_, _, stops, .inl ⟨_, rfl, rfl⟩⟩
  · rw [run_backUp_eq unnamed]
    cases copied : before.store.copy path (backupAddress path) with
    | error fault => exact ⟨_, _, rfl, .inl ⟨_, rfl, rfl⟩⟩
    | ok later =>
        exact ⟨_, _, rfl, .inr ⟨rfl, fun none => unnamed (String.isEmpty_iff.mpr none), rfl⟩⟩

/-- What is told first does not stop what comes next. -/
theorem run_tell_bind (notice : Notice) (next : Unit → Work β) (before : Workspace) :
    (tell notice >>= next).run before = (next ()).run ((tell notice).run before).2 := by
  have told : (tell notice).run before = (.ok (), ((tell notice).run before).2) :=
    Prod.ext (OnlyReads.outcome_tell notice before) rfl
  rw [run_bind, told]

/-- Once there is a backup of a file the file can be written, so both are done or neither. -/
theorem run_backUp_writeText (notice : Notice) (path : Path) (text : String)
    (before : Workspace) : ∃ outcome after,
    (do backUp path; tell notice; writeText .store path.text text : Work Unit).run before =
        (outcome, after) ∧
      ((∃ failure, outcome = .error failure ∧ after.store = before.store) ∨
        (outcome = .ok () ∧ path.name ≠ "" ∧ ∃ kept,
          before.store.copy path (backupAddress path) = .ok kept ∧
          kept.write path.text (Text.encodeUtf8 text) = .ok after.store)) := by
  rw [run_bind]
  obtain ⟨_, backed, ran, ⟨failure, rfl, same⟩ | ⟨rfl, named, copies⟩⟩ := run_backUp path before
  · rw [ran]
    exact ⟨_, backed, rfl, .inl ⟨failure, rfl, same⟩⟩
  · rw [ran]
    obtain ⟨outcome, after, wrote, ends⟩ :=
      run_writeText .store path.text text ((tell notice).run backed).2
    rw [(OnlyReads.tell notice).store_eq backed] at ends
    refine ⟨outcome, after, (run_tell_bind notice _ backed).trans wrote, .inr ?_⟩
    obtain ⟨last, written⟩ := Store.exists_write_of_copy copies (Text.encodeUtf8 text)
    obtain ⟨_, _, -, -, refused⟩ | ⟨rfl, written⟩ := ends
    · cases written.symm.trans refused
    · exact ⟨rfl, named, backed.store, copies, written⟩

theorem of_run_isTaken {taken : Bool} (run : (isTaken path).run before = (.ok taken, after)) :
    taken = before.store.holds path.text ∧ after = before := by
  obtain ⟨_, _, asked, run⟩ := run_bind_eq_ok_iff.mp run
  cases asked
  split at run
  · cases run
  · cases run
    exact ⟨rfl, rfl⟩

/-- What is written to a file is what the declarations are rendered as. If the settings say so, what
is there has been copied before. -/
theorem exists_of_run_write
    (run : (write settings sorting path format).run before = (.ok (), after)) :
    ∃ text kept, ((render settings (fileFormat path format) sorting.sorted).run before).1 =
        .ok text ∧
      (if before.store.holds path.text && settings.backup.isPresent then
        path.name ≠ "" ∧ before.store.copy path (backupAddress path) = .ok kept
      else kept = before.store) ∧
      Store.write kept path.text (Text.encodeUtf8 text) = .ok after.store := by
  obtain ⟨text, _, render, run⟩ := run_bind_eq_ok_iff.mp run
  obtain ⟨_, looked, taken, run⟩ := run_bind_eq_ok_iff.mp run
  obtain ⟨rfl, unchanged⟩ := of_run_isTaken taken
  subst unchanged
  have same := (OnlyReads.render settings (fileFormat path format) sorting.sorted).store_eq before
  rw [render] at same
  have rendering : ((Work.render settings (fileFormat path format) sorting.sorted).run before).1 =
      .ok text := by rw [render]
  rw [← same]
  split at run
  · next backs =>
      obtain ⟨_, _, ran, ⟨_, rfl, -⟩ | ⟨rfl, named, kept, copies, written⟩⟩ :=
        run_backUp_writeText ⟨.files, .info, "Writing " ++ path.text ++ "..."⟩ path text looked
      · cases run.symm.trans ran
      · cases run.symm.trans ran
        refine ⟨text, kept, rendering, ?_, written⟩
        rw [if_pos backs]
        exact ⟨named, copies⟩
  · next bare =>
      refine ⟨text, looked.store, rendering, ?_, ?_⟩
      · rw [if_neg bare]
      · rw [run_tell_bind] at run
        rw [← (OnlyReads.tell ⟨.files, .info, "Writing " ++ path.text ++ "..."⟩).store_eq looked]
        exact store_of_run_writeText run

/-- Declarations that are rendered as JSON are dumped as JSON. -/
theorem dumpText_of_outcome_render {decls : List Node} {text : String}
    (rendered : ((render settings (some "json") decls).run before).1 = .ok text) :
    Tree.dumpText "json" decls = .ok text := by
  have asked : outputFormat settings (some "json") = .str "json" := rfl
  have listed : "json" ∈ Settings.formats := by decide
  have steps : render settings (some "json") decls =
      ofExcept Failure.ofDump (Tree.dumpText "json" decls) := by
    rw [render, asked]
    exact if_pos listed
  rw [steps] at rendered
  exact OnlyReads.outcome_ofExcept_eq_ok_iff.mp rendered

end Written

end Work

end MemberOrder
