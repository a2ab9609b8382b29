import MemberOrder.Proofs.Store.NullCharacter
import MemberOrder.Proofs.Tree.Conversion
import MemberOrder.Proofs.Workspace.LoadedSettings
import MemberOrder.Proofs.Workspace.Sparing

/-!
# Why work on trees fails

Loading, rendering and writing trees fails with something that is reported to the person at work, or
for one of few other causes: what a file holds (`Work.settles_load`), what the declarations keep and
what settings say (`Work.settles_render`), and addresses that make no sense (`Work.settles_write`).
-/

namespace MemberOrder

namespace Stub

/-- Whether a stub of declarations has a line that is too deep for the widest step. -/
def TooDeep (decls : List Node) : Prop :=
  ∃ line ∈ (Page.empty.document decls).lines.toList, widest < Settings.widestIndent * line.level

/-- Declarations that are not too deep can be set with any step that makes sense. -/
theorem exists_stub {width : Int} (least : 0 ≤ width) (most : width ≤ Settings.widestIndent)
    {decls : List Node} (flat : ¬TooDeep decls) : ∃ text, stub (.int width) decls = .ok text := by
  have line (line : Line) (inside : line ∈ (Page.empty.document decls).lines.toList) :
      Settles (fun _ => True) (fun _ => False) (setLine (.int width) line) := by
    have room : Settings.widestIndent * line.level ≤ widest :=
      Int.not_lt.mp fun deep => flat ⟨line, inside, deep⟩
    have low : 0 ≤ width * line.level := Int.mul_nonneg least (Int.natCast_nonneg _)
    have high : width * line.level ≤ widest :=
      (Int.mul_le_mul_of_nonneg_right most (Int.natCast_nonneg _)).trans room
    have limits : widest < widthLimit ∧ 0 < widthLimit := by decide
    have set : line.set width = .ok (String.ofList
        (List.replicate (width * line.level).toNat ' ') ++ line.text) := by
      unfold Line.set
      simp only
      rw [if_neg (by omega), if_neg (by omega)]
    unfold setLine
    split
    · exact .ok trivial
    · next step given _ =>
        cases given
        rw [set]
        exact .ok trivial
    · next given _ => cases given
  have settled : Settles (fun _ => True) (fun _ => False) (stub (.int width) decls) :=
    (settles_mapM line).bind fun _ _ => .ok trivial
  cases made : stub (.int width) decls with
  | ok text => exact ⟨text, rfl⟩
  | error fault =>
      rw [made] at settled
      exact settled.bad_of_error.elim

end Stub

namespace Failure

/-- Whether a failure has a message for the person at work. -/
def Reported (failure : Failure) : Prop := ∃ text, failure.report? = some text

/-- Whether a failure is about what is no address, as it holds a null character. -/
def NullAddress (failure : Failure) : Prop :=
  ∃ fault, failure = .store fault ∧ '\x00' ∈ fault.address.toList

theorem reported_or_nullAddress {fault : StoreFault} (sound : fault.Sound) :
    (Failure.store fault).Reported ∨ (Failure.store fault).NullAddress := by
  by_cases null : fault.cause = .nullCharacter
  · exact .inr ⟨fault, rfl, sound null⟩
  · exact .inl ⟨_, if_neg null⟩

end Failure

namespace Work

variable {before : Workspace} {path : Path} {format : String}

/-- The octets of the file that declarations are loaded from, and its format. -/
structure TreeFile (store : Store) (path : Path) (format : String) (octets : List UInt8)
    (known : Tree.Format) : Prop where
  holds : store.read path.text = .ok octets
  format : ∃ label, formatLabel path format = .ok label ∧ Tree.Format.ofLabel? label = some known

/-- Why loading declarations from a file fails with something that is not reported. -/
inductive LoadCause (store : Store) (path : Path) (format : String) : Failure → Prop
  | address {failure : Failure} (null : failure.NullAddress) : LoadCause store path format failure
  /-- The octets of the file are no text. -/
  | encoding {octets : List UInt8} (holds : store.read path.text = .ok octets)
      (noText : Text.decodeUtf8? octets = none) : LoadCause store path format .encoding
  /-- The text of the file breaks no rule of its format and has no value, or no tree. -/
  | load {octets : List UInt8} {chars : List Char} {known : Tree.Format} {fault : Tree.LoadFault}
      (file : TreeFile store path format octets known)
      (text : Text.decodeUtf8? octets = some chars)
      (other : Tree.OtherCause (String.ofList (Text.unifyNewlines chars)) known fault) :
      LoadCause store path format (.load fault)

/-- Declarations that are loaded say what they keep; otherwise the file shows why there are none. -/
theorem settles_load (path : Path) (format : String) (before : Workspace) :
    Settles (fun decls => ∀ decl ∈ decls, Tree.KeptWithin decl)
      (fun failure => failure.Reported ∨ LoadCause before.store path format failure)
      ((load path format).run before).1 := by
  have reads (label : String) :
      OnlyReads (readText Failure.store path.text >>= declarationsOf path label) :=
    (OnlyReads.readText _ _).bind (OnlyReads.declarationsOf path label)
  rw [load_eq, (OnlyReads.tell _).outcome_bind_of_ok (fun _ => (OnlyReads.ofExcept _ _).bind reads)
    (OnlyReads.outcome_tell _ before), (OnlyReads.ofExcept _ _).outcome_bind reads]
  cases named : formatLabel path format with
  | error fault => exact .error (.inl ⟨_, rfl⟩)
  | ok label =>
      change Settles _ _
        ((readText Failure.store path.text >>= declarationsOf path label).run before).1
      rw [(OnlyReads.readText _ _).outcome_bind (OnlyReads.declarationsOf path label)]
      refine ((settles_readText _ _ _).excuse fun failure bad => ?_).bind ?_
      · obtain ⟨fault, read, rfl⟩ | ⟨rfl, octets, holds, noText⟩ := bad
        · have sound := before.store.settles_read path.text
          rw [read] at sound
          rw [show storeFailure Failure.store fault = .store fault from ite_self _]
          exact (Failure.reported_or_nullAddress sound.bad_of_error).imp id .address
        · exact .inr (.encoding holds noText)
      rintro text ⟨octets, chars, holds, decoded, rfl⟩
      rw [OnlyReads.outcome_declarationsOf]
      cases loads : Tree.loadText label (String.ofList (Text.unifyNewlines chars)) with
      | ok decls => exact .ok (Tree.kept_of_loadText loads)
      | error fault =>
          refine .error ?_
          unfold Tree.loadText at loads
          split at loads
          · cases loads
            exact .inl ⟨_, rfl⟩
          · next known format =>
              have settled := Tree.settles_load known (String.ofList (Text.unifyNewlines chars))
              rw [loads] at settled
              obtain ⟨placed, rfl⟩ | other := settled.bad_of_error
              · exact .inl ⟨_, rfl⟩
              · have kind : Failure.ofLoad path.text fault = .load fault := by
                  cases other <;> rfl
                rw [kind]
                exact .inr (.load ⟨holds, label, named, format⟩ decoded other)

section Rendering

variable {settings : Settings} {decls : List Node} {asked : Option String}

/-- Why declarations cannot be rendered, for a reason that is not reported: the settings are not
valid, the stub is too deep, or JSON has no form for something that is kept. -/
inductive RenderCause (settings : Settings) (decls : List Node) : Failure → Prop
  | format {format : Value} (invalid : ¬settings.Valid) :
      RenderCause settings decls (.outputFormat format)
  | stub {fault : Stub.Fault} (cause : ¬settings.Valid ∨ Stub.TooDeep decls) :
      RenderCause settings decls (.stub fault)
  | dump {fault : Tree.DumpFault} {decl : Node} (member : decl ∈ decls)
      (kept : ¬Tree.WritableWithin decl) : RenderCause settings decls (.dump fault)

/-- The format of output is one that output can have, if the settings are valid. -/
theorem exists_outputFormat (valid : settings.Valid)
    (listed : ∀ format, asked = some format → format ∈ Settings.formats) :
    ∃ word ∈ Settings.formats, outputFormat settings asked = .str word := by
  unfold outputFormat
  split
  · next word given => exact ⟨word, listed word (Option.filter_eq_some_iff.mp given).1, rfl⟩
  · obtain ⟨word, listed, format⟩ := valid.format
    exact ⟨word, listed, format⟩

theorem settles_dumpText {word : String} (kept : ∀ decl ∈ decls, Tree.KeptWithin decl)
    (listed : word ∈ Settings.formats) (document : word ≠ "rbs") :
    Settles (fun _ => True) (fun failure => failure.Reported ∨ RenderCause settings decls failure)
      ((ofExcept Failure.ofDump (Tree.dumpText word decls)).run before).1 := by
  obtain ⟨format, rfl⟩ : ∃ format : Tree.Format, format.label = word := by
    simp only [Settings.formats, List.mem_cons, List.not_mem_nil, or_false] at listed
    obtain rfl | rfl | rfl := listed
    · exact absurd rfl document
    · exact ⟨.json, rfl⟩
    · exact ⟨.yaml, rfl⟩
  cases dumps : Tree.dumpText format.label decls with
  | ok text => exact .ok trivial
  | error fault =>
      refine .error ?_
      have some : ∃ decl ∈ decls, ¬Tree.WritableWithin decl := by
        refine Classical.byContradiction fun none => ?_
        obtain ⟨text, dumped⟩ := Tree.exists_dumpText format kept fun decl member =>
          Classical.byContradiction fun unwritable => none ⟨decl, member, unwritable⟩
        rw [dumps] at dumped
        cases dumped
      obtain ⟨decl, member, unwritable⟩ := some
      cases fault with
      | unsupportedFormat format => exact .inl ⟨_, rfl⟩
      | encode fault => exact .inr (.dump member unwritable)
      | write fault => exact .inr (.dump member unwritable)

theorem settles_render (kept : ∀ decl ∈ decls, Tree.KeptWithin decl)
    (listed : ∀ format, asked = some format → format ∈ Settings.formats) (before : Workspace) :
    Settles (fun _ => True) (fun failure => failure.Reported ∨ RenderCause settings decls failure)
      ((render settings asked decls).run before).1 := by
  unfold render
  split
  · rw [(OnlyReads.tellAll _).outcome_bind_of_ok (fun _ => OnlyReads.ofExcept _ _)
      (OnlyReads.outcome_tellAll _ before)]
    cases made : Stub.stub settings.indent decls with
    | ok text => exact .ok trivial
    | error fault =>
        refine .error (.inr (.stub ?_))
        refine Classical.byContradiction fun none => ?_
        obtain ⟨valid, flat⟩ := not_or.mp none
        obtain ⟨width, indent, least, most⟩ := (Classical.not_not.mp valid).indent
        obtain ⟨text, stubbed⟩ := Stub.exists_stub least most flat
        rw [indent, stubbed] at made
        cases made
  · next word other given =>
      split
      · next inside => exact settles_dumpText kept inside other
      · next outside =>
          refine .error (.inr (.format fun valid => ?_))
          obtain ⟨found, inside, same⟩ := exists_outputFormat valid listed
          rw [given] at same
          cases same
          exact outside inside
  · next other =>
      refine .error (.inr (.format fun valid => ?_))
      obtain ⟨found, inside, same⟩ := exists_outputFormat valid listed
      exact other found same

end Rendering

section Writing

variable {α β : Type} {work : Work α} {next : α → Work β} {good : α → Prop} {good' : β → Prop}
  {bad : Failure → Prop}

theorem settles_run_bind (starts : Settles good bad (work.run before).1)
    (continues : ∀ value middle, good value → Settles good' bad ((next value).run middle).1) :
    Settles good' bad ((work >>= next).run before).1 := by
  rw [run_bind]
  split
  · next value middle ran =>
      rw [ran] at starts
      exact continues value middle starts.good_of_ok
  · next failure middle ran =>
      rw [ran] at starts
      exact .error starts.bad_of_error

/-- After work that only reads the store and the environment are as before. -/
theorem OnlyReads.settles_run_bind (reads : OnlyReads work)
    (starts : Settles good bad (work.run before).1)
    (continues : ∀ value (middle : Workspace), middle.store = before.store →
      middle.environment = before.environment → good value →
        Settles good' bad ((next value).run middle).1) :
    Settles good' bad ((work >>= next).run before).1 := by
  have store := reads.store_eq before
  have environment := reads.environment_eq before
  rw [run_bind]
  split
  · next value middle ran =>
      rw [ran] at starts store environment
      exact continues value middle store environment starts.good_of_ok
  · next failure middle ran =>
      rw [ran] at starts
      exact .error starts.bad_of_error

variable {settings : Settings} {sorting : Sorting} {asked : Option String}

/-- Why writing a file fails for a reason that is not reported. -/
inductive WriteCause (settings : Settings) (decls : List Node) (path : Path) : Failure → Prop
  | render {failure : Failure} (cause : RenderCause settings decls failure) :
      WriteCause settings decls path failure
  | address {failure : Failure} (null : failure.NullAddress) :
      WriteCause settings decls path failure
  /-- The backup of what is there has no name. -/
  | unnamed (bare : path.name = "") : WriteCause settings decls path (.unnamed path.text)

theorem settles_writeText {unwritable : StoreFault → Failure} {address text : String}
    (reports : ∀ fault, (unwritable fault).Reported ∨ unwritable fault = .store fault)
    (before : Workspace) :
    Settles (fun _ => True) (fun failure => failure.Reported ∨ failure.NullAddress)
      ((writeText unwritable address text).run before).1 := by
  have sound := before.store.settles_write address (Text.encodeUtf8 text)
  rw [run_writeText_eq]
  cases wrote : before.store.write address (Text.encodeUtf8 text) with
  | ok later => exact .ok trivial
  | error fault =>
      rw [wrote] at sound
      refine .error (?_ : (storeFailure unwritable fault).Reported ∨ _)
      unfold storeFailure
      split
      · exact Failure.reported_or_nullAddress sound.bad_of_error
      · obtain reported | same := reports fault
        · exact .inl reported
        · rw [same]
          exact Failure.reported_or_nullAddress sound.bad_of_error

theorem settles_backUp (path : Path) (before : Workspace) :
    Settles (fun _ => True) (fun failure => failure.Reported ∨ failure.NullAddress ∨
      failure = .unnamed path.text ∧ path.name = "") ((backUp path).run before).1 := by
  by_cases bare : path.name.isEmpty
  · unfold backUp
    rw [if_pos bare]
    exact .error (.inr (.inr ⟨rfl, String.isEmpty_iff.mp bare⟩))
  · have sound := before.store.settles_copy (backupAddress path) path
    rw [run_backUp_eq bare]
    cases copied : before.store.copy path (backupAddress path) with
    | error fault =>
        rw [copied] at sound
        exact .error ((Failure.reported_or_nullAddress sound.bad_of_error).imp id .inl)
    | ok later =>
        change Settles _ _ ((tell ⟨.files, .info, "Backup written to " ++ backupAddress path⟩).run
          { before with store := later }).1
        rw [OnlyReads.outcome_tell]
        exact .ok trivial

theorem settles_isTaken (path : Path) (before : Workspace) :
    Settles (fun _ => True) Failure.Reported ((isTaken path).run before).1 := by
  rw [isTaken, run_bind]
  simp only [run_store]
  split
  · exact .error ⟨_, rfl⟩
  · exact .ok trivial

/-- A file is written in a format that output can have, if none other is asked for. -/
theorem mem_formats_of_fileFormat
    (listed : ∀ format, asked = some format → format ∈ Settings.formats) (path : Path) :
    ∀ format, fileFormat path asked = some format → format ∈ Settings.formats := by
  intro format named
  cases asked with
  | some given => exact listed format named
  | none =>
      rw [fileFormat, Option.map_eq_some_iff] at named
      obtain ⟨known, -, rfl⟩ := named
      cases known <;> decide

theorem settles_write (kept : ∀ decl ∈ sorting.sorted, Tree.KeptWithin decl)
    (listed : ∀ format, asked = some format → format ∈ Settings.formats) (before : Workspace) :
    Settles (fun _ => True)
      (fun failure => failure.Reported ∨ WriteCause settings sorting.sorted path failure)
      ((write settings sorting path asked).run before).1 := by
  have ending (text : String) (middle : Workspace) : Settles (fun _ => True)
      (fun failure => failure.Reported ∨ WriteCause settings sorting.sorted path failure)
      ((do
        tell ⟨.files, .info, "Writing " ++ path.text ++ "..."⟩
        writeText .store path.text text : Work Unit).run middle).1 := by
    have told : Settles (fun _ => True)
        (fun failure => failure.Reported ∨ WriteCause settings sorting.sorted path failure)
        ((tell ⟨.files, .info, "Writing " ++ path.text ++ "..."⟩).run middle).1 := by
      rw [OnlyReads.outcome_tell]
      exact .ok trivial
    exact settles_run_bind told fun _ middle _ =>
      (settles_writeText (fun _ => .inr rfl) middle).excuse fun failure bad => bad.imp id .address
  refine settles_run_bind ((settles_render kept (mem_formats_of_fileFormat listed path)
    before).excuse fun failure bad => bad.imp id .render) fun text rendered _ => ?_
  refine settles_run_bind ((settles_isTaken path rendered).excuse fun failure bad => .inl bad)
    fun taken asked _ => ?_
  split
  · refine settles_run_bind ((settles_backUp path asked).excuse fun failure bad => ?_)
      fun _ copied _ => ending text copied
    obtain reported | null | ⟨rfl, bare⟩ := bad
    · exact .inl reported
    · exact .inr (.address null)
    · exact .inr (.unnamed bare)
  · exact ending text asked

end Writing

end Work

end MemberOrder
