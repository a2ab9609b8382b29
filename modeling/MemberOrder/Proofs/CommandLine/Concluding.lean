import MemberOrder.Proofs.CommandLine.Keeping
import MemberOrder.Proofs.Terminal.Messages

/-!
# How runs conclude

Work that takes nothing back of what was put out (`Work.Grows`) can come before a run that ends
well, says last why it does not, or fails; so the whole concludes as its end does
(`CommandLine.Concludes.bind`, `CommandLine.Concludes.tryCatch`).
-/

namespace MemberOrder

namespace Work

variable {α β : Type}

/-- Work that takes nothing back of what was put out before. -/
def Grows (work : Work α) : Prop :=
  ∀ before, ∃ told, (work.run before).2.output = before.output ++ told

namespace Grows

variable {work : Work α} {next : α → Work β}

theorem of_onlyReads (reads : OnlyReads work) : Grows work := fun before => by
  obtain ⟨told, left⟩ := reads.leaves before
  exact ⟨told, by rw [left]⟩

theorem bind (first : Grows work) (rest : ∀ value, Grows (next value)) : Grows (work >>= next) := by
  intro before
  obtain ⟨told, grown⟩ := first before
  rw [run_bind]
  split
  · next value middle ran =>
      rw [ran] at grown
      obtain ⟨later, grownLater⟩ := rest value middle
      exact ⟨told ++ later, by rw [grownLater, grown, List.append_assoc]⟩
  · next failure middle ran =>
      rw [ran] at grown
      exact ⟨told, grown⟩

theorem writeText (unwritable : StoreFault → Failure) (address text : String) :
    Grows (Work.writeText unwritable address text) :=
  .bind (.of_onlyReads .store) fun _ => .bind (.of_onlyReads (.ofExcept _ _)) fun _ _ =>
    ⟨[], (List.append_nil _).symm⟩

theorem backUp (path : Path) : Grows (Work.backUp path) := by
  unfold Work.backUp
  split
  · exact fun _ => ⟨[], (List.append_nil _).symm⟩
  · refine .bind (.of_onlyReads .store) fun _ => .bind (.of_onlyReads (.ofExcept _ _)) fun _ => ?_
    exact .bind (fun _ => ⟨[], (List.append_nil _).symm⟩) fun _ => .of_onlyReads (.tell _)

theorem write (settings : Settings) (sorting : Sorting) (path : Path) (format : Option String) :
    Grows (Work.write settings sorting path format) := by
  have ending (text : String) : Grows (do
      tell ⟨.files, .info, "Writing " ++ path.text ++ "..."⟩
      Work.writeText .store path.text text) :=
    .bind (.of_onlyReads (.tell _)) fun _ => .writeText _ _ _
  refine .bind (.of_onlyReads (.render _ _ _)) fun text =>
    .bind (.of_onlyReads (.isTaken path)) fun taken => ?_
  split
  · exact .bind (.backUp path) fun _ => ending text
  · exact ending text

end Grows

end Work

namespace CommandLine

open Work

variable {manner : Terminal.Manner} {before : Workspace} {α : Type}

/-- How a run may end: well, or as a failure with a reason that is said last, or with a failure that
gets out. -/
inductive Concludes (manner : Terminal.Manner) (reason : String → Prop) (escapes : Failure → Prop)
    (before : Workspace) : Except Failure Ending × Workspace → Prop
  | done {after : Workspace} : Concludes manner reason escapes before (.ok .done, after)
  | failed {text shown : String} {told : List Output} {after : Workspace} (why : reason text)
      (shows : Terminal.message manner .error text = .ok shown)
      (said : after.output = before.output ++ told ++ [.message shown]) :
      Concludes manner reason escapes before (.ok .failed, after)
  | error {failure : Failure} {told : List Output} {after : Workspace} (cause : escapes failure)
      (said : after.output = before.output ++ told) :
      Concludes manner reason escapes before (.error failure, after)

section Concluding

variable {reason : String → Prop} {escapes : Failure → Prop} {good : α → Prop} {first : Work α}
  {next : α → Work Ending}

/-- What was put out before a run of which this is the end. -/
theorem Concludes.after {middle : Workspace} {told : List Output}
    {result : Except Failure Ending × Workspace}
    (grown : middle.output = before.output ++ told)
    (concludes : Concludes manner reason escapes middle result) :
    Concludes manner reason escapes before result := by
  cases concludes with
  | done => exact .done
  | failed why shows said =>
      rw [grown, List.append_assoc _ told] at said
      exact .failed why shows said
  | error cause said =>
      rw [grown, List.append_assoc] at said
      exact .error cause said

/-- A step comes first that takes nothing back. -/
theorem Concludes.bind (grows : Grows first)
    (starts : Settles good escapes (first.run before).1)
    (continues : ∀ value middle, first.run before = (.ok value, middle) → good value →
      Concludes manner reason escapes middle ((next value).run middle)) :
    Concludes manner reason escapes before ((first >>= next).run before) := by
  obtain ⟨told, grown⟩ := grows before
  rw [run_bind]
  split
  · next value middle ran =>
      rw [ran] at starts grown
      exact (continues value middle ran starts.good_of_ok).after grown
  · next failure middle ran =>
      rw [ran] at starts grown
      exact .error starts.bad_of_error grown

/-- What handles each failure concludes for all. -/
theorem Concludes.tryCatch {work : Work Ending} {handle : Failure → Work Ending}
    {inner : Failure → Prop} (concludes : Concludes manner reason inner before (work.run before))
    (handles : ∀ failure middle, (work.run before).1 = .error failure → inner failure →
      Concludes manner reason escapes middle ((handle failure).run middle)) :
    Concludes manner reason escapes before ((tryCatch work handle).run before) := by
  rw [run_tryCatch]
  cases ran : work.run before with
  | mk outcome middle =>
      rw [ran] at concludes handles
      cases concludes with
      | done => exact .done
      | failed why shows said => exact .failed why shows said
      | error cause said => exact (handles _ middle rfl cause).after said

/-- Only a text with a bracket cannot be said, and only in the marked manner. -/
theorem run_say_cases (manner : Terminal.Manner) (kind : Terminal.MessageKind) (text : String)
    (before : Workspace) :
    (∃ shown, Terminal.message manner kind text = .ok shown ∧ (say manner kind text).run before =
        (.ok (), { before with output := before.output ++ [.message shown] })) ∨
      ∃ fault, manner = .marked ∧ Terminal.HasBracket text ∧
        Terminal.message .marked kind text = .error fault ∧
        (say manner kind text).run before = (.error (.markup fault), before) := by
  cases shows : Terminal.message manner kind text with
  | ok shown => exact .inl ⟨shown, rfl, run_say shows before⟩
  | error fault =>
      obtain rfl := marked_of_error shows
      refine .inr ⟨fault, rfl, Classical.byContradiction fun bare => ?_, shows,
        run_say_error shows before⟩
      obtain ⟨shown, sayable⟩ := Terminal.exists_message bare .marked kind
      rw [shows] at sayable
      cases sayable

end Concluding

end CommandLine

end MemberOrder
