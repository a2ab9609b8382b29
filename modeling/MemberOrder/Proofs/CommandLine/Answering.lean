import MemberOrder.CommandLine.Run
import MemberOrder.Proofs.Outcome
import MemberOrder.Proofs.Workspace.Running

/-!
# Answering a command line

A run that ends well has done what the command line asks for: what is reported is always a failure
(`CommandLine.run_eq_done_iff`).
-/

namespace MemberOrder

namespace CommandLine

open Work

variable {words : List String} {config : Option String} {verbose : Bool}
  {manner : Terminal.Manner} {command : Command} {before after : Workspace}

/-- Whether a command line can be read and asks for something. -/
def Asks (words : List String) (request : Request) : Prop :=
  (read programGrammar words).toOption.map Request.ofReading = some request

instance (words : List String) (request : Request) : Decidable (Asks words request) :=
  inferInstanceAs (Decidable (_ = _))

/-- Whether a run ends well, says something last and leaves all but the output as it is. -/
def OnlySays (words : List String) (before : Workspace) (shown : String) : Prop :=
  ∃ verbose told, (run words).run before = (.ok .done,
    { before with verbose := verbose, output := before.output ++ told ++ [.message shown] })

section Messages

variable {kind : Terminal.MessageKind} {text shown : String}

theorem onlyReads_say : OnlyReads (say manner kind text) :=
  (OnlyReads.ofExcept _ _).bind fun _ => .emit _

theorem run_say (shows : Terminal.message manner kind text = .ok shown) (before : Workspace) :
    (say manner kind text).run before =
      (.ok (), { before with output := before.output ++ [.message shown] }) := by
  unfold say
  rw [shows]
  rfl

theorem run_say_error {fault : Terminal.MarkupFault}
    (fails : Terminal.message manner kind text = .error fault) (before : Workspace) :
    (say manner kind text).run before = (.error (.markup fault), before) := by
  unfold say
  rw [fails]
  rfl

/-- In the plain manner everything can be said. -/
theorem marked_of_error {fault : Terminal.MarkupFault}
    (fails : Terminal.message manner kind text = .error fault) : manner = .marked := by
  cases manner with
  | marked => rfl
  | plain => cases fails

end Messages

theorem run_tryCatch (work : Work Ending) (handle : Failure → Work Ending) (before : Workspace) :
    (tryCatch work handle).run before =
      match work.run before with
      | (.ok ending, middle) => (.ok ending, middle)
      | (.error failure, middle) => (handle failure).run middle := by
  cases first : work.run before with
  | mk outcome middle =>
      simp only [tryCatch, tryCatchThe, MonadExceptOf.tryCatch, ExceptT.tryCatch, ExceptT.run_mk]
      change StateT.bind work.run _ before = _
      rw [StateT.bind, first]
      cases outcome <;> rfl

theorem report_ne_done (failure : Failure) :
    (report manner failure).run before ≠ (.ok .done, after) := by
  intro ran
  -- Whatever is told and said first, a report ends as a failure.
  unfold report at ran
  split at ran
  · obtain ⟨given, _, -, ran⟩ := run_bind_eq_ok_iff.mp ran
    split at ran
    · obtain ⟨_, _, -, ran⟩ := run_bind_eq_ok_iff.mp ran
      obtain ⟨_, _, -, ran⟩ := run_bind_eq_ok_iff.mp ran
      obtain ⟨_, _, -, ran⟩ := run_bind_eq_ok_iff.mp ran
      cases ran
    · obtain ⟨_, _, -, ran⟩ := run_bind_eq_ok_iff.mp ran
      cases ran
  · cases ran

/-- A run ends well exactly if the command that is asked for does. -/
theorem run_eq_done_iff (asks : Asks words ⟨config, verbose, manner, some command⟩) :
    (run words).run before = (.ok .done, after) ↔
      (perform manner config command).run { before with verbose := verbose } =
        (.ok .done, after) := by
  obtain ⟨reading, found, request⟩ := Option.map_eq_some_iff.mp asks
  have steps : (run words).run before =
      (tryCatch (perform manner config command) (report manner)).run
        { before with verbose := verbose } := by
    rw [run, eq_ok_of_toOption found]
    simp only [request]
    rfl
  rw [steps, run_tryCatch]
  cases performed : (perform manner config command).run { before with verbose := verbose } with
  | mk outcome middle =>
      cases outcome with
      | ok ending => rfl
      | error failure =>
          refine iff_of_false (report_ne_done failure) ?_
          rintro ⟨⟩

end CommandLine

end MemberOrder
