import MemberOrder.Proofs.Outcome
import MemberOrder.Proofs.Store.Backup
import MemberOrder.Proofs.Tree.Endings
import MemberOrder.Proofs.Workspace.Sparing

/-!
# Files of sorted declarations

Writing sorted declarations to a file is done in full or not at all (`Work.write_all_or_nothing`).
The format is the one that is asked for, else the one that the name of the file ends in, else that
of the settings (`Work.WrittenAs`). What the file held before is held by its backup, if there is to
be one.
-/

namespace MemberOrder

namespace Work

/-- The format that a file of a name is rendered in, if one is asked for or not. None at all is the
format of the settings. -/
inductive WrittenAs (name : String) : Option String → Option String → Prop
  /-- It is asked for. -/
  | asked (format : String) : WrittenAs name (some format) (some format)
  /-- The name ends in it, in any mixture of capitals and small letters. -/
  | ending {stem ending : String} {format : Tree.Format} (behind : stem ≠ "")
      (named : name = stem ++ "." ++ ending)
      (listed : (ending.toLower, format) ∈ Tree.Format.plainEndings) :
      WrittenAs name none (some format.label)
  /-- The name ends in no format. -/
  | configured (plain : ∀ stem ending format, stem ≠ "" → name = stem ++ "." ++ ending →
      (ending.toLower, format) ∉ Tree.Format.plainEndings) : WrittenAs name none none

theorem writtenAs_fileFormat (path : Path) (format : Option String) :
    WrittenAs path.name format (fileFormat path format) := by
  cases format with
  | some format => exact .asked format
  | none =>
      rw [fileFormat, Path.suffix]
      cases found : Tree.Format.ofSuffix? (Path.suffixOf path.name) with
      | some format =>
          obtain ⟨stem, ending, behind, named, listed⟩ :=
            Tree.Format.ofSuffix?_eq_some_iff.mp found
          exact .ending behind named listed
      | none =>
          refine .configured fun stem ending format behind named listed => ?_
          have stands : Tree.Format.ofSuffix? (Path.suffixOf path.name) = some format :=
            Tree.Format.ofSuffix?_eq_some_iff.mpr ⟨stem, ending, behind, named, listed⟩
          rw [found] at stands
          cases stands

theorem backupAddress_eq {path : Path} (proper : path.Proper) (named : path.name ≠ "") :
    backupAddress path = path.text ++ ".bak" :=
  proper.text_withName_append named ".bak"

private def backingUp : Settings := { Settings.default with backup := .bool true }

private def noDeclarations : Sorting := .of true none []

/-- A file, and a directory where its backup would be. -/
private def fileBesideDirectory : Workspace :=
  ⟨⟨[(["a.JSON"], .file [32]), (["a.JSON.bak"], .directory)], []⟩, [], false, []⟩

/-- Writes no declarations to an address there. -/
private def writeTo (address : String) : Except Failure Unit × Workspace :=
  (write backingUp noDeclarations (.ofText address) none).run fileBesideDirectory

private theorem writeTo_ends : (writeTo "a.JSON").1.toOption = some () ∧
    (writeTo "a.JSON.bak").1.toOption = none := by
  decide +kernel

private theorem backup_of_file :
    (fileBesideDirectory.store.read (Path.ofText "a.JSON").text).toOption = some [32] ∧
    fileBesideDirectory.store.copyAddress (.ofText "a.JSON")
      ((Path.ofText "a.JSON").text ++ ".bak") = "a.JSON.bak/a.JSON" := by
  decide +kernel

end Work

end MemberOrder
