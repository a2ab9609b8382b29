import MemberOrder.Proofs.CommandLine.Answering
import MemberOrder.Proofs.Order.CanonicalForm
import MemberOrder.Proofs.Order.TreeSort
import MemberOrder.Proofs.Store.Writing
import MemberOrder.Proofs.Text.Utf8
import MemberOrder.Proofs.Tree.TextRoundTrip

/-!
# Sorting files in their place

A command that sorts a file in its place or checks it finds out the same first (`survey`). What it
leaves in a file that is read as JSON loads as the sorted declarations (`outcome_load_of_run`), so
the file then passes the check and is not written again (`check_of_sort_in_place`).
-/

namespace MemberOrder

namespace CommandLine

open Work

variable {words : List String} {config : Option String} {verbose : Bool}
  {manner : Terminal.Manner} {before after : Workspace} {address inputFormat label : String}
  {settings : Settings} {decls : List Node}

section Survey

/-- What is found out before a file is sorted in its place, or checked. -/
def survey (config : Option String) (address inputFormat : String) :
    Work (Settings × Sorting) := do
  let settings ← loadSettings config true true
  let sorting ← sortFile settings (.ofText address) inputFormat
  return (settings, sorting)

theorem onlyReads_survey : OnlyReads (survey config address inputFormat) :=
  (OnlyReads.loadSettings _ _ _).bind fun _ => (OnlyReads.sortFile _ _ _).bind fun _ => .done _

theorem outcome_survey
    (configured : ((loadSettings config true true).run before).1 = .ok settings)
    (loads : ((load (.ofText address) inputFormat).run before).1 = .ok decls) :
    ((survey config address inputFormat).run before).1 =
      .ok (settings, .of settings.deep (some (.ofText address)) decls) := by
  have sorts (settings : Settings) := OnlyReads.sortFile settings (.ofText address) inputFormat
  refine ((OnlyReads.loadSettings _ _ _).outcome_bind_of_ok (fun settings =>
    (sorts settings).bind fun _ => .done _) configured).trans ?_
  exact (sorts settings).outcome_bind_of_ok (fun _ => .done _) (OnlyReads.outcome_sortFile loads)

theorem perform_sort_eq (labelled : formatLabel (.ofText address) inputFormat = .ok label) :
    perform manner config (.sort address inputFormat .source none) =
      survey config address inputFormat >>= fun (settings, sorting) =>
        sortInPlace manner settings (.ofText address) sorting label := by
  have named : ofExcept Failure.tree (sourceFormat (.ofText address) inputFormat none) =
      pure label := by
    rw [show sourceFormat (.ofText address) inputFormat none = .ok label from labelled]
    rfl
  simp only [perform, runSort, survey, bind_assoc, pure_bind, named]

/-- What is said about a file that is the only one to be checked. -/
def verdict (manner : Terminal.Manner) (address : String) (sorting : Sorting) : Work Ending := do
  if sorting.changed then
    tell ⟨.files, .info, address ++ " is not canonically ordered"⟩
    say manner .warning (address ++ " would be reordered")
    say manner .error "1 of 1 file(s) need sorting"
    return .failed
  else
    say manner .success (address ++ " is sorted")
    return .done

theorem perform_check_eq : perform manner config (.check [address] inputFormat) =
    survey config address inputFormat >>= fun (_, sorting) => verdict manner address sorting := by
  simp only [perform, runCheck, checkFile, survey, bind_assoc, pure_bind, List.mapM_cons,
    List.mapM_nil]
  refine bind_congr fun settings => bind_congr fun sorting => ?_
  unfold verdict
  cases sorting.changed with
  | false => simp
  | true =>
      have counted : Nat.repr 1 ++ " of " ++ Nat.repr 1 ++ " file(s) need sorting" =
        "1 of 1 file(s) need sorting" := by decide
      simp [counted]

end Survey

section Sorted

variable {shown : String}

/-- A command that finds declarations in a file and at once says something ends well. -/
theorem onlySays_of_survey {command : Command} {conclude : Settings × Sorting → Work Ending}
    (asks : Asks words ⟨config, verbose, manner, some command⟩)
    (steps : perform manner config command = survey config address inputFormat >>= conclude)
    (configured : ((loadSettings config true true).run before).1 = .ok settings)
    (loads : ((load (.ofText address) inputFormat).run before).1 = .ok decls)
    (concludes : ∀ middle,
      (conclude (settings, .of settings.deep (some (.ofText address)) decls)).run middle =
        (.ok .done, { middle with output := middle.output ++ [.message shown] })) :
    OnlySays words before shown := by
  let given : Workspace := { before with verbose := verbose }
  have surveyed : ((survey config address inputFormat).run given).1 =
      .ok (settings, .of settings.deep (some (.ofText address)) decls) :=
    (onlyReads_survey.depends given before rfl rfl).trans (outcome_survey configured loads)
  obtain ⟨told, ran⟩ := onlyReads_survey.exists_run_eq surveyed
  refine ⟨verbose, told, (run_eq_done_iff asks).mpr ?_⟩
  rw [steps]
  exact run_bind_eq_ok_iff.mpr ⟨_, _, ran, concludes _⟩

variable (configured : ((loadSettings config true true).run before).1 = .ok settings)
  (loads : ((load (.ofText address) inputFormat).run before).1 = .ok decls)
  (counts : isSorted settings.deep decls)

include configured loads counts

/-- A file with sorted declarations passes the check. -/
theorem onlySays_check
    (asks : Asks words ⟨config, verbose, manner, some (.check [address] inputFormat)⟩)
    (shows : Terminal.message manner .success (address ++ " is sorted") = .ok shown) :
    OnlySays words before shown := by
  apply onlySays_of_survey asks perform_check_eq configured loads
  intro middle
  have unchanged : (Sorting.of settings.deep (some (.ofText address)) decls).changed = false :=
    congrArg not counts
  simp only [verdict, unchanged, Bool.false_eq_true, ↓reduceIte]
  exact run_bind_eq_ok_iff.mpr ⟨(), _, run_say shows middle, rfl⟩

/-- A file with sorted declarations is not written. -/
theorem onlySays_sort (json : formatLabel (.ofText address) inputFormat = .ok "json")
    (asks : Asks words ⟨config, verbose, manner, some (.sort address inputFormat .source none)⟩)
    (shows : Terminal.message manner .info ((Path.ofText address).text ++ " is already sorted") =
      .ok shown) :
    OnlySays words before shown := by
  apply onlySays_of_survey asks (perform_sort_eq json) configured loads
  intro middle
  have unchanged : (Sorting.of settings.deep (some (.ofText address)) decls).changed = false :=
    congrArg not counts
  have other : "json" ≠ "rbs" := by decide
  simp only [sortInPlace, unchanged, other, Bool.false_eq_true, ↓reduceIte]
  exact run_bind_eq_ok_iff.mpr ⟨(), _, run_say shows middle, rfl⟩

end Sorted

section Stored

variable {text : String} {kept : Store}

/-- Sorting in place leaves a file alone, or writes what the sorted declarations are dumped as. -/
theorem store_of_run_sortInPlace {sorting : Sorting} {path : Path}
    (ran : (sortInPlace manner settings path sorting "json").run before = (.ok .done, after)) :
    (sorting.changed = false ∧ after.store = before.store) ∨
      ∃ text kept, Tree.dumpText "json" sorting.sorted = .ok text ∧
        Store.write kept path.text (Text.encodeUtf8 text) = .ok after.store := by
  have other : "json" ≠ "rbs" := by decide
  simp only [sortInPlace, other, ↓reduceIte] at ran
  split at ran
  · obtain ⟨_, written, writes, ran⟩ := run_bind_eq_ok_iff.mp ran
    obtain ⟨_, _, said, ran⟩ := run_bind_eq_ok_iff.mp ran
    cases ran
    have same : after.store = written.store := by
      rw [← onlyReads_say.store_eq written, said]
    obtain ⟨text, kept, rendered, -, wrote⟩ := exists_of_run_write writes
    exact .inr ⟨text, kept, dumpText_of_outcome_render rendered, same ▸ wrote⟩
  · next unchanged =>
    obtain ⟨_, _, said, ran⟩ := run_bind_eq_ok_iff.mp ran
    cases ran
    refine .inl ⟨by simpa using unchanged, ?_⟩
    rw [← onlyReads_say.store_eq before, said]

/-- A file that holds what declarations are dumped as loads as the declarations. -/
theorem outcome_load_of_write {path : Path}
    (json : formatLabel path inputFormat = .ok "json")
    (loaded : ∀ decl ∈ decls, ∀ steps inner, decl.at? steps = some inner → inner.Loaded)
    (dumps : Tree.dumpText "json" decls = .ok text)
    (written : Store.write kept path.text (Text.encodeUtf8 text) = .ok after.store) :
    ((load path inputFormat).run after).1 = .ok decls := by
  obtain ⟨loads, oneKind⟩ := Tree.loadText_of_dumpText loaded dumps
  have given : ((readText .store path.text).run after).1 = .ok text := by
    refine OnlyReads.outcome_readText_eq_ok_iff.mpr ⟨_, _, Store.read_of_write written,
      Text.decodeUtf8?_encodeUtf8 text, ?_⟩
    rw [Text.unifyNewlines_of_not_mem oneKind, String.ofList_toList]
  exact OnlyReads.outcome_load_eq_ok_iff.mpr ⟨"json", text, json, given, loads⟩

end Stored

/-- What a file holds after it was sorted in its place. -/
theorem outcome_load_of_run
    (json : formatLabel (.ofText address) inputFormat = .ok "json")
    (configured : ((loadSettings config true true).run before).1 = .ok settings)
    (loads : ((load (.ofText address) inputFormat).run before).1 = .ok decls)
    (ran : (perform manner config (.sort address inputFormat .source none)).run before =
      (.ok .done, after)) :
    ((load (.ofText address) inputFormat).run after).1 = .ok (sortTrees settings.deep decls) := by
  rw [perform_sort_eq json] at ran
  obtain ⟨_, middle, surveyed, ran⟩ := run_bind_eq_ok_iff.mp ran
  have found := outcome_survey configured loads
  rw [surveyed] at found
  cases found
  rcases store_of_run_sortInPlace ran with ⟨unchanged, same⟩ | ⟨text, kept, dumps, written⟩
  · -- Nothing was written, so the file holds what it held, and that is its own sorted form.
    have counts : isSorted settings.deep decls := by
      simpa [Sorting.changed, Sorting.of, isSorted] using unchanged
    rw [sortTrees_eq_of_isSorted counts]
    refine OnlyReads.outcome_load_of_store_eq ?_ loads
    rw [same, ← onlyReads_survey.store_eq before, surveyed]
  · -- What was read from a text can be read again from what it is written as, in any order.
    obtain ⟨label, given, labelled, -, parses⟩ := OnlyReads.outcome_load_eq_ok_iff.mp loads
    cases json.symm.trans labelled
    have loaded : ∀ decl ∈ sortTrees settings.deep decls, ∀ steps inner,
        decl.at? steps = some inner → inner.Loaded := by
      intro decl present
      rw [Node.sortTrees_eq_map] at present
      obtain ⟨original, inside, rfl⟩ := List.mem_map.mp present
      exact Tree.loaded_sortTree _ (Tree.loaded_of_loadText parses original inside)
    exact outcome_load_of_write json loaded dumps written

/-- **Sorting in place and checking.** A file that is read as JSON is sorted in its place, and the
run ends well. If in no container that the sort meets an alias leads back to itself, the file then
holds the sorted declarations. With settings of the same values it passes the check, and sorting it
in its place once more says that it is sorted; neither changes the store. In the marked manner the
check has to be able to show the address. -/
theorem check_of_sort_in_place
    (asks : Asks words ⟨config, verbose, manner, some (.sort address inputFormat .source none)⟩)
    (json : formatLabel (.ofText address) inputFormat = .ok "json")
    (configured : ((loadSettings config true true).run before).1 = .ok settings)
    (loads : ((load (.ofText address) inputFormat).run before).1 = .ok decls)
    (acyclic : ∀ body ∈ Node.bodiesAll settings.deep decls, (Table.of body).Acyclic)
    (ran : (run words).run before = (.ok .done, after)) :
    ((load (.ofText address) inputFormat).run after).1 = .ok (sortTrees settings.deep decls) ∧
    ∀ (later : Workspace) (config : Option String) (verbose : Bool), later.store = after.store →
      ((loadSettings config true true).run later).1 = .ok settings →
      (∀ words, Asks words ⟨config, verbose, .plain, some (.check [address] inputFormat)⟩ →
        OnlySays words later (Terminal.freeText ("✓ " ++ (address ++ " is sorted")))) ∧
      (∀ words shown, Asks words ⟨config, verbose, .marked, some (.check [address] inputFormat)⟩ →
        Terminal.message .marked .success (address ++ " is sorted") = .ok shown →
        OnlySays words later shown) ∧
      ∀ words, Asks words ⟨config, verbose, .plain, some (.sort address inputFormat .source none)⟩ →
        OnlySays words later
          (Terminal.freeText ("ℹ " ++ ((Path.ofText address).text ++ " is already sorted"))) := by
  have holds : ((load (.ofText address) inputFormat).run after).1 =
      .ok (sortTrees settings.deep decls) := by
    let given : Workspace := { before with verbose := verbose }
    have same : given.store = before.store := rfl
    have configuredGiven : ((loadSettings config true true).run given).1 = .ok settings :=
      ((OnlyReads.loadSettings _ _ _).depends given before rfl rfl).trans configured
    have loadsGiven : ((load (.ofText address) inputFormat).run given).1 = .ok decls :=
      OnlyReads.outcome_load_of_store_eq same loads
    exact outcome_load_of_run json configuredGiven loadsGiven ((run_eq_done_iff asks).mp ran)
  have counts : isSorted settings.deep (sortTrees settings.deep decls) :=
    (isSorted_sortTrees_iff _ _).mpr fun body inside => (acyclic body inside).steady
  refine ⟨holds, fun later config verbose same configured => ?_⟩
  have holdsLater := OnlyReads.outcome_load_of_store_eq same holds
  refine ⟨?_, ?_, ?_⟩
  · intro words asks
    exact onlySays_check configured holdsLater counts asks rfl
  · intro words shown asks shows
    exact onlySays_check configured holdsLater counts asks shows
  · intro words asks
    exact onlySays_sort configured holdsLater counts json asks rfl

/-- A workspace with one file in its store. -/
private def holding (text : String) : Workspace :=
  ⟨Store.empty.put ["a.json"] (.file (Text.encodeUtf8 text)), [], false, []⟩

private def unsortedFile : Workspace := holding
  ("[\x7b\"tag\":\"class\",\"name\":\"A\",\"members\":[" ++
    "\x7b\"tag\":\"method\",\"name\":\"m\"\x7d,\x7b\"tag\":\"include\",\"name\":\"M\"\x7d]\x7d]")

private def inPlace : List String := ["--no-rich", "sort", "a.json", "--in-place"]

private def sortedFile : Workspace := ((run inPlace).run unsortedFile).2

/-- Where there is nothing that settings are looked for in, they are the default ones. -/
private theorem configured_of_unfound {workspace : Workspace}
    (environment : workspace.environment = [])
    (unfound : findSettings workspace.store [] = none) :
    ((loadSettings none true true).run workspace).1 = .ok .default := by
  obtain ⟨stored, _, verbose, output⟩ := workspace
  cases environment
  have document : (settingsDocument none).run ⟨stored, [], verbose, output⟩ =
      (.ok [], ⟨stored, [], verbose, output⟩) := by
    simp only [settingsDocument, Option.filter_none, run_bind, run_store, unfound]
    rfl
  rw [loadSettings, run_bind, document]
  rfl

private theorem inPlace_ends : ((run inPlace).run unsortedFile).1.toOption = some .done ∧
    sortedFile.environment = [] ∧ findSettings sortedFile.store [] = none := by
  decide +kernel

private theorem unsortedFile_loads :
    (((load (.ofText "a.json") "auto").run unsortedFile).1.toOption.any fun decls =>
      (Node.bodiesAll true decls).all fun body => (Table.of body).aliases.isEmpty) = true := by
  decide +kernel

/-- A method and a mixin are put in order, and the file is checked and sorted once more. -/
theorem check_of_sort_unsortedFile :
    (run inPlace).run unsortedFile = (.ok .done, sortedFile) ∧
    ∃ decls, ((load (.ofText "a.json") "auto").run unsortedFile).1 = .ok decls ∧
      ((load (.ofText "a.json") "auto").run sortedFile).1 = .ok (sortTrees true decls) ∧
      OnlySays ["--no-rich", "check", "a.json"] sortedFile "✓ a.json is sorted\n" ∧
      OnlySays inPlace sortedFile "ℹ a.json is already sorted\n" := by
  obtain ⟨ends, environment, unfound⟩ := inPlace_ends
  have ran : (run inPlace).run unsortedFile = (.ok .done, sortedFile) := by
    rw [sortedFile, ← eq_ok_of_toOption ends]
    exact (Prod.eta _).symm
  obtain ⟨decls, found, bare⟩ := Option.any_eq_true _ _ |>.mp unsortedFile_loads
  have loads := eq_ok_of_toOption found
  have acyclic : ∀ body ∈ Node.bodiesAll true decls, (Table.of body).Acyclic := by
    intro body inside
    have none : (Table.of body).aliases = [] :=
      List.isEmpty_iff.mp (List.all_eq_true.mp bare body inside)
    apply Table.acyclic_of_measure fun _ => 0
    intro placed member _
    rw [none] at member
    cases member
  have asks : Asks inPlace ⟨none, false, .plain, some (.sort "a.json" "auto" .source none)⟩ := by
    decide +kernel
  have configured : ((loadSettings none true true).run unsortedFile).1 = .ok .default :=
    configured_of_unfound rfl (by decide +kernel)
  obtain ⟨holds, later⟩ := check_of_sort_in_place asks (by rfl) configured loads acyclic ran
  obtain ⟨checked, -, again⟩ := later sortedFile none false rfl
    (configured_of_unfound environment unfound)
  exact ⟨ran, decls, loads, holds, checked _ (by decide +kernel), again inPlace asks⟩

end CommandLine

end MemberOrder
