import MemberOrder.CommandLine.Commands
import MemberOrder.Proofs.CommandLine.Answering
import MemberOrder.Proofs.Outcome

/-!
# Choices on a command line

What is read by a grammar has options of the grammar only, and where an option offers a choice its
text is one of the words offered (`CommandLine.given_of_read`). So a format that sorting is asked
for is one that output can have (`CommandLine.mem_formats_of_asks`).
-/

namespace MemberOrder

namespace CommandLine

/-- Whether an option is one of some, with a text that it allows. -/
structure Given (specs : List OptionSpec) (option : OptionSpec × String) : Prop where
  listed : option.1 ∈ specs
  chosen : ∀ words, option.1.kind = .choice words → option.2 ∈ words

theorem Given.mono {specs more : List OptionSpec} {option : OptionSpec × String}
    (given : Given specs option) (listed : specs ⊆ more) : Given more option :=
  ⟨listed given.listed, given.chosen⟩

section Words

variable {face : Face} {word : String}

theorem mem_options_of_find? {name : String} {spec : OptionSpec}
    (found : face.find? name = some spec) : spec ∈ face.options := List.mem_of_find?_eq_some found

theorem mem_options_of_mem_names {named : String × OptionSpec} (member : named ∈ face.names) :
    named.2 ∈ face.options := by
  obtain ⟨spec, listed, inner⟩ := List.mem_flatMap.mp member
  obtain ⟨name, -, rfl⟩ := List.mem_map.mp inner
  exact listed

/-- Whether an option that a word stands for is one of the grammar. -/
def Role.Fits (face : Face) : Role → Prop
  | .option spec _ _ => spec ∈ face.options
  | _ => True

theorem fits_of_mem_abbreviated {chars : List Char} {named : String × Role}
    (member : named ∈ abbreviated face chars) : named.2.Fits face := by
  unfold abbreviated at member
  split at member
  · obtain ⟨option, listed, taken⟩ := List.mem_filterMap.mp member
    obtain ⟨-, same⟩ := Option.ite_none_right_eq_some.mp taken
    cases same
    exact mem_options_of_mem_names listed
  · obtain ⟨option, listed, taken⟩ := List.mem_filterMap.mp member
    simp only at taken
    split at taken
    · cases taken
      exact mem_options_of_mem_names listed
    · split at taken
      · cases taken
        exact mem_options_of_mem_names listed
      · cases taken
  · cases member

theorem settles_role (face : Face) (word : String) :
    Settles (Role.Fits face) (fun _ => True) (role face word) := by
  unfold role
  split
  · unfold dashedRole
    split
    · next spec found => exact .ok (mem_options_of_find? found)
    · simp only
      split
      · next spec _ found => exact .ok (mem_options_of_find? found)
      · split
        · next name taken only =>
            have member : (name, taken) ∈ abbreviated face word.toList := by rw [only]; simp
            exact .ok (fits_of_mem_abbreviated member)
        · split
          · exact .ok trivial
          · exact .ok trivial
        · exact .error trivial
  · exact .ok trivial

theorem settles_classify (face : Face) (words : List String) :
    Settles (fun found => ∀ word ∈ found, word.role.Fits face) (fun _ => True)
      (classify face words) := by
  induction words with
  | nil => exact .ok (List.forall_mem_nil _)
  | cons word rest ih =>
      rw [classify]
      split
      · refine .ok (List.forall_mem_cons.mpr ⟨trivial, fun other member => ?_⟩)
        obtain ⟨text, -, rfl⟩ := List.mem_map.mp member
        trivial
      · exact (settles_role face word).bind fun taken fits => ih.bind fun others all =>
          .ok (List.forall_mem_cons.mpr ⟨fits, all⟩)

end Words

section Levels

variable {grammar : Grammar} {given : List (OptionSpec × String)} {spec : OptionSpec}

theorem settles_cluster (face : Face) {spec : OptionSpec} (listed : spec ∈ face.options)
    (name : String) (attached : Option (List Char)) :
    Settles (fun found => ∀ option ∈ found, option.1 ∈ face.options) (fun _ => True)
      (cluster face spec name attached) := by
  have letters (chars : List Char) (spec : OptionSpec) (listed : spec ∈ face.options) :
      Settles (fun found => ∀ option ∈ found, option.1 ∈ face.options) (fun _ => True)
        (cluster.letters face spec chars) := by
    induction chars generalizing spec with
    | nil => exact .error trivial
    | cons c rest ih =>
        rw [cluster.letters]
        split
        · exact .error trivial
        · next next found =>
            have inner := mem_options_of_find? found
            split
            · exact .ok (List.forall_mem_cons.mpr ⟨listed, List.forall_mem_singleton.mpr inner⟩)
            · split
              · exact .ok (List.forall_mem_cons.mpr ⟨listed, List.forall_mem_singleton.mpr inner⟩)
              · exact (ih next inner).bind fun others all =>
                  .ok (List.forall_mem_cons.mpr ⟨listed, all⟩)
  unfold cluster
  split
  · exact .ok (List.forall_mem_singleton.mpr listed)
  · split
    · exact .ok (List.forall_mem_singleton.mpr listed)
    · split
      · exact .error trivial
      · exact letters _ _ listed

/-- An option that is added is one of the grammar, with a text that it allows. -/
theorem settles_addOption (before : ∀ option ∈ given, Given grammar.face.options option)
    (listed : spec ∈ grammar.face.options) (text : String) :
    Settles (fun after => ∀ option ∈ after, Given grammar.face.options option) (fun _ => True)
      (addOption grammar given spec text) := by
  have added (own : Given grammar.face.options (spec, text)) :
      ∀ option ∈ given ++ [(spec, text)], Given grammar.face.options option := fun option member =>
    (List.mem_append.mp member).elim (before option) fun new => List.mem_singleton.mp new ▸ own
  unfold addOption
  simp only
  split
  · next words choice =>
      split
      · exact .error trivial
      · next chosen =>
          split
          · exact .error trivial
          · exact .error trivial
          · exact .error trivial
          · refine .ok (added ⟨listed, fun others same => ?_⟩)
            rw [choice] at same
            cases same
            exact Classical.not_not.mp chosen
  · next free =>
      split
      · exact .error trivial
      · split
        · exact .error trivial
        · exact .error trivial
        · exact .error trivial
        · exact .ok (added ⟨listed, fun words choice => absurd choice (free words)⟩)

theorem settles_addCluster {next : Option Word} {found : List (OptionSpec × Option (List Char))}
    (listed : ∀ option ∈ found, option.1 ∈ grammar.face.options)
    (before : ∀ option ∈ given, Given grammar.face.options option) :
    Settles (fun after => ∀ option ∈ after.1, Given grammar.face.options option) (fun _ => True)
      (addCluster grammar next found given) := by
  have folded (following : String) (found : List (OptionSpec × Option (List Char)))
      (listed : ∀ option ∈ found, option.1 ∈ grammar.face.options)
      (given : List (OptionSpec × String))
      (before : ∀ option ∈ given, Given grammar.face.options option) :
      Settles (fun after => ∀ option ∈ after, Given grammar.face.options option) (fun _ => True)
        (found.foldlM (fun given (option : OptionSpec × Option (List Char)) =>
          addOption grammar given option.1 ((option.2.map String.ofList).getD
            (if option.1.kind.takesText then following else ""))) given) := by
    induction found generalizing given with
    | nil => exact .ok before
    | cons option rest ih =>
        obtain ⟨first, others⟩ := List.forall_mem_cons.mp listed
        rw [List.foldlM_cons]
        exact (settles_addOption before first _).bind fun after all => ih others after all
  have ended (following : String) := folded following found listed given before
  unfold addCluster
  simp only
  split
  · exact (ended _).bind fun after all => .ok all
  · exact .error trivial
  · exact (ended _).bind fun after all => .ok all

theorem takeWord_options (word : Word) (rest : List Word) (progress : Progress) :
    (takeWord grammar word rest progress).options = progress.options := by
  unfold takeWord
  simp only
  split <;> split <;> (try split) <;> rfl

/-- Reading a level adds options that fit to those that were given. -/
theorem settles_readLevel {words : List Word} (fits : ∀ word ∈ words, word.role.Fits grammar.face)
    {progress : Progress}
    (before : ∀ option ∈ progress.options, Given grammar.face.options option) :
    Settles (fun after => ∀ option ∈ after.options, Given grammar.face.options option)
      (fun _ => True) (readLevel grammar progress words) := by
  induction progress, words using readLevel.induct grammar with
  | case1 progress =>
      rw [readLevel]
      exact .ok before
  | case2 progress word rest unknown ih =>
      rw [readLevel, unknown]
      exact ih (List.forall_mem_cons.mp fits).2 before
  | case3 progress word rest spec name attached option ihTaken ih =>
      obtain ⟨own, others⟩ := List.forall_mem_cons.mp fits
      have listed : spec ∈ grammar.face.options := by rwa [option] at own
      have found : Settles (fun found => ∀ option ∈ found, option.1 ∈ grammar.face.options)
          (fun _ => True)
          ((cluster grammar.face spec name attached).mapError (Stop.fault grammar)) := by
        have settled := settles_cluster grammar.face listed name attached
        cases outcome : cluster grammar.face spec name attached with
        | error fault => exact .error trivial
        | ok options =>
            rw [outcome] at settled
            exact .ok settled.good_of_ok
      rw [readLevel, option]
      refine found.bind fun options inside => (settles_addCluster inside before).bind ?_
      rintro ⟨given, takesNext⟩ added
      cases takesNext with
      | false => exact ih given others added
      | true =>
          cases rest with
          | nil => exact .ok added
          | cons taken rest =>
              exact ihTaken given (List.forall_mem_cons.mp others).2 added
  | case4 progress word rest operand begun ends | case6 progress word rest separator begun ends =>
      rw [readLevel, ‹word.role = _›]
      exact (if_pos ends).symm ▸ .ok (by rwa [takeWord_options])
  | case5 progress word rest operand begun goes ih
  | case7 progress word rest separator begun goes ih =>
      rw [readLevel, ‹word.role = _›]
      exact (if_neg goes).symm ▸ ih (List.forall_mem_cons.mp fits).2 (by rwa [takeWord_options])

end Levels

/-- The options of a grammar and of those of the commands that lead on from it. -/
def optionsAlong (grammar : Grammar) : List String → List OptionSpec
  | [] => grammar.face.options
  | command :: rest =>
    match grammar with
    | .plain face _ => face.options
    | .commands face _ _ choices =>
      match choices.lookup command with
      | none => face.options
      | some (_, inner) => face.options ++ optionsAlong inner rest

theorem settles_readFrom (fuel : Nat) (grammar : Grammar) (words : List String) :
    Settles (fun reading => ∀ option ∈ reading.options,
        Given (optionsAlong grammar reading.commands) option) (fun _ => True)
      (readFrom fuel grammar words) := by
  induction fuel generalizing grammar words with
  | zero => exact .ok (List.forall_mem_nil _)
  | succ fuel ih =>
      have classified : Settles (fun found => ∀ word ∈ found, word.role.Fits grammar.face)
          (fun _ => True) ((classify grammar.face words).mapError fun ambiguity =>
            Stop.fault grammar (.ambiguous ambiguity)) := by
        have settled := settles_classify grammar.face words
        cases outcome : classify grammar.face words with
        | error ambiguity => exact .error trivial
        | ok found =>
            rw [outcome] at settled
            exact .ok settled.good_of_ok
      rw [readFrom]
      refine classified.bind fun found fits =>
        (settles_readLevel fits (List.forall_mem_nil _)).bind fun progress given => ?_
      split
      · split
        · exact .error trivial
        · exact .ok given
      · next face name help choices command rest begun =>
          split
          · exact .error trivial
          · next about inner chosen =>
              refine (ih inner rest).bind fun below givenBelow => .ok ?_
              rw [optionsAlong, chosen]
              refine List.forall_mem_append.mpr ⟨fun option member => ?_, fun option member => ?_⟩
              · exact (given option member).mono (List.subset_append_left _ _)
              · exact (givenBelow option member).mono (List.subset_append_right _ _)
      · exact .ok given

/-- Every option that is read is one of the grammar, with a text that it allows. -/
theorem given_of_read {grammar : Grammar} {words : List String} {reading : Reading}
    (reads : read grammar words = .ok reading) :
    ∀ option ∈ reading.options, Given (optionsAlong grammar reading.commands) option := by
  obtain ⟨found, readsFrom, rest⟩ := bind_eq_ok_iff.mp reads
  have settled := settles_readFrom (words.length + 1) grammar words
  rw [readsFrom] at settled
  split at rest
  · cases rest
    exact settled.good_of_ok
  · cases rest

/-- Sorting is asked for in a format that output can have, if a format is named. -/
theorem mem_formats_of_asks {words : List String} {config : Option String} {verbose : Bool}
    {manner : Terminal.Manner} {address inputFormat format : String} {destination : Destination}
    (asks : Asks words
      ⟨config, verbose, manner, some (.sort address inputFormat destination (some format))⟩) :
    format ∈ Settings.formats := by
  obtain ⟨reading, reads, request⟩ := Option.map_eq_some_iff.mp asks
  have given := given_of_read (eq_ok_of_toOption reads)
  have asked : Command.ofReading reading =
      some (.sort address inputFormat destination (some format)) := congrArg Request.command request
  have sort : ∃ below, reading.commands = "sort" :: below ∧
      reading.text? "--format" = some format := by
    unfold Command.ofReading at asked
    simp only at asked
    split at asked
    · next below commands =>
        injection asked with same
        injection same with _ _ _ named
        exact ⟨below, commands, named⟩
    all_goals cases asked
  obtain ⟨below, commands, named⟩ := sort
  obtain ⟨⟨spec, text⟩, found, rfl⟩ := Option.map_eq_some_iff.mp named
  have member := List.mem_reverse.mp (List.mem_of_find?_eq_some found)
  have name := List.find?_some found
  obtain ⟨listed, chosen⟩ := given _ member
  have kinds : ∀ spec ∈ optionsAlong programGrammar ["sort"], spec.name = "--format" →
      spec.kind = .choice Settings.formats := by decide
  rw [commands] at listed
  refine chosen _ (kinds spec ?_ (of_decide_eq_true name))
  cases below <;> exact listed

end CommandLine

end MemberOrder
