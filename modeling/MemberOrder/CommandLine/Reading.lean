import MemberOrder.CommandLine.Word
import MemberOrder.Value.Literal

/-!
# Reading a command line

`read` goes through the words of a command line by a grammar. It collects options, operands and the
names of commands, or stops because help or the version is asked for, or because of a fault.
-/

namespace MemberOrder

namespace CommandLine

/-- What is wrong with a command line. -/
inductive Fault
  | ambiguous (ambiguity : Ambiguity)
  | textMissing (option : String)
  /-- A text is attached to an option that takes none. -/
  | textIgnored (option : String) (text : String)
  | badChoice (name : String) (word : String) (allowed : List String)
  | excluded (option other : String)
  | operandMissing (name : String)
  | unrecognized (words : List String)
deriving DecidableEq, Repr

namespace Fault

def message : Fault → String
  | .ambiguous ⟨word, names⟩ =>
    "ambiguous option: " ++ word ++ " could match " ++ String.intercalate ", " names
  | .textMissing option => "argument " ++ option ++ ": expected one argument"
  | .textIgnored option text =>
    "argument " ++ option ++ ": ignored explicit argument " ++ Value.quotedText text
  | .badChoice name word allowed =>
    "argument " ++ name ++ ": invalid choice: " ++ Value.quotedText word ++ " (choose from " ++
      String.intercalate ", " (allowed.map Value.quotedText) ++ ")"
  | .excluded option other =>
    "argument " ++ option ++ ": not allowed with argument " ++ other
  | .operandMissing name => "the following arguments are required: " ++ name
  | .unrecognized words => "unrecognized arguments: " ++ String.intercalate " " words

end Fault

/-- Why reading ends early. -/
inductive Stop
  | help (grammar : Grammar)
  | version
  | fault (grammar : Grammar) (fault : Fault)

/-- What a command line says. -/
structure Reading where
  /-- The names of the commands, outermost first. -/
  commands : List String
  /-- Options with their texts, in the order in which they were given. -/
  options : List (OptionSpec × String)
  operands : List String
  /-- Words that have no place in the grammar. -/
  extras : List String
deriving DecidableEq, Repr

namespace Reading

def empty : Reading := ⟨[], [], [], []⟩

/-- The text of an option, as it was given last. -/
def text? (reading : Reading) (name : String) : Option String :=
  (reading.options.reverse.find? fun (spec, _) => spec.name = name).map Prod.snd

/-- Whether an option was given. -/
def has (reading : Reading) (name : String) : Bool := (reading.text? name).isSome

end Reading

/-- How far reading has got on one level of a grammar. -/
structure Progress where
  options : List (OptionSpec × String)
  operands : List String
  /-- Whether operands may go on with the next word. -/
  collecting : Bool
  extras : List String
  /-- The words from the name of a command on. -/
  command : Option (List String)

/-- The options of one word, each with the text that it brings: one, or several letters after a
single dash, of which only the last may bring a text. An equals sign after the first letter is
dropped; after a later letter it belongs to the text. -/
def cluster (face : Face) (spec : OptionSpec) (name : String) (attached : Option (List Char)) :
    Except Fault (List (OptionSpec × Option (List Char))) :=
  match attached with
  | none => .ok [(spec, none)]
  | some text =>
    if spec.kind.takesText then .ok [(spec, some text)]
    else if name.startsWith "--" then .error (.textIgnored spec.title (String.ofList text))
    else letters spec text
where
  /-- An option without a text, and the options of the letters after it. -/
  letters (spec : OptionSpec) : List Char → Except Fault (List (OptionSpec × Option (List Char)))
    | [] => .error (.textIgnored spec.title "")
    | c :: rest =>
      match face.find? (String.ofList ['-', c]) with
      | none => .error (.textIgnored spec.title (String.ofList (c :: rest)))
      | some next =>
        if rest.isEmpty then .ok [(spec, none), (next, none)]
        else if next.kind.takesText then .ok [(spec, none), (next, some rest)]
        else return (spec, none) :: (← letters next rest)

/-- Adds an option with its text to those that were given. -/
def addOption (grammar : Grammar) (given : List (OptionSpec × String)) (spec : OptionSpec)
    (text : String) : Except Stop (List (OptionSpec × String)) :=
  let fail (fault : Fault) : Except Stop (List (OptionSpec × String)) :=
    .error (.fault grammar fault)
  let other? := given.find? fun (other, _) => other.exclusive ∧ spec.exclusive ∧ other ≠ spec
  let allowed : List String :=
    match spec.kind with
    | .choice words => words
    | _ => [text]
  if text ∉ allowed then fail (.badChoice spec.title text allowed)
  else
    match other?, spec.kind with
    | some (other, _), _ => fail (.excluded spec.title other.title)
    | none, .help => .error (.help grammar)
    | none, .version => .error .version
    | none, _ => .ok (given ++ [(spec, text)])

/-- Adds the options of a word, given the word after it. Tells whether that word is taken too. -/
def addCluster (grammar : Grammar) (next : Option Word)
    (found : List (OptionSpec × Option (List Char))) (given : List (OptionSpec × String)) :
    Except Stop (List (OptionSpec × String) × Bool) := do
  let wants := found.any fun (spec, text) => spec.kind.takesText && text.isNone
  let following ←
    match wants, next, found.getLast? with
    | true, some ⟨text, .operand⟩, _ => .ok text
    | true, _, some (spec, _) => .error (.fault grammar (.textMissing spec.title))
    | _, _, _ => .ok ""
  let given ← found.foldlM (fun given (spec, text) =>
    addOption grammar given spec ((text.map String.ofList).getD
      (if spec.kind.takesText then following else ""))) given
  return (given, wants)

/-- The start of reading a level. -/
def Progress.start : Progress := ⟨[], [], false, [], none⟩

/-- Takes a word that is no option. -/
def takeWord (grammar : Grammar) (word : Word) (rest : List Word) (progress : Progress) :
    Progress :=
  let begins := word.role = .operand || (rest.head?.map Word.role) = some .operand
  match grammar with
  | .commands _ _ _ _ =>
    if begins then { progress with command := some ((word :: rest).map Word.text) }
    else { progress with extras := progress.extras ++ [word.text] }
  | .plain _ operand =>
    let open? := operand.any fun operand =>
      progress.operands.isEmpty || (operand.many && progress.collecting)
    if word.role = .separator then
      if progress.collecting || (open? && begins) then
        { progress with collecting := progress.collecting && operand.any Operand.many }
      else { progress with extras := progress.extras ++ [word.text] }
    else if open? then
      { progress with operands := progress.operands ++ [word.text], collecting := true }
    else { progress with extras := progress.extras ++ [word.text], collecting := false }

/-- Reads the words of one level, up to the name of a command. -/
def readLevel (grammar : Grammar) (progress : Progress) : List Word → Except Stop Progress
  | [] => .ok progress
  | word :: rest =>
    match word.role with
    | .unknown =>
      readLevel grammar
        { progress with extras := progress.extras ++ [word.text], collecting := false } rest
    | .option spec name attached => do
      let found ← (cluster grammar.face spec name attached).mapError (Stop.fault grammar)
      let (given, takesNext) ← addCluster grammar rest.head? found progress.options
      let progress := { progress with options := given, collecting := false }
      if takesNext then
        match rest with
        | [] => .ok progress
        | _ :: rest => readLevel grammar progress rest
      else readLevel grammar progress rest
    | .operand | .separator =>
      let progress := takeWord grammar word rest progress
      if progress.command.isSome then .ok progress else readLevel grammar progress rest

/-- Reads words by a grammar and by those of the commands in them. `fuel` is more than the number of
words. -/
def readFrom (fuel : Nat) (grammar : Grammar) (words : List String) : Except Stop Reading :=
  match fuel with
  | 0 => .ok .empty
  | fuel + 1 => do
    let fail (fault : Fault) : Except Stop Reading := .error (.fault grammar fault)
    let words ← (classify grammar.face words).mapError fun ambiguity =>
      Stop.fault grammar (.ambiguous ambiguity)
    let progress ← readLevel grammar .start words
    let here : Reading := ⟨[], progress.options, progress.operands, progress.extras⟩
    match grammar, progress.command with
    | .plain _ (some operand), _ =>
      if progress.operands.isEmpty then fail (.operandMissing operand.name) else return here
    | .commands _ name _ choices, some (command :: rest) =>
      match choices.lookup command with
      | none => fail (.badChoice name command (choices.map Prod.fst))
      | some (_, inner) =>
        let below ← readFrom fuel inner rest
        return ⟨command :: below.commands, here.options ++ below.options, below.operands,
          here.extras ++ below.extras⟩
    | _, _ => return here

/-- Reads a command line. -/
def read (grammar : Grammar) (words : List String) : Except Stop Reading := do
  let reading ← readFrom (words.length + 1) grammar words
  if reading.extras.isEmpty then return reading
  else .error (.fault grammar (.unrecognized reading.extras))

end CommandLine

end MemberOrder
