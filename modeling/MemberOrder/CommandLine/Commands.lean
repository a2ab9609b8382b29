import MemberOrder.Catalogue
import MemberOrder.CommandLine.Reading
import MemberOrder.Settings.Check
import MemberOrder.Terminal.Screen
import MemberOrder.Tree.Document

/-!
# Commands

The grammar of the program's command line, and what a command line asks for: `Request.ofReading`
turns what was read into a command with the options that all commands have.
-/

namespace MemberOrder

namespace CommandLine

/-- Where sorted declarations go. -/
inductive Destination
  | screen
  /-- Into the file that they come from. -/
  | source
  | file (address : String)
deriving DecidableEq, Repr

inductive Command
  | sort (address inputFormat : String) (destination : Destination) (format : Option String)
  | check (addresses : List String) (inputFormat : String)
  | statistics (address inputFormat : String) (asValue : Bool)
  | showSettings
  | createSettings (address format : String)
  | checkSettings (address : String)
  /-- Something about settings, but it is not said what. -/
  | unspecified
deriving DecidableEq, Repr

/-- What a command line asks for. -/
structure Request where
  settings : Option String
  verbose : Bool
  manner : Terminal.Manner
  /-- Nothing stands for help. -/
  command : Option Command
deriving DecidableEq, Repr

/-- The formats that input can be said to have. -/
def inputFormats : List String := [Tree.automatic, "json", "yaml"]

def helpOption : OptionSpec := ⟨["-h", "--help"], .help, "show this help message and exit", false⟩

def settingsOption : OptionSpec :=
  ⟨["--config", "-c"], .text "CONFIG", "Path to configuration file", false⟩

def verboseOption : OptionSpec :=
  ⟨["--verbose", "-v"], .flag, "Enable verbose output and debug logging", false⟩

def plainOption : OptionSpec :=
  ⟨["--no-rich"], .flag, "Disable rich terminal output (use plain text)", false⟩

def colorlessOption : OptionSpec := ⟨["--no-color"], .flag, "Disable colored output", false⟩

def versionOption : OptionSpec :=
  ⟨["--version"], .version, "show program's version number and exit", false⟩

def outputOption : OptionSpec :=
  ⟨["--output", "-o"], .text "OUTPUT", "Write the result to this file", true⟩

def inPlaceOption : OptionSpec :=
  ⟨["--in-place", "-i"], .flag, "Rewrite the input file with the sorted tree", true⟩

def inputFormatOption : OptionSpec :=
  ⟨["--input-format"], .choice inputFormats, "Input format", false⟩

/-- The option for a format of output, under its names and with its help. -/
def formatOption (names words : List String) (help : String) : OptionSpec :=
  ⟨names, .choice words, help, false⟩

/-- The face of a command; the words that lead to it follow the name of the program. -/
def commandFace (words : List String) (options : List OptionSpec) : Face :=
  ⟨String.intercalate " " (programName :: words), none, none, helpOption :: options⟩

def sortGrammar : Grammar :=
  .plain
    (commandFace ["sort"] [outputOption, inPlaceOption,
      formatOption ["--format", "-f"] Settings.formats
        "Output format (default: from configuration, or the input format with --in-place)",
      inputFormatOption])
    (some ⟨"path", false, "JSON or YAML declaration tree"⟩)

def checkGrammar : Grammar :=
  .plain (commandFace ["check"] [inputFormatOption])
    (some ⟨"paths", true, "JSON or YAML declaration trees"⟩)

def statisticsGrammar : Grammar :=
  .plain
    (commandFace ["stats"]
      [formatOption ["--format"] ["text", "json"] "Output format", inputFormatOption])
    (some ⟨"path", false, "JSON or YAML declaration tree"⟩)

def showSettingsGrammar : Grammar := .plain (commandFace ["config", "show"] []) none

def createSettingsGrammar : Grammar :=
  .plain
    (commandFace ["config", "init"]
      [formatOption ["--format"] ["json", "yaml"] "Configuration file format"])
    (some ⟨"path", false, "Path of the configuration file to create"⟩)

def checkSettingsGrammar : Grammar :=
  .plain (commandFace ["config", "validate"] [])
    (some ⟨"config_file", false, "Configuration file to validate"⟩)

def settingsGrammar : Grammar :=
  .commands (commandFace ["config"] []) "config_action" none [
    ("show", "Show current configuration", showSettingsGrammar),
    ("init", "Write a default configuration file", createSettingsGrammar),
    ("validate", "Validate configuration file", checkSettingsGrammar)]

/-- The grammar of the program's command line. -/
def programGrammar : Grammar :=
  .commands
    ⟨programName,
      some "sigsort - canonical member ordering for signature declaration files",
      some "Use \"sigsort <command> --help\" for detailed command help.",
      [helpOption, settingsOption, verboseOption, plainOption, colorlessOption, versionOption]⟩
    "command" (some "Available commands") [
      ("sort", "Sort declaration members and write the result", sortGrammar),
      ("check", "Exit with status 1 if any file is not canonically ordered", checkGrammar),
      ("stats", "Show member category counts per declaration", statisticsGrammar),
      ("config", "Configuration management", settingsGrammar)]

namespace Command

/-- Where the sorted declarations go. -/
def destination (reading : Reading) : Destination :=
  if reading.has inPlaceOption.name then .source
  else
    match (reading.text? outputOption.name).filter (!·.isEmpty) with
    | some address => .file address
    | none => .screen

/-- The addresses that a command is about. -/
def addresses : Command → List String
  | .sort address _ (.file target) _ => [address, target]
  | .check addresses _ => addresses
  | .sort address _ _ _ | .statistics address _ _ => [address]
  | .createSettings address _ | .checkSettings address => [address]
  | .showSettings | .unspecified => []

/-- The command that was read. -/
def ofReading (reading : Reading) : Option Command :=
  let address := reading.operands.head?.getD ""
  let inputFormat := (reading.text? inputFormatOption.name).getD Tree.automatic
  let format := reading.text? "--format"
  match reading.commands with
  | "sort" :: _ => some (.sort address inputFormat (destination reading) format)
  | "check" :: _ => some (.check reading.operands inputFormat)
  | "stats" :: _ => some (.statistics address inputFormat (format = some "json"))
  | "config" :: "show" :: _ => some .showSettings
  | "config" :: "init" :: _ => some (.createSettings address (format.getD "yaml"))
  | "config" :: "validate" :: _ => some (.checkSettings address)
  | "config" :: _ => some .unspecified
  | _ => none

end Command

namespace Request

/-- What was asked for. -/
def ofReading (reading : Reading) : Request :=
  ⟨reading.text? settingsOption.name, reading.has verboseOption.name,
    if reading.has plainOption.name then .plain else .marked, Command.ofReading reading⟩

/-- The addresses that a request is about. -/
def addresses (request : Request) : List String :=
  request.settings.toList ++ (request.command.map Command.addresses).getD []

end Request

end CommandLine

end MemberOrder
