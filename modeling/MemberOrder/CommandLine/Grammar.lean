/-!
# Grammars of command lines

What a program takes on its command line: options, then either operands or the name of a command,
which has a grammar of its own.
-/

namespace MemberOrder

namespace CommandLine

inductive OptionKind
  /-- It asks for help. -/
  | help
  /-- It asks for the version. -/
  | version
  | flag
  /-- It is followed by a text, which a word stands for in the help. -/
  | text (placeholder : String)
  /-- It is followed by one of some words. -/
  | choice (words : List String)
deriving DecidableEq, Repr

structure OptionSpec where
  /-- All names; in an answer the option goes by the first. -/
  names : List String
  kind : OptionKind
  help : String
  /-- Whether the option cannot stand beside others that are exclusive too. -/
  exclusive : Bool
deriving DecidableEq, Repr

/-- What all grammars have: the words that lead to them, what is said about them, and options. -/
structure Face where
  program : String
  about : Option String
  ending : Option String
  options : List OptionSpec
deriving DecidableEq, Repr

structure Operand where
  name : String
  /-- Whether there can be more than one. -/
  many : Bool
  help : String
deriving DecidableEq, Repr

inductive Grammar
  | plain (face : Face) (operand : Option Operand)
  | commands (face : Face) (name : String) (help : Option String)
      (choices : List (String × String × Grammar))

namespace OptionKind

/-- Whether the option is followed by a text. -/
def takesText : OptionKind → Bool
  | .text _ | .choice _ => true
  | .help | .version | .flag => false

/-- What stands for the text in the help. -/
def placeholder? : OptionKind → Option String
  | .text placeholder => some placeholder
  | .choice words => some ("\x7b" ++ String.intercalate "," words ++ "\x7d")
  | .help | .version | .flag => none

end OptionKind

namespace OptionSpec

/-- The name that an option goes by in an answer. -/
def name (spec : OptionSpec) : String := spec.names.head?.getD ""

/-- All names of an option. -/
def title (spec : OptionSpec) : String := String.intercalate "/" spec.names

/-- A name with what stands for the text after it. -/
def invocation (spec : OptionSpec) (name : String) : String :=
  name ++ (spec.kind.placeholder?.map (" " ++ ·)).getD ""

end OptionSpec

namespace Face

/-- The option with a name. -/
def find? (face : Face) (name : String) : Option OptionSpec :=
  face.options.find? fun spec => name ∈ spec.names

/-- All names of options, each with its option. -/
def names (face : Face) : List (String × OptionSpec) :=
  face.options.flatMap fun spec => spec.names.map fun name => (name, spec)

end Face

namespace Grammar

def face : Grammar → Face
  | .plain face _ | .commands face _ _ _ => face

end Grammar

end CommandLine

end MemberOrder
