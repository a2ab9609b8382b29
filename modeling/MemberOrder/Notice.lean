/-!
# Notices

What is told about the work besides its results: a text with a weight, under the topic it belongs
to.
-/

namespace MemberOrder

/-- How much a notice matters. -/
inductive Level
  | debug
  | info
  | warning
deriving DecidableEq, Repr

/-- What a notice is about. -/
inductive Topic
  | program
  | files
  | settings
  | sorting
  | trees
  | documents
  | stubs
deriving DecidableEq, Repr

structure Notice where
  topic : Topic
  level : Level
  text : String
deriving DecidableEq, Repr

namespace Level

def label : Level → String
  | .debug => "DEBUG"
  | .info => "INFO"
  | .warning => "WARNING"

end Level

namespace Topic

def label : Topic → String
  | .program => "sigsort"
  | .files => "sigsort.api"
  | .settings => "sigsort.config"
  | .sorting => "sigsort.sorter"
  | .trees => "sigsort.visitor"
  | .documents => "sigsort.serialization"
  | .stubs => "sigsort.writer"

end Topic

namespace Notice

/-- Whether a notice is shown when nothing more than usual is asked for. -/
def isUsual (notice : Notice) : Bool := notice.level ≠ .debug

/-- A notice as a line, with the time at which it was given. -/
def line (time : String) (notice : Notice) : String :=
  String.intercalate " - " [time, notice.topic.label, notice.level.label, notice.text] ++ "\n"

end Notice

end MemberOrder
