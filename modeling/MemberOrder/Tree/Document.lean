import MemberOrder.Json.Reader
import MemberOrder.Json.Writer
import MemberOrder.Store.Path
import MemberOrder.Text.Lowercase
import MemberOrder.Tree.Decode
import MemberOrder.Tree.Encode
import MemberOrder.Yaml.Reader
import MemberOrder.Yaml.Writer

/-!
# Tree documents

A tree is kept as a text in one of two formats. `loadText` reads one, `dumpText` writes one, and
`formatOf` tells the format of a file from the ending of its name.
-/

namespace MemberOrder

namespace Tree

/-- The formats of a document. -/
inductive Format
  | json
  | yaml
deriving DecidableEq, Repr

namespace Format

def label : Format → String
  | .json => "json"
  | .yaml => "yaml"

def ofLabel? : String → Option Format
  | "json" => some .json
  | "yaml" => some .yaml
  | _ => none

/-- The endings of file names with their formats, in alphabetical order. -/
def endings : List (String × Format) := [(".json", .json), (".yaml", .yaml), (".yml", .yaml)]

/-- The format that the ending of a name stands for, in any case. -/
def ofSuffix? (suffix : String) : Option Format := endings.lookup (Text.lowercase suffix)

end Format

/-- The word for the format that the ending of a name stands for. -/
def automatic : String := "auto"

/-- The format of a file, by the ending of its name. -/
def formatOf (path : String) : Except TreeFault Format :=
  let suffix := (Path.ofText path).suffix
  match Format.ofSuffix? suffix with
  | some format => .ok format
  | none => .error ⟨⟨path, []⟩,
      .undetectedFormat (Text.lowercase suffix) (Format.endings.map Prod.fst)⟩

/-- Why a text could not be loaded. -/
inductive LoadFault
  | tree (fault : TreeFault)
  /-- An object is a member of itself. -/
  | endless
  /-- A scalar has no value under its tag. -/
  | scalar (fault : Yaml.Fault)
  /-- A whole number has too many digits to be read. -/
  | tooManyDigits (count : Nat)
  /-- A whole number that has to be shown has too many digits for that. -/
  | unshowable
deriving Repr

/-- What stands for the words about a text that breaks the rules of YAML. -/
def yamlDetails : String := "<yaml error>"

/-- A fault that belongs to no place in a document. -/
def nowhere (cause : TreeCause) : TreeFault := ⟨⟨"", []⟩, cause⟩

/-- The value of a text in a format. A blank JSON text is null. -/
def readText (format : Format) (text : String) : Except LoadFault Value :=
  match format with
  | .yaml =>
    match Yaml.read text with
    | .ok value => .ok value
    | .error .malformed => .error (.tree (nowhere (.malformed format.label yamlDetails)))
    | .error fault => .error (.scalar fault)
  | .json =>
    if (Text.trim text).isEmpty then .ok .null
    else match Json.read text with
      | .ok value => .ok value
      | .error (.tooManyDigits count) => .error (.tooManyDigits count)
      | .error (.malformed cause offset) =>
        .error (.tree (nowhere (.malformed format.label (Json.placedMessage text cause offset))))

/-- The declarations of a value. -/
def loadValue (value : Value) : Except LoadFault (List Node) :=
  match decodeDocument value with
  | .ok decls => .ok decls
  | .error (.tree fault) => .error (.tree fault)
  | .error .endless => .error .endless
  | .error .unshowable => .error .unshowable

/-- The declarations of a text in the format that a word names. -/
def loadText (format : String) (text : String) : Except LoadFault (List Node) :=
  match Format.ofLabel? format with
  | none => .error (.tree (nowhere (.unsupportedFormat format)))
  | some format => do loadValue (← readText format text)

/-- The objects with an unknown tag that loading a text meets. -/
def textSightings (format : Format) (text : String) : List Sighting :=
  match readText format text with
  | .ok value => documentSightings value
  | .error _ => []

/-- Why declarations could not be dumped. -/
inductive DumpFault
  | encode (fault : EncodeFault)
  | write (fault : Json.WriteFault)
  | unsupportedFormat (format : String)
deriving DecidableEq, Repr

/-- The text of a value in a format. -/
def writeText (format : Format) (value : Value) : Except DumpFault String :=
  match format with
  | .json =>
    match Json.write .document value with
    | .ok text => .ok (text ++ "\n")
    | .error fault => .error (.write fault)
  | .yaml =>
    if value.exceedsDigits then .error (.write .tooManyDigits)
    else .ok (Yaml.write ⟨true, false⟩ value)

/-- The text of declarations in the format that a word names. -/
def dumpText (format : String) (decls : List Node) : Except DumpFault String :=
  match encodeDocument decls with
  | .error fault => .error (.encode fault)
  | .ok value =>
    match Format.ofLabel? format with
    | some format => writeText format value
    | none => .error (.unsupportedFormat format)

end Tree

end MemberOrder
