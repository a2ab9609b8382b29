import MemberOrder.Store.Path

/-!
# Stores

A store holds files and directories by their locations, and addresses lead to locations: from the
top if they begin with a slash, and else from the place where the store is worked in. `locate` finds
the location that an address names, and `read`, `write` and `copy` work on addresses; a fault of
theirs says which address it is about.
-/

namespace MemberOrder

/-- The names that lead from the top of a store to a place in it. -/
abbrev Location := List String

inductive Entry
  | directory
  | file (content : List UInt8)
deriving DecidableEq, Repr

/-- Files and directories. The first entry for a location counts. -/
structure Store where
  entries : List (Location × Entry)
  /-- Where addresses without a root start. -/
  here : Location
deriving DecidableEq, Repr

/-- Why a place cannot be used. -/
inductive StoreCause
  | missing
  | isDirectory
  | notDirectory
  | nameTooLong
  /-- The address holds a null character, and so is none. -/
  | nullCharacter
deriving DecidableEq, Repr

/-- A cause, and the address that it is about. -/
structure StoreFault where
  cause : StoreCause
  address : String
deriving DecidableEq, Repr

namespace StoreCause

def words : StoreCause → String
  | .missing => "No such file or directory"
  | .isDirectory => "Is a directory"
  | .notDirectory => "Not a directory"
  | .nameTooLong => "File name too long"
  | .nullCharacter => "embedded null byte"

/-- The number by which systems know a cause, if they do. -/
def number? : StoreCause → Option Nat
  | .missing => some 2
  | .notDirectory => some 20
  | .isDirectory => some 21
  | .nameTooLong => some 36
  | .nullCharacter => none

end StoreCause

namespace Store

def empty : Store := ⟨[], []⟩

/-- What is at a location. The top is a directory. -/
def find? (store : Store) (location : Location) : Option Entry :=
  if location = [] then some .directory else store.entries.lookup location

/-- Puts an entry at a location. -/
def put (store : Store) (location : Location) (entry : Entry) : Store :=
  { store with
    entries := (location, entry) :: store.entries.filter fun (other, _) => other ≠ location }

/-- Takes away what is at a location. -/
def erase (store : Store) (location : Location) : Store :=
  { store with entries := store.entries.filter fun (other, _) => other ≠ location }

/-- The most octets that a name may have. -/
def nameLimit : Nat := 255

/-- The most octets that an address may have. -/
def addressLimit : Nat := 4095

/-- Goes on from a location. What is gone on from is a directory; above the top is the top. -/
def walk (store : Store) (location : Location) : List String → Except StoreCause Location
  | [] => .ok location
  | name :: rest =>
    match store.find? location with
    | none => .error .missing
    | some (.file _) => .error .notDirectory
    | some .directory =>
      if name = "" ∨ name = "." then walk store location rest
      else if nameLimit < name.utf8ByteSize then .error .nameTooLong
      else if name ≠ ".." then walk store (location ++ [name]) rest
      else walk store location.dropLast rest

/-- The names between the slashes of an address. -/
def names (address : String) : List String :=
  (Path.pieces address.toList).map String.ofList

/-- Where an address starts. -/
def start (store : Store) (address : String) : Location :=
  if Path.rootOf address.toList = "" then store.here else []

/-- What no address may be, whatever the store holds. -/
def addressFault? (address : String) : Option StoreCause :=
  if '\x00' ∈ address.toList then some .nullCharacter
  else if address = "" then some .missing
  else if addressLimit < address.utf8ByteSize then some .nameTooLong
  else none

/-- The location of an address. -/
def locate (store : Store) (address : String) : Except StoreCause Location :=
  match addressFault? address with
  | some cause => .error cause
  | none => store.walk (store.start address) (names address)

/-- What is at an address. -/
def at? (store : Store) (address : String) : Option Entry :=
  match store.locate address with
  | .ok location => store.find? location
  | .error _ => none

/-- Whether there is anything at an address. -/
def holds (store : Store) (address : String) : Bool := (store.at? address).isSome

/-- The content of a file. -/
def read (store : Store) (address : String) : Except StoreFault (List UInt8) :=
  match store.locate address with
  | .error cause => .error ⟨cause, address⟩
  | .ok location =>
    match store.find? location with
    | some (.file content) => .ok content
    | some .directory => .error ⟨.isDirectory, address⟩
    | none => .error ⟨.missing, address⟩

/-- Tells why no file can be at a location, if there is a reason. -/
def refusal? (store : Store) (location : Location) : Option StoreCause :=
  match store.find? location with
  | some .directory => some .isDirectory
  | _ => none

/-- The location at which a file can be written. An address that ends in a slash is one of a
directory, even where there is none yet. -/
def target (store : Store) (address : String) : Except StoreCause Location := do
  if let some cause := addressFault? address then throw cause
  if address.endsWith "/" then
    let above := ((names address).reverse.dropWhile (· = "")).tail.reverse
    let _ ← store.walk (store.start address) (above ++ ["."])
    .error .isDirectory
  else
    let location ← store.locate address
    match store.refusal? location with
    | some cause => .error cause
    | none => .ok location

/-- The store with a file, new or in the place of an older one. -/
def write (store : Store) (address : String) (content : List UInt8) : Except StoreFault Store :=
  match store.target address with
  | .error cause => .error ⟨cause, address⟩
  | .ok location => .ok (store.put location (.file content))

/-- The address at which a copy of a file is put: that of a directory stands for the file of the
same name inside. -/
def copyAddress (store : Store) (source : Path) (address : String) : String :=
  if store.at? address = some .directory then address ++ "/" ++ source.name else address

/-- The store with a copy of a file. -/
def copy (store : Store) (source : Path) (address : String) : Except StoreFault Store := do
  let content ← store.read source.text
  store.write (store.copyAddress source address) content

/-- The store with the directories above a location. -/
def withParents (store : Store) (location : Location) : Store :=
  (((List.range location.length).map location.take).filter (· ≠ [])).foldl (fun store above =>
    if store.find? above = none then store.put above .directory else store) store

/-- The files, with their locations. -/
def files (store : Store) : List (Location × List UInt8) :=
  store.entries.filterMap fun (location, entry) =>
    match entry with
    | .file content => some (location, content)
    | .directory => none

/-- The content of the file at a location. -/
def fileAt? (store : Store) (location : Location) : Option (List UInt8) :=
  match store.find? location with
  | some (.file content) => some content
  | _ => none

end Store

end MemberOrder
