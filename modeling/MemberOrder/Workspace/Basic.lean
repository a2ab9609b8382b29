import MemberOrder.Notice
import MemberOrder.Settings.Environment
import MemberOrder.Store.Basic
import MemberOrder.Text.Newline
import MemberOrder.Text.Utf8
import MemberOrder.Workspace.Failure

/-!
# Workspaces

A workspace is a store with an environment and what has been told and shown so far. Work reads and
changes it and may fail; a failure keeps what was done before it.
-/

namespace MemberOrder

/-- What work puts out. -/
inductive Output
  | notice (notice : Notice)
  /-- Why work failed, in full. -/
  | cause (failure : Failure)
  /-- A message for the person at work. -/
  | message (text : String)
  /-- A result. -/
  | result (text : String)
deriving Repr

structure Workspace where
  store : Store
  environment : Environment
  /-- Whether notices are put out that matter only to who looks for faults. -/
  verbose : Bool
  output : List Output
deriving Repr

/-- Work in a workspace. -/
abbrev Work (α : Type) := ExceptT Failure (StateM Workspace) α

namespace Work

/-- Puts something out. -/
def emit (output : Output) : Work Unit :=
  modify fun workspace => { workspace with output := workspace.output ++ [output] }

/-- Tells something, if it is usual or everything is to be told. -/
def tell (notice : Notice) : Work Unit := do
  if notice.isUsual || (← get).verbose then emit (.notice notice)

def tellAll (notices : List Notice) : Work Unit := notices.forM tell

/-- The value of an outcome, or its fault as a failure. -/
def ofExcept {ε α : Type} (failure : ε → Failure) : Except ε α → Work α
  | .ok value => pure value
  | .error fault => throw (failure fault)

/-- The store as it is. -/
def store : Work Store := do return (← get).store

/-- The failure of a fault of the store. What is no address at all is no failure of the work. -/
def storeFailure (failure : StoreFault → Failure) (fault : StoreFault) : Failure :=
  if fault.cause = .nullCharacter then .store fault else failure fault

/-- The text of a file, with one kind of newline. -/
def readText (unreadable : StoreFault → Failure) (address : String) : Work String := do
  let octets ← ofExcept (storeFailure unreadable) ((← store).read address)
  match Text.decodeUtf8? octets with
  | some chars => return String.ofList (Text.unifyNewlines chars)
  | none => throw .encoding

/-- Writes a text to a file. -/
def writeText (unwritable : StoreFault → Failure) (address text : String) : Work Unit := do
  let store ← ofExcept (storeFailure unwritable) ((← store).write address (Text.encodeUtf8 text))
  modify fun workspace => { workspace with store := store }

end Work

end MemberOrder
