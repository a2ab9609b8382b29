import MemberOrder.Notice
import MemberOrder.Stub.Page
import MemberOrder.Tree.Walk
import MemberOrder.Value.Basic

/-!
# Stubs as text

`Stub.text` sets the lines of a page from the margin and joins them, and `Stub.stub` does so for the
page of a document.
-/

namespace MemberOrder

namespace Stub

/-- Why lines cannot be set. -/
inductive Fault
  /-- The width of a step is no whole number. -/
  | stepKind
  /-- A line would not fit into any memory. -/
  | tooWide
  /-- The width of a margin is beyond all widths, on either side of zero. -/
  | noWidth
deriving DecidableEq, Repr

/-- The width of a step as a value gives it; of the truth values, yes counts as one. -/
def stepOf? : Value → Option Int
  | .int width => some width
  | .bool true => some 1
  | .bool false => some 0
  | _ => none

/-- The widest margin that a line can have. -/
def widest : Int := Int.pow 2 30

/-- The first number that is no width. -/
def widthLimit : Int := Int.pow 2 63

/-- A line set from the margin. A negative width leaves no room. -/
def Line.set (step : Int) (line : Line) : Except Fault String :=
  let margin := step * line.level
  if margin < -widthLimit ∨ widthLimit ≤ margin then .error .noWidth
  else if widest < margin then .error .tooWide
  else .ok (String.ofList (List.replicate margin.toNat ' ') ++ line.text)

/-- A line set from the margin; what keeps declarations apart has none. -/
def setLine (step : Value) (line : Line) : Except Fault String :=
  match line.role, stepOf? step with
  | .gap, _ => .ok line.text
  | _, some step => line.set step
  | _, none => .error .stepKind

/-- Lines as a text, each with its end. -/
def text (step : Value) (lines : List Line) : Except Fault String := do
  return String.join ((← lines.mapM (setLine step)).map (· ++ "\n"))

/-- The text of declarations. -/
def stub (step : Value) (decls : List Node) : Except Fault String :=
  text step (Page.empty.document decls).lines.toList

/-- The texts of documents that one page after the other is written for. -/
def stubs (step : Value) (page : Page) : List (List Node) → Except Fault (List String)
  | [] => .ok []
  | decls :: rest => do
    let written := page.document decls
    let first ← text step written.lines.toList
    return first :: (← stubs step written rest)

/-- What is told about a node while it is written. -/
def notice? : Node → Option Notice
  | .foreign => some ⟨.stubs, .warning, "No writer for object"⟩
  | .unknown decl =>
    if decl.text.isSome then none
    else some ⟨.stubs, .debug,
      "No text for unknown member '" ++ decl.kind ++ "'; writing a comment"⟩
  | _ => none

/-- What is told while declarations are written. -/
def notices (decls : List Node) : List Notice := (Node.preorder decls).filterMap notice?

end Stub

end MemberOrder
