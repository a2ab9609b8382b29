import MemberOrder.Stub.Phrase

/-!
# Pages

A page is a list of lines together with the place where the next line goes: how deep it is, and for
each container that is still open the visibility of its section. Writing a node only adds lines;
`Page.write` gives the page after a node.

An alias cannot state its visibility. Where that differs from the section, a line that changes the
section is written before the alias, and the next other member changes it back.
-/

namespace MemberOrder

namespace Stub

/-- What a line is there for. -/
inductive Role
  /-- It keeps two declarations apart. -/
  | gap
  | comment
  | opening (head : Head)
  | closing
  /-- It sets the visibility of the section, as a node says (`declared`) or for the sake of an
  alias. -/
  | visibility (visibility : Visibility) (declared : Bool)
  /-- It is the first line of a node. -/
  | member (node : Node)
  /-- It goes on with a node. -/
  | more
deriving Repr

/-- A line of a stub, `level` steps from the margin. -/
structure Line where
  level : Nat
  role : Role
  text : String
deriving Repr

/-- The section of a container that is being written: what its markers say and what its lines say.
-/
structure Body where
  declared : Visibility
  current : Visibility
deriving DecidableEq, Repr

/-- The section at the start of a container. -/
def Body.start : Body := ⟨.shown, .shown⟩

structure Page where
  level : Nat
  /-- The containers that are open, innermost first. -/
  bodies : List Body
  lines : Array Line
deriving Repr

/-- The comment of a node. -/
def commentOf : Node → Option String
  | .container head _ => head.comment
  | .typeAlias decl => decl.comment
  | .binding decl => decl.comment
  | .method decl => decl.comment
  | .alias decl => decl.comment
  | .attribute decl => decl.comment
  | .mixin decl => decl.comment
  | .marker decl => decl.comment
  | .unknown decl => decl.comment
  | .foreign => none

namespace Page

def empty : Page := ⟨0, [], #[]⟩

/-- Adds a line. -/
def emit (role : Role) (text : String) (page : Page) : Page :=
  { page with lines := page.lines.push ⟨page.level, role, text⟩ }

/-- Adds the lines of a comment. -/
def emitComment (comment : Option String) (page : Page) : Page :=
  (commentLines comment).foldl (fun page line => page.emit .comment line) page

/-- Adds the lines of a node that is neither a container nor a marker. -/
def emitLeaf (node : Node) (page : Page) : Page :=
  match leafLines node with
  | [] => page
  | first :: others =>
    others.foldl (fun page line => page.emit .more line) (page.emit (.member node) first)

/-- Brings the section to a visibility, with a line that says so if it is another one now. Outside
all containers there are no sections. -/
def turn (visibility : Body → Visibility) (page : Page) : Page :=
  match page.bodies with
  | [] => page
  | body :: outer =>
    if body.current = visibility body then page
    else
      let changed := page.emit (.visibility (visibility body) false) (visibility body).label
      { changed with bodies := { body with current := visibility body } :: outer }

/-- Brings the section back to what the markers say. -/
def restore (page : Page) : Page := page.turn Body.declared

/-- Notes that a marker sets the section. -/
def declare (visibility : Visibility) (page : Page) : Page :=
  match page.bodies with
  | [] => page
  | _ :: outer => { page with bodies := ⟨visibility, visibility⟩ :: outer }

/-- Goes into a container. -/
def enter (page : Page) : Page :=
  { page with level := page.level + 1, bodies := .start :: page.bodies }

/-- Goes back out of a container. -/
def leave (page : Page) : Page :=
  { page with level := page.level - 1, bodies := page.bodies.tail }

mutual

/-- Writes a node with all that is in it. -/
def write (page : Page) : Node → Page
  | .container head members =>
    let opened := (page.restore.emitComment head.comment).emit (.opening head) (headText head)
    (writeAll opened.enter members).leave.emit .closing "end"
  | .marker decl =>
    ((page.emitComment decl.comment).emit (.visibility decl.visibility true)
      decl.visibility.label).declare decl.visibility
  | .alias decl =>
    ((page.turn fun body => decl.visibility.getD body.declared).emitComment decl.comment).emitLeaf
      (.alias decl)
  | .foreign => page
  | node => (page.restore.emitComment (commentOf node)).emitLeaf node

/-- Writes the members of a container. -/
def writeAll (page : Page) : List Node → Page
  | [] => page
  | node :: rest => writeAll (page.write node) rest

end

/-- Writes declarations that follow others, each after a gap. -/
def continueWith (page : Page) (decls : List Node) : Page :=
  decls.foldl (fun page decl =>
    { page with lines := page.lines.push ⟨0, .gap, ""⟩ }.write decl) page

/-- Writes the declarations of a document, on lines of their own. -/
def document (page : Page) (decls : List Node) : Page :=
  match decls with
  | [] => { page with lines := #[] }
  | first :: others => ({ page with lines := #[] }.write first).continueWith others

end Page

end Stub

end MemberOrder
