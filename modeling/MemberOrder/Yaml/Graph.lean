import MemberOrder.Yaml.Resolve
import MemberOrder.Yaml.Token

/-!
# The graph of nodes of a YAML document

Tokens are read into numbered nodes. An alias is the number of the node that its anchor names, so a
node may be used in several places, and inside itself. `ofText?` reads a text with one document.
-/

namespace MemberOrder

namespace Yaml

inductive Content
  | scalar (text : String)
  | sequence (items : List Nat)
  | mapping (entries : List (Nat × Nat))
deriving Repr

structure GraphNode where
  tag : NodeTag
  content : Content
deriving Repr

abbrev Graph := Array GraphNode

/-- The state of reading a document. -/
structure Reading.State where
  tokens : List Token
  /-- What ended the tokens, if it was no proper end. -/
  fault : Option ReadFault
  handles : List (String × String)
  nodes : Graph
  anchors : List (String × Nat)

/-- A step of reading a document. -/
abbrev Reader := StateT Reading.State (Except ReadFault)

namespace Reader

/-- The next token; past the last one, what ended the tokens. -/
def peek : Reader Token := do
  let s ← get
  match s.tokens with
  | token :: _ => return token
  | [] => throw (s.fault.getD .malformed)

def skip : Reader Unit := modify fun s => { s with tokens := s.tokens.tail }

/-- Reads a token if it is the next one. -/
def accept (token : Token) : Reader Bool := do
  if (← peek) = token then
    skip
    return true
  return false

def malformed {α : Type} : Reader α := throw .malformed

/-- Adds a node, with its anchor if it has one. -/
def addNode (anchor : Option String) (node : GraphNode) : Reader Nat := do
  let s ← get
  let number := s.nodes.size
  match anchor with
  | none => set { s with nodes := s.nodes.push node }
  | some name =>
    if (s.anchors.lookup name).isSome then malformed
    else set { s with nodes := s.nodes.push node, anchors := (name, number) :: s.anchors }
  return number

/-- Gives a node its content once that is read. -/
def fill (number : Nat) (content : Content) : Reader Unit :=
  modify fun s => { s with nodes := s.nodes.modify number fun node => { node with content } }

/-- A node that is not written. -/
def emptyNode : Reader Nat := addNode none ⟨.null, .scalar ""⟩

/-- The tag that a written tag names. -/
def tagName (tag : WrittenTag) : Reader String := do
  match tag.handle with
  | none => return tag.suffix
  | some handle =>
    match (← get).handles.lookup handle with
    | some expansion => return expansion ++ tag.suffix
    | none => malformed

/-- The anchor and tag in front of a node, in either order. -/
def properties : Reader (Option String × Option String) := do
  match ← peek with
  | .anchor name =>
    skip
    match ← peek with
    | .tag tag =>
      skip
      return (some name, some (← tagName tag))
    | _ => return (some name, none)
  | .tag tag =>
    skip
    match ← peek with
    | .anchor name =>
      skip
      return (some name, some (← tagName tag))
    | _ => return (none, some (← tagName tag))
  | _ => return (none, none)

/-- The tag of a collection. -/
def collectionTag (tag : Option String) (default : NodeTag) : NodeTag :=
  match tag with
  | none | some "!" => default
  | some name => .ofName name

/-- The tag of a scalar. -/
def scalarTag (tag : Option String) (plain : Bool) (text : String) : NodeTag :=
  match tag with
  | none => if plain then implicitTag text else .str
  | some "!" => implicitTag text
  | some name => .ofName name

/-- Whether a token ends the content before it without being part of it. -/
def endsEntry (ends : List Token) : Reader Bool := do return ends.contains (← peek)

mutual

/-- One node. `block` allows collections written by indentation, `indentless` also a sequence that
is indented no further than what holds it. -/
def node (block indentless : Bool) : Nat → Reader Nat
  | 0 => malformed
  | fuel + 1 => do
    match ← peek with
    | .alias name =>
      skip
      match (← get).anchors.lookup name with
      | some number => return number
      | none => malformed
    | _ =>
      let (anchor, tag) ← properties
      let sequenceOf (items : Reader (List Nat)) : Reader Nat := do
        let number ← addNode anchor ⟨collectionTag tag .seq, .sequence []⟩
        fill number (.sequence (← items))
        return number
      let mappingOf (entries : Reader (List (Nat × Nat))) : Reader Nat := do
        let number ← addNode anchor ⟨collectionTag tag .map, .mapping []⟩
        fill number (.mapping (← entries))
        return number
      let token ← peek
      if indentless && token = .blockEntry then sequenceOf (indentlessItems fuel)
      else match token with
        | .scalar text plain =>
          skip
          addNode anchor ⟨scalarTag tag plain text, .scalar text⟩
        | .flowSequenceStart =>
          skip
          sequenceOf (flowItems true fuel)
        | .flowMappingStart =>
          skip
          mappingOf (flowEntries true fuel)
        | .blockSequenceStart =>
          if !block then malformed
          skip
          sequenceOf (blockItems fuel)
        | .blockMappingStart =>
          if !block then malformed
          skip
          mappingOf (blockEntries fuel)
        | _ =>
          if anchor.isNone && tag.isNone then malformed
          addNode anchor ⟨scalarTag tag true "", .scalar ""⟩

/-- A node, unless one of the given tokens shows that it is not written. -/
def nodeUnless (ends : List Token) (block indentless : Bool) : Nat → Reader Nat
  | 0 => malformed
  | fuel + 1 => do if ← endsEntry ends then emptyNode else node block indentless fuel

/-- The items of a block sequence. -/
def blockItems : Nat → Reader (List Nat)
  | 0 => malformed
  | fuel + 1 => do
    if ← accept .blockEntry then
      let item ← nodeUnless [.blockEntry, .blockEnd] true false fuel
      return item :: (← blockItems fuel)
    else if ← accept .blockEnd then return []
    else malformed

/-- The items of a sequence that is indented like the mapping around it. -/
def indentlessItems : Nat → Reader (List Nat)
  | 0 => malformed
  | fuel + 1 => do
    if ← accept .blockEntry then
      let item ← nodeUnless [.blockEntry, .key, .value, .blockEnd] true false fuel
      return item :: (← indentlessItems fuel)
    else return []

/-- The entries of a block mapping. -/
def blockEntries : Nat → Reader (List (Nat × Nat))
  | 0 => malformed
  | fuel + 1 => do
    let ends := [Token.key, .value, .blockEnd]
    if ← accept .key then
      let key ← nodeUnless ends true true fuel
      let value ← if ← accept .value then nodeUnless ends true true fuel else emptyNode
      return (key, value) :: (← blockEntries fuel)
    else if ← accept .blockEnd then return []
    else malformed

/-- The items of a flow sequence; an item may be a mapping of one entry without braces. -/
def flowItems (first : Bool) : Nat → Reader (List Nat)
  | 0 => malformed
  | fuel + 1 => do
    if ← accept .flowSequenceEnd then return []
    if !first then
      if !(← accept .flowEntry) then malformed
    match ← peek with
    | .key =>
      skip
      let number ← addNode none ⟨.map, .mapping []⟩
      let key ← nodeUnless [.value, .flowEntry, .flowSequenceEnd] false false fuel
      let value ← if ← accept .value then
          nodeUnless [.flowEntry, .flowSequenceEnd] false false fuel
        else emptyNode
      fill number (.mapping [(key, value)])
      return number :: (← flowItems false fuel)
    | .flowSequenceEnd => flowItems true fuel
    | _ =>
      let item ← node false false fuel
      return item :: (← flowItems false fuel)

/-- The entries of a flow mapping; a key may stand without a value. -/
def flowEntries (first : Bool) : Nat → Reader (List (Nat × Nat))
  | 0 => malformed
  | fuel + 1 => do
    if ← accept .flowMappingEnd then return []
    if !first then
      if !(← accept .flowEntry) then malformed
    match ← peek with
    | .key =>
      skip
      let key ← nodeUnless [.value, .flowEntry, .flowMappingEnd] false false fuel
      let value ← if ← accept .value then
          nodeUnless [.flowEntry, .flowMappingEnd] false false fuel
        else emptyNode
      return (key, value) :: (← flowEntries false fuel)
    | .flowMappingEnd => flowEntries true fuel
    | _ =>
      let key ← node false false fuel
      let value ← emptyNode
      return (key, value) :: (← flowEntries false fuel)

end

/-- The handles that every document has. -/
def defaultHandles : List (String × String) := [("!", "!"), ("!!", NodeTag.namespaceName)]

/-- The directives before a document: at most one version, and each handle once. -/
def directives (version : Bool) (handles : List (String × String)) :
    List Token → Except ReadFault (List (String × String) × List Token)
  | .directive content :: rest =>
    match content with
    | .version major _ =>
      if version || major != 1 then .error .malformed else directives true handles rest
    | .handle name expansion =>
      if (handles.lookup name).isSome then .error .malformed
      else directives version ((name, expansion) :: handles) rest
    | .other => directives version handles rest
  | rest => .ok (handles ++ defaultHandles, rest)

/-- Skips the ends of a document. -/
def skipDocumentEnds : Reader Unit :=
  modify fun s => { s with tokens := s.tokens.dropWhile (· == .documentEnd) }

/-- The root of the only document of a text, if the text holds one. -/
def document : Reader (Option Nat) := do
  let fuel := 4 * (← get).tokens.length + 8
  let implicit ← match ← peek with
    | .directive _ | .documentStart | .streamEnd => pure false
    | _ => pure true
  if implicit then
    modify fun s => { s with handles := defaultHandles }
    let root ← node true false fuel
    closing
    return some root
  else
    if (← peek) = .streamEnd then return none
    readDirectives
    if !(← accept .documentStart) then malformed
    let root ← match ← peek with
      | .directive _ | .documentStart | .documentEnd | .streamEnd => emptyNode
      | _ => node true false fuel
    closing
    return some root
where
  readDirectives : Reader Unit := do
    let (handles, rest) ← directives false [] (← get).tokens
    modify fun s => { s with handles, tokens := rest }
  /-- The end of the document and of the text. No other document may follow. -/
  closing : Reader Unit := do
    skipDocumentEnds
    if (← peek) ≠ .streamEnd then
      readDirectives
      let _ ← peek
      malformed

end Reader

namespace Graph

/-- The graph of a text with at most one document, and the document's root if there is one. -/
def ofText (text : String) : Except ReadFault (Graph × Option Nat) := do
  let (tokens, fault) := Yaml.tokens text.toList
  let (root, s) ← Reader.document.run ⟨tokens.toList, fault, [], #[], []⟩
  return (s.nodes, root)

end Graph

end Yaml

end MemberOrder
