import MemberOrder.Value.SetOrder
import MemberOrder.Yaml.Graph
import MemberOrder.Yaml.Scalar

/-!
# The value of a YAML text

The nodes of a document are made breadth first: a collection is made empty when it is met and filled
in its turn, so a collection may hold itself. The first fault in that order wins. Once all nodes are
made, the root is unfolded into a value in which nodes that are used twice share a mark.
-/

namespace MemberOrder

namespace Yaml

/-- A node with what it holds. -/
inductive Made
  | scalar (value : Value)
  | list (items : List Nat)
  | map (entries : List (Nat × Nat))
  | set (entries : List (Nat × Nat))
  | pairs (entries : List (Nat × Nat))

/-- The state of making nodes. -/
structure Making where
  graph : Graph
  /-- The number of entries of mappings, merge keys among them. -/
  entries : Nat
  /-- The nodes met so far, and what is known of them. -/
  made : Array (Option Made)
  /-- Collections that wait for their turn. -/
  queue : List Nat

abbrev Maker := StateT Making (Except Fault)

namespace Maker

def malformed {α : Type} : Maker α := throw .malformed

def nodeAt (number : Nat) : Maker GraphNode := do
  match (← get).graph[number]? with
  | some node => return node
  | none => malformed

def mappingAt (number : Nat) : Maker (List (Nat × Nat)) := do
  match (← nodeAt number).content with
  | .mapping entries => return entries
  | _ => malformed

def tagAt (number : Nat) : Maker NodeTag := do return (← nodeAt number).tag

def setNode (number : Nat) (f : GraphNode → GraphNode) : Maker Unit :=
  modify fun s => { s with graph := s.graph.modify number f }

/-- The text of a scalar; a mapping with a value key lends the text of that value. `fuel` is more
than the number of nodes, so it lasts unless a mapping lends itself. -/
def scalarText : Nat → Nat → Maker String
  | 0, _ => throw .endless
  | fuel + 1, number => do
    match (← nodeAt number).content with
    | .scalar text => return text
    | .sequence _ => malformed
    | .mapping entries =>
      match ← entries.findM? fun (key, _) => do return (← tagAt key) = .value with
      | some (_, value) => scalarText fuel value
      | none => malformed

def store (number : Nat) (made : Made) : Maker Unit :=
  modify fun s => { s with made := s.made.setIfInBounds number (some made) }

/-- Meets a node: a scalar gets its value, a collection its place in the queue. -/
def meet (number : Nat) : Maker Unit := do
  let s ← get
  match s.made[number]? with
  | some (some _) => return
  | _ =>
    let wait (empty : Made) : Maker Unit := do
      store number empty
      modify fun s => { s with queue := s.queue ++ [number] }
    match ← tagAt number with
    | .seq => wait (.list [])
    | .map => wait (.map [])
    | .set => wait (.set [])
    | .omap | .pairs => wait (.pairs [])
    | .merge | .value | .other _ => malformed
    | tag =>
      let text ← scalarText (s.graph.size + 1) number
      if tag = .timestamp then
        if let .mapping _ := (← nodeAt number).content then throw .notText
      store number (.scalar (← scalarValue tag text))

/-- Takes the merge keys out of a mapping one after the other and puts the entries that they bring
in, `brought` before them, in front of the mapping's own. A mapping that is merged is flattened
first, and if that is the same mapping again, what it finds then stays in it. Value keys come to
stand for themselves. `fuel` is more than the number of merge keys that there were at first. -/
def flattenFrom (fuel number : Nat) (brought : List (Nat × Nat)) : Maker Unit :=
  match fuel with
  | 0 => malformed
  | fuel + 1 => do
    let entries ← mappingAt number
    let tags ← entries.mapM fun (key, _) => tagAt key
    match tags.idxOf? .merge with
    | none =>
      entries.forM fun (key, _) => do
        if (← tagAt key) = .value then setNode key fun node => { node with tag := .str }
      setNode number fun node => { node with content := .mapping (brought ++ entries) }
    | some index =>
      setNode number fun node => { node with content := .mapping (entries.eraseIdx index) }
      let (_, source) := entries.getD index (0, 0)
      let found ← match (← nodeAt source).content with
        | .mapping _ => do
          flattenFrom fuel source []
          mappingAt source
        | .sequence items => do
          let parts ← items.mapM fun item => do
            let _ ← mappingAt item
            flattenFrom fuel item []
            mappingAt item
          pure parts.reverse.flatten
        | .scalar _ => malformed
      flattenFrom fuel number (brought ++ found)

/-- Replaces the merge keys of a mapping by the entries that they bring in. -/
def flatten (number : Nat) : Maker Unit := do flattenFrom ((← get).entries + 1) number []

/-- Meets a key, which has to be a scalar. -/
def meetKey (number : Nat) : Maker Unit := do
  meet number
  match (← get).made[number]? with
  | some (some (.scalar _)) => return
  | _ => malformed

/-- The entries of a mapping once merged, all met. -/
def mappingEntries (number : Nat) : Maker (List (Nat × Nat)) := do
  let _ ← mappingAt number
  flatten number
  let entries ← mappingAt number
  entries.forM fun (key, value) => do
    meetKey key
    meet value
  return entries

/-- The entries of a sequence of mappings with one entry each, all met. -/
def pairEntries (number : Nat) : Maker (List (Nat × Nat)) := do
  match (← nodeAt number).content with
  | .sequence items => items.mapM fun item => do
      match ← mappingAt item with
      | [(key, value)] =>
        meet key
        meet value
        return (key, value)
      | _ => malformed
  | _ => malformed

/-- Fills a collection. -/
def fill (number : Nat) : Maker Unit := do
  let node ← nodeAt number
  match node.tag, node.content with
  | .seq, .sequence items =>
    items.forM meet
    store number (.list items)
  | .map, _ => store number (.map (← mappingEntries number))
  | .set, _ => store number (.set (← mappingEntries number))
  | .omap, _ | .pairs, _ => store number (.pairs (← pairEntries number))
  | _, _ => malformed

/-- Fills the collections in the queue and those met on the way. Every node waits once at most. -/
def fillAll : Nat → Maker Unit
  | 0 => return
  | fuel + 1 => do
    match (← get).queue with
    | [] => return
    | number :: rest =>
      modify fun s => { s with queue := rest }
      fill number
      fillAll fuel

end Maker

/-- The value of a scalar with the mark of its node. -/
def marked (number : Nat) : Value → Value
  | .date _ d => .date (some number) d
  | .moment _ m => .moment (some number) m
  | value => value

/-- Whether two nodes are one key. What is no number is a key of its own, but all that are written
with the word for it are one. -/
def sameNode (graph : Graph) (a b : Nat × Value) : Bool :=
  let isWord (number : Nat) : Bool :=
    match graph[number]?.map GraphNode.content with
    | some (.scalar text) => isNoNumberWord text
    | _ => false
  match a.2, b.2 with
  | .float x, .float y =>
    x.sameNumber y ||
      (x.isNaN && y.isNaN && (a.1 == b.1 || (isWord a.1 && isWord b.1)))
  | x, y => x.sameKey y

/-- Gives a key its value, the last one that it gets, in the place where it is met first. -/
def putNode (graph : Graph) (key : Nat × Value) (value : Value) :
    List ((Nat × Value) × Value) → List ((Nat × Value) × Value)
  | [] => [(key, value)]
  | (k, v) :: rest =>
    if sameNode graph k key then (k, value) :: rest else (k, v) :: putNode graph key value rest

/-- Entries with one entry for each key. -/
def uniteKeys (graph : Graph) (entries : List ((Nat × Value) × Value)) : Entries :=
  (entries.foldl (fun united (key, value) => putNode graph key value united) []).map
    fun (key, value) => (key.2, value)

/-- The value of a node; `path` holds the collections around it, so none is entered twice. -/
def unfold (graph : Graph) (made : Array (Option Made)) : Nat → List Nat → Nat → Value
  | 0, _, number => .back number true
  | fuel + 1, path, number =>
    let inner (n : Nat) := unfold graph made fuel (number :: path) n
    let united (entries : List (Nat × Nat)) : Entries :=
      uniteKeys graph (entries.map fun (key, value) => ((key, inner key), inner value))
    let again := path.contains number
    match made[number]? with
    | some (some (.scalar value)) => marked number value
    | some (some (.list items)) =>
      if again then .back number false else .list (some number) (items.map inner)
    | some (some (.map entries)) =>
      if again then .back number true else .map (some number) (united entries)
    | some (some (.set entries)) =>
      if again then .back number true
      else .set (some number) (Value.setOrder ((united entries).map Prod.fst))
    | some (some (.pairs entries)) =>
      if again then .back number false
      else .list (some number) (entries.map fun (key, value) => .pair (inner key) (inner value))
    | _ => .null

/-- The number of entries of all mappings. -/
def entryCount (graph : Graph) : Nat :=
  (graph.toList.map fun node =>
    match node.content with
    | .mapping entries => entries.length
    | _ => 0).foldr (· + ·) 0

/-- The value of a text; a text without a document is null. -/
def read (text : String) : Except Fault Value :=
  match Graph.ofText text with
  | .error .malformed => .error .malformed
  | .error (.codePoint code) => .error (.codePoint code)
  | .error (.tooManyDigits count) => .error (.whole (.tooManyDigits count))
  | .ok (_, none) => .ok .null
  | .ok (graph, some root) => do
    let making : Maker Unit := do
      Maker.meet root
      Maker.fillAll (graph.size + 1)
    let (_, s) ← making.run ⟨graph, entryCount graph, Array.replicate graph.size none, []⟩
    return unfold s.graph s.made (graph.size + 1) [] root

end Yaml

end MemberOrder
