import MemberOrder.Proofs.Yaml.ScanFaults
import MemberOrder.Yaml.Graph

/-!
# Why reading tokens into nodes fails

Reading tokens adds no reason to fail for but the rules of the format. As long as no token is a tag,
a scalar has the tag that its spelling means or is a text, and a collection has the tag of its kind
(`Yaml.Graph.settles_ofText`).
-/

namespace MemberOrder

namespace Yaml

/-- Whether a node has a tag that nobody wrote. -/
def GraphNode.Untagged (node : GraphNode) : Prop :=
  match node.content with
  | .scalar text => node.tag = .str ∨ node.tag = implicitTag text ∧ Unbroken text.toList
  | .sequence _ | .mapping _ => node.tag = .seq ∨ node.tag = .map

/-- Whether a tag is written among tokens. -/
def HasTag (tokens : List Token) : Prop := ∃ tag, .tag tag ∈ tokens

def Content.isScalar : Content → Bool
  | .scalar _ => true
  | .sequence _ | .mapping _ => false

namespace Reading

/-- Whether a document is being read from tokens that a fault ended, with nodes that are untagged
unless a tag is written. The nodes of some numbers are known to be collections. -/
structure Sound (tokens : List Token) (fault : Option ReadFault) (held : Nat → Prop)
    (s : State) : Prop where
  within : s.tokens ⊆ tokens
  fault : s.fault = fault
  tagged : ∀ node ∈ s.nodes, node.Untagged ∨ HasTag tokens
  collections : ∀ number, held number →
    ∃ node, s.nodes[number]? = some node ∧ node.content.isScalar = false

end Reading

namespace Reader

section Steps

variable {tokens : List Token} {fault : Option ReadFault} {held : Nat → Prop} {α : Type}

/-- How reading a document may fail. -/
def Fails (fault : Option ReadFault) (found : ReadFault) : Prop :=
  found = .malformed ∨ fault = some found

/-- Whether a step keeps a document sound and gives something of one kind. -/
abbrev Keeps (tokens : List Token) (fault : Option ReadFault) (held : Nat → Prop)
    (good : α → Prop) : Reader α → Prop :=
  MemberOrder.Keeps (Reading.Sound tokens fault held) good (Fails fault)

theorem keeps_malformed {good : α → Prop} :
    Keeps tokens fault held good (malformed : Reader α) :=
  fun _ _ => .error (.inl rfl)

theorem keeps_peek : Keeps tokens fault held (· ∈ tokens) peek := by
  intro s sound
  obtain ⟨left, ended, handles, nodes, anchors⟩ := s
  cases left with
  | nil =>
      refine .error (?_ : Fails fault (ended.getD .malformed))
      have same : ended = fault := sound.fault
      cases ended with
      | none => exact .inl rfl
      | some found => exact .inr same.symm
  | cons token rest => exact .ok ⟨sound.within List.mem_cons_self, sound⟩

theorem keeps_skip : Keeps tokens fault held (fun _ => True) skip := fun _ sound =>
  .ok ⟨trivial, fun _ member => sound.within (List.mem_of_mem_tail member), sound.fault,
    sound.tagged, sound.collections⟩

theorem keeps_accept (token : Token) : Keeps tokens fault held (fun _ => True) (accept token) := by
  refine keeps_peek.bind fun found _ => ?_
  split
  · exact keeps_skip.bind fun _ _ => keeps_pure trivial
  · exact keeps_pure trivial

theorem keeps_endsEntry (ends : List Token) :
    Keeps tokens fault held (fun _ => True) (endsEntry ends) :=
  keeps_peek.bind fun _ _ => keeps_pure trivial

theorem keeps_tagName (tag : WrittenTag) :
    Keeps tokens fault held (fun _ => True) (tagName tag) := by
  unfold tagName
  split
  · exact keeps_pure trivial
  · refine keeps_get fun s _ => ?_
    split
    · exact keeps_pure trivial
    · exact keeps_malformed

/-- A tag in front of a node is written among the tokens. -/
theorem keeps_properties :
    Keeps tokens fault held (fun result => result.2.isSome → HasTag tokens) properties := by
  refine keeps_peek.bind fun first listed => ?_
  split
  · refine keeps_skip.bind fun _ _ => keeps_peek.bind fun second later => ?_
    split
    · exact keeps_skip.bind fun _ _ => (keeps_tagName _).bind fun _ _ =>
        keeps_pure fun _ => ⟨_, later⟩
    · exact keeps_pure nofun
  · refine keeps_skip.bind fun _ _ => keeps_peek.bind fun second _ => ?_
    split
    · exact keeps_skip.bind fun _ _ => (keeps_tagName _).bind fun _ _ =>
        keeps_pure fun _ => ⟨_, listed⟩
    · exact (keeps_tagName _).bind fun _ _ => keeps_pure fun _ => ⟨_, listed⟩
  · exact keeps_pure nofun

/-- A node is added under the next number; if it is a collection, the number is known to be one. -/
theorem runs_addNode (anchor : Option String) {node : GraphNode}
    (tagged : node.Untagged ∨ HasTag tokens) :
    Runs (Reading.Sound tokens fault held)
      (fun number => Reading.Sound tokens fault fun other =>
        held other ∨ other = number ∧ node.content.isScalar = false)
      (Fails fault) (addNode anchor node) := by
  intro s sound
  have pushed (anchors : List (String × Nat)) : Reading.Sound tokens fault
      (fun other => held other ∨ other = s.nodes.size ∧ node.content.isScalar = false)
      { s with nodes := s.nodes.push node, anchors } :=
    { within := sound.within
      fault := sound.fault
      tagged := fun other member => by
        obtain earlier | rfl := Array.mem_push.mp member
        · exact sound.tagged other earlier
        · exact tagged
      collections := fun number known => by
        rw [Array.getElem?_push]
        obtain earlier | ⟨rfl, collection⟩ := known
        · obtain ⟨found, listed, collection⟩ := sound.collections number earlier
          have small : number ≠ s.nodes.size := by
            rintro rfl
            simp at listed
          exact ⟨found, by simpa only [small, ↓reduceIte] using listed, collection⟩
        · exact ⟨node, by simp, collection⟩ }
  cases anchor with
  | none => exact .ok (pushed s.anchors)
  | some name =>
      change Settles _ _ (StateT.run
        (if (s.anchors.lookup name).isSome then malformed >>= fun _ => pure s.nodes.size
        else set { s with nodes := s.nodes.push node, anchors := (name, s.nodes.size) :: s.anchors }
          >>= fun _ => pure s.nodes.size) s)
      split
      · exact .error (.inl rfl)
      · exact .ok (pushed _)

theorem keeps_addNode (anchor : Option String) {node : GraphNode}
    (tagged : node.Untagged ∨ HasTag tokens) :
    Keeps tokens fault held (fun _ => True) (addNode anchor node) :=
  (runs_addNode anchor tagged).mono (fun _ sound => sound) fun _ _ sound =>
    ⟨trivial, sound.within, sound.fault, sound.tagged,
      fun number known => sound.collections number (.inl known)⟩

theorem keeps_emptyNode : Keeps tokens fault held (fun _ => True) emptyNode :=
  keeps_addNode none (.inl (.inr ⟨rfl, nofun⟩))

/-- While a new collection is read, its number is known to be one. -/
theorem keeps_added {anchor : Option String} {node : GraphNode} {next : Nat → Reader α}
    {good : α → Prop} (tagged : node.Untagged ∨ HasTag tokens)
    (collection : node.content.isScalar = false)
    (reads : ∀ held number, held number → Keeps tokens fault held good (next number)) :
    Keeps tokens fault held good (addNode anchor node >>= next) := by
  refine (runs_addNode anchor tagged).bind fun number => ?_
  refine (reads (fun other => held other ∨ other = number) number (.inr rfl)).mono ?_ ?_
  · exact fun s sound => ⟨sound.within, sound.fault, sound.tagged, fun other known =>
      sound.collections other (known.imp id fun same => ⟨same, collection⟩)⟩
  · exact fun value s ⟨holds, sound⟩ => ⟨holds, sound.within, sound.fault, sound.tagged,
      fun other known => sound.collections other (.inl known)⟩

/-- A collection is filled with what it holds. -/
theorem keeps_fill {number : Nat} (known : held number) {content : Content}
    (collection : content.isScalar = false) :
    Keeps tokens fault held (fun _ => True) (fill number content) := by
  intro s sound
  refine .ok
    ⟨trivial, sound.within, sound.fault, fun node member => ?_, fun other alsoKnown => ?_⟩
  · obtain ⟨index, listed⟩ := Array.mem_iff_getElem?.mp member
    rw [Array.getElem?_modify] at listed
    split at listed
    · next same =>
        obtain ⟨found, before, keepsKind⟩ := sound.collections number known
        rw [← same, before] at listed
        cases listed
        obtain untagged | written := sound.tagged found (Array.mem_of_getElem? before)
        · left
          unfold GraphNode.Untagged at untagged ⊢
          cases content with
          | scalar text => cases collection
          | sequence items | mapping entries =>
              cases kind : found.content with
              | scalar text => simp [kind, Content.isScalar] at keepsKind
              | sequence items | mapping entries => simpa only [kind] using untagged
        · exact .inr written
    · exact sound.tagged node (Array.mem_of_getElem? listed)
  · obtain ⟨found, before, keepsKind⟩ := sound.collections other alsoKnown
    rw [Array.getElem?_modify]
    split
    · exact ⟨{ found with content }, by rw [before]; rfl, collection⟩
    · exact ⟨found, before, keepsKind⟩

theorem untagged_scalarTag {tag : Option String} {plain : Bool} {text : String}
    (written : tag.isSome → HasTag tokens) (ended : (Token.scalar text plain).Ended) :
    GraphNode.Untagged ⟨scalarTag tag plain text, .scalar text⟩ ∨ HasTag tokens := by
  cases tag with
  | some name => exact .inr (written rfl)
  | none =>
      cases plain with
      | true => exact .inl (.inr ⟨rfl, ended⟩)
      | false => exact .inl (.inl rfl)

/-- A collection is read as the next node, filled once its parts are read. -/
theorem keeps_collection {α : Type} {tag : Option String} {default : NodeTag}
    (written : tag.isSome → HasTag tokens) (known : default = .seq ∨ default = .map)
    (anchor : Option String) {empty : Content} {contentOf : α → Content} {items : Reader α}
    (collection : empty.isScalar = false) (filled : ∀ parts, (contentOf parts).isScalar = false)
    (reads : ∀ held, Keeps tokens fault held (fun _ => True) items) :
    Keeps tokens fault held (fun _ => True) (do
      let number ← addNode anchor ⟨collectionTag tag default, empty⟩
      fill number (contentOf (← items))
      return number) := by
  have tagged : GraphNode.Untagged ⟨collectionTag tag default, empty⟩ ∨ HasTag tokens := by
    cases tag with
    | some name => exact .inr (written rfl)
    | none =>
        left
        cases empty with
        | scalar text => cases collection
        | sequence items | mapping entries => exact known
  exact keeps_added tagged collection fun held number known =>
    (reads held).bind fun parts _ => (keeps_fill known (filled parts)).bind fun _ _ =>
      keeps_pure trivial

/-- Some cases are malformed. -/
theorem keeps_unless {next : Reader α} {good : α → Prop} (refused : Bool)
    (reads : Keeps tokens fault held good next) :
    Keeps tokens fault held good
      (if refused then (malformed : Reader Unit) >>= fun _ => next else next) := by
  split
  · exact (@keeps_malformed _ _ _ Unit fun _ => True).bind fun _ _ => reads
  · exact reads

/-- A comma stands between the parts of a flow collection. -/
theorem keeps_separated {next : Reader α} {good : α → Prop} (first : Bool)
    (reads : Keeps tokens fault held good next) :
    Keeps tokens fault held good (if !first then
      accept .flowEntry >>= fun found =>
        if !found then (malformed : Reader Unit) >>= fun _ => next else next
      else next) := by
  split
  · exact (keeps_accept _).bind fun _ _ => keeps_unless _ reads
  · exact reads

/-- The value of an entry is read, or made empty. -/
theorem keeps_value {given : Bool} {value : Reader Nat} {next : Nat → Reader α}
    {good : α → Prop} (reads : Keeps tokens fault held (fun _ => True) value)
    (continues : ∀ number, Keeps tokens fault held good (next number)) :
    Keeps tokens fault held good (if given then value >>= next else emptyNode >>= next) := by
  split
  · exact reads.bind fun number _ => continues number
  · exact keeps_emptyNode.bind fun number _ => continues number

/-- Whether nodes and their parts are read soundly with some fuel. -/
structure KeepsParts (tokens : List Token) (fault : Option ReadFault) (fuel : Nat) : Prop where
  node (held : Nat → Prop) (block indentless : Bool) :
    Keeps tokens fault held (fun _ => True) (node block indentless fuel)
  nodeUnless (held : Nat → Prop) (ends : List Token) (block indentless : Bool) :
    Keeps tokens fault held (fun _ => True) (nodeUnless ends block indentless fuel)
  blockItems (held : Nat → Prop) : Keeps tokens fault held (fun _ => True) (blockItems fuel)
  indentlessItems (held : Nat → Prop) :
    Keeps tokens fault held (fun _ => True) (indentlessItems fuel)
  blockEntries (held : Nat → Prop) : Keeps tokens fault held (fun _ => True) (blockEntries fuel)
  flowItems (held : Nat → Prop) (first : Bool) :
    Keeps tokens fault held (fun _ => True) (flowItems first fuel)
  flowEntries (held : Nat → Prop) (first : Bool) :
    Keeps tokens fault held (fun _ => True) (flowEntries first fuel)

namespace KeepsParts

variable {fuel : Nat} (parts : KeepsParts tokens fault fuel)
include parts

theorem node_succ (ended : ∀ token ∈ tokens, token.Ended) (held : Nat → Prop)
    (block indentless : Bool) :
    Keeps tokens fault held (fun _ => True) (Reader.node block indentless (fuel + 1)) := by
  unfold Reader.node
  refine keeps_peek.bind fun first _ => ?_
  split
  · refine keeps_skip.bind fun _ _ => keeps_get fun s _ => ?_
    split
    · exact keeps_pure trivial
    · exact keeps_malformed
  · refine keeps_properties.bind fun properties written => ?_
    obtain ⟨anchor, tag⟩ := properties
    have sequenceOf {items : Reader (List Nat)}
        (reads : ∀ held, Keeps tokens fault held (fun _ => True) items) :=
      @keeps_collection tokens fault held _ tag .seq written (.inl rfl) anchor (.sequence [])
        Content.sequence items rfl (fun _ => rfl) reads
    have mappingOf {entries : Reader (List (Nat × Nat))}
        (reads : ∀ held, Keeps tokens fault held (fun _ => True) entries) :=
      @keeps_collection tokens fault held _ tag .map written (.inr rfl) anchor (.mapping [])
        Content.mapping entries rfl (fun _ => rfl) reads
    refine keeps_peek.bind fun token listed => ?_
    split
    · exact sequenceOf parts.indentlessItems
    split
    · exact keeps_skip.bind fun _ _ =>
        keeps_addNode _ (untagged_scalarTag written (ended _ listed))
    · exact keeps_skip.bind fun _ _ => sequenceOf fun held => parts.flowItems held true
    · exact keeps_skip.bind fun _ _ => mappingOf fun held => parts.flowEntries held true
    · exact keeps_unless _ (keeps_skip.bind fun _ _ => sequenceOf parts.blockItems)
    · exact keeps_unless _ (keeps_skip.bind fun _ _ => mappingOf parts.blockEntries)
    · exact keeps_unless _
        (keeps_addNode _ (@untagged_scalarTag tokens tag true "" written nofun))

theorem nodeUnless_succ (held : Nat → Prop) (ends : List Token) (block indentless : Bool) :
    Keeps tokens fault held (fun _ => True)
      (Reader.nodeUnless ends block indentless (fuel + 1)) := by
  unfold Reader.nodeUnless
  refine (keeps_endsEntry ends).bind fun _ _ => ?_
  split
  · exact keeps_emptyNode
  · exact parts.node _ _ _

theorem blockItems_succ (held : Nat → Prop) :
    Keeps tokens fault held (fun _ => True) (Reader.blockItems (fuel + 1)) := by
  unfold Reader.blockItems
  refine (keeps_accept _).bind fun _ _ => ?_
  split
  · exact (parts.nodeUnless _ _ _ _).bind fun _ _ =>
      (parts.blockItems _).bind fun _ _ => keeps_pure trivial
  · refine (keeps_accept _).bind fun _ _ => ?_
    split
    · exact keeps_pure trivial
    · exact keeps_malformed

theorem indentlessItems_succ (held : Nat → Prop) :
    Keeps tokens fault held (fun _ => True) (Reader.indentlessItems (fuel + 1)) := by
  unfold Reader.indentlessItems
  refine (keeps_accept _).bind fun _ _ => ?_
  split
  · exact (parts.nodeUnless _ _ _ _).bind fun _ _ =>
      (parts.indentlessItems _).bind fun _ _ => keeps_pure trivial
  · exact keeps_pure trivial

theorem blockEntries_succ (held : Nat → Prop) :
    Keeps tokens fault held (fun _ => True) (Reader.blockEntries (fuel + 1)) := by
  unfold Reader.blockEntries
  refine (keeps_accept _).bind fun _ _ => ?_
  split
  · refine (parts.nodeUnless _ _ _ _).bind fun _ _ => (keeps_accept _).bind fun _ _ => ?_
    refine keeps_value ?_ fun _ => (parts.blockEntries _).bind fun _ _ => keeps_pure trivial
    exact parts.nodeUnless _ _ _ _
  · refine (keeps_accept _).bind fun _ _ => ?_
    split
    · exact keeps_pure trivial
    · exact keeps_malformed

theorem flowItems_succ (held : Nat → Prop) (first : Bool) :
    Keeps tokens fault held (fun _ => True) (Reader.flowItems first (fuel + 1)) := by
  unfold Reader.flowItems
  refine (keeps_accept _).bind fun _ _ => ?_
  split
  · exact keeps_pure trivial
  · refine keeps_separated first (keeps_peek.bind fun token _ => ?_)
    split
    · refine keeps_skip.bind fun _ _ => ?_
      refine keeps_added (.inl (.inr rfl)) rfl fun held number known => ?_
      refine (parts.nodeUnless _ _ _ _).bind fun _ _ => (keeps_accept _).bind fun _ _ => ?_
      refine keeps_value ?_ fun _ => (keeps_fill known rfl).bind fun _ _ =>
        (parts.flowItems _ _).bind fun _ _ => keeps_pure trivial
      exact parts.nodeUnless _ _ _ _
    · exact parts.flowItems _ _
    · exact (parts.node _ _ _).bind fun _ _ =>
        (parts.flowItems _ _).bind fun _ _ => keeps_pure trivial

theorem flowEntries_succ (held : Nat → Prop) (first : Bool) :
    Keeps tokens fault held (fun _ => True) (Reader.flowEntries first (fuel + 1)) := by
  unfold Reader.flowEntries
  refine (keeps_accept _).bind fun _ _ => ?_
  split
  · exact keeps_pure trivial
  · refine keeps_separated first (keeps_peek.bind fun token _ => ?_)
    split
    · refine keeps_skip.bind fun _ _ => (parts.nodeUnless _ _ _ _).bind fun _ _ =>
        (keeps_accept _).bind fun _ _ => ?_
      refine keeps_value ?_ fun _ => (parts.flowEntries _ _).bind fun _ _ => keeps_pure trivial
      exact parts.nodeUnless _ _ _ _
    · exact parts.flowEntries _ _
    · exact (parts.node _ _ _).bind fun _ _ => keeps_emptyNode.bind fun _ _ =>
        (parts.flowEntries _ _).bind fun _ _ => keeps_pure trivial

end KeepsParts

theorem keepsParts (ended : ∀ token ∈ tokens, token.Ended) (fuel : Nat) :
    KeepsParts tokens fault fuel := by
  induction fuel with
  | zero =>
      constructor <;> intros <;> first
        | (unfold node; exact keeps_malformed)
        | (unfold nodeUnless; exact keeps_malformed)
        | (unfold blockItems; exact keeps_malformed)
        | (unfold indentlessItems; exact keeps_malformed)
        | (unfold blockEntries; exact keeps_malformed)
        | (unfold flowItems; exact keeps_malformed)
        | (unfold flowEntries; exact keeps_malformed)
  | succ fuel parts =>
      exact ⟨parts.node_succ ended, parts.nodeUnless_succ, parts.blockItems_succ,
        parts.indentlessItems_succ, parts.blockEntries_succ, parts.flowItems_succ,
        parts.flowEntries_succ⟩

theorem keeps_skipDocumentEnds :
    Keeps tokens fault held (fun _ => True) skipDocumentEnds := fun _ sound =>
  .ok ⟨trivial, fun _ member => sound.within (List.dropWhile_subset _ member), sound.fault,
    sound.tagged, sound.collections⟩

theorem settles_directives (version : Bool) (handles : List (String × String))
    (listed : List Token) :
    Settles (fun result => result.2 ⊆ listed) (· = .malformed)
      (directives version handles listed) := by
  induction listed generalizing version handles with
  | nil => exact .ok fun _ member => member
  | cons token rest ih =>
      have later (version : Bool) (handles : List (String × String)) :
          Settles (fun result => result.2 ⊆ token :: rest) (· = .malformed)
            (directives version handles rest) :=
        (ih version handles).mono fun _ within _ member => List.mem_cons_of_mem _ (within member)
      unfold directives
      split
      · next content rest' same =>
          cases same
          split
          · split
            · exact .error rfl
            · exact later _ _
          · split
            · exact .error rfl
            · exact later _ _
          · exact later _ _
      · exact .ok fun _ member => member

theorem keeps_readDirectives :
    Keeps tokens fault held (fun _ => True) document.readDirectives := by
  intro s sound
  have settled := settles_directives false [] s.tokens
  change Settles _ _ (StateT.run (StateT.lift (directives false [] s.tokens) >>= fun result =>
    modify fun s => { s with handles := result.1, tokens := result.2 }) s)
  cases outcome : directives false [] s.tokens with
  | error found =>
      rw [outcome] at settled
      exact .error (.inl settled.bad_of_error)
  | ok result =>
      rw [outcome] at settled
      exact .ok ⟨trivial, fun _ member => sound.within (settled.good_of_ok member), sound.fault,
        sound.tagged, sound.collections⟩

theorem keeps_closing : Keeps tokens fault held (fun _ => True) document.closing := by
  unfold document.closing
  refine keeps_skipDocumentEnds.bind fun _ _ => keeps_peek.bind fun _ _ => ?_
  split
  · exact keeps_readDirectives.bind fun _ _ => keeps_peek.bind fun _ _ => keeps_malformed
  · exact keeps_pure trivial

theorem keeps_handles :
    Keeps tokens fault held (fun _ => True)
      (modify fun s => { s with handles := defaultHandles }) := fun _ sound =>
  .ok ⟨trivial, sound.within, sound.fault, sound.tagged, sound.collections⟩

theorem keeps_document (ended : ∀ token ∈ tokens, token.Ended) :
    Keeps tokens fault held (fun _ => True) document := by
  have parts (fuel : Nat) : KeepsParts tokens fault fuel := keepsParts ended fuel
  unfold document
  refine keeps_get fun s _ => keeps_peek.bind fun first _ => ?_
  generalize 4 * s.tokens.length + 8 = fuel
  split
  case h_4 =>
    simp only [pure_bind, ↓reduceIte]
    exact keeps_handles.bind fun _ _ => ((parts fuel).node _ _ _).bind fun _ _ =>
      keeps_closing.bind fun _ _ => keeps_pure trivial
  all_goals
    simp only [pure_bind, Bool.false_eq_true, ↓reduceIte]
    refine keeps_peek.bind fun _ _ => ?_
    split
    · exact keeps_pure trivial
    refine keeps_readDirectives.bind fun _ _ => (keeps_accept _).bind fun _ _ =>
      keeps_unless _ (keeps_peek.bind fun next _ => ?_)
    split
    case h_5 =>
      exact ((parts fuel).node _ _ _).bind fun _ _ =>
        keeps_closing.bind fun _ _ => keeps_pure trivial
    all_goals
      exact keeps_emptyNode.bind fun _ _ => keeps_closing.bind fun _ _ => keeps_pure trivial

end Steps

end Reader

namespace Graph

/-- Reading a text gives nodes that are untagged unless the text writes a tag, or fails as the text
shows. -/
theorem settles_ofText (text : String) :
    Settles (fun result => ∀ node ∈ result.1,
      node.Untagged ∨ HasTag (tokens text.toList).1.toList)
      (ReadFault.Shows text.toList) (ofText text) := by
  obtain ⟨ended, shown⟩ := tokensOf_tokens text.toList
  let begun : Reading.State :=
    ⟨(tokens text.toList).1.toList, (tokens text.toList).2, [], #[], []⟩
  have sound : Reading.Sound (tokens text.toList).1.toList (tokens text.toList).2
      (fun _ => False) begun :=
    ⟨fun _ member => member, rfl, nofun, nofun⟩
  have reads := Reader.keeps_document
    (fun token member => ended token (Array.mem_toList_iff.mp member)) begun sound
  change Settles _ _ (Reader.document.run begun >>= fun result => .ok (result.2.nodes, result.1))
  cases outcome : Reader.document.run begun with
  | error found =>
      rw [outcome] at reads
      obtain rfl | cut := reads.bad_of_error
      · exact .error trivial
      · exact .error (shown found cut)
  | ok result =>
      rw [outcome] at reads
      exact .ok reads.good_of_ok.2.tagged

end Graph

end Yaml

end MemberOrder
