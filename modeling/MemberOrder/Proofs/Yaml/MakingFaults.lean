import MemberOrder.Proofs.Yaml.GraphFaults
import MemberOrder.Yaml.Reader

/-!
# Why making the values of nodes fails

Making values changes what mappings hold and which tag a value key has, and leaves the scalars as
they are. So if it fails for more than the rules of the format, the nodes that were read show why: a
scalar has no value under its tag, or a mapping stands under the tag of a scalar
(`Yaml.settles_made`).
-/

namespace MemberOrder

namespace Yaml

/-- Whether a tag is one of collections. -/
def NodeTag.isCollection : NodeTag → Bool
  | .seq | .map | .set | .omap | .pairs => true
  | _ => false

/-- Whether a node is a mapping. -/
def GraphNode.IsMapping (node : GraphNode) : Prop := ∃ entries, node.content = .mapping entries

/-- Whether the nodes of a graph show why making their values fails. -/
inductive Graph.Shows (graph : Graph) : Fault → Prop
  | malformed : Shows graph .malformed
  /-- A scalar has no value under its tag. -/
  | scalar {node : GraphNode} {text : String} {fault : Fault} (member : node ∈ graph)
      (content : node.content = .scalar text) (fails : scalarValue node.tag text = .error fault) :
      Shows graph fault
  /-- A mapping stands under a tag that is not one of collections. -/
  | mapping {node : GraphNode} {fault : Fault} (member : node ∈ graph) (mapping : node.IsMapping)
      (tag : node.tag.isCollection = false) : Shows graph fault

/-- What becomes of a node: a scalar keeps its text, a mapping stays one, and the tag stays or
becomes the one of texts. -/
structure GraphNode.Becomes (first later : GraphNode) : Prop where
  tag : later.tag = first.tag ∨ later.tag = .str ∧ first.tag = .value
  scalar : ∀ text, later.content = .scalar text → first.content = .scalar text
  mapping : later.IsMapping ↔ first.IsMapping

theorem GraphNode.Becomes.refl (node : GraphNode) : node.Becomes node :=
  ⟨.inl rfl, fun _ same => same, .rfl⟩

/-- Whether every node of a state comes from the node of a graph under its number, and scalars were
made to be no collections. -/
structure Making.Stems (graph : Graph) (s : Making) : Prop where
  nodes : ∀ (number : Nat) (node : GraphNode), s.graph[number]? = some node →
    ∃ first : GraphNode, graph[number]? = some first ∧ first.Becomes node
  scalars : ∀ (number : Nat) (value : Value), s.made[number]? = some (some (.scalar value)) →
    value.isCollection = false

theorem isCollection_of_timestampOf {text : String} {value : Value}
    (reads : timestampOf text = .ok value) : value.isCollection = false := by
  unfold timestampOf at reads
  split at reads
  · cases reads
  · simp only at reads
    split at reads
    · split at reads
      · cases reads
      · cases reads
        rfl
    · split at reads
      · cases reads
      · cases reads
        rfl

/-- The value of a scalar is no collection. -/
theorem isCollection_of_scalarValue {tag : NodeTag} {text : String} {value : Value}
    (reads : scalarValue tag text = .ok value) : value.isCollection = false := by
  have mapped {α : Type} {make : α → Value} {outcome : Except Fault α}
      (solid : ∀ given, (make given).isCollection = false) (reads : make <$> outcome = .ok value) :
      value.isCollection = false := by
    cases outcome with
    | error _ => cases reads
    | ok given =>
        cases reads
        exact solid given
  cases tag with
  | null | str =>
      cases reads
      rfl
  | bool => exact mapped (fun _ => rfl) reads
  | int => exact mapped (fun _ => rfl) reads
  | float => exact mapped (fun _ => rfl) reads
  | binary => exact mapped (fun _ => rfl) reads
  | timestamp => exact isCollection_of_timestampOf reads
  | _ => cases reads

namespace Maker

section Steps

variable {graph : Graph} {α : Type} {number : Nat}

/-- Whether a step keeps where nodes come from and fails as they show. -/
abbrev Keeps (graph : Graph) (good : α → Prop) : Maker α → Prop :=
  MemberOrder.Keeps (Making.Stems graph) good graph.Shows

theorem keeps_malformed {good : α → Prop} : Keeps graph good (malformed : Maker α) :=
  fun _ _ => .error .malformed

theorem keeps_lift {good : α → Prop} {outcome : Except Fault α}
    (settled : Settles good graph.Shows outcome) :
    Keeps graph good (liftM outcome : Maker α) := by
  intro s stems
  cases settled with
  | error shown => exact .error shown
  | ok holds => exact .ok ⟨holds, stems⟩

theorem keeps_nodeAt (number : Nat) :
    Keeps graph (fun node => ∃ first : GraphNode, graph[number]? = some first ∧ first.Becomes node)
      (nodeAt number) := by
  refine keeps_get fun s stems => ?_
  split
  · next node found => exact keeps_pure (stems.nodes number node found)
  · exact keeps_malformed

theorem keeps_mappingAt (number : Nat) :
    Keeps graph (fun _ => ∀ first, graph[number]? = some first → first.IsMapping)
      (mappingAt number) := by
  refine (keeps_nodeAt number).bind fun node ⟨first, found, becomes⟩ => ?_
  split
  · next entries content =>
      refine keeps_pure fun other same => ?_
      rw [found] at same
      cases same
      exact becomes.mapping.mp ⟨entries, content⟩
  · exact keeps_malformed

/-- The tag of a node is the one that was read, or the one of texts in place of a value key. -/
def TagFrom (graph : Graph) (number : Nat) (tag : NodeTag) : Prop :=
  ∃ first : GraphNode, graph[number]? = some first ∧
    (tag = first.tag ∨ tag = .str ∧ first.tag = .value)

theorem keeps_tagAt (number : Nat) : Keeps graph (TagFrom graph number) (tagAt number) :=
  (keeps_nodeAt number).bind fun _ ⟨first, found, becomes⟩ =>
    keeps_pure ⟨first, found, becomes.tag⟩

theorem keeps_setNode {f : GraphNode → GraphNode} (changes : ∀ first node : GraphNode,
    graph[number]? = some first → first.Becomes node → first.Becomes (f node)) :
    Keeps graph (fun _ => True) (setNode number f) := by
  intro s stems
  refine .ok ⟨trivial, fun other node found => ?_, stems.scalars⟩
  change (s.graph.modify number f)[other]? = some node at found
  rw [Array.getElem?_modify] at found
  split at found
  · next same =>
      obtain ⟨before, listed, rfl⟩ := Option.map_eq_some_iff.mp found
      obtain ⟨first, read, becomes⟩ := stems.nodes other before listed
      exact ⟨first, read, changes first before (same ▸ read) becomes⟩
  · exact stems.nodes other node found

/-- A mapping is given other entries. -/
theorem keeps_setEntries (mapping : ∀ first, graph[number]? = some first → first.IsMapping)
    (entries : List (Nat × Nat)) : Keeps graph (fun _ => True)
      (setNode number fun node => { node with content := .mapping entries }) :=
  keeps_setNode fun first _ found becomes =>
    ⟨becomes.tag, nofun, ⟨fun _ => mapping first found, fun _ => ⟨entries, rfl⟩⟩⟩

theorem keeps_store (number : Nat) {made : Made}
    (solid : ∀ value, made = .scalar value → value.isCollection = false) :
    Keeps graph (fun _ => True) (store number made) := by
  intro s stems
  refine .ok ⟨trivial, stems.nodes, fun other value found => ?_⟩
  change (s.made.setIfInBounds number (some made))[other]? = some (some (.scalar value)) at found
  rw [Array.getElem?_setIfInBounds] at found
  split at found
  · split at found
    · exact solid value (Option.some.inj (Option.some.inj found))
    · cases found
  · exact stems.scalars other value found

/-- A text may be lent where every fault is shown. -/
theorem keeps_lent (shown : ∀ fault, graph.Shows fault) (fuel number : Nat) :
    Keeps graph (fun _ => True) (scalarText fuel number) := by
  induction fuel generalizing number with
  | zero => exact fun _ _ => .error (shown _)
  | succ fuel ih =>
      unfold scalarText
      refine (keeps_nodeAt number).bind fun node _ => ?_
      split
      · exact keeps_pure trivial
      · exact keeps_malformed
      · refine (keeps_findM? fun _ => ?_).bind fun found _ => ?_
        · exact (keeps_tagAt _).bind fun _ _ => keeps_pure trivial
        · split
          · exact ih _
          · exact keeps_malformed

section Scalars

variable {first : GraphNode} (found : graph[number]? = some first)
include found

/-- The text of a scalar is its own. A mapping may lend any, and shows every fault. -/
theorem keeps_scalarText (tag : first.tag.isCollection = false) (fuel : Nat) :
    Keeps graph (fun text => first.content = .scalar text ∨ first.IsMapping)
      (scalarText (fuel + 1) number) := by
  by_cases mapping : first.IsMapping
  · exact (keeps_lent (fun _ => .mapping (Array.mem_of_getElem? found) mapping tag) _ _).mono
      (fun _ stems => stems) fun _ _ kept => ⟨.inr mapping, kept.2⟩
  · unfold scalarText
    refine (keeps_nodeAt number).bind fun node ⟨other, same, becomes⟩ => ?_
    rw [found] at same
    cases same
    split
    · next text content => exact keeps_pure (.inl (becomes.scalar text content))
    · exact keeps_malformed
    · next entries content => exact absurd (becomes.mapping.mp ⟨entries, content⟩) mapping

/-- A scalar gets its value, or shows why it has none. -/
theorem settles_scalarValue {tag : NodeTag} {text : String}
    (from_ : tag = first.tag ∨ tag = .str ∧ first.tag = .value)
    (other : first.tag.isCollection = false)
    (content : first.content = .scalar text ∨ first.IsMapping) :
    Settles (fun value => value.isCollection = false) graph.Shows (scalarValue tag text) := by
  cases outcome : scalarValue tag text with
  | ok value => exact .ok (isCollection_of_scalarValue outcome)
  | error fault =>
      refine .error ?_
      have member := Array.mem_of_getElem? found
      obtain own | mapping := content
      · obtain rfl | ⟨rfl, -⟩ := from_
        · exact .scalar member own outcome
        · cases outcome
      · exact .mapping member mapping other

end Scalars

theorem keeps_meet (number : Nat) : Keeps graph (fun _ => True) (meet number) := by
  unfold meet
  refine keeps_get fun s _ => ?_
  split
  · exact keeps_pure trivial
  have wait {empty : Made} (solid : ∀ value, empty = .scalar value → value.isCollection = false) :
      Keeps graph (fun _ => True) (do
        store number empty
        modify fun s => { s with queue := s.queue ++ [number] }) :=
    (keeps_store _ solid).bind fun _ _ _ stems => .ok ⟨trivial, stems.nodes, stems.scalars⟩
  refine (keeps_tagAt number).bind fun tag ⟨first, found, from_⟩ => ?_
  split
  case h_9 =>
    have other : first.tag.isCollection = false := by
      obtain rfl | ⟨-, value⟩ := from_
      · cases same : first.tag <;> first | rfl | simp_all
      · rw [value]; rfl
    refine (keeps_scalarText found other _).bind fun text content => ?_
    have finish : Keeps graph (fun _ => True)
        (liftM (scalarValue tag text) >>= fun value => store number (.scalar value)) :=
      (keeps_lift (settles_scalarValue found from_ other content)).bind fun value solid =>
        keeps_store _ fun given same => by
          cases same
          exact solid
    split
    · refine (keeps_nodeAt number).bind fun node ⟨again, same, becomes⟩ => ?_
      split
      · next entries mapped =>
          rw [found] at same
          cases same
          exact fun _ _ => .error (.mapping (Array.mem_of_getElem? found)
            (becomes.mapping.mp ⟨entries, mapped⟩) other)
      · exact finish
    · exact finish
  all_goals first | exact wait (fun _ impossible => by cases impossible) | exact keeps_malformed

theorem keeps_flattenFrom (fuel number : Nat) (brought : List (Nat × Nat)) :
    Keeps graph (fun _ => True) (flattenFrom fuel number brought) := by
  induction fuel generalizing number brought with
  | zero => exact keeps_malformed
  | succ fuel ih =>
      unfold flattenFrom
      refine (keeps_mappingAt number).bind fun entries mapping => ?_
      refine (keeps_mapM fun _ => (keeps_tagAt _).mono (fun _ stems => stems) fun _ _ kept =>
        ⟨trivial, kept.2⟩).bind fun tags _ => ?_
      split
      · refine (keeps_forM fun _ => ?_).bind fun _ _ => keeps_setEntries mapping _
        refine (keeps_tagAt _).bind fun tag from_ => ?_
        split
        · next value =>
            refine keeps_setNode fun first node found becomes => ?_
            obtain ⟨other, same, from_⟩ := from_
            rw [found] at same
            cases same
            refine ⟨.inr ⟨rfl, ?_⟩, becomes.scalar, becomes.mapping⟩
            obtain rfl | ⟨text, -⟩ := from_
            · exact value
            · rw [text] at value
              cases value
        · exact keeps_pure trivial
      · refine (keeps_setEntries mapping _).bind fun _ _ => ?_
        refine (keeps_nodeAt _).bind fun node _ => ?_
        split
        · exact (ih _ _).bind fun _ _ => (keeps_mappingAt _).bind fun _ _ => ih _ _
        · refine (keeps_mapM fun item => ?_).bind fun _ _ => ih _ _
          exact (keeps_mappingAt item).bind fun _ _ => (ih _ _).bind fun _ _ =>
            (keeps_mappingAt item).mono (fun _ stems => stems) fun _ _ kept => ⟨trivial, kept.2⟩
        · exact keeps_malformed

theorem keeps_flatten (number : Nat) : Keeps graph (fun _ => True) (flatten number) :=
  keeps_get fun _ _ => keeps_flattenFrom _ _ _

theorem keeps_meetKey (number : Nat) : Keeps graph (fun _ => True) (meetKey number) := by
  refine (keeps_meet number).bind fun _ _ => keeps_get fun s _ => ?_
  split
  · exact keeps_pure trivial
  · exact keeps_malformed

theorem keeps_mappingEntries (number : Nat) :
    Keeps graph (fun _ => True) (mappingEntries number) := by
  unfold mappingEntries
  refine (keeps_mappingAt number).bind fun _ _ => (keeps_flatten number).bind fun _ _ => ?_
  refine (keeps_mappingAt number).bind fun entries _ => ?_
  refine (keeps_forM fun entry => ?_).bind fun _ _ => keeps_pure trivial
  exact (keeps_meetKey _).bind fun _ _ => keeps_meet _

theorem keeps_pairEntries (number : Nat) : Keeps graph (fun _ => True) (pairEntries number) := by
  refine (keeps_nodeAt number).bind fun node _ => ?_
  split
  · refine keeps_mapM fun item => (keeps_mappingAt item).bind fun entries _ => ?_
    split
    · exact (keeps_meet _).bind fun _ _ => (keeps_meet _).bind fun _ _ => keeps_pure trivial
    · exact keeps_malformed
  · exact keeps_malformed

theorem keeps_fill (number : Nat) : Keeps graph (fun _ => True) (fill number) := by
  refine (keeps_nodeAt number).bind fun node _ => ?_
  have stored {made : Made} (collects : ∀ value, made ≠ .scalar value) :
      Keeps graph (fun _ => True) (store number made) :=
    keeps_store _ fun value same => absurd same (collects value)
  split
  · exact (keeps_forM keeps_meet).bind fun _ _ => stored fun _ impossible => by cases impossible
  · exact (keeps_mappingEntries _).bind fun _ _ => stored fun _ impossible => by cases impossible
  · exact (keeps_mappingEntries _).bind fun _ _ => stored fun _ impossible => by cases impossible
  · exact (keeps_pairEntries _).bind fun _ _ => stored fun _ impossible => by cases impossible
  · exact (keeps_pairEntries _).bind fun _ _ => stored fun _ impossible => by cases impossible
  · exact keeps_malformed

theorem keeps_fillAll (fuel : Nat) : Keeps graph (fun _ => True) (fillAll fuel) := by
  induction fuel with
  | zero => exact keeps_pure trivial
  | succ fuel ih =>
      unfold fillAll
      refine keeps_get fun s _ => ?_
      split
      · exact keeps_pure trivial
      · next rest _ =>
          have waits : Keeps graph (fun _ => True) (modify fun s => { s with queue := rest }) :=
            fun _ stems => .ok ⟨trivial, stems.nodes, stems.scalars⟩
          exact waits.bind fun _ _ => (keeps_fill _).bind fun _ _ => ih

end Steps

end Maker

/-! ### Keys of unfolded mappings -/

section Unfolding

variable {graph : Graph} {key : Nat × Value} {value : Value}

theorem mem_putNode {before : List ((Nat × Value) × Value)} {entry : (Nat × Value) × Value}
    (member : entry ∈ putNode graph key value before) :
    (entry.1 = key ∨ entry.1 ∈ before.map Prod.fst) ∧
      (entry.2 = value ∨ entry.2 ∈ before.map Prod.snd) := by
  induction before with
  | nil =>
      rw [List.mem_singleton.mp member]
      exact ⟨.inl rfl, .inl rfl⟩
  | cons head rest ih =>
      obtain ⟨first, given⟩ := head
      rw [putNode] at member
      split at member
      · obtain rfl | later := List.mem_cons.mp member
        · exact ⟨.inr List.mem_cons_self, .inl rfl⟩
        · exact ⟨.inr (List.mem_map_of_mem (List.mem_cons_of_mem _ later)),
            .inr (List.mem_map_of_mem (List.mem_cons_of_mem _ later))⟩
      · obtain rfl | later := List.mem_cons.mp member
        · exact ⟨.inr List.mem_cons_self, .inr List.mem_cons_self⟩
        · exact ⟨(ih later).1.imp_right (List.mem_cons_of_mem _),
            (ih later).2.imp_right (List.mem_cons_of_mem _)⟩

/-- A text is one key with itself only. -/
theorem sameNode_iff_of_text {first second : Nat × Value} {name : String}
    (text : second.2 = .str name) : sameNode graph first second ↔ first.2 = .str name := by
  obtain ⟨number, key⟩ := first
  obtain ⟨other, rfl⟩ : ∃ other, second = (other, .str name) := ⟨second.1, Prod.ext rfl text⟩
  rw [← Value.sameKey_str_iff]
  cases key <;> rfl

/-- Keys and values of nodes, without the numbers of the keys. -/
def valuesOf (entries : List ((Nat × Value) × Value)) : Entries :=
  entries.map fun entry => (entry.1.2, entry.2)

theorem distinct_putNode {before : List ((Nat × Value) × Value)}
    (distinct : (valuesOf before).Distinct) :
    (valuesOf (putNode graph key value before)).Distinct := by
  induction before with
  | nil => exact Entries.distinct_cons.mpr ⟨fun _ _ => List.forall_mem_nil _, Entries.distinct_nil⟩
  | cons head rest ih =>
      obtain ⟨⟨number, first⟩, given⟩ := head
      obtain ⟨fresh, distinct⟩ := Entries.distinct_cons.mp distinct
      rw [putNode]
      split
      · exact Entries.distinct_cons.mpr ⟨fresh, distinct⟩
      · next other =>
          refine Entries.distinct_cons.mpr ⟨fun name same entry member => ?_, ih distinct⟩
          obtain ⟨put, listed, rfl⟩ := List.mem_map.mp member
          obtain new | before := (mem_putNode listed).1
          · intro again
            exact other ((sameNode_iff_of_text (new ▸ again)).mpr same)
          · obtain ⟨old, listed, place⟩ := List.mem_map.mp before
            exact place ▸ fresh name same (old.1.2, old.2) (List.mem_map_of_mem listed)

/-- Entries put one after the other are distinct, and their values come from those given. -/
theorem distinct_foldl_putNode (entries : List ((Nat × Value) × Value))
    {before : List ((Nat × Value) × Value)} (distinct : (valuesOf before).Distinct) :
    (valuesOf (entries.foldl (fun united entry => putNode graph entry.1 entry.2 united)
      before)).Distinct ∧
    ∀ entry ∈ entries.foldl (fun united entry => putNode graph entry.1 entry.2 united) before,
      entry.2 ∈ before.map Prod.snd ∨ entry.2 ∈ entries.map Prod.snd := by
  induction entries generalizing before with
  | nil => exact ⟨distinct, fun _ member => .inl (List.mem_map_of_mem member)⟩
  | cons entry rest ih =>
      obtain ⟨distinct, holds⟩ := ih (distinct_putNode distinct)
      refine ⟨distinct, fun other member => ?_⟩
      obtain given | later := holds other member
      · obtain ⟨put, listed, same⟩ := List.mem_map.mp given
        rw [← same]
        exact (mem_putNode listed).2.elim (fun new => .inr (new ▸ List.mem_cons_self)) .inl
      · exact .inr (List.mem_cons_of_mem _ later)

theorem uniteKeys_spec (entries : List ((Nat × Value) × Value)) :
    (uniteKeys graph entries).Distinct ∧
      ∀ entry ∈ uniteKeys graph entries, entry.2 ∈ entries.map Prod.snd := by
  obtain ⟨distinct, holds⟩ := @distinct_foldl_putNode graph entries [] Entries.distinct_nil
  refine ⟨distinct, fun entry member => ?_⟩
  obtain ⟨put, listed, rfl⟩ := List.mem_map.mp member
  exact (holds put listed).resolve_left List.not_mem_nil

/-- Unfolded maps have no text as a key twice. -/
theorem keyed_unfold {made : Array (Option Made)} (scalars : ∀ (number : Nat) (value : Value),
      made[number]? = some (some (.scalar value)) → value.isCollection = false)
    (fuel : Nat) (path : List Nat) (number : Nat) : (unfold graph made fuel path number).Keyed := by
  induction fuel generalizing path number with
  | zero => exact .other rfl
  | succ fuel ih =>
      rw [unfold]
      simp only
      split
      · next value found =>
          refine .other ?_
          have solid := scalars number value found
          cases value <;> first | rfl | cases solid
      · split
        · exact .other rfl
        · refine .list fun item member => ?_
          obtain ⟨inner, -, rfl⟩ := List.mem_map.mp member
          exact ih _ _
      · split
        · exact .other rfl
        · obtain ⟨distinct, holds⟩ := @uniteKeys_spec graph _
          refine .map distinct fun entry member => ?_
          obtain ⟨put, listed, same⟩ := List.mem_map.mp (holds entry member)
          obtain ⟨pair, -, rfl⟩ := List.mem_map.mp listed
          rw [← same]
          exact ih _ _
      · split <;> exact .other rfl
      · split
        · exact .other rfl
        · refine .list fun item member => ?_
          obtain ⟨pair, -, rfl⟩ := List.mem_map.mp member
          exact .other rfl
      · exact .other rfl

end Unfolding

/-- Why reading a text fails, by what stands in it. -/
inductive TextShows (text : String) : Fault → Prop
  | malformed : TextShows text .malformed
  | codePoint {digits : List Char} (escape : FarEscape text.toList digits) :
      TextShows text (.codePoint (hexValue digits))
  | directive {row : List Char} (long : LongRow text.toList row) :
      TextShows text (.whole (.tooManyDigits row.length))
  | node {graph : Graph} {root : Option Nat} {fault : Fault}
      (reads : Graph.ofText text = .ok (graph, root)) (shown : graph.Shows fault) :
      TextShows text fault

/-- Reading a text fails only as the text and its nodes show, and what is read has no text as a key
of a map twice. -/
theorem settles_read (text : String) : Settles Value.Keyed (TextShows text) (read text) := by
  have settled := Graph.settles_ofText text
  unfold read
  split
  · exact .error .malformed
  · next code outcome =>
      rw [outcome] at settled
      obtain ⟨digits, escape, rfl⟩ := settled.bad_of_error
      exact .error (.codePoint escape)
  · next count outcome =>
      rw [outcome] at settled
      obtain ⟨row, long, rfl⟩ := settled.bad_of_error
      exact .error (.directive long)
  · exact .ok (.other rfl)
  · next graph root outcome =>
      have made := ((@Maker.keeps_meet graph root).bind fun _ _ =>
        Maker.keeps_fillAll (graph.size + 1))
        ⟨graph, entryCount graph, Array.replicate graph.size none, []⟩
        ⟨fun number node found => ⟨node, found, .refl node⟩, fun number value found => by
          rw [Array.getElem?_replicate] at found
          split at found <;> cases found⟩
      refine Settles.bind (?_ : Settles (fun result => result.2.Stems graph) _ _)
        fun result stems => .ok (keyed_unfold stems.scalars _ _ _)
      cases ends : StateT.run (do Maker.meet root; Maker.fillAll (graph.size + 1))
          ⟨graph, entryCount graph, Array.replicate graph.size none, []⟩ with
      | ok result =>
          rw [ends] at made
          exact .ok made.good_of_ok.2
      | error fault =>
          rw [ends] at made
          exact .error (.node outcome made.bad_of_error)

end Yaml

end MemberOrder
