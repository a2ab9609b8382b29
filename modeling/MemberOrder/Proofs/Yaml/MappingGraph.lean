import MemberOrder.Yaml.Graph

/-!
# Nodes of mappings with words as keys

A piece is a row of tokens with the nodes that they are read into. A word is such a piece, and so is
a mapping of words to pieces, in a block or between braces: its node comes before those of its
entries (`Yaml.Piece.reads_block`, `Yaml.Piece.reads_flow`). Tokens that hold nothing but a piece
are read into its nodes (`Yaml.run_document`).
-/

namespace MemberOrder

namespace Yaml

theorem run_bind_of_ok {ε σ α β : Type} {first : StateT σ (Except ε) α}
    {next : α → StateT σ (Except ε) β} {s after : σ} {value : α}
    (steps : first.run s = .ok (value, after)) :
    (first >>= next).run s = (next value).run after := by
  change (first.run s >>= fun result => (next result.1).run result.2) = _
  rw [steps]
  rfl

theorem modify_push_append {α : Type} (before : Array α) (item : α) (later : List α) (f : α → α) :
    (before.push item ++ later.toArray).modify before.size f =
      before ++ (f item :: later).toArray := by
  apply Array.ext_getElem?
  intro place
  rw [Array.getElem?_modify]
  simp only [Array.getElem?_append, Array.getElem?_push, Array.size_push]
  grind

/-- A row of tokens, and the nodes that they are read into by the number of the first of these. -/
structure Piece where
  tokens : List Token
  nodes : Nat → List GraphNode

/-- The node of a word. -/
def wordNode (plain : Bool) (text : String) : GraphNode :=
  ⟨Reader.scalarTag none plain text, .scalar text⟩

/-- A word with a piece as its value. -/
structure Item where
  key : String
  plain : Bool
  value : Piece

namespace Item

def tokens (item : Item) : List Token :=
  .key :: .scalar item.key item.plain :: .value :: item.value.tokens

theorem length_tokens (item : Item) : item.tokens.length = item.value.tokens.length + 3 := rfl

/-- The nodes of a key and its value, the first of them with a number. -/
def nodes (number : Nat) (item : Item) : List GraphNode :=
  wordNode item.plain item.key :: item.value.nodes (number + 1)

/-- The numbers of the keys and values of items, the first of them with a number. -/
def numbers : Nat → List Item → List (Nat × Nat)
  | _, [] => []
  | number, item :: rest =>
    (number, number + 1) :: numbers (number + (item.nodes number).length) rest

/-- The nodes of items, the first of them with a number. -/
def allNodes : Nat → List Item → List GraphNode
  | _, [] => []
  | number, item :: rest =>
    item.nodes number ++ allNodes (number + (item.nodes number).length) rest

end Item

namespace Piece

def word (plain : Bool) (text : String) : Piece := ⟨[.scalar text plain], fun _ => [wordNode plain text]⟩

/-- The nodes of a mapping. -/
def mapNodes (items : List Item) (number : Nat) : List GraphNode :=
  ⟨.map, .mapping (Item.numbers (number + 1) items)⟩ :: Item.allNodes (number + 1) items

def block (items : List Item) : Piece :=
  ⟨.blockMappingStart :: ((items.map Item.tokens).flatten ++ [.blockEnd]), mapNodes items⟩

def flow (items : List Item) : Piece :=
  ⟨.flowMappingStart :: (List.intercalate [.flowEntry] (items.map Item.tokens) ++ [.flowMappingEnd]),
    mapNodes items⟩

/-- The tokens that may come behind a key or a value. -/
def marks : List Token := [.key, .value, .blockEnd, .flowEntry, .flowMappingEnd]

/-- Whether a piece is read into its nodes, in blocks or between braces. -/
structure Reads (inBlock : Bool) (piece : Piece) : Prop where
  begins : ∃ first rest, piece.tokens = first :: rest ∧ first ∉ marks
  node : ∀ ⦃fuel : Nat⦄, piece.tokens.length ≤ fuel → ∀ (indentless : Bool) (rest : List Token)
    (fault : Option ReadFault) (handles : List (String × String)) (nodes : Graph)
    (anchors : List (String × Nat)),
    (Reader.node inBlock indentless fuel).run
        ⟨piece.tokens ++ rest, fault, handles, nodes, anchors⟩ =
      .ok (nodes.size,
        ⟨rest, fault, handles, nodes ++ (piece.nodes nodes.size).toArray, anchors⟩)

end Piece

section Steps

variable {first : Token} {rest : List Token} {fault : Option ReadFault}
  {handles : List (String × String)} {nodes : Graph} {anchors : List (String × Nat)}

theorem run_peek : Reader.peek.run ⟨first :: rest, fault, handles, nodes, anchors⟩ =
    .ok (first, ⟨first :: rest, fault, handles, nodes, anchors⟩) := rfl

theorem run_skip : Reader.skip.run ⟨first :: rest, fault, handles, nodes, anchors⟩ =
    .ok ((), ⟨rest, fault, handles, nodes, anchors⟩) := rfl

theorem run_accept_same :
    (Reader.accept first).run ⟨first :: rest, fault, handles, nodes, anchors⟩ =
      .ok (true, ⟨rest, fault, handles, nodes, anchors⟩) := by
  refine (run_bind_of_ok run_peek).trans ?_
  rw [if_pos rfl]
  rfl

theorem run_accept_other {other : Token} (apart : first ≠ other) :
    (Reader.accept other).run ⟨first :: rest, fault, handles, nodes, anchors⟩ =
      .ok (false, ⟨first :: rest, fault, handles, nodes, anchors⟩) := by
  refine (run_bind_of_ok run_peek).trans ?_
  rw [if_neg apart]
  rfl

theorem run_nodeUnless {ends : List Token} {block indentless : Bool} {fuel : Nat}
    (apart : first ∉ ends) :
    (Reader.nodeUnless ends block indentless (fuel + 1)).run
        ⟨first :: rest, fault, handles, nodes, anchors⟩ =
      (Reader.node block indentless fuel).run
        ⟨first :: rest, fault, handles, nodes, anchors⟩ := by
  have goesOn : (Reader.endsEntry ends).run ⟨first :: rest, fault, handles, nodes, anchors⟩ =
      .ok (false, ⟨first :: rest, fault, handles, nodes, anchors⟩) := by
    refine (run_bind_of_ok run_peek).trans ?_
    rw [show ends.contains first = false by simpa using apart]
    rfl
  rw [Reader.nodeUnless]
  exact run_bind_of_ok goesOn

theorem reads_word (inBlock : Bool) (plain : Bool) (text : String) :
    (Piece.word plain text).Reads inBlock := by
  refine ⟨⟨_, _, rfl, nofun⟩, fun fuel enough indentless rest fault handles nodes anchors => ?_⟩
  obtain ⟨fuel, rfl⟩ := Nat.exists_eq_add_one.mpr enough
  have pushed : nodes ++ ((Piece.word plain text).nodes nodes.size).toArray =
      nodes.push (wordNode plain text) := by simp [Piece.word]
  rw [Reader.node, pushed]
  cases indentless <;> rfl

/-- A mapping gets its number first and its entries when they are read. -/
theorem run_mapping {inBlock indentless : Bool} {fuel : Nat} {entries : List (Nat × Nat)}
    {more : List GraphNode} {left : List Token}
    (opens : first = .blockMappingStart ∧ inBlock = true ∨ first = .flowMappingStart)
    (reads : (if first = .blockMappingStart then Reader.blockEntries fuel
        else Reader.flowEntries true fuel).run
      ⟨rest, fault, handles, nodes.push ⟨.map, .mapping []⟩, anchors⟩ =
        .ok (entries,
          ⟨left, fault, handles, nodes.push ⟨.map, .mapping []⟩ ++ more.toArray, anchors⟩)) :
    (Reader.node inBlock indentless (fuel + 1)).run
        ⟨first :: rest, fault, handles, nodes, anchors⟩ =
      .ok (nodes.size,
        ⟨left, fault, handles, nodes ++ (⟨.map, .mapping entries⟩ :: more).toArray, anchors⟩) := by
  have filled : (nodes.push ⟨.map, .mapping []⟩ ++ more.toArray).modify nodes.size
      (fun node => { node with content := .mapping entries }) =
        nodes ++ (⟨.map, .mapping entries⟩ :: more).toArray := modify_push_append ..
  have mapping (next : Reader (List (Nat × Nat))) (reads : next.run
      ⟨rest, fault, handles, nodes.push ⟨.map, .mapping []⟩, anchors⟩ = .ok (entries,
        ⟨left, fault, handles, nodes.push ⟨.map, .mapping []⟩ ++ more.toArray, anchors⟩)) :
      (do
        let number ← Reader.addNode none ⟨Reader.collectionTag none .map, .mapping []⟩
        Reader.fill number (.mapping (← next))
        return number).run ⟨rest, fault, handles, nodes, anchors⟩ = .ok (nodes.size,
          ⟨left, fault, handles, nodes ++ (⟨.map, .mapping entries⟩ :: more).toArray,
            anchors⟩) := by
    refine (run_bind_of_ok rfl).trans ((run_bind_of_ok reads).trans ?_)
    rw [← filled]
    rfl
  rw [Reader.node]
  obtain ⟨rfl, rfl⟩ | rfl := opens
  · cases indentless <;> exact mapping _ reads
  · cases indentless <;> cases inBlock <;> exact mapping _ reads

variable {inBlock : Bool} {fuel : Nat} {ends : List Token}

theorem run_nodeUnless_word (within : ends ⊆ Piece.marks) (indentless : Bool) (plain : Bool)
    (text : String) :
    (Reader.nodeUnless ends inBlock indentless (fuel + 2)).run
        ⟨.scalar text plain :: rest, fault, handles, nodes, anchors⟩ =
      .ok (nodes.size, ⟨rest, fault, handles, nodes.push (wordNode plain text), anchors⟩) := by
  refine (run_nodeUnless fun listed => ?_).trans ?_
  · exact absurd (within listed) (by simp [Piece.marks])
  · have pushed : nodes.push (wordNode plain text) =
        nodes ++ ((Piece.word plain text).nodes nodes.size).toArray := by simp [Piece.word]
    rw [pushed]
    exact (reads_word inBlock plain text).node (Nat.le_add_left ..) indentless ..

theorem run_nodeUnless_piece {piece : Piece} (reads : piece.Reads inBlock)
    (within : ends ⊆ Piece.marks) (indentless : Bool)
    (enough : piece.tokens.length ≤ fuel) :
    (Reader.nodeUnless ends inBlock indentless (fuel + 1)).run
        ⟨piece.tokens ++ rest, fault, handles, nodes, anchors⟩ =
      .ok (nodes.size,
        ⟨rest, fault, handles, nodes ++ (piece.nodes nodes.size).toArray, anchors⟩) := by
  obtain ⟨first, later, begun, apart⟩ := reads.begins
  have node := reads.node enough indentless rest fault handles nodes anchors
  rw [begun] at node ⊢
  exact (run_nodeUnless fun listed => apart (within listed)).trans node

/-- A key and its value are read before what comes after them. -/
theorem run_item {α : Type} {next : Nat → Nat → Reader α} {item : Item}
    (reads : item.value.Reads inBlock) {keyEnds valueEnds : List Token}
    (within : keyEnds ⊆ Piece.marks ∧ valueEnds ⊆ Piece.marks) (indentless : Bool)
    (enough : item.value.tokens.length ≤ fuel + 1) :
    (Reader.nodeUnless keyEnds inBlock indentless (fuel + 2) >>= fun key =>
      Reader.accept .value >>= fun given =>
        if given then Reader.nodeUnless valueEnds inBlock indentless (fuel + 2) >>= next key
        else Reader.emptyNode >>= next key).run
        ⟨.scalar item.key item.plain :: .value :: (item.value.tokens ++ rest), fault, handles,
          nodes, anchors⟩ =
      (next nodes.size (nodes.size + 1)).run
        ⟨rest, fault, handles, nodes ++ (item.nodes nodes.size).toArray, anchors⟩ := by
  refine (run_bind_of_ok (run_nodeUnless_word within.1 ..)).trans ?_
  refine (run_bind_of_ok run_accept_same).trans ?_
  refine (run_bind_of_ok (run_nodeUnless_piece reads within.2 indentless enough)).trans ?_
  simp [Item.nodes]

theorem run_blockEntries {items : List Item} (each : ∀ item ∈ items, item.value.Reads true)
    (enough : (items.map Item.tokens).flatten.length < fuel) :
    (Reader.blockEntries fuel).run ⟨(items.map Item.tokens).flatten ++ .blockEnd :: rest, fault,
        handles, nodes, anchors⟩ =
      .ok (Item.numbers nodes.size items,
        ⟨rest, fault, handles, nodes ++ (Item.allNodes nodes.size items).toArray, anchors⟩) := by
  induction items generalizing fuel nodes with
  | nil =>
      obtain ⟨fuel, rfl⟩ := Nat.exists_eq_add_one.mpr (Nat.zero_lt_of_lt enough)
      rw [List.map_nil, List.flatten_nil, List.nil_append, Reader.blockEntries]
      refine (run_bind_of_ok (run_accept_other (by decide))).trans ?_
      refine (run_bind_of_ok run_accept_same).trans ?_
      rw [Item.allNodes, Array.append_empty]
      rfl
  | cons item items ih =>
      obtain ⟨first, later⟩ := List.forall_mem_cons.mp each
      rw [List.map_cons, List.flatten_cons, List.length_append, Item.length_tokens] at enough
      obtain ⟨fuel, rfl⟩ : ∃ less, fuel = less + 3 := ⟨fuel - 3, by omega⟩
      have goesOn := @ih (nodes ++ (item.nodes nodes.size).toArray) (fuel + 2) later (by omega)
      have split : ((item :: items).map Item.tokens).flatten ++ .blockEnd :: rest =
          .key :: .scalar item.key item.plain :: .value :: (item.value.tokens ++
            ((items.map Item.tokens).flatten ++ .blockEnd :: rest)) := by simp [Item.tokens]
      rw [split, Reader.blockEntries]
      refine (run_bind_of_ok run_accept_same).trans ?_
      refine (run_item first (by decide) true (by omega)).trans ?_
      refine (run_bind_of_ok goesOn).trans ?_
      simp [Item.numbers, Item.allNodes]
      rfl

/-- Items with a comma in front of each, as they stand after the first. -/
def laterTokens (items : List Item) : List Token :=
  (items.map fun item => .flowEntry :: item.tokens).flatten

theorem intercalate_tokens (item : Item) (items : List Item) :
    List.intercalate [.flowEntry] ((item :: items).map Item.tokens) =
      item.tokens ++ laterTokens items := by
  induction items generalizing item with
  | nil => simp [laterTokens]
  | cons next items ih =>
      have joined := ih next
      rw [List.map_cons] at joined
      rw [List.map_cons, List.map_cons, List.intercalate_cons_cons, joined]
      simp [laterTokens]

theorem run_flowLater {items : List Item} (each : ∀ item ∈ items, item.value.Reads false)
    (enough : (laterTokens items).length < fuel) :
    (Reader.flowEntries false fuel).run ⟨laterTokens items ++ .flowMappingEnd :: rest, fault,
        handles, nodes, anchors⟩ =
      .ok (Item.numbers nodes.size items,
        ⟨rest, fault, handles, nodes ++ (Item.allNodes nodes.size items).toArray, anchors⟩) := by
  induction items generalizing fuel nodes with
  | nil =>
      obtain ⟨fuel, rfl⟩ := Nat.exists_eq_add_one.mpr (Nat.zero_lt_of_lt enough)
      rw [laterTokens, List.map_nil, List.flatten_nil, List.nil_append, Reader.flowEntries]
      refine (run_bind_of_ok run_accept_same).trans ?_
      rw [Item.allNodes, Array.append_empty]
      rfl
  | cons item items ih =>
      obtain ⟨first, later⟩ := List.forall_mem_cons.mp each
      have split : laterTokens (item :: items) = .flowEntry :: (item.tokens ++ laterTokens items) :=
        rfl
      rw [split, List.length_cons, List.length_append, Item.length_tokens] at enough
      obtain ⟨fuel, rfl⟩ : ∃ less, fuel = less + 3 := ⟨fuel - 3, by omega⟩
      have goesOn := @ih (nodes ++ (item.nodes nodes.size).toArray) (fuel + 2) later (by omega)
      rw [split, List.cons_append, List.append_assoc, Reader.flowEntries]
      refine (run_bind_of_ok (run_accept_other (by decide))).trans ?_
      refine (run_bind_of_ok run_accept_same).trans ?_
      refine (run_bind_of_ok run_peek).trans ?_
      refine (run_bind_of_ok run_skip).trans ?_
      refine (run_item first (by decide) false (by omega)).trans ?_
      refine (run_bind_of_ok goesOn).trans ?_
      simp [Item.numbers, Item.allNodes]
      rfl

theorem run_flowEntries {items : List Item} (some : items ≠ [])
    (each : ∀ item ∈ items, item.value.Reads false)
    (enough : (List.intercalate [.flowEntry] (items.map Item.tokens)).length < fuel) :
    (Reader.flowEntries true fuel).run ⟨List.intercalate [.flowEntry] (items.map Item.tokens) ++
        .flowMappingEnd :: rest, fault, handles, nodes, anchors⟩ =
      .ok (Item.numbers nodes.size items,
        ⟨rest, fault, handles, nodes ++ (Item.allNodes nodes.size items).toArray, anchors⟩) := by
  obtain ⟨item, items, rfl⟩ := List.exists_cons_of_ne_nil some
  obtain ⟨first, later⟩ := List.forall_mem_cons.mp each
  rw [intercalate_tokens, List.length_append, Item.length_tokens] at enough
  obtain ⟨fuel, rfl⟩ : ∃ less, fuel = less + 3 := ⟨fuel - 3, by omega⟩
  have goesOn := @run_flowLater rest fault handles (nodes ++ (item.nodes nodes.size).toArray)
    anchors (fuel + 2) items later (by omega)
  rw [intercalate_tokens, List.append_assoc, Reader.flowEntries]
  refine (run_bind_of_ok (run_accept_other (by decide))).trans ?_
  refine (run_bind_of_ok run_peek).trans ?_
  refine (run_bind_of_ok run_skip).trans ?_
  refine (run_item first (by decide) false (by omega)).trans ?_
  refine (run_bind_of_ok goesOn).trans ?_
  simp [Item.numbers, Item.allNodes]
  rfl

/-! ### Mappings and documents -/

theorem Piece.reads_block {items : List Item} (each : ∀ item ∈ items, item.value.Reads true) :
    (Piece.block items).Reads true := by
  refine ⟨⟨_, _, rfl, nofun⟩, fun fuel enough indentless rest fault handles nodes anchors => ?_⟩
  rw [Piece.block, List.length_cons, List.length_append, List.length_singleton] at enough
  obtain ⟨fuel, rfl⟩ : ∃ less, fuel = less + 1 := ⟨fuel - 1, by omega⟩
  have read := @run_blockEntries rest fault handles (nodes.push ⟨.map, .mapping []⟩) anchors fuel
    items each (by omega)
  rw [Array.size_push] at read
  have split : (Piece.block items).tokens ++ rest = .blockMappingStart ::
      ((items.map Item.tokens).flatten ++ .blockEnd :: rest) := by simp [Piece.block]
  rw [split]
  exact run_mapping (.inl ⟨rfl, rfl⟩) read

theorem Piece.reads_flow {items : List Item} (some : items ≠ [])
    (each : ∀ item ∈ items, item.value.Reads false) : (Piece.flow items).Reads inBlock := by
  refine ⟨⟨_, _, rfl, nofun⟩, fun fuel enough indentless rest fault handles nodes anchors => ?_⟩
  rw [Piece.flow, List.length_cons, List.length_append, List.length_singleton] at enough
  obtain ⟨fuel, rfl⟩ : ∃ less, fuel = less + 1 := ⟨fuel - 1, by omega⟩
  have read := @run_flowEntries rest fault handles (nodes.push ⟨.map, .mapping []⟩) anchors fuel
    items some each (by omega)
  rw [Array.size_push] at read
  have split : (Piece.flow items).tokens ++ rest = .flowMappingStart ::
      (List.intercalate [.flowEntry] (items.map Item.tokens) ++ .flowMappingEnd :: rest) := by
    simp [Piece.flow]
  rw [split]
  exact run_mapping (.inr rfl) read

/-- A document that is nothing but a mapping. -/
theorem run_document {piece : Piece} (reads : piece.Reads true)
    (starts : piece.tokens.head? = some .blockMappingStart ∨
      piece.tokens.head? = some .flowMappingStart) :
    Reader.document.run ⟨piece.tokens ++ [.streamEnd], none, [], #[], []⟩ =
      .ok (some 0, ⟨[.streamEnd], none, Reader.defaultHandles, (piece.nodes 0).toArray, []⟩) := by
  have enough : piece.tokens.length ≤ 4 * (piece.tokens ++ [Token.streamEnd]).length + 8 := by
    rw [List.length_append]
    omega
  have node := reads.node enough false [.streamEnd] none Reader.defaultHandles #[] []
  rw [Array.size_empty, Array.empty_append] at node
  have ended (nodes : Graph) : Reader.document.closing.run
      ⟨[.streamEnd], none, Reader.defaultHandles, nodes, []⟩ =
        .ok ((), ⟨[.streamEnd], none, Reader.defaultHandles, nodes, []⟩) := rfl
  have implicit (first : Reading.State) (node : (Reader.node true false
      (4 * (piece.tokens ++ [Token.streamEnd]).length + 8)).run first = .ok (0,
        ⟨[.streamEnd], none, Reader.defaultHandles, (piece.nodes 0).toArray, []⟩)) :
      (Reader.node true false (4 * (piece.tokens ++ [Token.streamEnd]).length + 8) >>= fun root =>
        Reader.document.closing >>= fun _ => pure (some root)).run first = .ok (some 0,
          ⟨[.streamEnd], none, Reader.defaultHandles, (piece.nodes 0).toArray, []⟩) :=
    (run_bind_of_ok node).trans (run_bind_of_ok (ended _))
  cases listed : piece.tokens with
  | nil =>
      rw [listed] at starts
      obtain ⟨⟨⟩⟩ | ⟨⟨⟩⟩ := starts
  | cons first rest =>
      rw [listed] at starts node implicit
      rw [List.head?_cons, Option.some_inj, Option.some_inj] at starts
      obtain rfl | rfl := starts
      · exact implicit _ node
      · exact implicit _ node

end Steps

/-- The graph of a text whose tokens are those of a mapping. -/
theorem Graph.ofText_of_tokens {text : String} {piece : Piece} (reads : piece.Reads true)
    (starts : piece.tokens.head? = some .blockMappingStart ∨
      piece.tokens.head? = some .flowMappingStart)
    (cut : Yaml.tokens text.toList = ((piece.tokens ++ [Token.streamEnd]).toArray, none)) :
    Graph.ofText text = .ok ((piece.nodes 0).toArray, some 0) := by
  unfold Graph.ofText
  rw [cut]
  simp only [run_document reads starts]
  rfl

end Yaml

end MemberOrder
