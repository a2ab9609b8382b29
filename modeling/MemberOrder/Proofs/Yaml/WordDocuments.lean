import MemberOrder.Proofs.Value.Unshared
import MemberOrder.Proofs.Yaml.BlockScan
import MemberOrder.Proofs.Yaml.FlowScan
import MemberOrder.Proofs.Yaml.PlainMappings
import MemberOrder.Yaml.Writer

/-!
# Documents of words

Truth values, whole numbers and texts that are written as one word make up fields, and fields make
up the parts of a document. A document with its parts below one another, and one with them between
braces, are both read as a value that differs from the written one in its marks only
(`Yaml.read_blockText`, `Yaml.read_flowText`).
-/

namespace MemberOrder

namespace Yaml

/-! ### What the nodes of a piece mean -/

/-- Whether nodes stand in a graph one after the other, the first of them with a number. -/
def Graph.Lists (graph : Graph) (number : Nat) (nodes : List GraphNode) : Prop :=
  ∀ (place : Nat) (node : GraphNode), nodes[place]? = some node →
    graph[number + place]? = some node

/-- Whether the nodes of a piece spell a value, up to marks. -/
def Piece.Means (piece : Piece) (value : Value) : Prop :=
  ∀ (graph : Graph) (number : Nat), graph.Lists number (piece.nodes number) →
    ∃ given, graph.Spells number given ∧ given.unshared = some value

section Meaning

variable {graph : Graph} {number : Nat} {node : GraphNode} {nodes first later : List GraphNode}

theorem Graph.lists_cons : graph.Lists number (node :: nodes) ↔
    graph[number]? = some node ∧ graph.Lists (number + 1) nodes := by
  constructor
  · intro lists
    refine ⟨lists 0 node rfl, fun place other found => ?_⟩
    rw [Nat.add_assoc, Nat.add_comm 1]
    exact lists (place + 1) other found
  · rintro ⟨head, rest⟩ (_ | place) other found
    · cases found
      exact head
    · have there := rest place other found
      rwa [Nat.add_assoc, Nat.add_comm 1] at there

theorem Graph.lists_append : graph.Lists number (first ++ later) ↔
    graph.Lists number first ∧ graph.Lists (number + first.length) later := by
  induction first generalizing number with
  | nil => simp [Graph.Lists]
  | cons node first ih =>
      rw [List.cons_append, lists_cons, lists_cons, ih, and_assoc, List.length_cons, Nat.add_assoc,
        Nat.add_comm 1]

theorem Graph.lists_toArray (nodes : List GraphNode) : Graph.Lists nodes.toArray 0 nodes :=
  fun place node found => by rwa [Nat.zero_add, List.getElem?_toArray]

/-- Whether the key of an item is a text to the reader. -/
def Item.Named (item : Item) : Prop :=
  scalarValue (Reader.scalarTag none item.plain item.key) item.key = .ok (.str item.key)

theorem Piece.means_word {plain : Bool} {text : String} {value : Value}
    (reads : scalarValue (Reader.scalarTag none plain text) text = .ok value)
    (single : ∀ number, (marked number value).unshared = some value) :
    (Piece.word plain text).Means value := fun _ number lists =>
  ⟨marked number value, .scalar (Graph.lists_cons.mp lists).1 rfl reads, single number⟩

section Rows

variable {ι : Type} {rows : List ι} {item : ι → Item} {value : ι → Value}

/-- The keys and values of items, with their numbers. -/
theorem exists_spelled (named : ∀ row ∈ rows, (item row).Named)
    (means : ∀ row ∈ rows, (item row).value.Means (value row))
    (lists : graph.Lists number (Item.allNodes number (rows.map item))) :
    ∃ items : List ((Nat × Nat) × String × Value),
      items.map Prod.fst = Item.numbers number (rows.map item) ∧
      items.map (fun given => given.2.1) = rows.map (fun row => (item row).key) ∧
      (∀ given ∈ items, graph.HasText given.1.1 given.2.1 ∧ graph.Spells given.1.2 given.2.2 ∧
        number < given.1.2) ∧
      Value.unsharedEntries (Entries.ofFields (items.map Prod.snd)) =
        some (Entries.ofFields (rows.map fun row => ((item row).key, value row))) := by
  induction rows generalizing number with
  | nil => exact ⟨[], rfl, rfl, List.forall_mem_nil _, rfl⟩
  | cons row rest ih =>
      obtain ⟨key, keys⟩ := List.forall_mem_cons.mp named
      obtain ⟨meaning, meanings⟩ := List.forall_mem_cons.mp means
      obtain ⟨here, there⟩ := Graph.lists_append.mp lists
      obtain ⟨word, below⟩ := Graph.lists_cons.mp here
      obtain ⟨given, spells, same⟩ := meaning graph (number + 1) below
      obtain ⟨items, numbers, names, spelled, entries⟩ := ih keys meanings there
      refine ⟨((number, number + 1), (item row).key, given) :: items, ?_, ?_, ?_, ?_⟩
      · rw [List.map_cons, numbers]
        rfl
      · rw [List.map_cons, names]
        rfl
      · refine List.forall_mem_cons.mpr ⟨⟨⟨_, _, word, rfl, key⟩, spells, Nat.lt_succ_self _⟩,
          fun other member => ?_⟩
        obtain ⟨text, value, later⟩ := spelled other member
        exact ⟨text, value, Nat.lt_of_le_of_lt (Nat.le_add_right ..) later⟩
      · change Value.unsharedEntries
          ((.str (item row).key, given) :: Entries.ofFields (items.map Prod.snd)) = _
        rw [Value.unsharedEntries, same, entries]
        rfl

/-- A mapping of different words means the map of what its values mean. -/
theorem Piece.means_mapNodes {piece : Piece} (nodes : piece.nodes = Piece.mapNodes (rows.map item))
    (named : ∀ row ∈ rows, (item row).Named)
    (means : ∀ row ∈ rows, (item row).value.Means (value row))
    (distinct : (rows.map fun row => (item row).key).Nodup) :
    piece.Means
      (.map none (Entries.ofFields (rows.map fun row => ((item row).key, value row)))) := by
  intro graph number lists
  rw [nodes] at lists
  obtain ⟨mapping, below⟩ := Graph.lists_cons.mp lists
  obtain ⟨items, numbers, names, spelled, entries⟩ := exists_spelled named means below
  refine ⟨.map (some number) (Entries.ofFields (items.map Prod.snd)), .map ?_
    (fun given member => (spelled given member).1) (fun given member => (spelled given member).2.1)
    (fun given member => Nat.lt_of_succ_lt (spelled given member).2.2) ?_, ?_⟩
  · rw [numbers]
    exact mapping
  · rw [names]
    exact distinct
  · rw [Value.unshared, entries]
    rfl

end Rows

/-- A text whose tokens are those of a mapping is read as what the mapping means. -/
theorem exists_read_of_means {text : String} {piece : Piece} {value : Value}
    (reads : piece.Reads true) (means : piece.Means value)
    (starts : piece.tokens.head? = some .blockMappingStart ∨
      piece.tokens.head? = some .flowMappingStart)
    (cut : Yaml.tokens text.toList = ((piece.tokens ++ [Token.streamEnd]).toArray, none)) :
    ∃ given, read text = .ok given ∧ given.unshared = some value := by
  obtain ⟨given, spells, same⟩ := means _ 0 (Graph.lists_toArray _)
  exact ⟨given, read_of_spells (Graph.ofText_of_tokens reads starts cut) spells, same⟩

end Meaning

/-! ### Values that are words -/

/-- The text that a truth value, a whole number or a text is written as. -/
def wordText : Value → String
  | .bool truth => if truth then "true" else "false"
  | .int n => toString n
  | .str text => text
  | _ => ""

/-- Whether a value is shown without quotes everywhere. -/
def isBare : Value → Bool
  | .str _ => false
  | _ => true

/-- The tag of a truth value, a whole number or a text. -/
def wordTag : Value → NodeTag
  | .bool _ => .bool
  | .int _ => .int
  | _ => .str

/-- Whether a value is written as a word that is read as the value. -/
structure WordValue (value : Value) : Prop where
  isWord : IsWord (wordText value).toList
  tag : implicitTag (wordText value) = wordTag value
  reads : scalarValue (wordTag value) (wordText value) = .ok value

namespace WordValue

variable {value : Value}

theorem cases (isWord : WordValue value) :
    (∃ truth, value = .bool truth) ∨ (∃ n, value = .int n) ∨ ∃ text, value = .str text := by
  cases value with
  | bool truth => exact .inl ⟨truth, rfl⟩
  | int n => exact .inr (.inl ⟨n, rfl⟩)
  | str text => exact .inr (.inr ⟨text, rfl⟩)
  | _ => exact absurd rfl isWord.isWord.nonempty

theorem reads_implicit (isWord : WordValue value) :
    scalarValue (implicitTag (wordText value)) (wordText value) = .ok value := by
  rw [isWord.tag, isWord.reads]

theorem unshared_marked (isWord : WordValue value) (number : Nat) :
    (marked number value).unshared = some value := by
  obtain ⟨_, rfl⟩ | ⟨_, rfl⟩ | ⟨_, rfl⟩ := isWord.cases <;> rfl

/-- Only a word itself has the word as its copy. -/
theorem eq_of_unshared (isWord : WordValue value) {given : Value}
    (copy : given.unshared = some value) : given = value := by
  obtain ⟨_, rfl⟩ | ⟨_, rfl⟩ | ⟨_, rfl⟩ := isWord.cases <;> exact Value.eq_of_unshared rfl copy

/-- A word means its value, with quotes where there are some and without. -/
theorem means (isWord : WordValue value) {plain : Bool}
    (fits : plain = true ∨ plain = isBare value) :
    (Piece.word plain (wordText value)).Means value := by
  refine Piece.means_word ?_ isWord.unshared_marked
  obtain rfl | rfl := fits
  · exact isWord.reads_implicit
  · obtain ⟨_, rfl⟩ | ⟨_, rfl⟩ | ⟨_, rfl⟩ := isWord.cases
    · exact isWord.reads_implicit
    · exact isWord.reads_implicit
    · rfl

theorem named {text : String} (isWord : WordValue (.str text)) (plain : Bool) (piece : Piece) :
    Item.Named ⟨text, plain, piece⟩ := by
  cases plain with
  | true => exact isWord.reads_implicit
  | false => rfl

end WordValue

/-! ### Documents -/

/-- Fields by name. -/
abbrev Fields := List (String × Value)

/-- The parts of a document by name. -/
abbrev Parts := List (String × Fields)

/-- The value of a document. -/
def partsValue (parts : Parts) : Value :=
  .map none (Entries.ofFields (parts.map fun part => (part.1, .map none (Entries.ofFields part.2))))

/-- Whether there are fields, with different words as names and words as values. -/
structure WordFields (fields : Fields) : Prop where
  nonempty : fields ≠ []
  distinct : (fields.map Prod.fst).Nodup
  words : ∀ field ∈ fields, WordValue (.str field.1) ∧ WordValue field.2

/-- Whether there are parts, with different words as names and fields of words. -/
structure WordParts (parts : Parts) : Prop where
  nonempty : parts ≠ []
  distinct : (parts.map Prod.fst).Nodup
  words : ∀ part ∈ parts, WordValue (.str part.1) ∧ WordFields part.2

section Documents

variable {fields : Fields} {parts : Parts}

theorem map_eta (fields : Fields) : (fields.map fun field => (field.1, field.2)) = fields :=
  List.map_id' fields

/-- A mapping in a block or between braces. -/
def Piece.mapping (inBlock : Bool) (items : List Item) : Piece :=
  if inBlock then .block items else .flow items

/-- A field, in a block without any quotes and between braces with quotes around texts. -/
def fieldItem (inBlock : Bool) (field : String × Value) : Item :=
  ⟨field.1, inBlock, .word (inBlock || isBare field.2) (wordText field.2)⟩

def partItem (inBlock : Bool) (part : String × Fields) : Item :=
  ⟨part.1, inBlock, .mapping inBlock (part.2.map (fieldItem inBlock))⟩

theorem nodes_mapping (inBlock : Bool) (items : List Item) :
    (Piece.mapping inBlock items).nodes = Piece.mapNodes items := by
  cases inBlock <;> rfl

theorem means_fields (inBlock : Bool) (words : WordFields fields) :
    (Piece.mapping inBlock (fields.map (fieldItem inBlock))).Means
      (.map none (Entries.ofFields fields)) := by
  have means : (Piece.mapping inBlock (fields.map (fieldItem inBlock))).Means
      (.map none (Entries.ofFields (fields.map fun field => (field.1, field.2)))) :=
    Piece.means_mapNodes (nodes_mapping _ _)
      (fun field member => (words.words field member).1.named _ _)
      (fun field member => (words.words field member).2.means (by cases inBlock <;> simp))
      words.distinct
  rwa [map_eta] at means

theorem means_parts (inBlock : Bool) (words : WordParts parts) :
    (Piece.mapping inBlock (parts.map (partItem inBlock))).Means (partsValue parts) :=
  Piece.means_mapNodes (nodes_mapping _ _)
    (fun part member => (words.words part member).1.named _ _)
    (fun part member => means_fields inBlock (words.words part member).2) words.distinct

/-- A mapping is read as a whole document if its values are read in blocks, or between its
braces. -/
theorem Piece.reads_mapping {inBlock : Bool} {items : List Item} (some : items ≠ [])
    (each : ∀ item ∈ items, item.value.Reads inBlock) (around : Bool)
    (fits : inBlock = true → around = true) : (Piece.mapping inBlock items).Reads around := by
  cases inBlock with
  | true =>
      rw [fits rfl]
      exact Piece.reads_block each
  | false => exact Piece.reads_flow some each

theorem reads_parts (inBlock : Bool) (words : WordParts parts) :
    (Piece.mapping inBlock (parts.map (partItem inBlock))).Reads true := by
  refine Piece.reads_mapping (List.map_eq_nil_iff.not.mpr words.nonempty) (fun item member => ?_)
    true fun _ => rfl
  obtain ⟨part, listed, rfl⟩ := List.mem_map.mp member
  refine Piece.reads_mapping (List.map_eq_nil_iff.not.mpr (words.words part listed).2.nonempty)
    (fun item member => ?_) inBlock id
  obtain ⟨field, -, rfl⟩ := List.mem_map.mp member
  exact reads_word _ _ _

/-! #### Parts below one another -/

def blockField (field : String × Value) : List Char :=
  field.1.toList ++ ':' :: ' ' :: (wordText field.2).toList

/-- Fields on lines of their own. -/
def fieldsBelow (fields : Fields) : List Char :=
  '\n' :: (List.replicate bestIndent ' ' ++
    List.intercalate ('\n' :: List.replicate bestIndent ' ') (fields.map blockField))

def blockPart (part : String × Fields) : List Char := part.1.toList ++ ':' :: fieldsBelow part.2

/-- A document with its parts below one another. -/
def blockText (parts : Parts) : List Char :=
  List.intercalate ['\n'] (parts.map blockPart) ++ ['\n']

theorem blockScans_blockField {column : Nat} {field : String × Value}
    (name : WordValue (.str field.1)) (value : WordValue field.2) :
    BlockScans column (blockField field) (fieldItem true field).tokens := by
  have scans := @blockScans_field column _ _ name.isWord value.isWord
  rwa [String.ofList_toList, String.ofList_toList] at scans

theorem blockScans_blockPart {column : Nat} {part : String × Fields}
    (name : WordValue (.str part.1)) (words : WordFields part.2) (further : column < bestIndent) :
    BlockScans column (blockPart part) (partItem true part).tokens := by
  have scans := @blockScans_pieces bestIndent
    (part.2.map fun field => (blockField field, (fieldItem true field).tokens))
    (List.map_eq_nil_iff.not.mpr words.nonempty) fun piece member => by
      obtain ⟨field, listed, rfl⟩ := List.mem_map.mp member
      exact blockScans_blockField (words.words field listed).1 (words.words field listed).2
  rw [List.map_map, List.map_map] at scans
  have whole := blockScans_section name.isWord further scans
  rw [wordText, String.ofList_toList] at whole
  refine (congrArg (BlockScans column _) ?_).mp whole
  simp [partItem, Item.tokens, Piece.mapping, Piece.block, Function.comp_def]

/-- **Parts below one another.** A document of words is read from its lines, up to marks. -/
theorem read_blockText (words : WordParts parts) :
    ∃ given, read (String.ofList (blockText parts)) = .ok given ∧
      given.unshared = some (partsValue parts) := by
  refine exists_read_of_means (reads_parts true words) (means_parts true words) (.inl rfl) ?_
  have scans := @blockScans_pieces 0
    (parts.map fun part => (blockPart part, (partItem true part).tokens))
    (List.map_eq_nil_iff.not.mpr words.nonempty) fun piece member => by
      obtain ⟨part, listed, rfl⟩ := List.mem_map.mp member
      exact blockScans_blockPart (words.words part listed).1 (words.words part listed).2 (by decide)
  rw [List.map_map, List.map_map] at scans
  rw [String.toList_ofList]
  refine (tokens_block scans).trans ?_
  simp [Piece.mapping, Piece.block, Function.comp_def]

/-! #### Parts between braces -/

def flowField (field : String × Value) : List Char :=
  writtenWord false field.1.toList ++ ':' :: ' ' ::
    writtenWord (isBare field.2) (wordText field.2).toList

/-- What stands between two items on a level of braces. -/
def flowSeparator (width : Nat) : List Char := ',' :: '\n' :: List.replicate width ' '

def flowPart (part : String × Fields) : List Char :=
  writtenWord false part.1.toList ++ ':' :: ' ' ::
    braced 4 2 (List.intercalate (flowSeparator 4) (part.2.map flowField))

/-- A document with its parts between braces. -/
def flowText (parts : Parts) : List Char :=
  braced 2 0 (List.intercalate (flowSeparator 2) (parts.map flowPart))

theorem flowScans_flowField {field : String × Value} (name : WordValue (.str field.1))
    (value : WordValue field.2) : FlowScans (flowField field) (fieldItem false field).tokens := by
  have scans := flowScans_field name.isWord value.isWord (isBare field.2)
  rwa [String.ofList_toList, String.ofList_toList] at scans

theorem flowScans_flowPart {part : String × Fields} (name : WordValue (.str part.1))
    (words : WordFields part.2) : FlowScans (flowPart part) (partItem false part).tokens := by
  have scans := @flowScans_pieces
    (part.2.map fun field => (flowField field, (fieldItem false field).tokens)) 4
    (List.map_eq_nil_iff.not.mpr words.nonempty) fun piece member => by
      obtain ⟨field, listed, rfl⟩ := List.mem_map.mp member
      exact flowScans_flowField (words.words field listed).1 (words.words field listed).2
  rw [List.map_map, List.map_map] at scans
  have whole := @flowScans_section _ _ _ 4 2 name.isWord scans
  rw [wordText, String.ofList_toList] at whole
  refine (congrArg (FlowScans _) ?_).mp whole
  simp [partItem, Item.tokens, Piece.mapping, Piece.flow, Function.comp_def]

/-- **Parts between braces.** A document of words is read from its braces, up to marks. -/
theorem read_flowText (words : WordParts parts) :
    ∃ given, read (String.ofList (flowText parts)) = .ok given ∧
      given.unshared = some (partsValue parts) := by
  refine exists_read_of_means (reads_parts false words) (means_parts false words) (.inr rfl) ?_
  have scans := @flowScans_pieces
    (parts.map fun part => (flowPart part, (partItem false part).tokens)) 2
    (List.map_eq_nil_iff.not.mpr words.nonempty) fun piece member => by
      obtain ⟨part, listed, rfl⟩ := List.mem_map.mp member
      exact flowScans_flowPart (words.words part listed).1 (words.words part listed).2
  rw [List.map_map, List.map_map] at scans
  rw [String.toList_ofList]
  refine (tokens_flow scans).trans ?_
  simp [Piece.mapping, Piece.flow, Function.comp_def]

end Documents

end Yaml

end MemberOrder
