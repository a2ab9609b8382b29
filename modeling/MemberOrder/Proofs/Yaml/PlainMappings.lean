import MemberOrder.Proofs.Yaml.MakingFaults
import MemberOrder.Proofs.Yaml.MappingGraph

/-!
# Values of mappings with texts as keys

A node spells a value if it is a scalar that has the value, or a mapping of different texts to nodes
with later numbers that spell values in turn (`Yaml.Graph.Spells`). Making the nodes that are met
from there makes each of them to be what it holds, and the value of a text whose root spells a value
is that value (`Yaml.read_of_spells`).
-/

namespace MemberOrder

namespace Yaml

/-- Whether a node is a scalar with a text as its value. -/
def Graph.HasText (graph : Graph) (number : Nat) (text : String) : Prop :=
  ∃ node spelling, graph[number]? = some node ∧ node.content = .scalar spelling ∧
    scalarValue node.tag spelling = .ok (.str text)

/-- Whether a node spells a value. -/
inductive Graph.Spells (graph : Graph) : Nat → Value → Prop
  | scalar {number : Nat} {node : GraphNode} {text : String} {value : Value}
      (found : graph[number]? = some node) (content : node.content = .scalar text)
      (reads : scalarValue node.tag text = .ok value) : Spells graph number (marked number value)
  | map {number : Nat} {items : List ((Nat × Nat) × String × Value)}
      (found : graph[number]? = some ⟨.map, .mapping (items.map Prod.fst)⟩)
      (keys : ∀ item ∈ items, graph.HasText item.1.1 item.2.1)
      (values : ∀ item ∈ items, Spells graph item.1.2 item.2.2)
      (later : ∀ item ∈ items, number < item.1.2)
      (distinct : (items.map fun item => item.2.1).Nodup) :
      Spells graph number (.map (some number) (Entries.ofFields (items.map Prod.snd)))

theorem Graph.HasText.spells {graph : Graph} {number : Nat} {text : String}
    (hasText : graph.HasText number text) : graph.Spells number (.str text) := by
  obtain ⟨node, spelling, found, content, reads⟩ := hasText
  exact .scalar found content reads

namespace Maker

section Steps

variable {s : Making} {number : Nat} {node : GraphNode} {text : String} {value : Value}

theorem run_get {α : Type} {next : Making → Maker α} : (get >>= next).run s = (next s).run s := rfl

theorem run_nodeAt (found : s.graph[number]? = some node) :
    (nodeAt number).run s = .ok (node, s) := by
  refine run_get.trans ?_
  rw [found]
  rfl

theorem run_tagAt (found : s.graph[number]? = some node) :
    (tagAt number).run s = .ok (node.tag, s) :=
  run_bind_of_ok (run_nodeAt found)

theorem run_mappingAt {tag : NodeTag} {entries : List (Nat × Nat)}
    (found : s.graph[number]? = some ⟨tag, .mapping entries⟩) :
    (mappingAt number).run s = .ok (entries, s) :=
  run_bind_of_ok (run_nodeAt found)

theorem run_scalarText (found : s.graph[number]? = some node)
    (content : node.content = .scalar text) (fuel : Nat) :
    (scalarText (fuel + 1) number).run s = .ok (text, s) := by
  refine (run_bind_of_ok (run_nodeAt found)).trans ?_
  rw [content]
  rfl

theorem run_meet_again {made : Made} (again : s.made[number]? = some (some made)) :
    (meet number).run s = .ok ((), s) := by
  refine run_get.trans ?_
  rw [again]
  rfl

theorem run_meet_map {entries : List (Nat × Nat)} (new : s.made[number]? = some none)
    (found : s.graph[number]? = some ⟨.map, .mapping entries⟩) :
    (meet number).run s = .ok ((), { s with
      made := s.made.setIfInBounds number (some (.map [])), queue := s.queue ++ [number] }) := by
  refine run_get.trans ?_
  rw [new]
  exact (run_bind_of_ok (run_tagAt found)).trans rfl

theorem run_meet_scalar (new : s.made[number]? = some none) (found : s.graph[number]? = some node)
    (content : node.content = .scalar text) (reads : scalarValue node.tag text = .ok value) :
    (meet number).run s = .ok ((), { s with
      made := s.made.setIfInBounds number (some (.scalar value)) }) := by
  refine run_get.trans ?_
  rw [new]
  refine (run_bind_of_ok (run_tagAt found)).trans ?_
  have stored (tag : NodeTag) (reads : scalarValue tag text = .ok value) :
      ((liftM (scalarValue tag text) : Maker Value) >>= fun value =>
        store number (.scalar value)).run s = .ok ((), { s with
          made := s.made.setIfInBounds number (some (.scalar value)) }) := by
    rw [reads]
    rfl
  have read := run_scalarText found content s.graph.size
  cases tag : node.tag with
  | seq | map | set | omap | pairs | merge | value | other name =>
      rw [tag] at reads
      cases reads
  | null | bool | int | float | binary | str =>
      rw [tag] at reads
      exact (run_bind_of_ok read).trans (stored _ reads)
  | timestamp =>
      rw [tag] at reads
      refine (run_bind_of_ok read).trans ((run_bind_of_ok (run_nodeAt found)).trans ?_)
      rw [content]
      exact stored _ reads

/-- Whether a node is found under a number and its tag is that of neither a merge nor a value
key. -/
def PlainKey (graph : Graph) (number : Nat) : Prop :=
  ∃ node : GraphNode, graph[number]? = some node ∧ node.tag ≠ .merge ∧ node.tag ≠ .value

theorem run_mapM {ε σ α β : Type} {items : List α} {step : α → StateT σ (Except ε) β} {s : σ}
    {result : α → β} (each : ∀ item ∈ items, (step item).run s = .ok (result item, s)) :
    (items.mapM step).run s = .ok (items.map result, s) := by
  induction items with
  | nil => rfl
  | cons item rest ih =>
      obtain ⟨first, later⟩ := List.forall_mem_cons.mp each
      rw [List.mapM_cons]
      exact (run_bind_of_ok first).trans (run_bind_of_ok (ih later))

theorem run_forM {ε σ α : Type} {items : List α} {step : α → StateT σ (Except ε) PUnit} {s : σ}
    (each : ∀ item ∈ items, (step item).run s = .ok (⟨⟩, s)) :
    (items.forM step).run s = .ok (⟨⟩, s) := by
  induction items with
  | nil => rfl
  | cons item rest ih =>
      obtain ⟨first, later⟩ := List.forall_mem_cons.mp each
      exact (run_bind_of_ok first).trans (ih later)

/-- A mapping without merge and value keys is left as it is. -/
theorem run_flatten {tag : NodeTag} {entries : List (Nat × Nat)}
    (found : s.graph[number]? = some ⟨tag, .mapping entries⟩)
    (plain : ∀ entry ∈ entries, PlainKey s.graph entry.1) :
    (flatten number).run s = .ok ((), s) := by
  have tags (entry : Nat × Nat) (member : entry ∈ entries) :
      (tagAt entry.1).run s = .ok ((s.graph[entry.1]?.map GraphNode.tag).getD .str, s) := by
    obtain ⟨node, listed, -⟩ := plain entry member
    rw [run_tagAt listed, listed]
    rfl
  have unmerged : (entries.map fun entry => (s.graph[entry.1]?.map GraphNode.tag).getD .str).idxOf?
      .merge = none := by
    rw [List.idxOf?_eq_none_iff]
    intro merged
    obtain ⟨entry, member, tag⟩ := List.mem_map.mp merged
    obtain ⟨node, listed, other, -⟩ := plain entry member
    rw [listed] at tag
    exact other tag
  have kept : s.graph.modify number
      (fun node => { node with content := .mapping ([] ++ entries) }) = s.graph := by
    apply Array.ext_getElem?
    intro place
    rw [Array.getElem?_modify]
    split
    · next same => rw [← same, found]; rfl
    · rfl
  refine run_get.trans ?_
  rw [flattenFrom]
  refine (run_bind_of_ok (run_mappingAt found)).trans ((run_bind_of_ok (run_mapM tags)).trans ?_)
  rw [unmerged]
  refine (run_bind_of_ok (run_forM fun entry member => ?_)).trans ?_
  · obtain ⟨node, listed, -, other⟩ := plain entry member
    refine (run_bind_of_ok (run_tagAt listed)).trans ?_
    rw [if_neg other]
    rfl
  · change Except.ok ((), { s with graph := s.graph.modify number _ }) = _
    rw [kept]

end Steps

/-! ### What is known while nodes are made -/

/-- What a node is made to be in the end. -/
inductive Final (graph : Graph) (number : Nat) : Made → Prop
  | scalar {node : GraphNode} {text : String} {value : Value} (found : graph[number]? = some node)
      (content : node.content = .scalar text) (reads : scalarValue node.tag text = .ok value) :
      Final graph number (.scalar value)
  | map {entries : List (Nat × Nat)} (found : graph[number]? = some ⟨.map, .mapping entries⟩) :
      Final graph number (.map entries)

/-- Whether a node is a mapping that counts as a map. -/
def IsMap (graph : Graph) (number : Nat) : Prop :=
  ∃ entries : List (Nat × Nat), graph[number]? = some ⟨.map, .mapping entries⟩

/-- Whether a node has been met. -/
def Met (s : Making) (number : Nat) : Prop := ∃ made, s.made[number]? = some (some made)

/-- The number of nodes that are not made yet or wait to be filled. -/
def pending (s : Making) : Nat := s.queue.length + s.made.countP Option.isNone

/-- Whether the nodes that have been met spell values and are made to be what they hold, but for
those in the queue and the one that is being filled. -/
structure Sound (graph : Graph) (current : Option Nat) (s : Making) : Prop where
  unchanged : s.graph = graph
  size : s.made.size = graph.size
  spells : ∀ number, Met s number → ∃ value, graph.Spells number value
  made : ∀ (number : Nat) (made : Made), s.made[number]? = some (some made) →
    Final graph number made ∨ made = .map [] ∧ (number ∈ s.queue ∨ current = some number)
  queue : ∀ number ∈ s.queue, Met s number ∧ IsMap graph number
  filling : ∀ number, current = some number → IsMap graph number
  closed : ∀ (number : Nat) (entries : List (Nat × Nat)),
    s.made[number]? = some (some (Made.map entries)) →
      ∀ entry ∈ entries, Met s entry.1 ∧ Met s entry.2

/-- Whether a state is sound, not much is pending and some nodes have been met. -/
structure Holds (graph : Graph) (current : Option Nat) (limit : Nat) (known : Nat → Prop)
    (s : Making) : Prop where
  sound : Sound graph current s
  pending : pending s ≤ limit
  met : ∀ number, known number → Met s number

section Storing

variable {graph : Graph} {current : Option Nat} {s : Making} {number : Nat} {made : Made}
  {queue : List Nat}

theorem getElem?_store (inside : number < s.made.size) (other : Nat) :
    (s.made.setIfInBounds number (some made))[other]? =
      if number = other then some (some made) else s.made[other]? := by
  rw [Array.getElem?_setIfInBounds, if_pos inside]

theorem met_store (inside : number < s.made.size) {other : Nat} :
    Met { s with made := s.made.setIfInBounds number (some made), queue } other ↔
      number = other ∨ Met s other := by
  unfold Met
  simp only [getElem?_store inside]
  by_cases same : number = other
  · simp [same]
  · simp [same]

theorem countP_store (new : s.made[number]? = some none) :
    (s.made.setIfInBounds number (some made)).countP Option.isNone + 1 =
      s.made.countP Option.isNone := by
  obtain ⟨inside, empty⟩ := Array.getElem?_eq_some_iff.mp new
  have some : 0 < s.made.countP Option.isNone :=
    Array.countP_pos_iff.mpr ⟨none, Array.mem_of_getElem? new, rfl⟩
  rw [Array.setIfInBounds, dif_pos inside, Array.countP_set, empty]
  simp only [Option.isNone_none, Option.isNone_some, if_true, Bool.false_eq_true, if_false]
  omega

theorem countP_store_again {before : Made} (again : s.made[number]? = some (some before)) :
    (s.made.setIfInBounds number (some made)).countP Option.isNone =
      s.made.countP Option.isNone := by
  obtain ⟨inside, full⟩ := Array.getElem?_eq_some_iff.mp again
  rw [Array.setIfInBounds, dif_pos inside, Array.countP_set, full]
  simp

/-- A node is met for the first time. -/
theorem Sound.store (sound : Sound graph current s) (new : s.made[number]? = some none)
    (spells : ∃ value, graph.Spells number value) (kept : s.queue ⊆ queue)
    (queued : ∀ other ∈ queue, other ∈ s.queue ∨ other = number ∧ IsMap graph number)
    (stored : (∃ value, made = .scalar value ∧ Final graph number made) ∨
      made = .map [] ∧ number ∈ queue) :
    Sound graph current { s with made := s.made.setIfInBounds number (some made), queue } := by
  obtain ⟨inside, -⟩ := Array.getElem?_eq_some_iff.mp new
  refine ⟨sound.unchanged, ?_, ?_, ?_, ?_, sound.filling, ?_⟩
  · rw [Array.size_setIfInBounds, sound.size]
  · intro other met
    obtain rfl | before := (met_store inside).mp met
    · exact spells
    · exact sound.spells other before
  · intro other found listed
    rw [getElem?_store inside] at listed
    split at listed
    · next same =>
        cases listed
        subst same
        obtain ⟨value, -, final⟩ | waits := stored
        · exact .inl final
        · exact .inr ⟨waits.1, .inl waits.2⟩
    · exact (sound.made other found listed).imp id fun ⟨empty, waits⟩ =>
        ⟨empty, waits.imp (fun member => kept member) id⟩
  · intro other member
    obtain before | ⟨rfl, mapping⟩ := queued other member
    · obtain ⟨met, mapping⟩ := sound.queue other before
      exact ⟨(met_store inside).mpr (.inr met), mapping⟩
    · exact ⟨(met_store inside).mpr (.inl rfl), mapping⟩
  · intro other entries listed entry member
    rw [getElem?_store inside] at listed
    split at listed
    · cases listed
      obtain ⟨value, ⟨⟩, -⟩ | ⟨same, -⟩ := stored
      cases same
      cases member
    · obtain ⟨key, value⟩ := sound.closed other entries listed entry member
      exact ⟨(met_store inside).mpr (.inr key), (met_store inside).mpr (.inr value)⟩

end Storing

section Filling

variable {graph : Graph} {current : Option Nat} {limit number : Nat} {known : Nat → Prop}
  {value : Value}

/-- A step that does not fail. -/
abbrev Succeeds {α : Type} (before : Making → Prop) (after : α → Making → Prop) : Maker α → Prop :=
  Runs before after fun _ => False

theorem succeeds_of_run {α : Type} {before : Making → Prop} {after : α → Making → Prop}
    {step : Maker α} (run : ∀ s, before s → ∃ value s', step.run s = .ok (value, s') ∧
      after value s') : Succeeds before after step := by
  intro s begun
  obtain ⟨value, s', same, ends⟩ := run s begun
  rw [same]
  exact .ok ends

theorem lt_size_of_spells (spells : graph.Spells number value) : number < graph.size := by
  cases spells with
  | scalar found _ _ | map found _ _ _ _ => exact (Array.getElem?_eq_some_iff.mp found).1

/-- Meeting a scalar for the first time stores its value. -/
theorem Holds.store_scalar {s : Making} {node : GraphNode} {text : String}
    (holds : Holds graph current limit known s) (new : s.made[number]? = some none)
    (found : graph[number]? = some node) (content : node.content = .scalar text)
    (reads : scalarValue node.tag text = .ok value) :
    Holds graph current limit (fun other => known other ∨ other = number)
      { s with made := s.made.setIfInBounds number (some (.scalar value)) } := by
  have inside : number < s.made.size := (Array.getElem?_eq_some_iff.mp new).1
  have counted := @countP_store _ _ (.scalar value) new
  refine ⟨?_, ?_, fun other listed =>
    (met_store inside).mpr (listed.symm.imp Eq.symm (holds.met other))⟩
  · exact holds.sound.store new ⟨_, .scalar found content reads⟩ (fun _ => id) (fun _ => .inl)
      (.inl ⟨_, rfl, .scalar found content reads⟩)
  · refine Nat.le_trans ?_ holds.pending
    exact Nat.add_le_add_left (Nat.le_of_lt (Nat.lt_of_succ_le counted.le)) _

/-- Meeting a mapping for the first time puts it in the queue. -/
theorem Holds.store_map {s : Making} {entries : List (Nat × Nat)}
    (holds : Holds graph current limit known s) (new : s.made[number]? = some none)
    (found : graph[number]? = some ⟨.map, .mapping entries⟩) (spells : graph.Spells number value) :
    Holds graph current limit (fun other => known other ∨ other = number)
      { s with
        made := s.made.setIfInBounds number (some (.map [])), queue := s.queue ++ [number] } := by
  have inside : number < s.made.size := (Array.getElem?_eq_some_iff.mp new).1
  have counted := @countP_store _ _ (.map []) new
  refine ⟨?_, ?_, fun other listed =>
    (met_store inside).mpr (listed.symm.imp Eq.symm (holds.met other))⟩
  · refine holds.sound.store new ⟨_, spells⟩ (fun _ => List.mem_append_left _)
      (fun other member => ?_) (.inr ⟨rfl, by simp⟩)
    refine (List.mem_append.mp member).imp id fun last => ?_
    exact ⟨List.mem_singleton.mp last, _, found⟩
  · refine Nat.le_trans ?_ holds.pending
    unfold Maker.pending
    rw [List.length_append, List.length_singleton, ← counted]
    exact (Nat.add_right_comm ..).le

/-- A node that spells a value is met without a fault. -/
theorem succeeds_meet (spells : graph.Spells number value) :
    Succeeds (Holds graph current limit known)
      (fun _ => Holds graph current limit fun other => known other ∨ other = number)
      (meet number) := by
  refine succeeds_of_run fun s holds => ?_
  have inside : number < s.made.size := by
    rw [holds.sound.size]
    exact lt_size_of_spells spells
  obtain ⟨found, new⟩ : ∃ found, s.made[number]? = some found :=
    ⟨_, Array.getElem?_eq_getElem inside⟩
  cases found with
  | some made =>
      refine ⟨_, s, run_meet_again new, holds.sound, holds.pending, fun other listed => ?_⟩
      obtain before | rfl := listed
      · exact holds.met other before
      · exact ⟨made, new⟩
  | none =>
      have spelled := spells
      cases spells with
      | scalar found content reads =>
          exact ⟨_, _, run_meet_scalar new (holds.sound.unchanged ▸ found) content reads,
            holds.store_scalar new found content reads⟩
      | map found keys values later distinct =>
          exact ⟨_, _, run_meet_map new (holds.sound.unchanged ▸ found),
            holds.store_map new found spelled⟩

theorem not_isMap_of_scalar {node : GraphNode} {text : String} (found : graph[number]? = some node)
    (content : node.content = .scalar text) : ¬ IsMap graph number := by
  rintro ⟨entries, mapping⟩
  rw [found] at mapping
  cases mapping
  cases content

/-- A scalar that has been met has its value. -/
theorem Sound.scalar {s : Making} {node : GraphNode} {text : String} (sound : Sound graph current s)
    (found : graph[number]? = some node) (content : node.content = .scalar text)
    (met : Met s number) : ∃ value, scalarValue node.tag text = .ok value ∧
      s.made[number]? = some (some (.scalar value)) := by
  obtain ⟨made, listed⟩ := met
  have single := not_isMap_of_scalar found content
  obtain final | ⟨-, waits⟩ := sound.made number made listed
  · cases final with
    | scalar foundAgain contentAgain reads =>
        rw [found] at foundAgain
        cases foundAgain
        rw [content] at contentAgain
        cases contentAgain
        exact ⟨_, reads, listed⟩
    | map mapping => exact absurd ⟨_, mapping⟩ single
  · exact absurd (waits.elim (fun member => (sound.queue number member).2) (sound.filling number))
      single

/-- A mapping that has been met has its entries, once none waits to be filled. -/
theorem Sound.map {s : Making} {entries : List (Nat × Nat)} (sound : Sound graph none s)
    (filled : s.queue = []) (found : graph[number]? = some ⟨.map, .mapping entries⟩)
    (met : Met s number) : s.made[number]? = some (some (.map entries)) := by
  obtain ⟨made, listed⟩ := met
  obtain final | ⟨-, waits⟩ := sound.made number made listed
  · cases final with
    | scalar foundAgain content _ =>
        exact absurd ⟨_, found⟩ (not_isMap_of_scalar foundAgain content)
    | map foundAgain =>
        rw [found] at foundAgain
        cases foundAgain
        exact listed
  · rw [filled] at waits
    exact absurd (waits.resolve_left List.not_mem_nil) nofun

theorem succeeds_meetKey {text : String} (hasText : graph.HasText number text) :
    Succeeds (Holds graph current limit known)
      (fun _ => Holds graph current limit fun other => known other ∨ other = number)
      (meetKey number) := by
  refine (succeeds_meet hasText.spells).bind fun _ => succeeds_of_run fun s holds => ?_
  obtain ⟨node, spelling, found, content, -⟩ := hasText
  obtain ⟨value, -, made⟩ := holds.sound.scalar found content (holds.met number (.inr rfl))
  refine ⟨(), s, run_get.trans ?_, holds⟩
  rw [made]
  rfl

/-- The keys and values of a mapping are met, and keys are scalars. -/
theorem succeeds_meetEntries {items : List ((Nat × Nat) × String × Value)}
    (keys : ∀ item ∈ items, graph.HasText item.1.1 item.2.1)
    (values : ∀ item ∈ items, graph.Spells item.1.2 item.2.2) :
    Succeeds (Holds graph current limit known)
      (fun _ => Holds graph current limit fun other =>
        known other ∨ ∃ item ∈ items, other = item.1.1 ∨ other = item.1.2)
      ((items.map Prod.fst).forM fun entry => do
        meetKey entry.1
        meet entry.2) := by
  induction items generalizing known with
  | nil => exact Runs.pure fun s holds =>
      ⟨holds.sound, holds.pending, fun other listed => holds.met other (by simpa using listed)⟩
  | cons item rest ih =>
      obtain ⟨key, keysLater⟩ := List.forall_mem_cons.mp keys
      obtain ⟨value, valuesLater⟩ := List.forall_mem_cons.mp values
      refine Runs.bind ((succeeds_meetKey key).bind fun _ => succeeds_meet value) fun _ =>
        (ih keysLater valuesLater).mono (fun _ => id) fun _ s holds => ?_
      exact ⟨holds.sound, holds.pending, fun other listed => holds.met other
        (by simpa only [List.exists_mem_cons_iff, or_assoc] using listed)⟩

theorem plainKey_of_hasText {text : String} (hasText : graph.HasText number text) :
    PlainKey graph number := by
  obtain ⟨node, spelling, found, content, reads⟩ := hasText
  refine ⟨node, found, ?_, ?_⟩ <;> (intro tag; rw [tag] at reads; cases reads)

/-- The mapping that is being filled gets its entries, all of which have been met. -/
theorem Sound.fill {s : Making} {entries : List (Nat × Nat)} (sound : Sound graph (some number) s)
    (mapping : graph[number]? = some ⟨.map, .mapping entries⟩) (met : Met s number)
    (each : ∀ entry ∈ entries, Met s entry.1 ∧ Met s entry.2) :
    Sound graph none { s with made := s.made.setIfInBounds number (some (.map entries)) } := by
  obtain ⟨before, listed⟩ := met
  obtain ⟨inside, -⟩ := Array.getElem?_eq_some_iff.mp listed
  have metThen {other : Nat} (met : Met s other) :
      Met { s with made := s.made.setIfInBounds number (some (.map entries)) } other :=
    (met_store inside).mpr (.inr met)
  refine ⟨sound.unchanged, ?_, ?_, ?_, ?_, nofun, ?_⟩
  · rw [Array.size_setIfInBounds, sound.size]
  · intro other metOther
    obtain rfl | metBefore := (met_store inside).mp metOther
    · exact sound.spells _ ⟨before, listed⟩
    · exact sound.spells other metBefore
  · intro other made found
    rw [getElem?_store inside] at found
    split at found
    · next same =>
        cases found
        exact .inl (.map (same ▸ mapping))
    · next apart =>
        refine (sound.made other made found).imp id fun ⟨empty, waits⟩ => ⟨empty, .inl ?_⟩
        exact waits.resolve_right fun same => apart (Option.some.inj same)
  · intro other member
    obtain ⟨metOther, isMap⟩ := sound.queue other member
    exact ⟨metThen metOther, isMap⟩
  · intro other held found entry member
    rw [getElem?_store inside] at found
    split at found
    · cases found
      exact ⟨metThen (each entry member).1, metThen (each entry member).2⟩
    · obtain ⟨key, value⟩ := sound.closed other held found entry member
      exact ⟨metThen key, metThen value⟩

/-- A mapping is filled by meeting the nodes of its entries and storing them. -/
theorem run_fill {s : Making} {entries : List (Nat × Nat)}
    (here : s.graph[number]? = some ⟨.map, .mapping entries⟩)
    (plain : ∀ entry ∈ entries, PlainKey s.graph entry.1) :
    (fill number).run s = ((entries.forM fun entry => do
      meetKey entry.1
      meet entry.2) >>= fun _ => store number (.map entries)).run s := by
  have gathered : (mappingEntries number).run s = ((entries.forM fun entry => do
      meetKey entry.1
      meet entry.2) >>= fun _ => pure entries).run s :=
    (run_bind_of_ok (run_mappingAt here)).trans
      ((run_bind_of_ok (run_flatten here plain)).trans (run_bind_of_ok (run_mappingAt here)))
  refine (run_bind_of_ok (run_nodeAt here)).trans ?_
  change ((mappingEntries number).run s >>= fun result =>
    (store number (.map result.1)).run result.2) = _
  rw [gathered, StateT.run_bind, StateT.run_bind]
  cases StateT.run (entries.forM fun entry => do
    meetKey entry.1
    meet entry.2) s <;> rfl

/-- Storing the entries of a mapping whose nodes have been met ends its filling. -/
theorem succeeds_store {entries : List (Nat × Nat)}
    (found : graph[number]? = some ⟨.map, .mapping entries⟩) :
    Succeeds
      (Holds graph (some number) limit fun other => (known other ∨ other = number) ∨
        ∃ entry ∈ entries, other = entry.1 ∨ other = entry.2)
      (fun _ => Holds graph none limit known) (store number (.map entries)) := by
  refine succeeds_of_run fun s ⟨sound, within, met⟩ => ⟨(), _, rfl, ?_⟩
  obtain ⟨made, listed⟩ := met number (.inl (.inr rfl))
  obtain ⟨inside, -⟩ := Array.getElem?_eq_some_iff.mp listed
  refine ⟨sound.fill found ⟨made, listed⟩ fun entry member => ?_, ?_, fun other listed => ?_⟩
  · exact ⟨met _ (.inr ⟨entry, member, .inl rfl⟩), met _ (.inr ⟨entry, member, .inr rfl⟩)⟩
  · refine Nat.le_trans (Nat.le_of_eq (congrArg (s.queue.length + ·) ?_)) within
    exact countP_store_again listed
  · exact (met_store inside).mpr (.inr (met other (.inl (.inl listed))))

/-- A mapping from the queue is filled with its entries. -/
theorem succeeds_fill (spells : graph.Spells number value) (isMap : IsMap graph number) :
    Succeeds (Holds graph (some number) limit fun other => known other ∨ other = number)
      (fun _ => Holds graph none limit known) (fill number) := by
  obtain ⟨entries, mapping⟩ := isMap
  cases spells with
  | scalar found content reads => exact absurd ⟨_, mapping⟩ (not_isMap_of_scalar found content)
  | @map _ items found keys values later distinct =>
      have meets := @succeeds_meetEntries graph (some number) limit
        (fun other => known other ∨ other = number) items keys values
      intro s holds
      have plain : ∀ entry ∈ items.map Prod.fst, PlainKey s.graph entry.1 := by
        intro entry member
        obtain ⟨item, held, rfl⟩ := List.mem_map.mp member
        rw [holds.sound.unchanged]
        exact plainKey_of_hasText (keys item held)
      rw [run_fill (holds.sound.unchanged ▸ found) plain]
      refine meets.bind (fun _ => (succeeds_store found).mono (fun s held => ?_) fun _ _ => id)
        s holds
      refine ⟨held.sound, held.pending, fun other listed => held.met other (listed.imp_right ?_)⟩
      rintro ⟨entry, member, touched⟩
      obtain ⟨item, inside, rfl⟩ := List.mem_map.mp member
      exact ⟨item, inside, touched⟩

/-- The first mapping of the queue comes to be the one that is being filled. -/
theorem Sound.pop {s : Making} {rest : List Nat} (sound : Sound graph none s)
    (queue : s.queue = number :: rest) : Sound graph (some number) { s with queue := rest } := by
  have listed (other : Nat) (member : other ∈ rest) : other ∈ s.queue := by
    rw [queue]
    exact List.mem_cons_of_mem _ member
  refine ⟨sound.unchanged, sound.size, sound.spells, ?_, ?_, ?_, sound.closed⟩
  · intro other made found
    refine (sound.made other made found).imp id fun ⟨empty, waits⟩ => ⟨empty, ?_⟩
    have member := waits.resolve_right nofun
    rw [queue] at member
    obtain rfl | later := List.mem_cons.mp member
    · exact .inr rfl
    · exact .inl later
  · exact fun other member => sound.queue other (listed other member)
  · intro other same
    cases same
    exact (sound.queue number (by rw [queue]; exact List.mem_cons_self)).2

/-- Filling comes to the end of the queue. -/
theorem succeeds_fillAll {fuel : Nat} (enough : limit < fuel) :
    Succeeds (Holds graph none limit known)
      (fun _ s => s.queue = [] ∧ Sound graph none s ∧ ∀ number, known number → Met s number)
      (fillAll fuel) := by
  induction fuel generalizing limit with
  | zero => exact absurd enough (Nat.not_lt_zero _)
  | succ fuel ih =>
      intro s holds
      rw [fillAll, run_get]
      cases queue : s.queue with
      | nil => exact .ok ⟨queue, holds.sound, holds.met⟩
      | cons number rest =>
          change Settles _ _ ((fill number >>= fun _ => fillAll fuel).run { s with queue := rest })
          obtain ⟨met, isMap⟩ := holds.sound.queue number (by rw [queue]; exact List.mem_cons_self)
          obtain ⟨value, spells⟩ := holds.sound.spells number met
          have within := holds.pending
          rw [pending, queue, List.length_cons] at within
          have less : limit - 1 < fuel := by omega
          refine (succeeds_fill spells isMap).bind (fun _ => ih less) _
            ⟨holds.sound.pop queue, ?_, fun other listed => ?_⟩
          · change rest.length + s.made.countP Option.isNone ≤ limit - 1
            omega
          · obtain before | rfl := listed
            · exact holds.met other before
            · exact met

end Filling

end Maker

/-- Making the nodes that are met from one that spells a value. -/
theorem exists_made {graph : Graph} {root : Nat} {value : Value} (spells : graph.Spells root value)
    (entries : Nat) :
    ∃ s : Making, (Maker.meet root >>= fun _ => Maker.fillAll (graph.size + 1)).run
        ⟨graph, entries, Array.replicate graph.size none, []⟩ = .ok ((), s) ∧
      s.queue = [] ∧ Maker.Sound graph none s ∧ Maker.Met s root := by
  have unmet (number : Nat) (made : Made) :
      (Array.replicate graph.size (none : Option Made))[number]? ≠ some (some made) := by
    rw [Array.getElem?_replicate]
    split <;> exact nofun
  have start : Maker.Holds graph none graph.size (fun _ => False)
      ⟨graph, entries, Array.replicate graph.size none, []⟩ := by
    refine ⟨⟨rfl, Array.size_replicate, ?_, ?_, nofun, nofun, ?_⟩, ?_, nofun⟩
    · exact fun number ⟨made, listed⟩ => absurd listed (unmet number made)
    · exact fun number made listed => absurd listed (unmet number made)
    · exact fun number entries listed => absurd listed (unmet number _)
    · refine Nat.le_trans (Nat.le_of_eq (Nat.zero_add _)) ?_
      exact Nat.le_trans Array.countP_le_size (Nat.le_of_eq Array.size_replicate)
  have settled := (Maker.succeeds_meet spells).bind
    (fun _ => Maker.succeeds_fillAll (Nat.lt_succ_self graph.size)) _ start
  cases outcome : (Maker.meet root >>= fun _ => Maker.fillAll (graph.size + 1)).run
      ⟨graph, entries, Array.replicate graph.size none, []⟩ with
  | error fault =>
      rw [outcome] at settled
      exact settled.bad_of_error.elim
  | ok result =>
      rw [outcome] at settled
      obtain ⟨empty, sound, met⟩ := settled.good_of_ok
      exact ⟨result.2, rfl, empty, sound, met root (.inr rfl)⟩

/-! ### The value -/

section Unfolding

variable {graph : Graph} {s : Making} {number fuel : Nat} {value : Value} {path : List Nat}

theorem putNode_of_new {key : Nat × Value} {name : String} (text : key.2 = .str name)
    {before : List ((Nat × Value) × Value)} (new : ∀ entry ∈ before, entry.1.2 ≠ .str name) :
    putNode graph key value before = before ++ [(key, value)] := by
  induction before with
  | nil => rfl
  | cons entry rest ih =>
      obtain ⟨first, later⟩ := List.forall_mem_cons.mp new
      rw [putNode, if_neg fun same => first ((sameNode_iff_of_text text).mp same), ih later]
      rfl

theorem foldl_putNode_of_texts {fields : List (Nat × String × Value)}
    {before : List ((Nat × Value) × Value)} (distinct : (fields.map fun field => field.2.1).Nodup)
    (new : ∀ entry ∈ before, ∀ field ∈ fields, entry.1.2 ≠ .str field.2.1) :
    (fields.map fun field => ((field.1, Value.str field.2.1), field.2.2)).foldl
        (fun united entry => putNode graph entry.1 entry.2 united) before =
      before ++ fields.map fun field => ((field.1, Value.str field.2.1), field.2.2) := by
  induction fields generalizing before with
  | nil => exact (List.append_nil _).symm
  | cons field rest ih =>
      obtain ⟨first, later⟩ := List.nodup_cons.mp distinct
      rw [List.map_cons, List.foldl_cons, putNode_of_new rfl fun entry member =>
        new entry member field List.mem_cons_self]
      refine (ih later fun entry member other listed => ?_).trans (List.append_assoc ..)
      obtain given | same := List.mem_append.mp member
      · exact new entry given other (List.mem_cons_of_mem _ listed)
      · rw [List.mem_singleton.mp same]
        intro again
        exact first (List.mem_map.mpr ⟨other, listed, (Value.str.inj again).symm⟩)

/-- Entries with different texts as keys stay as they are. -/
theorem uniteKeys_of_texts {fields : List (Nat × String × Value)}
    (distinct : (fields.map fun field => field.2.1).Nodup) :
    uniteKeys graph (fields.map fun field => ((field.1, Value.str field.2.1), field.2.2)) =
      Entries.ofFields (fields.map Prod.snd) := by
  refine (congrArg valuesOf (foldl_putNode_of_texts distinct
    fun entry member => absurd member List.not_mem_nil)).trans ?_
  simp [valuesOf, Entries.ofFields]

theorem unfold_of_scalar {node : GraphNode} {text : String} (sound : Maker.Sound graph none s)
    (found : graph[number]? = some node) (content : node.content = .scalar text)
    (reads : scalarValue node.tag text = .ok value) (met : Maker.Met s number) :
    unfold graph s.made (fuel + 1) path number = marked number value := by
  obtain ⟨same, readsSame, made⟩ := sound.scalar found content met
  rw [reads] at readsSame
  cases readsSame
  simp only [unfold, made]

theorem unfold_of_hasText {text : String} (sound : Maker.Sound graph none s)
    (hasText : graph.HasText number text) (met : Maker.Met s number) (some : 0 < fuel) :
    unfold graph s.made fuel path number = .str text := by
  obtain ⟨node, spelling, found, content, reads⟩ := hasText
  obtain ⟨fuel, rfl⟩ := Nat.exists_eq_add_one.mpr some
  exact unfold_of_scalar sound found content reads met

/-- A mapping is unfolded into its texts and what their nodes are unfolded into. -/
theorem unfold_of_map {items : List ((Nat × Nat) × String × Value)}
    (made : s.made[number]? = some (some (.map (items.map Prod.fst)))) (fresh : number ∉ path)
    (keys : ∀ item ∈ items,
      unfold graph s.made fuel (number :: path) item.1.1 = .str item.2.1)
    (values : ∀ item ∈ items, unfold graph s.made fuel (number :: path) item.1.2 = item.2.2)
    (distinct : (items.map fun item => item.2.1).Nodup) :
    unfold graph s.made (fuel + 1) path number =
      .map (some number) (Entries.ofFields (items.map Prod.snd)) := by
  have entries : ((items.map Prod.fst).map fun entry =>
        ((entry.1, unfold graph s.made fuel (number :: path) entry.1),
          unfold graph s.made fuel (number :: path) entry.2)) =
      (items.map fun item => (item.1.1, item.2)).map fun field =>
        ((field.1, Value.str field.2.1), field.2.2) := by
    rw [List.map_map, List.map_map]
    refine List.map_congr_left fun item member => ?_
    simp only [Function.comp_apply, keys item member, values item member]
  have united := @uniteKeys_of_texts graph (items.map fun item => (item.1.1, item.2))
    (by rwa [List.map_map])
  have fields : (items.map fun item => (item.1.1, item.2)).map Prod.snd = items.map Prod.snd :=
    List.map_map
  have outside : path.contains number = false := by simpa using fresh
  rw [fields] at united
  simp only [unfold, made, outside, entries, united]
  rfl

/-- A node that spells a value is unfolded into it. -/
theorem unfold_of_spells (sound : Maker.Sound graph none s) (filled : s.queue = [])
    (spells : graph.Spells number value) (met : Maker.Met s number)
    (enough : graph.size < fuel + number) (around : ∀ other ∈ path, other < number) :
    unfold graph s.made fuel path number = value := by
  have inside := Maker.lt_size_of_spells spells
  obtain ⟨fuel, rfl⟩ : ∃ less, fuel = less + 1 := ⟨fuel - 1, by omega⟩
  induction spells generalizing fuel path with
  | scalar found content reads => exact unfold_of_scalar sound found content reads met
  | @map number items found keys values later distinct ih =>
      have made := sound.map filled found met
      have entered (item : (Nat × Nat) × String × Value) (member : item ∈ items) :
          ∀ other ∈ number :: path, other < item.1.2 :=
        List.forall_mem_cons.mpr ⟨later item member, fun other outer =>
          (around other outer).trans (later item member)⟩
      have below (item : (Nat × Nat) × String × Value) (member : item ∈ items) :
          number < item.1.2 ∧ item.1.2 < graph.size :=
        ⟨later item member, Maker.lt_size_of_spells (values item member)⟩
      have metBoth (item : (Nat × Nat) × String × Value) (member : item ∈ items) :
          Maker.Met s item.1.1 ∧ Maker.Met s item.1.2 :=
        sound.closed number _ made item.1 (List.mem_map_of_mem member)
      refine unfold_of_map made (fun member => (around number member).false)
        (fun item member => ?_) (fun item member => ?_) distinct
      · have size := below item member
        exact unfold_of_hasText sound (keys item member) (metBoth item member).1 (by omega)
      · have size := below item member
        obtain ⟨fuel, rfl⟩ : ∃ less, fuel = less + 1 := ⟨fuel - 1, by omega⟩
        exact ih item member (metBoth item member).2 (entered item member) size.2 fuel (by omega)

end Unfolding

/-- A text whose root spells a value is read as that value. -/
theorem read_of_spells {text : String} {graph : Graph} {root : Nat} {value : Value}
    (cut : Graph.ofText text = .ok (graph, some root)) (spells : graph.Spells root value) :
    read text = .ok value := by
  obtain ⟨s, made, filled, sound, met⟩ := exists_made spells (entryCount graph)
  have inside := Maker.lt_size_of_spells spells
  have unfolded := @unfold_of_spells graph s root (graph.size + 1) value [] sound filled spells met
    (by omega) nofun
  unfold read
  rw [cut]
  simp only [made]
  change Except.ok (unfold s.graph s.made (graph.size + 1) [] root) = _
  rw [sound.unchanged, unfolded]

end Yaml

end MemberOrder
