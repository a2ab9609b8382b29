import MemberOrder.Proofs.Settings.MergedRuns

/-!
# Merging maps in place

Whoever holds a map may also change it, and a merged document holds many maps of the documents that
it was made of. Here maps have places, and a value refers to a map by its place. Merging makes one
new map for the outcome and one for every two that it merges, and writes to no other
(`Settings.mergeMaps_spec`). So the maps of the documents stay as they are, and the new map
represents what merging the documents gives.
-/

namespace MemberOrder

namespace Value

/-- The place of the map that a value refers to. -/
def place? : Value → Option Nat
  | .back place true => some place
  | _ => none

theorem place?_of_not_mapping {value : Value} (plain : value.isMapping = false) :
    value.place? = none := by
  cases value with
  | back place keyed => cases keyed <;> first | rfl | cases plain
  | _ => rfl

/-- A value whose maps are nested no deeper than a number of levels. -/
inductive NestedWithin : Nat → Value → Prop
  | map {depth : Nat} {mark : Mark} {entries : Entries} (apart : entries.Apart)
      (inner : ∀ entry ∈ entries, NestedWithin depth entry.2) :
      NestedWithin (depth + 1) (.map mark entries)
  | other {depth : Nat} {value : Value} (plain : value.isMapping = false) :
      NestedWithin depth value

variable {depth : Nat} {value : Value}

theorem nestedWithin_map {mark : Mark} {entries : Entries} :
    (Value.map mark entries).NestedWithin (depth + 1) ↔
      Entries.Apart entries ∧ ∀ entry ∈ entries, entry.2.NestedWithin depth := by
  constructor
  · intro nested
    cases nested with
    | map apart inner => exact ⟨apart, inner⟩
    | other plain => cases plain
  · exact fun ⟨apart, inner⟩ => .map apart inner

theorem NestedWithin.mono (nested : value.NestedWithin depth) {deeper : Nat}
    (within : depth ≤ deeper) : value.NestedWithin deeper := by
  induction nested generalizing deeper with
  | map apart _ ih =>
      obtain ⟨less, rfl⟩ : ∃ less, deeper = less + 1 := ⟨deeper - 1, by omega⟩
      exact .map apart fun entry member => ih entry member (by omega)
  | other plain => exact .other plain

theorem exists_nestedWithin_all {values : List Value}
    (each : ∀ value ∈ values, ∃ depth, value.NestedWithin depth) :
    ∃ depth, ∀ value ∈ values, value.NestedWithin depth := by
  induction values with
  | nil => exact ⟨0, fun _ member => absurd member List.not_mem_nil⟩
  | cons value rest ih =>
      obtain ⟨⟨first, ofFirst⟩, others⟩ := List.forall_mem_cons.mp each
      obtain ⟨second, ofRest⟩ := ih others
      refine ⟨max first second, List.forall_mem_cons.mpr ⟨ofFirst.mono (le_max_left _ _), ?_⟩⟩
      exact fun value member => (ofRest value member).mono (le_max_right _ _)

theorem Nested.exists_depth (nested : value.Nested) : ∃ depth, value.NestedWithin depth := by
  induction nested with
  | @map mark entries apart _ ih =>
      obtain ⟨depth, within⟩ : ∃ depth, ∀ value ∈ entries.map Prod.snd, value.NestedWithin depth :=
        exists_nestedWithin_all (List.forall_mem_map.mpr ih)
      exact ⟨depth + 1, .map apart (List.forall_mem_map.mp within)⟩
  | other plain => exact ⟨0, .other plain⟩

end Value

namespace Settings

section Nesting

variable {depth : Nat} {earlier later : Entries}

/-- Values of merged entries are nested no deeper than those of both, if merging two values nests
them no deeper. -/
theorem nestedWithin_mergeEntries
    (values : ∀ {before : Option Value} {value : Value},
      (∀ earlier ∈ before, earlier.NestedWithin depth) → value.NestedWithin depth →
        (mergeValue before value).NestedWithin depth)
    (nestedEarlier : ∀ entry ∈ earlier, entry.2.NestedWithin depth)
    (nestedLater : ∀ entry ∈ later, entry.2.NestedWithin depth) :
    ∀ entry ∈ mergeEntries earlier later, entry.2.NestedWithin depth := by
  induction later generalizing earlier with
  | nil => rwa [mergeEntries]
  | cons entry rest ih =>
      obtain ⟨first, others⟩ := List.forall_mem_cons.mp nestedLater
      rw [mergeEntries]
      refine ih (fun entry member => ?_) others
      rcases Entries.mem_put member with before | new
      · exact nestedEarlier entry before
      · rw [new]
        refine values (fun held found => ?_) first
        obtain ⟨listed, member, -, rfl⟩ := Entries.mem_of_get? found
        exact nestedEarlier listed member

theorem mergeValue_maps (markEarlier mark : Mark) (earlier later : Entries) :
    mergeValue (some (.map markEarlier earlier)) (.map mark later) =
      .map none (mergeEntries earlier later) := by
  rw [mergeValue]

theorem nestedWithin_mergeValue {before : Option Value} {value : Value}
    (nestedBefore : ∀ earlier ∈ before, earlier.NestedWithin depth)
    (nested : value.NestedWithin depth) : (mergeValue before value).NestedWithin depth := by
  induction depth generalizing before value with
  | zero =>
      cases nested with
      | other plain =>
          rw [mergeValue_of_not_mapping plain]
          exact .other plain
  | succ depth ih =>
      cases nested with
      | other plain =>
          rw [mergeValue_of_not_mapping plain]
          exact .other plain
      | @map _ mark later apart inner =>
          cases before with
          | none =>
              rw [mergeValue_none]
              exact .map apart inner
          | some earlier =>
              cases nestedBefore earlier (Option.mem_some_self _) with
              | other plain =>
                  rw [mergeValue_after_not_mapping plain]
                  exact .map apart inner
              | map apartEarlier innerEarlier =>
                  rw [mergeValue_maps]
                  exact .map (apart_mergeEntries apartEarlier later)
                    (nestedWithin_mergeEntries ih innerEarlier inner)

end Nesting

/-- Maps at their places. -/
abbrev Maps := List Entries

section Merging

/-- What a key gets in the new map, given its value there before. -/
def takenValue (merge : Maps → List Nat → Option (Maps × Nat)) (maps : Maps)
    (before : Option Value) (value : Value) : Option (Maps × Value) :=
  match before.bind Value.place?, value.place? with
  | some first, some second =>
    (merge maps [first, second]).map fun (maps, made) => (maps, .back made true)
  | _, _ => some (maps, value)

/-- Puts entries into the map at a place, one after the other. -/
def takeEntries (merge : Maps → List Nat → Option (Maps × Nat)) (target : Nat) :
    Maps → Entries → Option Maps
  | maps, [] => some maps
  | maps, (key, value) :: rest => do
    let (maps, taken) ← takenValue merge maps (maps[target]?.bind (·.get? key)) value
    takeEntries merge target (maps.modify target (·.put key taken)) rest

/-- Merges the maps at some places into a new one, whose place is given. Two maps under one key are
merged in turn, down to a depth; below that nothing is given. -/
def mergeMaps : Nat → Maps → List Nat → Option (Maps × Nat)
  | 0, _, _ => none
  | depth + 1, maps, places => do
    let filled ← places.foldlM (fun filled place => do
      takeEntries (mergeMaps depth) maps.length filled (← filled[place]?)) (maps ++ [[]])
    return (filled, maps.length)

end Merging

/-- A value that refers to maps at some places represents one that contains its maps. -/
inductive Represents (maps : Maps) (among : Nat → Prop) : Value → Value → Prop
  | plain {value : Value} (plain : value.isMapping = false) : Represents maps among value value
  | map {place : Nat} {mark : Mark} {stored entries : Entries} (inside : among place)
      (found : maps[place]? = some stored) (keys : stored.keys = entries.keys)
      (values : ∀ pair ∈ stored.zip entries, Represents maps among pair.1.2 pair.2.2) :
      Represents maps among (.back place true) (.map mark entries)

/-- Entries have the keys of others and represent their values. -/
def RepresentsEntries (maps : Maps) (among : Nat → Prop) (stored entries : Entries) : Prop :=
  List.Forall₂ (fun held shown => held.1 = shown.1 ∧ Represents maps among held.2 shown.2)
    stored entries

/-- The maps at some places represent documents. -/
abbrev RepresentsAll (maps : Maps) (among : Nat → Prop) (places : List Nat)
    (documents : List Value) : Prop :=
  List.Forall₂ (fun place => Represents maps among (.back place true)) places documents

section Represents

variable {maps extended : Maps} {among within : Nat → Prop} {stored entries : Entries}
variable {held shown : Value}

theorem representsEntries_iff : RepresentsEntries maps among stored entries ↔
    stored.keys = entries.keys ∧
      ∀ pair ∈ stored.zip entries, Represents maps among pair.1.2 pair.2.2 := by
  constructor
  · intro shows
    induction shows with
    | nil => exact ⟨rfl, fun _ member => absurd member List.not_mem_nil⟩
    | cons first _ ih =>
        exact ⟨congrArg₂ List.cons first.1 ih.1, List.forall_mem_cons.mpr ⟨first.2, ih.2⟩⟩
  · rintro ⟨keys, values⟩
    induction stored generalizing entries with
    | nil =>
        obtain rfl : entries = [] := List.map_eq_nil_iff.mp keys.symm
        exact .nil
    | cons first rest ih =>
        cases entries with
        | nil => cases keys
        | cons second others =>
            obtain ⟨sameKey, sameKeys⟩ := List.cons.inj keys
            obtain ⟨value, further⟩ := List.forall_mem_cons.mp values
            exact .cons ⟨sameKey, value⟩ (ih sameKeys further)

theorem represents_map_iff {mark : Mark} : Represents maps among held (.map mark entries) ↔
    ∃ place stored, held = .back place true ∧ among place ∧ maps[place]? = some stored ∧
      RepresentsEntries maps among stored entries := by
  constructor
  · intro shows
    cases shows with
    | plain plain => cases plain
    | map inside found keys values =>
        exact ⟨_, _, rfl, inside, found, representsEntries_iff.mpr ⟨keys, values⟩⟩
  · rintro ⟨place, stored, rfl, inside, found, shows⟩
    obtain ⟨keys, values⟩ := representsEntries_iff.mp shows
    exact .map inside found keys values

/-- What a value represents depends on those maps only that it may refer to. -/
theorem Represents.frame (shows : Represents maps among held shown)
    (same : ∀ place stored, among place → maps[place]? = some stored →
      within place ∧ extended[place]? = some stored) : Represents extended within held shown := by
  induction shows with
  | plain plain => exact .plain plain
  | map inside found keys _ ih =>
      obtain ⟨inside, found⟩ := same _ _ inside found
      exact .map inside found keys ih

theorem RepresentsEntries.frame (shows : RepresentsEntries maps among stored entries)
    (same : ∀ place stored, among place → maps[place]? = some stored →
      within place ∧ extended[place]? = some stored) :
    RepresentsEntries extended within stored entries :=
  List.Forall₂.imp (fun _ _ both => ⟨both.1, both.2.frame same⟩) shows

theorem RepresentsEntries.get? (shows : RepresentsEntries maps among stored entries) (key : Value) :
    Option.Rel (Represents maps among) (stored.get? key) (entries.get? key) := by
  induction shows with
  | nil => exact .none
  | @cons first second _ _ both _ ih =>
      rw [Entries.get?_cons first.1 first.2, Entries.get?_cons second.1 second.2, both.1]
      split
      · exact .some both.2
      · exact ih

theorem RepresentsEntries.put (shows : RepresentsEntries maps among stored entries)
    (value : Represents maps among held shown) (key : Value) :
    RepresentsEntries maps among (stored.put key held) (entries.put key shown) := by
  induction shows with
  | nil => exact .cons ⟨rfl, value⟩ .nil
  | @cons first second _ _ both others ih =>
      obtain ⟨given, old⟩ := first
      obtain ⟨_, new⟩ := second
      obtain ⟨rfl, old⟩ := both
      rw [Entries.put, Entries.put]
      split
      · exact .cons ⟨rfl, value⟩ others
      · exact .cons ⟨rfl, old⟩ ih

theorem getElem?_of_grown {maps extended : Maps} (kept : maps <+: extended) {place : Nat}
    (found : maps[place]? = some stored) : extended[place]? = some stored := by
  obtain ⟨inside, rfl⟩ := List.getElem?_eq_some_iff.mp found
  exact List.prefix_iff_getElem?.mp kept place inside

end Represents

section Keeping

variable {maps : Maps} {entries : Entries} {documents : List Value}

theorem exists_representsEntries
    (each : ∀ entry ∈ entries, ∀ maps, ∃ extended held, maps <+: extended ∧
      Represents extended (fun _ => True) held entry.2) (maps : Maps) :
    ∃ extended stored, maps <+: extended ∧
      RepresentsEntries extended (fun _ => True) stored entries := by
  induction entries generalizing maps with
  | nil => exact ⟨maps, [], List.prefix_rfl, .nil⟩
  | cons entry rest ih =>
      obtain ⟨first, others⟩ := List.forall_mem_cons.mp each
      obtain ⟨middle, held, grown, shows⟩ := first maps
      obtain ⟨extended, stored, grownAgain, showsRest⟩ := ih others middle
      have showsStill := shows.frame fun place stored _ found =>
        And.intro trivial (getElem?_of_grown grownAgain found)
      exact ⟨extended, (entry.1, held) :: stored, grown.trans grownAgain,
        .cons ⟨rfl, showsStill⟩ showsRest⟩

/-- Whatever is nested can be kept in maps beside those that there are. -/
theorem exists_represents {value : Value} (nested : value.Nested) (maps : Maps) :
    ∃ extended held, maps <+: extended ∧ Represents extended (fun _ => True) held value := by
  induction nested generalizing maps with
  | other plain => exact ⟨maps, _, List.prefix_rfl, .plain plain⟩
  | map apart _ ih =>
      obtain ⟨extended, stored, grown, shows⟩ := exists_representsEntries ih maps
      refine ⟨extended ++ [stored], .back extended.length true,
        grown.trans (List.prefix_append _ _), represents_map_iff.mpr ?_⟩
      refine ⟨_, stored, rfl, trivial, List.getElem?_concat_length, ?_⟩
      exact shows.frame fun place stored _ found =>
        ⟨trivial, getElem?_of_grown (List.prefix_append _ _) found⟩

theorem exists_representsAll
    (nested : ∀ document ∈ documents, document.Nested ∧ document.isMapping) (maps : Maps) :
    ∃ extended places, maps <+: extended ∧
      RepresentsAll extended (fun _ => True) places documents := by
  induction documents generalizing maps with
  | nil => exact ⟨maps, [], List.prefix_rfl, .nil⟩
  | cons document rest ih =>
      obtain ⟨⟨nestedFirst, mapping⟩, others⟩ := List.forall_mem_cons.mp nested
      obtain ⟨middle, held, grown, shows⟩ := exists_represents nestedFirst maps
      obtain ⟨mark, entries, rfl, -, -⟩ := nestedFirst.exists_map mapping
      obtain ⟨place, stored, rfl, -⟩ := represents_map_iff.mp shows
      obtain ⟨extended, places, grownAgain, showsRest⟩ := ih others middle
      have showsStill := shows.frame fun place stored _ found =>
        And.intro trivial (getElem?_of_grown grownAgain found)
      exact ⟨extended, place :: places, grown.trans grownAgain, .cons showsStill showsRest⟩

end Keeping

section Filling

/-- Places other than that of the map that is being made, old ones among some, and later ones. -/
def Beside (among : Nat → Prop) (target place : Nat) : Prop :=
  (among place ∨ target ≤ place) ∧ place ≠ target

/-- While the new map is made, the maps that were there are as they were, and the new one represents
what has been merged so far and refers to itself nowhere. -/
structure Filling (depth : Nat) (before : Maps) (among : Nat → Prop) (maps : Maps)
    (entries : Entries) : Prop where
  kept : before <+: maps
  made : ∃ stored, maps[before.length]? = some stored ∧
    RepresentsEntries maps (Beside among before.length) stored entries
  nested : (Value.map none entries).NestedWithin (depth + 1)

/-- Two maps that represent documents of a depth are merged into one that represents the merged
document, and nothing that was there changes. -/
def MergesPairs (depth : Nat) (merge : Maps → List Nat → Option (Maps × Nat)) : Prop :=
  ∀ {maps : Maps} {among : Nat → Prop} {first second : Nat} {markEarlier markLater : Mark}
    {earlier later : Entries},
    Represents maps among (.back first true) (.map markEarlier earlier) →
    Represents maps among (.back second true) (.map markLater later) →
    (Value.map markEarlier earlier).NestedWithin depth →
    (Value.map markLater later).NestedWithin depth →
    ∃ extended made, merge maps [first, second] = some (extended, made) ∧ maps <+: extended ∧
      Represents extended (fun place => among place ∨ maps.length ≤ place) (.back made true)
        (.map none (mergeEntries earlier later))

variable {depth : Nat} {before maps : Maps} {among : Nat → Prop} {entries : Entries}
variable {merge : Maps → List Nat → Option (Maps × Nat)} {held shown : Value}

theorem Filling.target_lt (filling : Filling depth before among maps entries) :
    before.length < maps.length := by
  obtain ⟨stored, found, -⟩ := filling.made
  exact (List.getElem?_eq_some_iff.mp found).1

/-- What the old maps represent the extended ones represent without the new map. -/
theorem beside_of_before (kept : before <+: maps) {place : Nat} {stored : Entries}
    (inside : among place) (found : before[place]? = some stored) :
    Beside among before.length place ∧ maps[place]? = some stored := by
  have old : place < before.length := (List.getElem?_eq_some_iff.mp found).1
  exact ⟨⟨.inl inside, old.ne⟩, getElem?_of_grown kept found⟩

theorem filling_start (before : Maps) (among : Nat → Prop) (depth : Nat) :
    Filling depth before among (before ++ [[]]) [] where
  kept := List.prefix_append _ _
  made := ⟨[], List.getElem?_concat_length, .nil⟩
  nested := .map List.Pairwise.nil fun _ member => absurd member List.not_mem_nil

/-- Without two maps to merge a key gets the value that comes in. -/
theorem takenValue_as_is {storedBefore : Option Value}
    (single : storedBefore.bind Value.place? = none ∨ held.place? = none) :
    takenValue merge maps storedBefore held = some (maps, held) := by
  rw [takenValue]
  split
  · next first second isFirst isSecond => simp [isFirst, isSecond] at single
  · rfl

/-- A key gets what merging gives it, and no map that was there changes. -/
theorem takenValue_spec {target : Nat} {storedBefore shownBefore : Option Value}
    (merges : MergesPairs depth merge) (there : target < maps.length)
    (showsBefore : Option.Rel (Represents maps (Beside among target)) storedBefore shownBefore)
    (shows : Represents maps (Beside among target) held shown)
    (nestedBefore : ∀ earlier ∈ shownBefore, earlier.NestedWithin depth)
    (nested : shown.NestedWithin depth) :
    ∃ extended taken, takenValue merge maps storedBefore held = some (extended, taken) ∧
      maps <+: extended ∧
      Represents extended (Beside among target) taken (mergeValue shownBefore shown) := by
  -- Only if there is a map before and a map now are these merged.
  have keeps (asIs : takenValue merge maps storedBefore held = some (maps, held))
      (merged : mergeValue shownBefore shown = shown) :
      ∃ extended taken, takenValue merge maps storedBefore held = some (extended, taken) ∧
        maps <+: extended ∧
        Represents extended (Beside among target) taken (mergeValue shownBefore shown) :=
    ⟨maps, held, asIs, List.prefix_rfl, merged.symm ▸ shows⟩
  cases showsBefore with
  | none => exact keeps (takenValue_as_is (.inl rfl)) (mergeValue_none _)
  | @some storedEarlier earlier showsEarlier =>
      cases shows with
      | plain plain =>
          exact keeps (takenValue_as_is (.inr (Value.place?_of_not_mapping plain)))
            (mergeValue_of_not_mapping plain _)
      | @map second markLater _ later inside found keys values =>
          cases showsEarlier with
          | plain plain =>
              exact keeps (takenValue_as_is (.inl (Value.place?_of_not_mapping plain)))
                (mergeValue_after_not_mapping plain _)
          | @map first markEarlier _ earlier insideEarlier foundEarlier keysEarlier valuesEarlier =>
              obtain ⟨extended, made, merged, kept, result⟩ :=
                merges (.map insideEarlier foundEarlier keysEarlier valuesEarlier)
                  (.map inside found keys values) (nestedBefore _ (Option.mem_some_self _)) nested
              refine ⟨extended, .back made true, ?_, kept, ?_⟩
              · exact congrArg (Option.map fun made => (made.1, Value.back made.2 true)) merged
              · rw [mergeValue_maps]
                refine result.frame fun place stored within found => ⟨?_, found⟩
                rcases within with beside | new
                · exact beside
                · exact ⟨.inr (there.le.trans new), (there.trans_le new).ne'⟩

/-- Taking an entry in goes on with the map that is being made. -/
theorem Filling.take (merges : MergesPairs depth merge)
    (filling : Filling depth before among maps entries) (shows : Represents before among held shown)
    (nested : shown.NestedWithin depth) (key : Value) :
    ∃ extended taken,
      takenValue merge maps (maps[before.length]?.bind (·.get? key)) held = some (extended, taken) ∧
      Filling depth before among (extended.modify before.length (·.put key taken))
        (entries.put key (mergeValue (entries.get? key) shown)) := by
  obtain ⟨stored, found, showsStored⟩ := filling.made
  obtain ⟨apart, inner⟩ := Value.nestedWithin_map.mp filling.nested
  have nestedBefore : ∀ earlier ∈ entries.get? key, earlier.NestedWithin depth := by
    intro earlier member
    obtain ⟨listed, isEntry, -, rfl⟩ := Entries.mem_of_get? member
    exact inner listed isEntry
  obtain ⟨extended, taken, isTaken, grown, showsTaken⟩ :=
    takenValue_spec merges filling.target_lt (showsStored.get? key)
      (shows.frame fun _ _ => beside_of_before filling.kept) nestedBefore nested
  rw [found, Option.bind_some]
  -- Whatever is beside the new map is not changed by what is put into it.
  have untouched : ∀ place entries, Beside among before.length place →
      extended[place]? = some entries → Beside among before.length place ∧
        (extended.modify before.length (·.put key taken))[place]? = some entries := by
    intro place entries beside foundAt
    exact ⟨beside, by rw [List.getElem?_modify_ne _ _ beside.2.symm, foundAt]⟩
  refine ⟨extended, taken, isTaken, ?_, ?_, ?_⟩
  · rw [List.prefix_iff_getElem?]
    intro place old
    rw [List.getElem?_modify_ne _ _ old.ne']
    exact List.prefix_iff_getElem?.mp (filling.kept.trans grown) place old
  · refine ⟨stored.put key taken, ?_, ?_⟩
    · rw [List.getElem?_modify_eq, getElem?_of_grown grown found]
      rfl
    · have showsGrown := showsStored.frame fun place stored inside foundAt =>
        And.intro inside (getElem?_of_grown grown foundAt)
      exact (showsGrown.put showsTaken key).frame untouched
  · refine .map (Entries.apart_put apart key _) fun entry member => ?_
    rcases Entries.mem_put member with old | new
    · exact inner entry old
    · rw [new]
      exact nestedWithin_mergeValue nestedBefore nested

theorem takeEntries_spec (merges : MergesPairs depth merge)
    (filling : Filling depth before among maps entries) {stored taken : Entries}
    (shows : RepresentsEntries before among stored taken)
    (nested : ∀ entry ∈ taken, entry.2.NestedWithin depth) :
    ∃ filled, takeEntries merge before.length maps stored = some filled ∧
      Filling depth before among filled (mergeEntries entries taken) := by
  induction shows generalizing maps entries with
  | nil =>
      rw [mergeEntries]
      exact ⟨maps, rfl, filling⟩
  | @cons first second _ _ both _ ih =>
      obtain ⟨key, held⟩ := first
      obtain ⟨_, shown⟩ := second
      obtain ⟨rfl, showsValue⟩ := both
      obtain ⟨nestedValue, nestedOthers⟩ := List.forall_mem_cons.mp nested
      obtain ⟨extended, value, isTaken, next⟩ := filling.take merges showsValue nestedValue key
      obtain ⟨filled, takes, result⟩ := ih next nestedOthers
      refine ⟨filled, ?_, by rwa [mergeEntries]⟩
      rw [takeEntries, isTaken]
      exact takes

variable {places : List Nat} {documents : List Value}

theorem foldlM_takeEntries (merges : MergesPairs depth merge)
    (filling : Filling depth before among maps entries)
    (shows : RepresentsAll before among places documents)
    (nested : ∀ document ∈ documents, document.NestedWithin (depth + 1)) :
    ∃ filled, places.foldlM (fun filled place => do
        takeEntries merge before.length filled (← filled[place]?)) maps = some filled ∧
      Filling depth before among filled
        (mergeEntries entries (documents.flatMap Value.entries)) := by
  induction shows generalizing maps entries with
  | nil =>
      rw [List.flatMap_nil, mergeEntries]
      exact ⟨maps, rfl, filling⟩
  | @cons place _ _ _ first _ ih =>
      obtain ⟨nestedFirst, nestedOthers⟩ := List.forall_mem_cons.mp nested
      cases first with
      | plain plain => cases plain
      | map inside found keys values =>
          obtain ⟨middle, takes, next⟩ := takeEntries_spec merges filling
            (representsEntries_iff.mpr ⟨keys, values⟩) (Value.nestedWithin_map.mp nestedFirst).2
          obtain ⟨filled, goesOn, result⟩ := ih next nestedOthers
          refine ⟨filled, ?_, ?_⟩
          · rw [List.foldlM_cons, getElem?_of_grown filling.kept found]
            exact (congrArg (· >>= _) takes).trans goesOn
          · rwa [List.flatMap_cons, mergeEntries_append]

/-- If two maps of a depth are merged right, so is any number of maps that are one level deeper. -/
theorem mergeMaps_of_mergesPairs (merges : MergesPairs depth (mergeMaps depth))
    (shows : RepresentsAll before among places documents)
    (nested : ∀ document ∈ documents, document.NestedWithin (depth + 1)) :
    ∃ extended made, mergeMaps (depth + 1) before places = some (extended, made) ∧
      before <+: extended ∧
      Represents extended (fun place => among place ∨ before.length ≤ place) (.back made true)
        (.map none (mergeEntries [] (documents.flatMap Value.entries))) := by
  obtain ⟨filled, fills, filling⟩ :=
    foldlM_takeEntries merges (filling_start before among depth) shows nested
  obtain ⟨stored, found, showsStored⟩ := filling.made
  refine ⟨filled, before.length, ?_, filling.kept, ?_⟩
  · rw [mergeMaps, fills]
    rfl
  · refine represents_map_iff.mpr ⟨_, stored, rfl, .inr le_rfl, found, ?_⟩
    exact showsStored.frame fun place _ beside foundAt => ⟨beside.1, foundAt⟩

theorem mergesPairs (depth : Nat) : MergesPairs depth (mergeMaps depth) := by
  induction depth with
  | zero =>
      intro _ _ _ _ _ _ _ _ _ _ nested _
      cases nested with
      | other plain => cases plain
  | succ depth ih =>
      intro maps among first second markEarlier markLater earlier later showsEarlier showsLater
        nestedEarlier nestedLater
      obtain ⟨extended, made, merged, kept, result⟩ := mergeMaps_of_mergesPairs ih
        (.cons showsEarlier (.cons showsLater .nil))
        (List.forall_mem_cons.mpr ⟨nestedEarlier, List.forall_mem_singleton.mpr nestedLater⟩)
      refine ⟨extended, made, merged, kept, ?_⟩
      have apart := (Value.nestedWithin_map.mp nestedEarlier).1
      have both : [Value.map markEarlier earlier, .map markLater later].flatMap Value.entries =
          earlier ++ later := congrArg (earlier ++ ·) (List.append_nil later)
      rwa [both, mergeEntries_append, mergeEntries_nil apart] at result

/-- **Merging writes to no map that was there.** The new map represents what merging the documents
gives, and all places hold the entries that they held before. -/
theorem mergeMaps_spec
    (shows : RepresentsAll before among places documents)
    (nested : ∀ document ∈ documents, document.NestedWithin (depth + 1)) :
    ∃ extended made, mergeMaps (depth + 1) before places = some (extended, made) ∧
      before <+: extended ∧
      Represents extended (fun place => among place ∨ before.length ≤ place) (.back made true)
        (.map none (mergeEntries [] (documents.flatMap Value.entries))) :=
  mergeMaps_of_mergesPairs (mergesPairs depth) shows nested

end Filling

end Settings

end MemberOrder
