import MemberOrder.Proofs.Settings.Recording
import MemberOrder.Settings.Environment

/-!
# Settings in layers

A document with that of the environment merged into it has for each setting the value of the
environment, or else its own (`Settings.given?_layered`). What the environment adds is plain, and it
hides nothing that is wrong with a part but a part that holds no entries.
-/

namespace MemberOrder

/-- Fields that are made from items are found by the items. -/
theorem lookup_filterMap {ι α : Type} {items : List ι} {key : ι → String} {value? : ι → Option α}
    {item : ι} (member : item ∈ items) (apart : ∀ other ∈ items, key other = key item →
      other = item) :
    (items.filterMap fun item => (value? item).map fun value => (key item, value)).lookup
      (key item) = value? item := by
  induction items with
  | nil => cases member
  | cons first rest ih =>
      obtain ⟨apartFirst, apartRest⟩ := List.forall_mem_cons.mp apart
      by_cases same : key first = key item
      · obtain rfl := apartFirst same
        rw [List.filterMap_cons]
        cases value : value? first with
        | some given => rw [Option.map_some, List.lookup_cons, beq_self_eq_true]
        | none =>
            rw [Option.map_none, List.lookup_eq_none_iff]
            intro field listed
            obtain ⟨other, held, made⟩ := List.mem_filterMap.mp listed
            obtain ⟨given, found, rfl⟩ := Option.map_eq_some_iff.mp made
            refine bne_iff_ne.mpr fun equal => ?_
            rw [apartRest other held equal.symm, value] at found
            cases found
      · have later : item ∈ rest := (List.mem_cons.mp member).resolve_left fun equal =>
          same (by rw [equal])
        rw [List.filterMap_cons]
        cases value : value? first with
        | none => exact ih later apartRest
        | some given =>
            refine (List.lookup_cons ..).trans ?_
            rw [beq_false_of_ne (Ne.symm same)]
            exact ih later apartRest

namespace Entries

/-- Fields that are made from items have the keys of the items. -/
theorem distinct_ofFields_filterMap {ι : Type} {items : List ι} {key : ι → String}
    (value? : ι → Option Value) (apart : (items.map key).Nodup) :
    (ofFields (items.filterMap fun item =>
      (value? item).map fun value => (key item, value))).Distinct := by
  refine distinct_ofFields.mpr (List.Sublist.nodup ?_ apart)
  induction items with
  | nil => exact .slnil
  | cons item rest ih =>
      have further := ih (List.nodup_cons.mp apart).2
      rw [List.filterMap_cons]
      cases value? item with
      | none => exact further.cons _
      | some value => exact further.cons_cons _

end Entries

namespace Settings

variable {environment : Environment} {document : Entries} {setting : Setting} {part : Part}

section Environments

theorem key_injective {first second : Setting} (parts : first.part = second.part)
    (keys : first.key = second.key) : first = second :=
  Option.some.inj (by rw [← ofKey?_key first, ← ofKey?_key second, parts, keys])

theorem mem_inPart : setting ∈ Setting.inPart part ↔ setting.part = part := by
  rw [Setting.inPart, List.mem_filter, decide_eq_true_iff]
  refine and_iff_right ?_
  cases setting <;> simp [Setting.all]

theorem field?_partFromEnvironment (environment : Environment) (setting : Setting) :
    (partFromEnvironment environment setting.part).field? setting.key =
      fromVariable? environment setting := by
  rw [partFromEnvironment, Entries.field?_ofFields]
  exact lookup_filterMap (mem_inPart.mpr rfl) fun other member same =>
    key_injective (mem_inPart.mp member) same

theorem distinct_partFromEnvironment (environment : Environment) (part : Part) :
    (partFromEnvironment environment part).Distinct :=
  Entries.distinct_ofFields_filterMap _ (by cases part <;> decide)

theorem plainKey_of_mem_partFromEnvironment :
    ∀ entry ∈ partFromEnvironment environment part, PlainKey entry.1 := by
  intro entry member
  obtain ⟨⟨word, value⟩, field, rfl⟩ := List.mem_map.mp member
  obtain ⟨setting, -, given⟩ := List.mem_filterMap.mp field
  obtain ⟨_, -, same⟩ := Option.map_eq_some_iff.mp given
  cases same
  exact ⟨setting.key, rfl, by cases setting <;> decide⟩

/-- The part of the environment's document, if anything in it is set. -/
def environmentPart? (environment : Environment) (part : Part) : Option Value :=
  match partFromEnvironment environment part with
  | [] => none
  | entries => some (.map none entries)

theorem fromEnvironment_eq (environment : Environment) :
    fromEnvironment environment = Entries.ofFields ([Part.sort, Part.output].filterMap fun part =>
      (environmentPart? environment part).map fun value => (part.key, value)) := by
  unfold fromEnvironment environmentPart?
  refine congrArg (fun field => Entries.ofFields (List.filterMap field _)) ?_
  funext part
  cases partFromEnvironment environment part <;> rfl

theorem field?_fromEnvironment (environment : Environment) (part : Part) :
    (fromEnvironment environment).field? part.key = environmentPart? environment part := by
  rw [fromEnvironment_eq, Entries.field?_ofFields]
  refine lookup_filterMap (by cases part <;> simp) fun other _ same => ?_
  cases other <;> cases part <;> first | rfl | exact absurd same (by decide)

theorem distinct_fromEnvironment (environment : Environment) :
    (fromEnvironment environment).Distinct := by
  rw [fromEnvironment_eq]
  exact Entries.distinct_ofFields_filterMap _ (by decide)

/-- What the environment gives is no map, so it takes the place of what was there. -/
theorem mergeValue_fromVariable? (before : Option Value) {value : Value}
    (given : fromVariable? environment setting = some value) :
    mergeValue before value = value := by
  obtain ⟨text, -, accepted⟩ := Option.bind_eq_some_iff.mp given
  unfold accept? at accepted
  split at accepted
  · obtain ⟨truth, -, rfl⟩ := Option.map_eq_some_iff.mp accepted
    rw [mergeValue]
    rintro _ _ ⟨⟩
  · obtain ⟨truth, -, rfl⟩ := Option.map_eq_some_iff.mp accepted
    rw [mergeValue]
    rintro _ _ ⟨⟩
  · obtain ⟨width, -, rfl⟩ := Option.map_eq_some_iff.mp accepted
    rw [mergeValue]
    rintro _ _ ⟨⟩
  · simp only at accepted
    split at accepted
    · cases accepted
      rw [mergeValue]
      rintro _ _ ⟨⟩
    · cases accepted

end Environments

section Layers

variable {counts : Bool} {mine result : Option Value} {added : Entries}

/-- A document with that of the environment merged into it, if the environment counts. -/
def layered (environment : Environment) (counts : Bool) (document : Entries) : Entries :=
  mergeEntries (mergeEntries [] document) (if counts then fromEnvironment environment else [])

/-- The entries that the environment adds to a part, if it counts. -/
def addedEntries (environment : Environment) (counts : Bool) (part : Part) : Entries :=
  if counts then partFromEnvironment environment part else []

/-- The value that the environment gives a setting, if it counts. -/
def fromLayer? (environment : Environment) (counts : Bool) (setting : Setting) : Option Value :=
  if counts then fromVariable? environment setting else none

/-- What becomes of a part when entries are added to it: it stays if there are none, it takes them
in if it holds entries itself, and else they take its place. -/
inductive Extended (added : Entries) : Option Value → Option Value → Prop
  | kept {mine : Option Value} (nothing : added = []) : Extended added mine mine
  | merged {mark : Mark} {earlier : Entries} :
      Extended added (some (.map mark earlier)) (some (.map none (mergeEntries earlier added)))
  | replaced {mine : Option Value} (noMap : ∀ mark entries, mine ≠ some (.map mark entries)) :
      Extended added mine (some (.map none added))

theorem extended_mergeField (mine : Option Value) (added : Entries) :
    Extended added mine (mergeField mine (match added with
      | [] => none
      | entries => some (.map none entries))) := by
  split
  · exact .kept rfl
  · rw [mergeField_some]
    rcases mine with _ | ⟨_ | _ | _ | _ | _ | _ | _ | _ | _ | ⟨mark, earlier⟩ | _ | _ | _⟩
    case some.map =>
      rw [mergeValue]
      exact .merged
    all_goals
      rw [mergeValue]
      · exact .replaced (by rintro _ _ ⟨⟩)
      · rintro _ _ ⟨⟩

theorem field?_mergeEntries_nil (distinct : document.Distinct) (name : String) :
    (mergeEntries [] document).field? name = document.field? name := by
  rw [field?_mergeEntries distinct]
  change mergeField none (document.field? name) = document.field? name
  cases document.field? name with
  | none => rfl
  | some value => rw [mergeField_some, mergeValue_none]

theorem extended_layered (distinct : document.Distinct) (environment : Environment)
    (counts : Bool) (part : Part) : Extended (addedEntries environment counts part)
      (document.field? part.key) ((layered environment counts document).field? part.key) := by
  unfold layered addedEntries
  cases counts with
  | false =>
      rw [if_neg Bool.false_ne_true, if_neg Bool.false_ne_true, mergeEntries,
        field?_mergeEntries_nil distinct]
      exact .kept rfl
  | true =>
      rw [if_pos rfl, if_pos rfl, field?_mergeEntries (distinct_fromEnvironment environment),
        field?_mergeEntries_nil distinct, field?_fromEnvironment]
      exact extended_mergeField _ _

theorem field?_addedEntries (environment : Environment) (counts : Bool) (setting : Setting) :
    (addedEntries environment counts setting.part).field? setting.key =
      fromLayer? environment counts setting := by
  unfold addedEntries fromLayer?
  cases counts with
  | false => rfl
  | true => exact field?_partFromEnvironment environment setting

theorem distinct_addedEntries (environment : Environment) (counts : Bool) (part : Part) :
    (addedEntries environment counts part).Distinct := by
  unfold addedEntries
  split
  · exact distinct_partFromEnvironment environment part
  · exact Entries.distinct_nil

/-- The entries of a part in the layers: those of the document with the added ones merged into them,
or the added ones alone. -/
theorem partEntries_layered (distinct : document.Distinct) (environment : Environment)
    (counts : Bool) (part : Part) :
    partEntries (layered environment counts document) part =
        mergeEntries (partEntries document part) (addedEntries environment counts part) ∨
      partEntries document part = [] ∧ partEntries (layered environment counts document) part =
        addedEntries environment counts part := by
  have mine := extended_layered distinct environment counts part
  unfold partEntries
  generalize document.field? part.key = before at mine ⊢
  generalize (layered environment counts document).field? part.key = whole at mine ⊢
  cases mine with
  | kept nothing =>
      rw [nothing, mergeEntries]
      exact .inl rfl
  | merged => exact .inl rfl
  | replaced noMap =>
      refine .inr ⟨?_, rfl⟩
      split
      · exact absurd rfl (noMap _ _)
      · rfl

theorem mergeField_fromLayer? (before : Option Value) (environment : Environment) (counts : Bool)
    (setting : Setting) : mergeField before (fromLayer? environment counts setting) =
      (fromLayer? environment counts setting).or before := by
  cases given : fromLayer? environment counts setting with
  | none => rfl
  | some value =>
      unfold fromLayer? at given
      split at given
      · rw [mergeField_some, mergeValue_fromVariable? _ given]
        rfl
      · cases given

/-- **Layers.** The layers have for each setting the value of the environment, or else that of the
document. -/
theorem given?_layered (distinct : document.Distinct) (environment : Environment) (counts : Bool)
    (setting : Setting) : given? (layered environment counts document) setting =
      (fromLayer? environment counts setting).or (given? document setting) := by
  have added := field?_addedEntries environment counts setting
  unfold given?
  obtain merged | ⟨nothing, replaced⟩ :=
    partEntries_layered distinct environment counts setting.part
  · rw [merged, field?_mergeEntries (distinct_addedEntries _ _ _), added, mergeField_fromLayer?]
  · rw [replaced, nothing, added]
    exact (Option.or_none ..).symm

theorem plain_layered (distinct : document.Distinct) (plain : Plain document)
    (environment : Environment) (counts : Bool) : Plain (layered environment counts document) := by
  intro part
  have added : ∀ entry ∈ addedEntries environment counts part, PlainKey entry.1 := by
    unfold addedEntries
    split
    · exact plainKey_of_mem_partFromEnvironment
    · exact List.forall_mem_nil _
  obtain merged | ⟨-, replaced⟩ := partEntries_layered distinct environment counts part
  · rw [merged]
    exact forall_key_mergeEntries (plain part) added
  · rw [replaced]
    exact added

theorem partsDistinct_layered (distinct : document.Distinct) (parts : PartsDistinct document)
    (environment : Environment) (counts : Bool) :
    PartsDistinct (layered environment counts document) := by
  intro part
  obtain merged | ⟨-, replaced⟩ := partEntries_layered distinct environment counts part
  · rw [merged]
    exact distinct_mergeEntries (parts part) _
  · rw [replaced]
    exact distinct_addedEntries environment counts part

theorem partKindFault?_layered (distinct : document.Distinct)
    (kinds : ∀ part, partKindFault? document part = none) (environment : Environment)
    (counts : Bool) (part : Part) :
    partKindFault? (layered environment counts document) part = none := by
  have mine := extended_layered distinct environment counts part
  have kind := kinds part
  unfold partKindFault? at kind ⊢
  generalize document.field? part.key = before at mine kind
  generalize (layered environment counts document).field? part.key = whole at mine ⊢
  cases mine with
  | kept => exact kind
  | merged | replaced => rfl

end Layers

end Settings

end MemberOrder
