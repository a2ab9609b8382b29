import MemberOrder.Proofs.Tree.LoadFaults

/-!
# What loaded nodes keep

No map of a text has a text as a key twice, whichever format the text is in
(`Tree.keyed_of_readText`). So the unknown nodes of loaded declarations say what the entries that
they keep say, and these have different keys (`Tree.kept_of_loadText`).
-/

namespace MemberOrder

/-- Whether an unknown node says what the entries that it keeps say, and these have no text as a key
twice. -/
def Node.Kept : Node → Prop
  | .unknown decl => ∀ entries, decl.payload = .entries entries →
      entries = [] ∨ decl.Mirrors entries ∧ entries.Distinct
  | .foreign => False
  | _ => True

namespace Value

theorem closeEntries_eq_map (scope : List (Nat × Value)) (entries : Entries) :
    closeEntries scope entries = entries.map fun entry => (entry.1, entry.2.close scope) := by
  induction entries with
  | nil => rw [closeEntries]; rfl
  | cons entry rest ih => rw [closeEntries, ih]; rfl

theorem distinct_closeEntries {scope : List (Nat × Value)} {entries : Entries} :
    Entries.Distinct (closeEntries scope entries) ↔ entries.Distinct := by
  rw [closeEntries_eq_map, Entries.Distinct, Entries.Distinct, List.filterMap_map]
  rfl

mutual

/-- Values closed over keyed ones stay keyed. -/
theorem keyed_close {scope : List (Nat × Value)} (around : ∀ entry ∈ scope, entry.2.Keyed) :
    (value : Value) → value.Keyed → (value.close scope).Keyed
  | .back mark keyed, _ => by
      rw [close]
      cases found : scope.lookup mark with
      | none => exact .other rfl
      | some value => exact around _ (mem_of_lookup found)
  | .list mark items, .list all => by
      rw [close]
      exact .list (keyed_closeItems around items all)
  | .map mark entries, .map distinct all => by
      rw [close]
      exact .map (distinct_closeEntries.mpr distinct) (keyed_closeEntries around entries all)
  | .pair _ _, _ => by
      rw [close]
      exact .other rfl
  | .null, keyed | .bool _, keyed | .int _, keyed | .float _, keyed | .str _, keyed
  | .bytes _, keyed | .date _ _, keyed | .moment _ _, keyed | .set _ _, keyed => by
      simpa [close] using keyed

theorem keyed_closeItems {scope : List (Nat × Value)} (around : ∀ entry ∈ scope, entry.2.Keyed) :
    (items : List Value) → (∀ item ∈ items, item.Keyed) →
      ∀ item ∈ closeItems scope items, item.Keyed
  | [], _ => List.forall_mem_nil _
  | item :: rest, keyed => by
      obtain ⟨first, others⟩ := List.forall_mem_cons.mp keyed
      rw [closeItems]
      exact List.forall_mem_cons.mpr
        ⟨keyed_close around item first, keyed_closeItems around rest others⟩

theorem keyed_closeEntries {scope : List (Nat × Value)} (around : ∀ entry ∈ scope, entry.2.Keyed) :
    (entries : Entries) → (∀ entry ∈ entries, entry.2.Keyed) →
      ∀ entry ∈ closeEntries scope entries, entry.2.Keyed
  | [], _ => List.forall_mem_nil _
  | (key, value) :: rest, keyed => by
      obtain ⟨first, others⟩ := List.forall_mem_cons.mp keyed
      rw [closeEntries]
      exact List.forall_mem_cons.mpr
        ⟨keyed_close around value first, keyed_closeEntries around rest others⟩

end

theorem keyed_enter {scope : List (Nat × Value)} {value : Value}
    (around : ∀ entry ∈ scope, entry.2.Keyed) (keyed : value.Keyed) (mark : Mark) :
    ∀ entry ∈ enter scope value mark, entry.2.Keyed := by
  cases mark with
  | none => exact around
  | some mark => exact List.forall_mem_cons.mpr ⟨keyed_close around _ keyed, around⟩

theorem Keyed.of_field? {mark : Mark} {entries : Entries} {name : String} {value : Value}
    (keyed : (Value.map mark entries).Keyed) (found : entries.field? name = some value) :
    value.Keyed := by
  cases keyed with
  | map _ all => exact all _ (Entries.mem_of_field? found)
  | other solid => cases solid

theorem Keyed.of_list {mark : Mark} {items : List Value} (keyed : (Value.list mark items).Keyed) :
    ∀ item ∈ items, item.Keyed := by
  cases keyed with
  | list all => exact all
  | other solid => cases solid

theorem Readable.keyed {value : Value} (readable : value.Readable) : value.Keyed := by
  induction readable with
  | null | bool | int | float | str => exact .other rfl
  | list _ ih => exact .list ih
  | @map fields distinct _ ih =>
      refine .map ?_ fun entry member => ?_
      · rw [Entries.Distinct, Entries.ofFields, List.filterMap_map]
        rwa [← List.filterMap_eq_map] at distinct
      · obtain ⟨field, listed, rfl⟩ := List.mem_map.mp member
        exact ih field listed

end Value

namespace Tree

section Kept

/-- Whether everything in a tree says what it keeps. -/
def KeptWithin (node : Node) : Prop :=
  ∀ steps inner, node.at? steps = some inner → inner.Kept

theorem settles_keepUnknown_kept {tag : Value} {entries : Entries}
    (found : tagOf? entries = some (tag, none)) (distinct : entries.Distinct) :
    Settles KeptWithin (fun _ => True) (keepUnknown tag entries) := by
  unfold keepUnknown
  simp only
  split
  · exact .error trivial
  · next short =>
      refine .ok ((Node.forall_at?_iff_of_leaf rfl).mpr fun others same => ?_)
      cases same
      exact .inr ⟨⟨tag, found, by simpa using short, rfl, rfl, rfl⟩, distinct⟩

theorem settles_decodeLeaf_kept (fields : Fields) {tag : Tag} (leaf : tag.isContainer = false) :
    Settles KeptWithin (fun _ => True) (decodeLeaf fields tag) := by
  cases outcome : decodeLeaf fields tag with
  | error _ => exact .error trivial
  | ok node =>
      have tagged := yields_decodeLeaf fields leaf node outcome
      refine .ok ?_
      match node with
      | .unknown decl =>
          refine (Node.forall_at?_iff_of_leaf rfl).mpr fun entries same => .inl ?_
          cases Option.some.inj tagged
          obtain ⟨_, named, payload⟩ := exists_of_decodeUnknown outcome
          cases named
          rw [same] at payload
          unfold PayloadOf at payload
          split at payload
          · next kept => cases kept; rfl
          · next impossible => cases impossible
          · next impossible => cases impossible
          · exact payload.elim
      | .foreign => cases tagged
      | .container head _ =>
          cases Option.some.inj tagged
          rw [isContainer_tag head.kind] at leaf
          cases leaf
      | .typeAlias _ | .binding _ | .method _ | .alias _ | .attribute _ | .mixin _ | .marker _ =>
          exact (Node.forall_at?_iff_of_leaf rfl).mpr trivial

mutual

theorem settles_decode_kept (scope : List (Nat × Value)) (place : Place) : (value : Value) →
    value.Keyed → Settles KeptWithin (fun _ => True) (decode scope place value)
  | .map mark entries, .map distinct all => by
      rw [decode]
      simp only
      split
      · exact .error trivial
      · next found =>
          exact settles_keepUnknown_kept found (Value.distinct_closeEntries.mpr distinct)
      · next tag _ =>
          split
          · refine (settles_any _).bind fun head _ => ?_
            refine (settles_decodeMembers_kept _ place entries all).bind fun members kept => ?_
            exact (settles_any _).bind fun comment _ =>
              .ok (Node.forall_at?_iff.mpr ⟨trivial, kept⟩)
          · next leaf => exact settles_decodeLeaf_kept _ (by simpa using leaf)
  | .back _ true, _ | .back _ false, _ | .list _ _, _ | .pair _ _, _ | .null, _ | .bool _, _
  | .int _, _ | .float _, _ | .str _, _ | .bytes _, _ | .date _ _, _ | .moment _ _, _
  | .set _ _, _ => .error trivial

theorem settles_decodeMembers_kept (scope : List (Nat × Value)) (place : Place) :
    (entries : Entries) → (∀ entry ∈ entries, entry.2.Keyed) →
      Settles (fun nodes => ∀ node ∈ nodes, KeptWithin node) (fun _ => True)
        (decodeMembers scope place entries)
  | [], _ => .ok (List.forall_mem_nil _)
  | (key, value) :: rest, keyed => by
      obtain ⟨first, others⟩ := List.forall_mem_cons.mp keyed
      rw [decodeMembers]
      split
      · exact settles_decodeList_kept scope place value first
      · exact settles_decodeMembers_kept scope place rest others

theorem settles_decodeList_kept (scope : List (Nat × Value)) (place : Place) : (value : Value) →
    value.Keyed → Settles (fun nodes => ∀ node ∈ nodes, KeptWithin node) (fun _ => True)
      (decodeList scope place value)
  | .list mark items, .list all => by
      rw [decodeList]
      exact settles_decodeItems_kept _ place 0 items all
  | .back _ true, _ | .back _ false, _ | .map _ _, _ | .pair _ _, _ | .null, _ | .bool _, _
  | .int _, _ | .float _, _ | .str _, _ | .bytes _, _ | .date _ _, _ | .moment _ _, _
  | .set _ _, _ => .error trivial

theorem settles_decodeItems_kept (scope : List (Nat × Value)) (place : Place) (index : Nat) :
    (items : List Value) → (∀ item ∈ items, item.Keyed) →
      Settles (fun nodes => ∀ node ∈ nodes, KeptWithin node) (fun _ => True)
        (decodeItems scope place index items)
  | [], _ => .ok (List.forall_mem_nil _)
  | item :: rest, keyed => by
      obtain ⟨first, others⟩ := List.forall_mem_cons.mp keyed
      rw [decodeItems]
      refine (settles_decode_kept scope _ item first).bind fun node kept => ?_
      exact (settles_decodeItems_kept scope place (index + 1) rest others).bind fun nodes later =>
        .ok (List.forall_mem_cons.mpr ⟨kept, later⟩)

end

theorem settles_decodeDeclarations_kept (list : String) (index : Nat) {items : List Value}
    (keyed : ∀ item ∈ items, item.Keyed) :
    Settles (fun nodes => ∀ node ∈ nodes, KeptWithin node) (fun _ => True)
      (decodeDeclarations list index items) := by
  induction items generalizing index with
  | nil => exact .ok (List.forall_mem_nil _)
  | cons item rest ih =>
      obtain ⟨first, others⟩ := List.forall_mem_cons.mp keyed
      rw [decodeDeclarations]
      refine (settles_decode_kept [] _ item first).bind fun node kept => ?_
      exact (ih (index + 1) others).bind fun nodes later =>
        .ok (List.forall_mem_cons.mpr ⟨kept, later⟩)

theorem keyed_of_readText {format : Format} {text : String} {value : Value}
    (reads : readText format text = .ok value) : value.Keyed := by
  cases format with
  | json => exact (readable_of_readText reads).keyed
  | yaml =>
      have settled := Yaml.settles_read text
      unfold readText at reads
      simp only at reads
      split at reads
      · next outcome =>
          cases reads
          rw [outcome] at settled
          exact settled.good_of_ok
      · cases reads
      · cases reads

theorem keyed_of_declarationList {document : Value} {list : String} {items : List Value}
    (keyed : document.Keyed) (listed : declarationList document = .ok (list, items)) :
    ∀ item ∈ items, item.Keyed := by
  have outside : ∀ entry ∈ ([] : List (Nat × Value)), entry.2.Keyed := List.forall_mem_nil _
  unfold declarationList at listed
  split at listed
  · next mark entries =>
      simp only at listed
      split at listed
      · cases listed
      · next inner held found =>
          cases listed
          have heldKeyed := keyed.of_field? found
          exact Value.keyed_closeItems
            (Value.keyed_enter (Value.keyed_enter outside keyed mark) heldKeyed inner) held
            heldKeyed.of_list
      · cases listed
  · next mark held =>
      cases listed
      exact Value.keyed_closeItems (Value.keyed_enter outside keyed mark) held keyed.of_list
  · cases listed

/-- Declarations of a text say what they keep. -/
theorem kept_of_loadText {format text : String} {decls : List Node}
    (loads : loadText format text = .ok decls) : ∀ decl ∈ decls, KeptWithin decl := by
  unfold loadText at loads
  split at loads
  · cases loads
  · obtain ⟨value, reads, decoded⟩ := bind_eq_ok_iff.mp loads
    unfold loadValue at decoded
    split at decoded
    · next whole =>
        cases decoded
        unfold decodeDocument at whole
        split at whole
        · cases whole
          exact List.forall_mem_nil _
        · obtain ⟨⟨list, items⟩, listed, read⟩ := bind_eq_ok_iff.mp whole
          have settled := settles_decodeDeclarations_kept list 0
            (keyed_of_declarationList (keyed_of_readText reads) listed)
          rw [show decodeDeclarations list 0 items = .ok decls from read] at settled
          exact settled.good_of_ok
    all_goals cases decoded

end Kept

end Tree

end MemberOrder
