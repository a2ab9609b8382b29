import MemberOrder.Proofs.Json.LongRows
import MemberOrder.Proofs.Tree.DecodeFaults
import MemberOrder.Proofs.Tree.TextRoundTrip
import MemberOrder.Proofs.Yaml.MakingFaults
import MemberOrder.Proofs.Yaml.PlainScalars

/-!
# How loading a text may fail

Loading a text in any format gives declarations, or a fault at a place, or it fails for one of few
other reasons, each of which can be seen in the text: a number that is too long, an escape beyond
the last code point, a plain scalar without a value, a written tag, and values that hold themselves
or cannot be shown (`Tree.loadText_settles`).
-/

namespace MemberOrder

/-- A value of a JSON text does not hold itself. -/
theorem Value.Readable.unshared_ne_none {value : Value} (readable : value.Readable) :
    value.unshared ≠ none := by
  induction readable with
  | null | bool | int | float | str => simp [Value.unshared]
  | list all ih =>
      intro circular
      obtain ⟨item, member, inner⟩ := Value.unshared_list_eq_none_iff.mp circular
      exact ih item member inner
  | @map fields distinct all ih =>
      intro circular
      obtain ⟨entry, member, inner⟩ := Value.unshared_map_eq_none_iff.mp circular
      obtain ⟨field, present, rfl⟩ := List.mem_map.mp member
      obtain key | value := inner
      · simp [Value.unshared] at key
      · exact ih field present value

namespace Tree

open Yaml (FarEscape Graph GraphNode HasTag Meaningless hexValue implicitTag scalarValue tokens)

/-- Why loading a text fails with something else than a fault at a place. -/
inductive OtherCause (text : String) : Format → LoadFault → Prop
  /-- A JSON text holds a whole number with too many digits. -/
  | longNumber {row : List Char} (long : LongRow text.toList row) :
      OtherCause text .json (.tooManyDigits row.length)
  /-- An escape of a YAML text names a code point above the last one. -/
  | farEscape {digits : List Char} (escape : FarEscape text.toList digits) :
      OtherCause text .yaml (.scalar (.codePoint (hexValue digits)))
  /-- A directive of a YAML text has a number with too many digits. -/
  | longVersion {row : List Char} (long : LongRow text.toList row) :
      OtherCause text .yaml (.scalar (.whole (.tooManyDigits row.length)))
  /-- A scalar without a tag is spelled as a number, date or time that has no value. -/
  | plain {graph : Graph} {root : Option Nat} {node : GraphNode} {spelling : String}
      {fault : Yaml.Fault} (reads : Graph.ofText text = .ok (graph, root)) (member : node ∈ graph)
      (content : node.content = .scalar spelling)
      (meaningless : Meaningless spelling.toList fault) : OtherCause text .yaml (.scalar fault)
  /-- A tag is written, and the nodes do not fit their tags. -/
  | tagged {graph : Graph} {root : Option Nat} {fault : Yaml.Fault}
      (reads : Graph.ofText text = .ok (graph, root))
      (written : HasTag (tokens text.toList).1.toList) (shown : graph.Shows fault) :
      OtherCause text .yaml (.scalar fault)
  /-- An object or a list of a YAML text holds itself. -/
  | endless {value : Value} (reads : readText .yaml text = .ok value)
      (circular : value.unshared = none) : OtherCause text .yaml .endless
  /-- A whole number of a YAML text has too many digits to be shown. -/
  | unshowable {value : Value} (reads : readText .yaml text = .ok value)
      (exceeds : value.exceedsDigits) : OtherCause text .yaml .unshowable

/-- How loading may fail: at a place, or for another cause. -/
def LoadFault.Shows (text : String) (format : Format) (fault : LoadFault) : Prop :=
  (∃ placed, fault = .tree placed) ∨ OtherCause text format fault

section Loading

variable {text : String}

/-- Nodes fail without a tag only for a plain scalar without meaning. -/
theorem otherCause_of_shows {graph : Graph} {root : Option Nat} {fault : Yaml.Fault}
    (reads : Graph.ofText text = .ok (graph, root)) (shown : graph.Shows fault) :
    fault = .malformed ∨ OtherCause text .yaml (.scalar fault) := by
  have settled := Graph.settles_ofText text
  rw [reads] at settled
  have tags := settled.good_of_ok
  cases shown with
  | malformed => exact .inl rfl
  | @scalar node spelling _ member content fails =>
      obtain untagged | written := tags node member
      · unfold GraphNode.Untagged at untagged
        rw [content] at untagged
        obtain text | ⟨implicit, unbroken⟩ := untagged
        · rw [text] at fails
          cases fails
        · have value := Yaml.settles_implicit unbroken
          rw [← implicit, fails] at value
          exact value.bad_of_error.imp id fun meaningless =>
            .plain reads member content meaningless
      · exact .inr (.tagged reads written (.scalar member content fails))
  | @mapping node _ member mapping tag =>
      obtain untagged | written := tags node member
      · obtain ⟨entries, content⟩ := mapping
        unfold GraphNode.Untagged at untagged
        rw [content] at untagged
        obtain list | map := untagged
        · rw [list] at tag
          cases tag
        · rw [map] at tag
          cases tag
      · exact .inr (.tagged reads written (.mapping member mapping tag))

theorem settles_readText_yaml :
    Settles (fun _ => True) (LoadFault.Shows text .yaml) (readText .yaml text) := by
  have settled := Yaml.settles_read text
  unfold readText
  simp only
  split
  · exact .ok trivial
  · exact .error (.inl ⟨_, rfl⟩)
  · next fault other outcome =>
      rw [outcome] at settled
      refine .error (.inr ?_)
      cases settled.bad_of_error with
      | malformed => exact absurd rfl other
      | codePoint escape => exact .farEscape escape
      | directive long => exact .longVersion long
      | node reads shown => exact (otherCause_of_shows reads shown).resolve_left other

theorem settles_readText_json :
    Settles Json.Short (LoadFault.Shows text .json) (readText .json text) := by
  have settled := Json.settles_read text
  unfold readText
  simp only
  split
  · exact .ok rfl
  · split
    · next value outcome =>
        rw [outcome] at settled
        exact .ok settled.good_of_ok
    · next count outcome =>
        rw [outcome] at settled
        obtain ⟨row, long, rfl⟩ := settled.bad_of_error
        exact .error (.inr (.longNumber long))
    · exact .error (.inl ⟨_, rfl⟩)

theorem settles_loadValue {format : Format} {value : Value}
    (endless : value.unshared = none → OtherCause text format .endless)
    (unshowable : value.exceedsDigits → OtherCause text format .unshowable) :
    Settles (fun _ => True) (LoadFault.Shows text format) (loadValue value) := by
  have settled := settles_decodeDocument value
  unfold loadValue
  split
  · exact .ok trivial
  · exact .error (.inl ⟨_, rfl⟩)
  · next outcome =>
      rw [outcome] at settled
      exact .error (.inr (endless settled.bad_of_error))
  · next outcome =>
      rw [outcome] at settled
      exact .error (.inr (unshowable settled.bad_of_error))

theorem settles_load (format : Format) (text : String) :
    Settles (fun _ => True) (LoadFault.Shows text format)
      (readText format text >>= loadValue) := by
  cases format with
  | json =>
      cases outcome : readText .json text with
      | error fault =>
          have settled := @settles_readText_json text
          rw [outcome] at settled
          exact .error settled.bad_of_error
      | ok value =>
          have settled := @settles_readText_json text
          rw [outcome] at settled
          refine settles_loadValue (fun circular => ?_) fun exceeds => ?_
          · exact absurd circular (readable_of_readText outcome).unshared_ne_none
          · have short : value.exceedsDigits = false := settled.good_of_ok
            rw [exceeds] at short
            cases short
  | yaml =>
      cases outcome : readText .yaml text with
      | error fault =>
          have settled := @settles_readText_yaml text
          rw [outcome] at settled
          exact .error settled.bad_of_error
      | ok value => exact settles_loadValue (.endless outcome) (.unshowable outcome)

end Loading

/-- **Faults of loading.** Loading a text in the format that a word names gives declarations, or
fails at a place, or fails for another cause that the text shows. -/
theorem loadText_settles (format text : String) :
    (∃ decls, loadText format text = .ok decls) ∨
      (∃ fault, loadText format text = .error (.tree fault)) ∨
      ∃ known fault, Format.ofLabel? format = some known ∧
        loadText format text = .error fault ∧ OtherCause text known fault := by
  unfold loadText
  cases named : Format.ofLabel? format with
  | none => exact .inr (.inl ⟨_, rfl⟩)
  | some known =>
      have settled := settles_load known text
      simp only
      cases outcome : readText known text >>= loadValue with
      | ok decls => exact .inl ⟨decls, rfl⟩
      | error fault =>
          rw [outcome] at settled
          obtain ⟨placed, rfl⟩ | other := settled.bad_of_error
          · exact .inr (.inl ⟨placed, rfl⟩)
          · exact .inr (.inr ⟨known, fault, rfl, rfl, other⟩)

/-- An escape beyond the last code point stops loading without a report. -/
theorem loadText_farEscape :
    loadText "yaml" "- \"\\U00110000\"\n" = .error (.scalar (.codePoint 0x110000)) := by
  have stops : (match Graph.ofText "- \"\\U00110000\"\n" with
      | .error fault => some fault
      | .ok _ => none) = some (.codePoint 0x110000) := by decide +kernel
  have reads : Graph.ofText "- \"\\U00110000\"\n" = .error (.codePoint 0x110000) := by
    split at stops
    · next outcome => rw [outcome, Option.some.inj stops]
    · cases stops
  simp [loadText, Format.ofLabel?, readText, Yaml.read, reads, bind, Except.bind]

end Tree

end MemberOrder
