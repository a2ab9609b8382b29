import MemberOrder.Proofs.Tree.OwnFlaw
import MemberOrder.Tree.Encode

/-!
# Fields that were written

Each kind of field is found under its name where it was written and nowhere else, and the reader of
that kind gives back the value that was written: a field that was left out because it had its
default is read as this default.
-/

namespace MemberOrder

namespace Tag

@[simp]
theorem ofLabel?_label (tag : Tag) : ofLabel? tag.label = some tag := by
  cases tag <;> decide

end Tag

namespace Tree

section Lookup

variable {α : Type} [DecidableEq α] (field name : String)

theorem lookup_single (value : Value) :
    [(field, value)].lookup name = if name = field then some value else none := by
  by_cases same : name = field
  · simp [same]
  · have other : (name == field) = false := beq_false_of_ne same
    simp [List.lookup_cons, same, other]

@[simp]
theorem lookup_textField (value : String) :
    (textField field value).lookup name = if name = field then some (.str value) else none :=
  lookup_single field name _

@[simp]
theorem lookup_optionalField (value : Option String) :
    (optionalField field value).lookup name =
      if name = field then value.map Value.str else none := by
  cases value with
  | none => simp [optionalField]
  | some value => exact lookup_single field name _

@[simp]
theorem lookup_textsField (texts : List String) :
    (textsField field texts).lookup name =
      if name = field ∧ texts ≠ [] then some (.list none (texts.map Value.str)) else none := by
  cases texts with
  | nil => simp [textsField]
  | cons text rest => simp [textsField, lookup_single]

@[simp]
theorem lookup_choiceField (label : α → String) (default value : α) :
    (choiceField field label default value).lookup name =
      if name = field ∧ value ≠ default then some (.str (label value)) else none := by
  by_cases left : value = default <;> simp [choiceField, lookup_single, left]

@[simp]
theorem lookup_visibilityField (visibility : Option Visibility) :
    (visibilityField visibility).lookup name =
      if name = "visibility" then visibility.map fun v => .str v.label else none := by
  simp [visibilityField, lookup_optionalField, Function.comp_def]

end Lookup

section Fields

variable {fields : Fields} {name : String}

theorem text_of {value : String} (found : fields.entries.field? name = some (.str value)) :
    fields.text name = .ok value := by
  rw [Fields.text, found]

theorem optionalText_of {value : Option String}
    (found : fields.entries.field? name = value.map Value.str) :
    fields.text? name = .ok value := by
  cases value <;> rw [Fields.text?, found] <;> rfl

theorem mapM_text?_map_str (texts : List String) :
    (texts.map Value.str).mapM Value.text? = some texts := by
  induction texts with
  | nil => rfl
  | cons text rest ih => simp [List.mapM_cons, Value.text?, ih]

theorem texts_of {texts : List String} (found : fields.entries.field? name =
      if texts ≠ [] then some (.list none (texts.map Value.str)) else none) :
    fields.texts name = .ok texts := by
  unfold Fields.texts
  by_cases empty : texts = []
  · simp [found, empty]
  · rw [found, if_pos empty]
    simp only [mapM_text?_map_str]

theorem choose_of {α : Type} {label : α → String} {choices : List α} {value : α}
    (named : choices.find? (fun choice => some (label value) == some (label choice)) = some value) :
    fields.choose name label choices (.str (label value)) = .ok value := by
  unfold Fields.choose Value.text?
  rw [named]

theorem choice_of {α : Type} [DecidableEq α] {label : α → String} {first value : α}
    {others : List α}
    (found : fields.entries.field? name =
      if value ≠ first then some (.str (label value)) else none)
    (named : (first :: others).find? (fun choice => some (label value) == some (label choice)) =
      some value) :
    fields.choice name label first others = .ok value := by
  unfold Fields.choice
  by_cases left : value = first
  · simp [found, left]
  · simp [found, left, choose_of named]

theorem visibility_of {visibility : Option Visibility}
    (found : fields.entries.field? "visibility" = visibility.map fun v => .str v.label) :
    fields.visibility = .ok visibility := by
  unfold Fields.visibility
  cases visibility with
  | none => simp [found]
  | some value =>
      have named : [Visibility.shown, .hidden].find?
          (fun choice => some value.label == some choice.label) = some value := by
        cases value <;> rfl
      simp only [found, Option.map_some, choose_of named]
      rfl

end Fields

section Objects

variable (tag : Tag) (written : List (String × Value))

theorem tagOf?_object :
    tagOf? (Entries.ofFields (("tag", .str tag.label) :: written)) =
      some (.str tag.label, some tag) := by
  simp [tagOf?, Entries.field?_ofFields, Value.text?]

/-- Besides the tag, an object holds the fields that were written. -/
theorem field?_object {name : String} (other : name ≠ "tag") :
    (Entries.ofFields (("tag", .str tag.label) :: written)).field? name = written.lookup name := by
  have distinct : (name == "tag") = false := beq_false_of_ne other
  rw [Entries.field?_ofFields, List.lookup_cons, distinct]

end Objects

end Tree

end MemberOrder
