import MemberOrder.Proofs.Value.Entries
import MemberOrder.Tree.Decode

/-!
# The rules of the fields

The rules of a tag say which fields its nodes have, in which order, and what shape each value has to
be of. Every kind of node is read by the rules of its tag: reading it stops exactly at the first
field that breaks its rule (`Tree.readsBy_decodeLeaf`, `Tree.readsBy_decodeHead`).
-/

namespace MemberOrder

namespace Tree

/-- What the value of a field has to be. -/
inductive Shape
  /-- A text that has to be there. -/
  | text
  /-- A text that may be missing or null. -/
  | optionalText
  /-- A list of texts that may be missing. -/
  | texts
  /-- One of some words, or missing. -/
  | choice (words : List String)
  /-- One of some words, or missing or null. -/
  | optionalChoice (words : List String)
  /-- A list of members that may be missing. -/
  | members
deriving DecidableEq

/-- What is wrong with an object, wherever it stands. -/
inductive Flaw
  | broken (cause : TreeCause)
  /-- A whole number that has to be shown has too many digits for that. -/
  | unshowable

/-- A flaw of the object at a place. -/
def Flaw.fault (place : Place) : Flaw → DecodeFault
  | .broken cause => .tree ⟨place, cause⟩
  | .unshowable => .unshowable

/-- What is wrong with a value that has to be one of some words. -/
def wordFlaw? (name : String) (words : List String) (value : Value) : Option Flaw :=
  if value.text?.any (· ∈ words) then none
  else if value.exceedsDigits then some .unshowable
  else some (.broken (.badChoice name value words))

/-- What is wrong with the value of a field, if there is a value. -/
def Shape.flaw? (tag name : String) : Shape → Option Value → Option Flaw
  | .text, none => some (.broken (.missingField name tag))
  | .text, some (.str _) => none
  | .text, some _ => some (.broken (.notText name))
  | .optionalText, none | .optionalText, some .null | .optionalText, some (.str _) => none
  | .optionalText, some _ => some (.broken (.notText name))
  | .texts, none => none
  | .texts, some (.list _ items) =>
    if items.all (·.text?.isSome) then none else some (.broken (.notTexts name))
  | .texts, some _ => some (.broken (.notTexts name))
  | .choice _, none => none
  | .choice words, some value => wordFlaw? name words value
  | .optionalChoice _, none | .optionalChoice _, some .null => none
  | .optionalChoice words, some value => wordFlaw? name words value
  | .members, none | .members, some (.list _ _) => none
  | .members, some _ => some (.broken .membersNotList)

/-- The first flaw of an object by some rules. -/
def firstFlaw? (tag : String) (entries : Entries) : List (String × Shape) → Option Flaw
  | [] => none
  | (name, shape) :: rest =>
    (shape.flaw? tag name (entries.field? name)).or (firstFlaw? tag entries rest)

theorem firstFlaw?_append (tag : String) (entries : Entries)
    (first others : List (String × Shape)) :
    firstFlaw? tag entries (first ++ others) =
      (firstFlaw? tag entries first).or (firstFlaw? tag entries others) := by
  induction first with
  | nil => rfl
  | cons rule rest ih => simp only [List.cons_append, firstFlaw?, ih, Option.or_assoc]

def visibilityWords : List String := ["public", "private"]

def scopeWords : List String := ["instance", "singleton"]

def methodWords : List String := ["instance", "singleton", "singleton_instance"]

/-- The rules of a node that is declared with nothing but a type. -/
def bindingRules : List (String × Shape) :=
  [("name", .text), ("type", .text), ("comment", .optionalText)]

def attributeRules : List (String × Shape) :=
  [("name", .text), ("type", .text), ("kind", .choice scopeWords), ("ivar_name", .optionalText),
    ("visibility", .optionalChoice visibilityWords), ("comment", .optionalText)]

def mixinRules : List (String × Shape) :=
  [("name", .text), ("args", .texts), ("comment", .optionalText)]

/-- The fields of a container before its members. -/
def headRules : Tag → List (String × Shape)
  | .classDecl => [("name", .text), ("type_params", .texts), ("super_class", .optionalText)]
  | .moduleDecl => [("name", .text), ("type_params", .texts), ("self_types", .texts)]
  | _ => [("name", .text), ("type_params", .texts)]

/-- The fields of the nodes of a tag in their order, up to the members if they have any. -/
def rulesBefore (tag : Tag) : List (String × Shape) :=
  match tag with
  | .classDecl | .moduleDecl | .interfaceDecl => headRules tag ++ [("members", .members)]
  | .typeAlias =>
    [("name", .text), ("type", .text), ("type_params", .texts), ("comment", .optionalText)]
  | .constant | .global | .classVariable | .classInstanceVariable | .instanceVariable =>
    bindingRules
  | .method =>
    [("name", .text), ("kind", .choice methodWords), ("overloads", .texts),
      ("visibility", .optionalChoice visibilityWords), ("comment", .optionalText)]
  | .alias =>
    [("new_name", .text), ("old_name", .text), ("kind", .choice scopeWords),
      ("visibility", .optionalChoice visibilityWords), ("comment", .optionalText)]
  | .attrReader | .attrWriter | .attrAccessor => attributeRules
  | .includes | .prepends | .extends => mixinRules
  | .publicMarker | .privateMarker => [("comment", .optionalText)]
  | .unknown =>
    [("kind", .text), ("text", .optionalText), ("payload", .optionalText),
      ("comment", .optionalText)]

/-- The fields of the nodes of a tag that come after the members. -/
def rulesAfter (tag : Tag) : List (String × Shape) :=
  if tag.isContainer then [("comment", .optionalText)] else []

section Reading

variable {α β : Type}

/-- The fault at which a reading stops. -/
def fault? : Except DecodeFault α → Option DecodeFault
  | .ok _ => none
  | .error fault => some fault

theorem fault?_eq_none_iff {reading : Except DecodeFault α} :
    fault? reading = none ↔ ∃ result, reading = .ok result := by
  cases reading <;> simp [fault?]

theorem fault?_eq_some_iff {reading : Except DecodeFault α} {fault : DecodeFault} :
    fault? reading = some fault ↔ reading = .error fault := by
  cases reading <;> simp [fault?]

theorem fault?_bind {reading : Except DecodeFault α} {next : α → Except DecodeFault β}
    {later : Option DecodeFault} (same : ∀ result, fault? (next result) = later) :
    fault? (reading >>= next) = (fault? reading).or later := by
  cases reading with
  | error fault => rfl
  | ok result => exact same result

theorem fault?_bind_ok (reading : Except DecodeFault α) (change : α → β) :
    fault? (reading >>= fun result => .ok (change result)) = fault? reading := by
  cases reading <;> rfl

/-- A reading that stops exactly at the first flaw of an object by some rules. -/
def ReadsBy (fields : Fields) (rules : List (String × Shape)) (reading : Except DecodeFault α) :
    Prop :=
  fault? reading = (firstFlaw? fields.tag fields.entries rules).map (Flaw.fault fields.place)

variable {fields : Fields} {name : String} {shape : Shape} {rules : List (String × Shape)}

theorem ReadsBy.done (result : α) : ReadsBy fields [] (.ok result) := rfl

/-- Reading one field by its rule, and then the others by theirs. -/
theorem ReadsBy.bind {reading : Except DecodeFault α} {next : α → Except DecodeFault β}
    (first : ReadsBy fields [(name, shape)] reading)
    (others : ∀ result, ReadsBy fields rules (next result)) :
    ReadsBy fields ((name, shape) :: rules) (reading >>= next) := by
  unfold ReadsBy at *
  rw [fault?_bind others, first]
  simp only [firstFlaw?, Option.or_none, Option.map_or]

theorem ReadsBy.map {reading : Except DecodeFault α} (reads : ReadsBy fields rules reading)
    (change : α → β) : ReadsBy fields rules (change <$> reading) := by
  cases reading with
  | error fault => exact reads
  | ok result => exact reads

theorem readsBy_text (fields : Fields) (name : String) :
    ReadsBy fields [(name, .text)] (fields.text name) := by
  unfold ReadsBy Fields.text
  simp only [firstFlaw?, Option.or_none]
  split <;> rename_i found <;> simp_all [Shape.flaw?, fault?, Fields.fail, Flaw.fault]

theorem readsBy_optionalText (fields : Fields) (name : String) :
    ReadsBy fields [(name, .optionalText)] (fields.text? name) := by
  unfold ReadsBy Fields.text?
  simp only [firstFlaw?, Option.or_none]
  split <;> rename_i found <;> simp_all [Shape.flaw?, fault?, Fields.fail, Flaw.fault]

theorem isSome_mapM_text? (items : List Value) :
    (items.mapM Value.text?).isSome = items.all (·.text?.isSome) := by
  induction items with
  | nil => rfl
  | cons item rest ih =>
      cases first : item.text? <;> cases others : rest.mapM Value.text? <;>
        simp_all [List.mapM_cons]

theorem readsBy_texts (fields : Fields) (name : String) :
    ReadsBy fields [(name, .texts)] (fields.texts name) := by
  unfold ReadsBy Fields.texts
  simp only [firstFlaw?, Option.or_none]
  split
  · next absent => simp [absent, Shape.flaw?, fault?]
  · next mark items found =>
      have texts := isSome_mapM_text? items
      split
      · next all =>
          rw [all, Option.isSome_some] at texts
          simp [found, Shape.flaw?, ← texts, fault?]
      · next none =>
          rw [none, Option.isSome_none] at texts
          simp [found, Shape.flaw?, ← texts, fault?, Fields.fail, Flaw.fault]
  · next value different found =>
      rw [found]
      cases value <;> first | rfl | exact (different _ _ rfl).elim

/-- A choice is made exactly among the words of the choices. -/
theorem fault?_choose (fields : Fields) (name : String) (label : α → String) (choices : List α)
    (value : Value) : fault? (fields.choose name label choices value) =
      (wordFlaw? name (choices.map label) value).map (Flaw.fault fields.place) := by
  have found : (choices.find? fun choice => value.text? == some (label choice)).isSome =
      value.text?.any (· ∈ choices.map label) := by
    rw [Bool.eq_iff_iff, List.find?_isSome]
    cases value.text? with
    | none => simp
    | some word => simp [@eq_comm _ word]
  unfold Fields.choose wordFlaw?
  rw [← found]
  split
  · next choice chosen => simp [chosen, fault?]
  · next none =>
      by_cases exceeds : value.exceedsDigits <;>
        simp [none, exceeds, fault?, Fields.fail, Flaw.fault]

theorem readsBy_choice (fields : Fields) (name : String) (label : α → String) (first : α)
    (others : List α) :
    ReadsBy fields [(name, .choice ((first :: others).map label))]
      (fields.choice name label first others) := by
  unfold ReadsBy Fields.choice
  simp only [firstFlaw?, Option.or_none]
  split
  · next absent => simp [absent, Shape.flaw?, fault?]
  · next value found => rw [fault?_choose, found]; rfl

theorem readsBy_visibility (fields : Fields) :
    ReadsBy fields [("visibility", .optionalChoice visibilityWords)] fields.visibility := by
  unfold ReadsBy Fields.visibility
  simp only [firstFlaw?, Option.or_none]
  split
  · next absent => simp [absent, Shape.flaw?, fault?]
  · next null => simp [null, Shape.flaw?, fault?]
  · next value different found =>
      refine (fault?_bind_ok _ _).trans ?_
      rw [found, fault?_choose]
      cases value <;> first | rfl | exact (different rfl).elim

theorem readsBy_comment (fields : Fields) :
    ReadsBy fields [("comment", .optionalText)] fields.comment :=
  readsBy_optionalText fields "comment"

/-- A reading that ends with the comment. -/
theorem readsBy_comment_bind (fields : Fields) (next : Option String → β) :
    ReadsBy fields [("comment", .optionalText)]
      (fields.comment >>= fun comment => .ok (next comment)) :=
  (readsBy_comment fields).bind fun _ => .done _

theorem readsBy_decodeTypeAlias (fields : Fields) :
    ReadsBy fields (rulesBefore .typeAlias) (decodeTypeAlias fields) :=
  (readsBy_text fields _).bind fun _ => (readsBy_text fields _).bind fun _ =>
    (readsBy_texts fields _).bind fun _ => readsBy_comment_bind fields _

theorem readsBy_decodeBinding (kind : BindingKind) (fields : Fields) :
    ReadsBy fields bindingRules (decodeBinding kind fields) :=
  (readsBy_text fields _).bind fun _ => (readsBy_text fields _).bind fun _ =>
    readsBy_comment_bind fields _

theorem readsBy_decodeMethod (fields : Fields) :
    ReadsBy fields (rulesBefore .method) (decodeMethod fields) :=
  (readsBy_text fields _).bind fun _ =>
    (readsBy_choice fields "kind" MethodKind.label _ _).bind fun _ =>
      (readsBy_texts fields _).bind fun _ => (readsBy_visibility fields).bind fun _ =>
        readsBy_comment_bind fields _

theorem readsBy_decodeAlias (fields : Fields) :
    ReadsBy fields (rulesBefore .alias) (decodeAlias fields) :=
  (readsBy_text fields _).bind fun _ => (readsBy_text fields _).bind fun _ =>
    (readsBy_choice fields "kind" Scope.label _ _).bind fun _ =>
      (readsBy_visibility fields).bind fun _ => readsBy_comment_bind fields _

theorem readsBy_decodeAttribute (kind : AttributeKind) (fields : Fields) :
    ReadsBy fields attributeRules (decodeAttribute kind fields) :=
  (readsBy_text fields _).bind fun _ => (readsBy_text fields _).bind fun _ =>
    (readsBy_choice fields "kind" Scope.label _ _).bind fun _ =>
      (readsBy_optionalText fields _).bind fun _ =>
        (readsBy_visibility fields).bind fun _ => readsBy_comment_bind fields _

theorem readsBy_decodeMixin (kind : MixinKind) (fields : Fields) :
    ReadsBy fields mixinRules (decodeMixin kind fields) :=
  (readsBy_text fields _).bind fun _ => (readsBy_texts fields _).bind fun _ =>
    readsBy_comment_bind fields _

theorem readsBy_decodeMarker (visibility : Visibility) (fields : Fields) :
    ReadsBy fields [("comment", .optionalText)] (decodeMarker visibility fields) :=
  readsBy_comment_bind fields _

theorem readsBy_decodeUnknown (fields : Fields) :
    ReadsBy fields (rulesBefore .unknown) (decodeUnknown fields) := by
  refine (readsBy_text fields _).bind fun kind =>
    (readsBy_optionalText fields _).bind fun text => ?_
  split
  · next absent =>
      have kept : ReadsBy fields [("payload", .optionalText)] (pure (Payload.entries [])) := by
        unfold ReadsBy
        simp only [firstFlaw?, absent, Shape.flaw?, Option.or_none, Option.map_none]
        rfl
      exact kept.bind fun _ => readsBy_comment_bind fields _
  · exact (readsBy_optionalText fields _).bind fun _ => readsBy_comment_bind fields _

/-- A node without members is read by the rules of its tag. -/
theorem readsBy_decodeLeaf (fields : Fields) {tag : Tag} (leaf : tag.isContainer = false) :
    ReadsBy fields (rulesBefore tag) (decodeLeaf fields tag) := by
  match tag with
  | .classDecl | .moduleDecl | .interfaceDecl => cases leaf
  | .typeAlias => exact readsBy_decodeTypeAlias fields
  | .constant | .global | .classVariable | .classInstanceVariable | .instanceVariable =>
      exact readsBy_decodeBinding _ fields
  | .method => exact readsBy_decodeMethod fields
  | .alias => exact readsBy_decodeAlias fields
  | .attrReader | .attrWriter | .attrAccessor => exact readsBy_decodeAttribute _ fields
  | .includes | .prepends | .extends => exact readsBy_decodeMixin _ fields
  | .publicMarker | .privateMarker => exact readsBy_decodeMarker _ fields
  | .unknown => exact readsBy_decodeUnknown fields

theorem rulesBefore_of_isContainer {tag : Tag} (holds : tag.isContainer) :
    rulesBefore tag = headRules tag ++ [("members", .members)] := by
  cases tag <;> first | rfl | cases holds

theorem readsBy_decodeHead (fields : Fields) {tag : Tag} (holds : tag.isContainer) :
    ReadsBy fields (headRules tag) (decodeHead fields tag) := by
  cases tag with
  | classDecl =>
      exact (readsBy_text fields _).bind fun _ => (readsBy_texts fields _).bind fun _ =>
        ((readsBy_optionalText fields _).map _).bind fun _ => .done _
  | moduleDecl =>
      exact (readsBy_text fields _).bind fun _ => (readsBy_texts fields _).bind fun _ =>
        ((readsBy_texts fields _).map _).bind fun _ => .done _
  | interfaceDecl =>
      exact (readsBy_text fields _).bind fun _ => (readsBy_texts fields _).bind fun _ => .done _
  | _ => cases holds

end Reading

end Tree

end MemberOrder
