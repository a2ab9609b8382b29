import MemberOrder.Proofs.Order.SortMembers
import MemberOrder.Proofs.Stub.Lines

/-!
# What the lines of a container show

A reader takes the members of a container from the lines at their depth, each with the visibility
that its first line states, else with that of the last bare marker before it (`shownAt`). A node
adds lines that show it with the visibility it states or else the one that the markers of the
container set (`shownAt_nodeLines`), and leaves the section where the next node finds it; so the
lines of members show each as it is placed (`shownAt_bodyLines`). Of sorted members they show the
visibility that the members had before they were sorted (`shownAt_write_sortMembers`).
-/

namespace MemberOrder

namespace Stub

/-- The visibility that a text states with its first word. -/
def statedIn (text : String) : Option Visibility :=
  if "public ".toList.isPrefixOf text.toList then some .shown
  else if "private ".toList.isPrefixOf text.toList then some .hidden
  else none

/-- The visibility that a bare marker sets. -/
def markedBy (text : String) : Option Visibility :=
  if text = "public" then some .shown
  else if text = "private" then some .hidden
  else none

/-- The members that carry a visibility among the lines at a depth, each with the one it is read
with. Deeper lines belong to the containers inside. -/
def shownAt (level : Nat) (running : Visibility) : List Line → List (Node × Visibility)
  | [] => []
  | line :: rest =>
    if line.level = level then
      match line.role with
      | .visibility _ _ => shownAt level ((markedBy line.text).getD running) rest
      | .member node =>
        if node.bearsVisibility then
          (node, (statedIn line.text).getD running) :: shownAt level running rest
        else shownAt level running rest
      | _ => shownAt level running rest
    else shownAt level running rest

/-- Whether lines of a role neither set a visibility nor show a member. -/
def Role.isSilent : Role → Bool
  | .visibility _ _ | .member _ => false
  | _ => true

theorem markedBy_label (visibility : Visibility) :
    markedBy visibility.label = some visibility := by
  cases visibility <;> rfl

theorem statedIn_eq_none {text : String} (other : text.toList.head? ≠ some 'p') :
    statedIn text = none := by
  have unlike : ∀ rest : List Char, ('p' :: rest).isPrefixOf text.toList = false := by
    intro rest
    cases letters : text.toList with
    | nil => rfl
    | cons letter letters =>
        rw [letters] at other
        have apart : 'p' ≠ letter := fun same => other (congrArg some same.symm)
        simp [List.isPrefixOf, apart]
  have notShown : "public ".toList.isPrefixOf text.toList = false := unlike _
  have notHidden : "private ".toList.isPrefixOf text.toList = false := unlike _
  simp only [statedIn, notShown, notHidden, Bool.false_eq_true, if_false]

/-- A text with a visibility before it states that one, unless it looks like one itself. -/
theorem statedIn_visibilityText (visibility : Option Visibility) {text : String}
    (other : text.toList.head? ≠ some 'p') :
    statedIn (visibilityText visibility ++ text) = visibility := by
  cases visibility with
  | none =>
      rw [visibilityText, String.empty_append]
      exact statedIn_eq_none other
  | some visibility =>
      cases visibility <;> simp [statedIn, visibilityText, Visibility.label, String.toList_append]

variable {level : Nat} {running : Visibility}

theorem shownAt_append_of_silent {lines : List Line}
    (silent : ∀ line ∈ lines, line.level ≠ level ∨ line.role.isSilent) (rest : List Line) :
    shownAt level running (lines ++ rest) = shownAt level running rest := by
  induction lines with
  | nil => rfl
  | cons line lines ih =>
      have later := ih fun other member => silent other (List.mem_cons_of_mem _ member)
      rw [List.cons_append, shownAt, later]
      rcases silent line List.mem_cons_self with deeper | quiet
      · rw [if_neg deeper]
      · split
        · cases role : line.role <;> rw [role] at quiet <;> first | rfl | cases quiet
        · rfl

/-- What brings a section to a visibility is read as doing so. -/
theorem shownAt_turnLines (visibility : Body → Visibility) (body : Body) (rest : List Line) :
    shownAt level body.current (turnLines level visibility (some body) ++ rest) =
      shownAt level (visibility body) rest := by
  simp only [turnLines]
  split
  · next same => rw [same, List.nil_append]
  · rw [List.singleton_append, shownAt, if_pos rfl, markedBy_label, Option.getD_some]

theorem shownAt_commentLinesAt (comment : Option String) (rest : List Line) :
    shownAt level running (commentLinesAt level comment ++ rest) = shownAt level running rest := by
  refine shownAt_append_of_silent (fun line inside => ?_) rest
  obtain ⟨text, rfl⟩ := exists_of_mem_commentLinesAt inside
  exact .inr rfl

/-- The first line of a member shows its visibility, where the section is as the member wants it. -/
theorem exists_leafLines {node : Node} (bears : node.bearsVisibility) :
    ∃ first others, leafLines node = first :: others ∧ ∀ body,
      (statedIn first).getD (wanted node body) = node.stated.getD body.declared := by
  match node with
  | .method decl =>
      have stated : ∀ signature : String,
          statedIn (visibilityText decl.visibility ++ "def " ++ ownerText decl.kind ++ decl.name ++
            signature) = decl.visibility := by
        intro signature
        simp only [String.append_assoc]
        refine statedIn_visibilityText _ ?_
        simp [String.toList_append]
      simp only [leafLines, methodLines]
      cases decl.overloads with
      | nil => exact ⟨_, _, rfl, fun body => by rw [stated]; rfl⟩
      | cons first others =>
          refine ⟨_, _, rfl, fun body => ?_⟩
          rw [String.append_assoc, stated]
          rfl
  | .attribute decl =>
      refine ⟨_, _, rfl, fun body => ?_⟩
      have stated : statedIn (attributeText decl) = decl.visibility := by
        unfold attributeText
        simp only [String.append_assoc]
        refine statedIn_visibilityText _ ?_
        cases decl.kind <;> simp [AttributeKind.keyword]
      rw [stated]
      rfl
  | .alias decl =>
      refine ⟨_, _, rfl, fun body => ?_⟩
      have unstated : statedIn (aliasText decl) = none := by
        refine statedIn_eq_none ?_
        simp [aliasText, String.toList_append]
      rw [unstated]
      rfl
  | .container .. | .typeAlias _ | .binding _ | .mixin _ | .marker _ | .unknown _ | .foreign =>
      cases bears

/-- What a reader takes from a node: the node, if it carries a visibility, with the one that it
states or else the one that is declared. -/
def shownOf (node : Node) (declared : Visibility) : List (Node × Visibility) :=
  if node.bearsVisibility then [(node, node.stated.getD declared)] else []

theorem shownAt_leafLinesAt (node : Node) (body : Body) (rest : List Line) :
    shownAt level (wanted node body) (leafLinesAt level node ++ rest) =
      shownOf node body.declared ++ shownAt level (wanted node body) rest := by
  have silent : ∀ others : List String, ∀ line ∈ others.map fun text => Line.mk level .more text,
      line.level ≠ level ∨ line.role.isSilent := by
    intro others line inside
    obtain ⟨text, _, rfl⟩ := List.mem_map.mp inside
    exact .inr rfl
  unfold leafLinesAt shownOf
  by_cases bears : node.bearsVisibility
  · obtain ⟨first, others, lines, stated⟩ := exists_leafLines bears
    simp only [lines, List.cons_append, shownAt, if_pos bears, if_true, stated,
      shownAt_append_of_silent (silent others), List.nil_append]
  · rw [if_neg bears]
    cases leafLines node with
    | nil => rfl
    | cons first others =>
        simp only [List.cons_append, shownAt, if_neg bears, if_true,
          shownAt_append_of_silent (silent others), List.nil_append]

/-- The lines of a node show it as it is declared, and leave the section as the next node finds it.
-/
theorem shownAt_nodeLines (node : Node) (body : Body) (rest : List Line) :
    shownAt level body.current (nodeLines level (some body) node ++ rest) =
      shownOf node body.declared ++ shownAt level (bodyAfter node body).current rest := by
  cases node with
  | container head members =>
      have inside : ∀ line ∈ bodyLines (level + 1) (some .start) members,
          line.level ≠ level ∨ line.role.isSilent := fun line below =>
        .inl (Nat.ne_of_gt (level_le_of_mem_bodyLines below))
      simp only [nodeLines, List.append_assoc, List.cons_append, shownAt_turnLines,
        shownAt_commentLinesAt]
      simp only [shownAt, if_true, shownAt_append_of_silent inside]
      rfl
  | foreign => rfl
  | marker decl =>
      rw [nodeLines, List.append_assoc, shownAt_commentLinesAt, List.singleton_append]
      simp only [shownAt, if_true, markedBy_label]
      rfl
  | _ =>
      simp only [nodeLines, List.append_assoc, shownAt_turnLines, shownAt_commentLinesAt]
      exact shownAt_leafLinesAt _ _ rest

/-- **The lines of members.** They show each member as it is placed among the markers. -/
theorem shownAt_bodyLines (members : List Node) (body : Body) :
    shownAt level body.current (bodyLines level (some body) members) =
      ((place body.declared members).filter fun placed => placed.member.bearsVisibility).map
        fun placed => (placed.member, placed.visibility) := by
  induction members generalizing body with
  | nil => rw [bodyLines]; rfl
  | cons node rest ih =>
      rw [bodyLines, shownAt_nodeLines, Option.map_some, ih]
      by_cases marks : node.isMarker
      · cases node <;> first | rfl | cases marks
      · simp only [Bool.not_eq_true] at marks
        have declared : (bodyAfter node body).declared = body.declared := by
          cases node <;> first | rfl | cases marks
        rw [place_cons_of_not_marker marks, declared]
        unfold shownOf
        by_cases bears : node.bearsVisibility
        · simp only [List.filter_cons, bears, if_true]
          rfl
        · simp only [List.filter_cons, bears, if_false, Bool.false_eq_true]
          rfl

/-- Sorted members have lost the markers, so that each shows what it states or else is shown. -/
theorem shownAt_bodyLines_sortMembers (level : Nat) (members : List Node) :
    shownAt level .shown (bodyLines level (some .start) (sortMembers members)) =
      ((arranged members).filter fun placed => placed.member.bearsVisibility).map fun placed =>
        ((Table.of members).emitted placed, ((Table.of members).restate placed).visibility) := by
  have same : (arranged members).filter
        (fun placed => ((Table.of members).restate placed).member.bearsVisibility) =
      (arranged members).filter fun placed => placed.member.bearsVisibility :=
    List.filter_congr fun placed _ => bearsVisibility_stamp _ _
  refine (shownAt_bodyLines (sortMembers members) .start).trans ?_
  rw [show Body.start.declared = Visibility.shown from rfl, place_sortMembers, List.filter_map,
    List.map_map, ← same]
  rfl

/-- **Written sorted members.** A container with sorted members is written as its opening line, the
lines of the members and its closing line. The lines of the members show every sorted member that
carries a visibility, each with the effective visibility that it had in the given list. -/
theorem shownAt_write_sortMembers (page : Page) (head : Head) (members : List Node) :
    ∃ leading inside : List Line,
      (page.write (.container head (sortMembers members))).lines.toList =
        page.lines.toList ++ leading ++ [⟨page.level, .opening head, headText head⟩] ++ inside ++
          [⟨page.level, .closing, "end"⟩] ∧
      (∀ line ∈ leading, line.level = page.level ∧ ∀ other, line.role ≠ .opening other) ∧
      (∀ line ∈ inside, page.level < line.level) ∧
      sortMembers members = (arranged members).map (Table.of members).emitted ∧
      (shownAt (page.level + 1) .shown inside).map
          (fun (member, visibility) => (member, some visibility)) =
        ((arranged members).filter fun placed => placed.member.bearsVisibility).map fun placed =>
          ((Table.of members).emitted placed, (Table.of members).effective placed) := by
  refine ⟨turnLines page.level Body.declared page.bodies.head? ++
      commentLinesAt page.level head.comment,
    bodyLines (page.level + 1) (some .start) (sortMembers members), ?_, ?_, ?_,
    sortMembers_eq_arranged members, ?_⟩
  · rw [page.write_eq, Page.toList_lines_extend, nodeLines]
    simp only [List.append_assoc, List.cons_append, List.nil_append]
  · intro line before
    rcases List.mem_append.mp before with turns | comments
    · obtain ⟨_, _, rfl⟩ := exists_of_mem_turnLines turns
      exact ⟨rfl, fun _ => Role.noConfusion⟩
    · obtain ⟨_, rfl⟩ := exists_of_mem_commentLinesAt comments
      exact ⟨rfl, fun _ => Role.noConfusion⟩
  · exact fun line below => level_le_of_mem_bodyLines below
  · rw [shownAt_bodyLines_sortMembers, List.map_map]
    refine List.map_congr_left fun placed shows => ?_
    have bears : placed.member.bearsVisibility := (List.mem_filter.mp shows).2
    exact Prod.ext rfl ((Table.of members).visibility_restate placed bears)

end Stub

end MemberOrder
