import MemberOrder.Proofs.Stub.Sections

/-!
# The section that each line stands in

A reader follows the lines of a container through all that is inside it and notes, for each line
that a node has of its own, what the last bare marker of the same body says there (`reading`). What
it ought to find is told by the tree alone (`dueAll`): an alias stands in a section of its own
visibility or else of the last marker node before it, every other member in that of the last marker
node. The lines of a container are read as just that, and each marker that stems from no node
changes the section (`reading_write_container`). A marker node is no exception to this but does not
belong to it: its line follows what an alias has left (`marker_after_hidden_alias`).
-/

namespace MemberOrder

namespace Stub

/-- The lines that nodes have of their own, each with what the last bare marker of its body says
before it; of the line of a marker node, what it says itself. `running` is what the last marker of
the innermost body says and `outer` what those of the bodies around it say. There is no reading of
lines in which a marker of no node changes nothing, or a body is closed that was not opened. -/
def reading (running : Visibility) (outer : List Visibility) :
    List Line → Option (List (Role × Visibility))
  | [] => some []
  | line :: rest =>
    match line.role with
    | .visibility _ declared =>
      let marked := (markedBy line.text).getD running
      if declared then (reading marked outer rest).map ((line.role, marked) :: ·)
      else if marked = running then none
      else reading marked outer rest
    | .opening _ => (reading .shown (running :: outer) rest).map ((line.role, running) :: ·)
    | .closing =>
      match outer with
      | [] => none
      | around :: outer => reading around outer rest
    | .member _ => (reading running outer rest).map ((line.role, running) :: ·)
    | .gap | .comment | .more => reading running outer rest

mutual

/-- The lines that a node and those inside it have of their own, each with the visibility that is
due to it. `declared` is what the last marker node before it says. -/
def due (declared : Visibility) : Node → List (Role × Visibility)
  | .container head members => (.opening head, declared) :: dueAll .shown members
  | .marker decl => [(.visibility decl.visibility true, decl.visibility)]
  | .alias decl => [(.member (.alias decl), decl.visibility.getD declared)]
  | .foreign => []
  | node => [(.member node, declared)]

def dueAll (declared : Visibility) : List Node → List (Role × Visibility)
  | [] => []
  | node :: rest => due declared node ++ dueAll (node.marks?.getD declared) rest

end

/-- What is due to a member depends on the last marker node before it. -/
theorem dueAll_append (declared : Visibility) (before after : List Node) :
    dueAll declared (before ++ after) =
      dueAll declared before ++ dueAll (lastMarked declared before) after := by
  induction before generalizing declared with
  | nil => rfl
  | cons node rest ih =>
      rw [List.cons_append, dueAll, dueAll, ih, lastMarked_cons, List.append_assoc]

section Reading

variable {level : Nat} {running : Visibility} {outer : List Visibility}

/-- The lines that bring a section to a visibility are read as doing so. -/
theorem reading_turnLines (visibility : Body → Visibility) (body : Body) (rest : List Line) :
    reading body.current outer (turnLines level visibility (some body) ++ rest) =
      reading (visibility body) outer rest := by
  simp only [turnLines]
  split
  · next same => rw [same, List.nil_append]
  · next differs =>
      have changes : visibility body ≠ body.current := fun same => differs same.symm
      simp only [List.singleton_append, reading, markedBy_label, Option.getD_some,
        Bool.false_eq_true, if_false, if_neg changes]

theorem reading_commentLinesAt (comment : Option String) (rest : List Line) :
    reading running outer (commentLinesAt level comment ++ rest) = reading running outer rest := by
  unfold commentLinesAt
  induction commentLines comment with
  | nil => rfl
  | cons text texts ih => exact ih

theorem reading_more (texts : List String) (rest : List Line) :
    reading running outer ((texts.map fun text => Line.mk level .more text) ++ rest) =
      reading running outer rest := by
  induction texts with
  | nil => rfl
  | cons text texts ih => exact ih

/-- A node on lines of its own is read where its first line stands. -/
theorem reading_leafLinesAt {node : Node} (written : leafLines node ≠ []) (rest : List Line) :
    reading running outer (leafLinesAt level node ++ rest) =
      (reading running outer rest).map ((.member node, running) :: ·) := by
  unfold leafLinesAt
  obtain ⟨first, others, lines⟩ := List.exists_cons_of_ne_nil written
  simp only [lines, List.cons_append, reading, reading_more]

theorem leafLines_ne_nil {node : Node} (bare : node.isContainer = false)
    (other : node.isMarker = false) (native : node ≠ .foreign) : leafLines node ≠ [] := by
  match node with
  | .container .. => cases bare
  | .marker _ => cases other
  | .foreign => exact (native rfl).elim
  | .method decl =>
      simp only [leafLines, methodLines]
      cases decl.overloads with
      | nil => exact List.cons_ne_nil _ _
      | cons first others => exact List.cons_ne_nil _ _
  | .unknown decl =>
      unfold leafLines unknownLines
      dsimp only
      split
      · exact List.cons_ne_nil _ _
      · assumption
  | .typeAlias _ | .binding _ | .alias _ | .attribute _ | .mixin _ => exact List.cons_ne_nil _ _

/-- The section of a container after some of its members. -/
def bodyAfterAll (nodes : List Node) (body : Body) : Body :=
  nodes.foldl (fun body node => bodyAfter node body) body

theorem declared_bodyAfter (node : Node) (body : Body) :
    (bodyAfter node body).declared = node.marks?.getD body.declared := by
  cases node <;> rfl

/-- Members are read as they are due, if each is. -/
theorem reading_bodyLines_of {nodes : List Node}
    (each : ∀ node ∈ nodes, ∀ (level : Nat) (body : Body) (outer : List Visibility)
      (rest : List Line), reading body.current outer (nodeLines level (some body) node ++ rest) =
        (reading (bodyAfter node body).current outer rest).map (due body.declared node ++ ·))
    (level : Nat) (body : Body) (outer : List Visibility) (rest : List Line) :
    reading body.current outer (bodyLines level (some body) nodes ++ rest) =
      (reading (bodyAfterAll nodes body).current outer rest).map
        (dueAll body.declared nodes ++ ·) := by
  induction nodes generalizing body with
  | nil =>
      rw [bodyLines, dueAll]
      exact Option.map_id'.symm
  | cons node others ih =>
      have later := ih (fun other member => each other (List.mem_cons_of_mem _ member))
        (bodyAfter node body)
      rw [bodyLines, List.append_assoc, each node List.mem_cons_self, Option.map_some, later,
        Option.map_map, dueAll, declared_bodyAfter]
      simp only [Function.comp_def, List.append_assoc]
      rfl

/-- **The lines of a node.** They are read as they are due, and what is behind them is read in the
section that the node leaves. -/
theorem reading_nodeLines (node : Node) (level : Nat) (body : Body) (outer : List Visibility)
    (rest : List Line) :
    reading body.current outer (nodeLines level (some body) node ++ rest) =
      (reading (bodyAfter node body).current outer rest).map (due body.declared node ++ ·) := by
  induction node using Node.inductionOn generalizing level body outer rest with
  | container head members ih =>
      have inside := reading_bodyLines_of ih (level + 1) .start (body.declared :: outer)
      simp only [nodeLines, List.append_assoc, List.cons_append, List.nil_append,
        reading_turnLines, reading_commentLinesAt]
      -- The body is read in a section of its own, which its closing line gives up again.
      refine (congrArg (Option.map ((.opening head, body.declared) :: ·))
        (inside (⟨level, .closing, "end"⟩ :: rest))).trans ?_
      rw [Option.map_map]
      rfl
  | leaf node bare =>
      cases node with
      | container head members => cases bare
      | foreign => exact Option.map_id'.symm
      | marker decl =>
          simp only [nodeLines, List.append_assoc, reading_commentLinesAt, List.singleton_append,
            reading, markedBy_label, Option.getD_some, if_true]
          rfl
      | _ =>
          simp only [nodeLines, List.append_assoc, reading_turnLines, reading_commentLinesAt]
          rw [reading_leafLinesAt (leafLines_ne_nil bare rfl Node.noConfusion)]
          rfl

end Reading

/-- **Every line in its section.** The lines between the head of a container and its end are read as
they are due, through all the containers inside: an alias in a section of the visibility that it
states or else of the last marker node before it, the head or the first line of every other member
in that of the last marker node before it in the same body, and if there is none in a shown one. The
line of a marker node says what the node says, and every marker of no node changes its section. -/
theorem reading_write_container (page : Page) (head : Head) (members : List Node) :
    (∃ leading inside : List Line,
      (page.write (.container head members)).lines.toList =
        page.lines.toList ++ leading ++ [⟨page.level, .opening head, headText head⟩] ++ inside ++
          [⟨page.level, .closing, "end"⟩] ∧
      (∀ line ∈ leading, ∀ other, line.role ≠ .opening other) ∧
      reading .shown [] inside = some (dueAll .shown members)) ∧
    ∀ (before : List Node) (node : Node) (after : List Node),
      dueAll .shown (before ++ node :: after) =
        dueAll .shown before ++ due (lastMarked .shown before) node ++
          dueAll (lastMarked .shown (before ++ [node])) after := by
  refine ⟨⟨turnLines page.level Body.declared page.bodies.head? ++
      commentLinesAt page.level head.comment,
    bodyLines (page.level + 1) (some .start) members, ?_, ?_, ?_⟩, ?_⟩
  · rw [page.write_eq, Page.toList_lines_extend, nodeLines]
    simp only [List.append_assoc, List.cons_append, List.nil_append]
  · intro line before other
    rcases List.mem_append.mp before with turns | comments
    · obtain ⟨_, _, rfl⟩ := exists_of_mem_turnLines turns
      exact Role.noConfusion
    · obtain ⟨_, rfl⟩ := exists_of_mem_commentLinesAt comments
      exact Role.noConfusion
  · have read := reading_bodyLines_of (fun node (_ : node ∈ members) => reading_nodeLines node)
      (page.level + 1) .start [] []
    rw [List.append_nil] at read
    exact read.trans (congrArg some (List.append_nil _))
  · intro before node after
    have single : before ++ node :: after = (before ++ [node]) ++ after := by simp
    rw [single, dueAll_append, dueAll_append]
    simp only [dueAll, List.append_nil]

/-- A hidden alias between two markers. -/
private def aliasBetweenMarkers : List Node :=
  [.marker ⟨.shown, none⟩, .alias ⟨"b", "a", .onInstance, some .hidden, none⟩,
    .marker ⟨.shown, none⟩]

/-- A marker node sets the section itself, so no other marker restores it before: the last bare
marker before the line of the second node is the one that the alias needed, and not what the first
node says. -/
theorem marker_after_hidden_alias :
    ∃ written : List Line,
      (Page.empty.write (.container ⟨.classDecl none, "C", [], none⟩
          aliasBetweenMarkers)).lines.toList =
        [⟨0, .opening ⟨.classDecl none, "C", [], none⟩, "class C"⟩] ++ written ++
          [⟨1, .visibility .shown true, "public"⟩, ⟨0, .closing, "end"⟩] ∧
      (written.filterMap fun line => markedBy line.text).getLast? = some .hidden ∧
      lastMarked .shown (aliasBetweenMarkers.take 2) = .shown :=
  ⟨[⟨1, .visibility .shown true, "public"⟩, ⟨1, .visibility .hidden false, "private"⟩,
    ⟨1, .member (.alias ⟨"b", "a", .onInstance, some .hidden, none⟩), "alias b a"⟩], rfl, rfl, rfl⟩

end Stub

end MemberOrder
