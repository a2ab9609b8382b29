import MemberOrder.Proofs.Tree.Sameness
import MemberOrder.Stub.Page

/-!
# The lines that a node adds

Writing a node puts lines behind those of the page and changes at most the innermost section.
`nodeLines` are these lines, from the depth and that section alone, and `bodyAfter` is the section
afterwards; `Page.write_eq` says that writing does just this. No line of a node is less deep than
the node (`within_of_mem_nodeLines`).
-/

namespace MemberOrder

namespace Stub

/-- The visibility that the section of a container has while a member is written. -/
def wanted : Node → Body → Visibility
  | .alias decl, body => decl.visibility.getD body.declared
  | _, body => body.declared

/-- The section of a container after one of its members. -/
def bodyAfter : Node → Body → Body
  | .marker decl, _ => ⟨decl.visibility, decl.visibility⟩
  | .foreign, body => body
  | node, body => { body with current := wanted node body }

/-- The line that brings a section to a visibility, if it has another one. -/
def turnLines (level : Nat) (visibility : Body → Visibility) : Option Body → List Line
  | none => []
  | some body =>
    if body.current = visibility body then []
    else [⟨level, .visibility (visibility body) false, (visibility body).label⟩]

def commentLinesAt (level : Nat) (comment : Option String) : List Line :=
  (commentLines comment).map fun text => ⟨level, .comment, text⟩

/-- The lines of a node that is neither a container nor a marker. -/
def leafLinesAt (level : Nat) (node : Node) : List Line :=
  match leafLines node with
  | [] => []
  | first :: others => ⟨level, .member node, first⟩ :: others.map fun text => ⟨level, .more, text⟩

mutual

/-- The lines of a node at a depth, in a section if there is one. -/
def nodeLines (level : Nat) (top : Option Body) : Node → List Line
  | .container head members =>
    turnLines level Body.declared top ++ commentLinesAt level head.comment ++
      ⟨level, .opening head, headText head⟩ :: bodyLines (level + 1) (some .start) members ++
      [⟨level, .closing, "end"⟩]
  | .marker decl =>
    commentLinesAt level decl.comment ++
      [⟨level, .visibility decl.visibility true, decl.visibility.label⟩]
  | .foreign => []
  | node =>
    turnLines level (wanted node) top ++ commentLinesAt level (commentOf node) ++
      leafLinesAt level node

/-- The lines of members at a depth, one after the other. -/
def bodyLines (level : Nat) (top : Option Body) : List Node → List Line
  | [] => []
  | node :: rest => nodeLines level top node ++ bodyLines level (top.map (bodyAfter node)) rest

end

theorem exists_of_mem_turnLines {level : Nat} {visibility : Body → Visibility} {top : Option Body}
    {line : Line} (inside : line ∈ turnLines level visibility top) :
    ∃ turned text, line = ⟨level, .visibility turned false, text⟩ := by
  unfold turnLines at inside
  split at inside
  · cases inside
  · split at inside
    · cases inside
    · exact ⟨_, _, List.mem_singleton.mp inside⟩

theorem exists_of_mem_commentLinesAt {level : Nat} {comment : Option String} {line : Line}
    (inside : line ∈ commentLinesAt level comment) : ∃ text, line = ⟨level, .comment, text⟩ := by
  obtain ⟨text, _, rfl⟩ := List.mem_map.mp inside
  exact ⟨text, rfl⟩

/-- Whether a line can be one of a node at a depth: it is not less deep, and it is no gap. -/
structure Line.Within (level : Nat) (line : Line) : Prop where
  deep : level ≤ line.level
  solid : line.role ≠ .gap

theorem within_of_mem_leafLinesAt {level : Nat} {node : Node} {line : Line}
    (inside : line ∈ leafLinesAt level node) : line.Within level := by
  unfold leafLinesAt at inside
  split at inside
  · cases inside
  · rcases List.mem_cons.mp inside with rfl | later
    · exact ⟨Nat.le_refl _, Role.noConfusion⟩
    · obtain ⟨text, _, rfl⟩ := List.mem_map.mp later
      exact ⟨Nat.le_refl _, Role.noConfusion⟩

theorem within_of_mem_bodyLines_of {level : Nat} {top : Option Body} {nodes : List Node}
    (each : ∀ node ∈ nodes, ∀ (level : Nat) (top : Option Body),
      ∀ line ∈ nodeLines level top node, line.Within level)
    {line : Line} (inside : line ∈ bodyLines level top nodes) : line.Within level := by
  induction nodes generalizing top with
  | nil => rw [bodyLines] at inside; cases inside
  | cons node rest ih =>
      rw [bodyLines] at inside
      rcases List.mem_append.mp inside with first | later
      · exact each node List.mem_cons_self level top line first
      · exact ih (fun other member => each other (List.mem_cons_of_mem _ member)) later

theorem within_of_mem_nodeLines (node : Node) (level : Nat) (top : Option Body) :
    ∀ line ∈ nodeLines level top node, line.Within level := by
  induction node using Node.inductionOn generalizing level top with
  | container head members ih =>
      intro line inside
      simp only [nodeLines, List.mem_append, List.mem_cons, List.not_mem_nil, or_false] at inside
      rcases inside with ((turns | comments) | rfl | below) | rfl
      · obtain ⟨_, _, rfl⟩ := exists_of_mem_turnLines turns
        exact ⟨Nat.le_refl _, Role.noConfusion⟩
      · obtain ⟨_, rfl⟩ := exists_of_mem_commentLinesAt comments
        exact ⟨Nat.le_refl _, Role.noConfusion⟩
      · exact ⟨Nat.le_refl _, Role.noConfusion⟩
      · obtain ⟨deep, solid⟩ := within_of_mem_bodyLines_of ih below
        exact ⟨Nat.le_of_succ_le deep, solid⟩
      · exact ⟨Nat.le_refl _, Role.noConfusion⟩
  | leaf node bare =>
      intro line inside
      cases node with
      | container head members => cases bare
      | foreign => simp [nodeLines] at inside
      | marker decl =>
          simp only [nodeLines, List.mem_append, List.mem_singleton] at inside
          rcases inside with comments | rfl
          · obtain ⟨_, rfl⟩ := exists_of_mem_commentLinesAt comments
            exact ⟨Nat.le_refl _, Role.noConfusion⟩
          · exact ⟨Nat.le_refl _, Role.noConfusion⟩
      | _ =>
          simp only [nodeLines, List.mem_append] at inside
          rcases inside with (turns | comments) | own
          · obtain ⟨_, _, rfl⟩ := exists_of_mem_turnLines turns
            exact ⟨Nat.le_refl _, Role.noConfusion⟩
          · obtain ⟨_, rfl⟩ := exists_of_mem_commentLinesAt comments
            exact ⟨Nat.le_refl _, Role.noConfusion⟩
          · exact within_of_mem_leafLinesAt own

/-- No line of members is less deep than they are. -/
theorem level_le_of_mem_bodyLines {level : Nat} {top : Option Body} {nodes : List Node}
    {line : Line} (inside : line ∈ bodyLines level top nodes) : level ≤ line.level :=
  (within_of_mem_bodyLines_of (fun node _ => within_of_mem_nodeLines node) inside).deep

namespace Page

/-- The page with more lines and another innermost section. -/
def extend (page : Page) (added : List Line) (change : Body → Body) : Page where
  level := page.level
  bodies := page.bodies.modifyHead change
  lines := page.lines ++ added.toArray

variable (page : Page)

@[simp]
theorem extend_extend (first second : List Line) (change next : Body → Body) :
    (page.extend first change).extend second next =
      page.extend (first ++ second) (next ∘ change) := by
  simp [extend, Function.comp_def]

@[simp]
theorem extend_level (added : List Line) (change : Body → Body) :
    (page.extend added change).level = page.level := rfl

@[simp]
theorem extend_bodies_head? (added : List Line) (change : Body → Body) :
    (page.extend added change).bodies.head? = page.bodies.head?.map change := by
  cases bodies : page.bodies <;> simp [extend, bodies]

theorem toList_lines_extend (added : List Line) (change : Body → Body) :
    (page.extend added change).lines.toList = page.lines.toList ++ added := by
  simp [extend]

theorem extend_nil : page.extend [] id = page := by
  simp [extend]

theorem emit_eq (role : Role) (text : String) :
    page.emit role text = page.extend [⟨page.level, role, text⟩] id := by
  simp [extend, emit]

theorem foldl_emit_eq (role : Role) (texts : List String) :
    texts.foldl (fun page text => page.emit role text) page =
      page.extend (texts.map fun text => ⟨page.level, role, text⟩) id := by
  induction texts generalizing page with
  | nil => exact page.extend_nil.symm
  | cons text rest ih => rw [List.foldl_cons, ih, emit_eq, extend_extend]; rfl

theorem emitComment_eq (comment : Option String) :
    page.emitComment comment = page.extend (commentLinesAt page.level comment) id :=
  page.foldl_emit_eq _ _

theorem emitLeaf_eq (node : Node) :
    page.emitLeaf node = page.extend (leafLinesAt page.level node) id := by
  unfold emitLeaf leafLinesAt
  cases leafLines node with
  | nil => exact page.extend_nil.symm
  | cons first others =>
      show others.foldl _ (page.emit _ first) = _
      rw [foldl_emit_eq, emit_eq, extend_extend]
      rfl

theorem turn_eq (visibility : Body → Visibility) :
    page.turn visibility = page.extend (turnLines page.level visibility page.bodies.head?)
      fun body => { body with current := visibility body } := by
  obtain ⟨level, bodies, lines⟩ := page
  cases bodies with
  | nil => simp [turn, extend, turnLines]
  | cons body outer =>
      by_cases same : body.current = visibility body
      · have kept : { body with current := visibility body } = body := by rw [← same]
        simp only [turn, extend, turnLines, List.head?_cons, List.modifyHead_cons, if_pos same,
          kept, Array.append_empty, List.toArray]
      · simp [turn, extend, turnLines, same, emit]

theorem restore_eq :
    page.restore = page.extend (turnLines page.level Body.declared page.bodies.head?)
      fun body => { body with current := body.declared } :=
  page.turn_eq _

/-- A node on lines of its own, behind what brings the section to its visibility. -/
theorem emitLeaf_turn_eq (visibility : Body → Visibility) (comment : Option String) (node : Node) :
    ((page.turn visibility).emitComment comment).emitLeaf node =
      page.extend
        (turnLines page.level visibility page.bodies.head? ++ commentLinesAt page.level comment ++
          leafLinesAt page.level node)
        fun body => { body with current := visibility body } := by
  rw [emitLeaf_eq, emitComment_eq, turn_eq, extend_extend, extend_extend, List.append_assoc]
  rfl

theorem declare_eq (visibility : Visibility) :
    page.declare visibility = page.extend [] fun _ => ⟨visibility, visibility⟩ := by
  obtain ⟨level, bodies, lines⟩ := page
  cases bodies <;> simp [declare, extend]

/-- Going into a container, adding lines there and going out again leaves the sections alone. -/
theorem leave_extend_enter (added : List Line) (change : Body → Body) :
    (page.enter.extend added change).leave = page.extend added id := by
  simp [enter, leave, extend]

/-- Members are written one after the other, if each is. -/
theorem writeAll_eq_of {nodes : List Node} (page : Page)
    (each : ∀ node ∈ nodes, ∀ page : Page, page.write node =
      page.extend (nodeLines page.level page.bodies.head? node) (bodyAfter node)) :
    ∃ change, page.writeAll nodes =
      page.extend (bodyLines page.level page.bodies.head? nodes) change := by
  induction nodes generalizing page with
  | nil => exact ⟨id, by rw [writeAll, bodyLines, extend_nil]⟩
  | cons node rest ih =>
      obtain ⟨change, written⟩ := ih (page.write node) fun other member =>
        each other (List.mem_cons_of_mem _ member)
      refine ⟨change ∘ bodyAfter node, ?_⟩
      rw [writeAll, written, each node List.mem_cons_self, extend_extend, bodyLines, extend_level,
        extend_bodies_head?]

/-- What is written from the opening line of a container on, if its members are. -/
theorem close_eq_of {members : List Node}
    (each : ∀ member ∈ members, ∀ page : Page, page.write member =
      page.extend (nodeLines page.level page.bodies.head? member) (bodyAfter member)) :
    (page.enter.writeAll members).leave.emit .closing "end" =
      page.extend (bodyLines (page.level + 1) (some .start) members ++
        [⟨page.level, .closing, "end"⟩]) id := by
  obtain ⟨change, written⟩ := page.enter.writeAll_eq_of each
  rw [written, leave_extend_enter, emit_eq, extend_extend]
  rfl

/-- **Writing a node.** It adds the lines of the node and changes at most the innermost section. -/
theorem write_eq (node : Node) : page.write node =
    page.extend (nodeLines page.level page.bodies.head? node) (bodyAfter node) := by
  induction node using Node.inductionOn generalizing page with
  | container head members ih =>
      rw [write, close_eq_of _ ih, emit_eq, emitComment_eq, restore_eq, extend_extend,
        extend_extend, extend_extend, nodeLines]
      simp only [extend_level, List.append_assoc, List.cons_append, List.nil_append]
      rfl
  | leaf node bare =>
      cases node with
      | container head members => cases bare
      | foreign => exact page.extend_nil.symm
      | marker decl =>
          rw [write, declare_eq, emit_eq, emitComment_eq, extend_extend, extend_extend, nodeLines,
            List.append_nil]
          rfl
      | _ =>
          simp only [write, nodeLines]
          exact page.emitLeaf_turn_eq _ _ _

end Page

end Stub

end MemberOrder
