import MemberOrder.Proofs.Stub.Lines
import MemberOrder.Stub.Writer

/-!
# Blocks of lines

What a node adds to a page is a block of lines at its depth or below it, and after it the page is as
deep as before, with the same sections around the innermost one. A container is its head, the blocks
of its members and its end (`Page.exists_blocks`). Outside all containers nothing is left behind at
all, so that documents can be put together (`stub_append`) and one page can be used for many of them
(`stubs_eq_mapM`).
-/

namespace MemberOrder

namespace Stub

section Members

variable {level : Nat} {top : Option Body} {nodes : List Node}

/-- The lines of members at a depth, a block for each. -/
def blocks (level : Nat) (top : Option Body) : List Node → List (List Line)
  | [] => []
  | node :: rest => nodeLines level top node :: blocks level (top.map (bodyAfter node)) rest

theorem flatten_blocks : (blocks level top nodes).flatten = bodyLines level top nodes := by
  induction nodes generalizing top with
  | nil => rw [bodyLines]; rfl
  | cons node rest ih => rw [blocks, List.flatten_cons, ih, bodyLines]

theorem length_blocks : (blocks level top nodes).length = nodes.length := by
  induction nodes generalizing top with
  | nil => rfl
  | cons node rest ih => rw [blocks, List.length_cons, ih, List.length_cons]

/-- The block of a member does not depend on the members after it. -/
theorem take_blocks (count : Nat) :
    (blocks level top nodes).take count = blocks level top (nodes.take count) := by
  induction nodes generalizing count top with
  | nil => simp only [blocks, List.take_nil]
  | cons node rest ih =>
      cases count with
      | zero => rfl
      | succ count => simp only [blocks, List.take_succ_cons, ih]

end Members

section Margins

/-- A line that is set from the margin begins with the blanks of its depth, and so with those of
every depth above it. -/
theorem blanks_prefix_of_setLine {level : Nat} {line : Line} {step : Value} {text : String}
    (within : line.Within level) (set : setLine step line = .ok text) :
    ∃ width, stepOf? step = some width ∧
      List.replicate (width * level).toNat ' ' <+: text.toList := by
  obtain ⟨deep, solid⟩ := within
  unfold setLine at set
  split at set
  · next gap => exact (solid gap).elim
  · next width found _ =>
      refine ⟨width, found, ?_⟩
      have narrower : (width * level).toNat ≤ (width * line.level).toNat := by
        rcases Int.le_total 0 width with forward | backward
        · have further : width * level ≤ width * line.level :=
            Int.mul_le_mul_of_nonneg_left (Int.ofNat_le.mpr deep) forward
          omega
        · have none : width * level ≤ 0 :=
            Int.mul_nonpos_of_nonpos_of_nonneg backward (Int.natCast_nonneg level)
          omega
      simp only [Line.set] at set
      split at set
      · cases set
      · split at set
        · cases set
        · cases set
          rw [String.toList_append, String.toList_ofList]
          refine List.IsPrefix.trans ?_ (List.prefix_append _ _)
          exact ⟨_, List.replicate_append_replicate.trans
            (congrArg (List.replicate · ' ') (Nat.add_sub_cancel' narrower))⟩
  · cases set

end Margins

namespace Page

variable (page : Page)

/-- Members add their blocks, one after the other. -/
theorem writeAll_blocks (nodes : List Node) :
    (page.writeAll nodes).lines.toList =
        page.lines.toList ++ (blocks page.level page.bodies.head? nodes).flatten ∧
      (page.writeAll nodes).level = page.level := by
  obtain ⟨change, written⟩ := page.writeAll_eq_of fun node (_ : node ∈ nodes) page =>
    page.write_eq node
  rw [written, toList_lines_extend, flatten_blocks]
  exact ⟨rfl, rfl⟩

/-- **The block of a container.** A line that restores the section where that is needed, its comment
and its head, the blocks of its members one step deeper, and its end. -/
theorem exists_blocks (head : Head) (members : List Node) :
    ∃ (inner : Page) (inside : List (List Line)),
      inner.lines.toList = page.lines.toList ++
        turnLines page.level Body.declared page.bodies.head? ++
          commentLinesAt page.level head.comment ++
            [⟨page.level, .opening head, headText head⟩] ∧
      inner.level = page.level + 1 ∧
      inner.bodies = .start :: (page.write (.container head members)).bodies ∧
      (page.write (.container head members)).lines.toList =
        inner.lines.toList ++ inside.flatten ++ [⟨page.level, .closing, "end"⟩] ∧
      inside.length = members.length ∧
      ∀ count, (inner.writeAll (members.take count)).lines.toList =
          inner.lines.toList ++ (inside.take count).flatten ∧
        (inner.writeAll (members.take count)).level = page.level + 1 := by
  have opened : ((page.restore.emitComment head.comment).emit (.opening head) (headText head)).enter
      = (page.extend (turnLines page.level Body.declared page.bodies.head? ++
          commentLinesAt page.level head.comment ++
            [⟨page.level, .opening head, headText head⟩])
          fun body => { body with current := body.declared }).enter := by
    rw [emit_eq, emitComment_eq, restore_eq, extend_extend, extend_extend, List.append_assoc]
    rfl
  refine ⟨((page.restore.emitComment head.comment).emit (.opening head) (headText head)).enter,
    blocks (page.level + 1) (some .start) members, ?_, ?_, ?_, ?_, length_blocks, fun count => ?_⟩
  · rw [opened]
    simp only [enter, toList_lines_extend, List.append_assoc]
  · rw [opened]
    rfl
  · rw [opened, page.write_eq]
    rfl
  · rw [opened, page.write_eq, toList_lines_extend, nodeLines, flatten_blocks]
    simp only [enter, toList_lines_extend, List.append_assoc, List.cons_append, List.nil_append]
  · rw [opened, take_blocks]
    exact writeAll_blocks _ _

/-- **The block of a node.** It is put behind the lines of the page, each of its lines is set behind
the blanks of the page's depth, and depth and sections are left as they were, but for what the
innermost section says. -/
theorem exists_block (node : Node) : ∃ added : List Line,
    (page.write node).lines.toList = page.lines.toList ++ added ∧
    (page.write node).level = page.level ∧
    (page.write node).bodies.length = page.bodies.length ∧
    (page.write node).bodies.tail = page.bodies.tail ∧
    ∀ line ∈ added, ∀ step text, setLine step line = .ok text →
      ∃ width, stepOf? step = some width ∧
        List.replicate (width * page.level).toNat ' ' <+: text.toList := by
  refine ⟨nodeLines page.level page.bodies.head? node, ?_⟩
  rw [page.write_eq]
  refine ⟨page.toList_lines_extend _ _, rfl, ?_, ?_, fun line inside step text set => ?_⟩
  · simp only [extend, List.length_modifyHead]
  · cases bodies : page.bodies <;> simp [extend, bodies]
  · exact blanks_prefix_of_setLine (within_of_mem_nodeLines _ _ _ line inside) set

end Page

section Documents

/-- The lines of declarations outside all containers, each but the first behind a gap. -/
def documentLines : List Node → List Line
  | [] => []
  | first :: others => nodeLines 0 none first ++ others.flatMap fun decl =>
      ⟨0, .gap, ""⟩ :: nodeLines 0 none decl

theorem documentLines_append {first second : List Node} (some : first ≠ []) (more : second ≠ []) :
    documentLines (first ++ second) =
      documentLines first ++ ⟨0, .gap, ""⟩ :: documentLines second := by
  obtain ⟨decl, others, rfl⟩ := List.exists_cons_of_ne_nil some
  obtain ⟨next, rest, rfl⟩ := List.exists_cons_of_ne_nil more
  simp only [List.cons_append, documentLines, List.flatMap_append, List.flatMap_cons,
    List.append_assoc]

namespace Page

/-- Whether a page is outside all containers. -/
structure Outermost (page : Page) : Prop where
  level : page.level = 0
  bodies : page.bodies = []

variable {page : Page}

theorem Outermost.write_eq (outermost : page.Outermost) (decl : Node) :
    page.write decl = ⟨0, [], page.lines ++ (nodeLines 0 none decl).toArray⟩ := by
  obtain ⟨level, bodies, lines⟩ := page
  obtain ⟨rfl, rfl⟩ := outermost
  exact Page.write_eq _ decl

theorem Outermost.continueWith_eq (outermost : page.Outermost) (decls : List Node) :
    page.continueWith decls = ⟨0, [], page.lines ++ (decls.flatMap fun decl =>
      (⟨0, .gap, ""⟩ : Line) :: nodeLines 0 none decl).toArray⟩ := by
  unfold continueWith
  induction decls generalizing page with
  | nil =>
      obtain ⟨level, bodies, lines⟩ := page
      obtain ⟨rfl, rfl⟩ := outermost
      simp
  | cons decl rest ih =>
      have gap : Outermost { page with lines := page.lines.push ⟨0, .gap, ""⟩ } :=
        ⟨outermost.level, outermost.bodies⟩
      rw [List.foldl_cons, gap.write_eq, ih ⟨rfl, rfl⟩]
      simp

/-- A document depends on nothing that was on the page before. -/
theorem Outermost.document_eq (outermost : page.Outermost) (decls : List Node) :
    page.document decls = ⟨0, [], (documentLines decls).toArray⟩ := by
  cases decls with
  | nil =>
      obtain ⟨level, bodies, lines⟩ := page
      obtain ⟨rfl, rfl⟩ := outermost
      rfl
  | cons first others =>
      have blank : Outermost { page with lines := #[] } := ⟨outermost.level, outermost.bodies⟩
      have written : Outermost
          ⟨0, [], #[] ++ (nodeLines 0 none first).toArray⟩ := ⟨rfl, rfl⟩
      rw [document, blank.write_eq, written.continueWith_eq, documentLines]
      simp

end Page

theorem text_append (step : Value) (first second : List Line) :
    text step (first ++ second) = do return (← text step first) ++ (← text step second) := by
  unfold text
  rw [List.mapM_append]
  cases first.mapM (setLine step) with
  | error fault => rfl
  | ok texts =>
      cases second.mapM (setLine step) with
      | error fault => rfl
      | ok others =>
          change Except.ok (String.join ((texts ++ others).map (· ++ "\n"))) = _
          rw [List.map_append, String.join_append]
          rfl

/-- A gap is an empty line. -/
theorem text_gap (step : Value) (rest : List Line) :
    text step (⟨0, .gap, ""⟩ :: rest) = do return "\n" ++ (← text step rest) := by
  have gap : text step [⟨0, .gap, ""⟩] = .ok "\n" := rfl
  rw [← List.singleton_append, text_append, gap]
  rfl

theorem stub_eq (step : Value) (decls : List Node) :
    stub step decls = text step (documentLines decls) := by
  rw [stub, Page.Outermost.document_eq ⟨rfl, rfl⟩]

/-- Documents are put together with an empty line between them. -/
theorem stub_append (step : Value) {first second : List Node} (some : first ≠ [])
    (more : second ≠ []) : stub step (first ++ second) = do
      return (← stub step first) ++ "\n" ++ (← stub step second) := by
  rw [stub_eq, documentLines_append some more, text_append, text_gap, stub_eq, stub_eq]
  cases text step (documentLines first) with
  | error fault => rfl
  | ok before =>
      cases text step (documentLines second) with
      | error fault => rfl
      | ok after => exact congrArg Except.ok String.append_assoc.symm

/-- Documents on one page have the texts that they have by themselves. -/
theorem stubs_eq_mapM (step : Value) {page : Page} (outermost : page.Outermost)
    (documents : List (List Node)) : stubs step page documents = documents.mapM (stub step) := by
  induction documents generalizing page with
  | nil => rfl
  | cons decls rest ih =>
      rw [stubs, List.mapM_cons, outermost.document_eq, ih ⟨rfl, rfl⟩, stub_eq]

end Documents

/-- **No trace of a node.** On any page a node puts a block of lines behind the others, set behind
the blanks of the page's depth, and leaves the depth and the sections around the innermost one as
they were; of a container the block is made of the blocks of its members, one step deeper. So the
stub of two documents in a row is the one of the first, an empty line and the one of the second, and
documents that one page is used for have the stubs that they have by themselves. -/
theorem write_leaves_no_trace (page : Page) :
    (∀ node : Node, ∃ added : List Line,
      (page.write node).lines.toList = page.lines.toList ++ added ∧
      (page.write node).level = page.level ∧
      (page.write node).bodies.length = page.bodies.length ∧
      (page.write node).bodies.tail = page.bodies.tail ∧
      ∀ line ∈ added, ∀ step text, setLine step line = .ok text →
        ∃ width, stepOf? step = some width ∧
          List.replicate (width * page.level).toNat ' ' <+: text.toList) ∧
    (∀ (head : Head) (members : List Node), ∃ (inner : Page) (inside : List (List Line)),
      inner.lines.toList = page.lines.toList ++
        turnLines page.level Body.declared page.bodies.head? ++
          commentLinesAt page.level head.comment ++
            [⟨page.level, .opening head, headText head⟩] ∧
      inner.level = page.level + 1 ∧
      inner.bodies = .start :: (page.write (.container head members)).bodies ∧
      (page.write (.container head members)).lines.toList =
        inner.lines.toList ++ inside.flatten ++ [⟨page.level, .closing, "end"⟩] ∧
      inside.length = members.length ∧
      ∀ count, (inner.writeAll (members.take count)).lines.toList =
          inner.lines.toList ++ (inside.take count).flatten ∧
        (inner.writeAll (members.take count)).level = page.level + 1) ∧
    (∀ (step : Value) (first second : List Node), first ≠ [] → second ≠ [] →
      stub step (first ++ second) = do
        return (← stub step first) ++ "\n" ++ (← stub step second)) ∧
    ∀ (step : Value) (documents : List (List Node)),
      stubs step .empty documents = documents.mapM (stub step) :=
  ⟨page.exists_block, page.exists_blocks, fun step _ _ => stub_append step,
    fun step => stubs_eq_mapM step ⟨rfl, rfl⟩⟩

private def hiddenAlias : Node := .alias ⟨"b", "a", .onInstance, some .hidden, none⟩

private def inclusion : Node := .mixin ⟨.includes, "M", [], none⟩

/-- A hidden alias in a container turns the section by a line as deep as its own, and outside all
containers it leaves no section to what follows. -/
theorem write_leaves_no_trace_hiddenAlias :
    (setLine (.int 2) ⟨1, .visibility .hidden false, "private"⟩ = .ok "  private" ∧
      ∃ width, stepOf? (.int 2) = some width ∧
        List.replicate (width * (1 : Nat)).toNat ' ' <+: "  private".toList) ∧
    [hiddenAlias] ≠ [] ∧ [inclusion] ≠ [] ∧
    stub (.int 2) ([hiddenAlias] ++ [inclusion]) = do
      return (← stub (.int 2) [hiddenAlias]) ++ "\n" ++ (← stub (.int 2) [inclusion]) := by
  obtain ⟨added, lines, -, -, -, behind⟩ :=
    (write_leaves_no_trace ⟨1, [.start], #[]⟩).1 hiddenAlias
  have turned : (⟨1, .visibility .hidden false, "private"⟩ : Line) ∈ added := by
    rw [List.nil_append] at lines
    rw [← lines]
    exact List.mem_cons_self
  exact ⟨⟨rfl, behind _ turned (.int 2) _ rfl⟩, List.cons_ne_nil _ _, List.cons_ne_nil _ _,
    (write_leaves_no_trace .empty).2.2.1 (.int 2) _ _ (List.cons_ne_nil _ _)
      (List.cons_ne_nil _ _)⟩

end Stub

end MemberOrder
