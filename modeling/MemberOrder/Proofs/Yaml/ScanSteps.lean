import MemberOrder.Proofs.Yaml.WordScan

/-!
# Steps of cutting a text into tokens

`Yaml.Scan.Leads` tells that cutting a text into tokens comes from one state to another. What stands
between tokens and each token of a mapping with words as keys, in a block or between braces, is such
a step. If the last step ends the text, the tokens are those of the state that it ends in
(`Yaml.tokens_of_leads`).
-/

namespace MemberOrder

namespace Yaml

namespace Scan

/-! ### From state to state -/

/-- Whether cutting a text into tokens comes from one state to another: if it goes on to the end
from there, it ends with the same tokens. -/
def Leads (s after : Scan) : Prop :=
  ∃ count, after.cursor.rest.length + count ≤ s.cursor.rest.length ∧ ∀ fuel read,
    tokensFrom (fuel + 1) after = (read, none) → tokensFrom (fuel + count + 1) s = (read, none)

/-- Whether cutting a text into tokens comes to a state of some kind. -/
def Reaches (s : Scan) (kind : Scan → Prop) : Prop := ∃ after, s.Leads after ∧ kind after

section Leading

variable {s middle after : Scan} {kind kind' : Scan → Prop}

theorem Leads.refl (s : Scan) : s.Leads s := ⟨0, Nat.le_refl _, fun _ _ => id⟩

theorem Leads.trans (first : s.Leads middle) (second : middle.Leads after) : s.Leads after := by
  obtain ⟨count, shorter, same⟩ := first
  obtain ⟨more, shorterStill, sameStill⟩ := second
  refine ⟨more + count, by omega, fun fuel read ends => ?_⟩
  rw [← Nat.add_assoc]
  exact same _ _ (sameStill _ _ ends)

theorem leads_of_next_eq (same : s.next = after.next)
    (shorter : after.cursor.rest.length ≤ s.cursor.rest.length) : s.Leads after :=
  ⟨0, shorter, fun fuel read ends => by
    rw [tokensFrom] at ends ⊢
    rw [same]
    split at ends
    · cases ends
    · exact ends⟩

theorem leads_of_next (next : s.next = .ok after) (other : after.tokens.back? ≠ some .streamEnd)
    (shorter : after.cursor.rest.length < s.cursor.rest.length) : s.Leads after :=
  ⟨1, shorter, fun fuel read ends => by
    rw [tokensFrom, next]
    exact (if_neg fun ended => other (eq_of_beq ended)).trans ends⟩

theorem Leads.reaches (leads : s.Leads after) (holds : kind after) : s.Reaches kind :=
  ⟨after, leads, holds⟩

theorem Reaches.trans (first : s.Reaches kind)
    (second : ∀ after, kind after → after.Reaches kind') : s.Reaches kind' := by
  obtain ⟨middle, leads, holds⟩ := first
  obtain ⟨after, leadsOn, holdsThen⟩ := second middle holds
  exact ⟨after, leads.trans leadsOn, holdsThen⟩

theorem Leads.reaches_of (leads : s.Leads middle) (second : middle.Reaches kind) : s.Reaches kind :=
  second.imp fun _ ⟨leadsOn, holds⟩ => ⟨leads.trans leadsOn, holds⟩

end Leading

/-- Nothing ends inside flow collections, or at a column that is no further out. -/
theorem unwind_within {s : Scan} {column : Int} (within : s.flowLevel ≠ 0 ∨ s.indent ≤ column) :
    s.unwind column = s := by
  unfold unwind
  split
  · next block =>
      have further := Int.not_lt.mpr (within.resolve_left fun flow => flow block)
      cases listed : s.outerIndents with
      | nil => rfl
      | cons outer outers => exact if_neg further
  · rfl

section Gaps

variable {more rest : List Char} {width index line column level : Nat} {indent outer : Int}
  {outers : List Int} {allowed : Bool} {starts : List (Nat × KeyStart)} {read : Array Token}

theorem skipGaps_blanks (solid : Solid more) (fuel : Nat) :
    skipGaps (fuel + 1) ⟨⟨List.replicate width ' ' ++ more, index, line, column⟩, level, indent,
        outers, allowed, starts, read⟩ =
      ⟨⟨more, index + width, line, column + width⟩, level, indent, outers, allowed, starts,
        read⟩ := by
  rw [skipGaps]
  simp only [Cursor.skipSpaces_blanks solid, Cursor.skipComment_solid solid,
    Cursor.lineBreak?_solid solid]

theorem skipGaps_line (solid : Solid more) (fuel : Nat) :
    skipGaps (fuel + 2) ⟨⟨'\n' :: (List.replicate width ' ' ++ more), index, line, column⟩, level,
        indent, outers, allowed, starts, read⟩ =
      ⟨⟨more, index + 1 + width, line + 1, width⟩, level, indent, outers, allowed || level == 0,
        starts, read⟩ := by
  have blanks : (⟨'\n' :: (List.replicate width ' ' ++ more), index, line, column⟩ :
      Cursor).skipSpaces.skipComment =
        ⟨'\n' :: (List.replicate width ' ' ++ more), index, line, column⟩ := rfl
  rw [skipGaps]
  simp only [blanks, Cursor.lineBreak?_newline, skipGaps_blanks solid, Nat.zero_add]

theorem next_blanks (solid : Solid more) :
    next ⟨⟨List.replicate width ' ' ++ more, index, line, column⟩, level, indent, outers, allowed,
        starts, read⟩ =
      (dropStale ⟨⟨more, index + width, line, column + width⟩, level, indent, outers, allowed,
        starts, read⟩ >>= fun s => (s.unwind s.cursor.column).fetch) := by
  rw [next, skipGaps_blanks solid]

theorem next_solid (solid : Solid more) :
    next ⟨⟨more, index, line, column⟩, level, indent, outers, allowed, starts, read⟩ =
      (dropStale ⟨⟨more, index, line, column⟩, level, indent, outers, allowed, starts, read⟩ >>=
        fun s => (s.unwind s.cursor.column).fetch) :=
  @next_blanks more 0 index line column level indent outers allowed starts read solid

/-- The next token begins after blanks, if nothing ends there. -/
theorem next_of_dropStale {kept : Scan} (solid : Solid more)
    (drops : dropStale ⟨⟨more, index + width, line, column + width⟩, level, indent, outers, allowed,
      starts, read⟩ = .ok kept)
    (within : kept.flowLevel ≠ 0 ∨ kept.indent ≤ kept.cursor.column) :
    next ⟨⟨List.replicate width ' ' ++ more, index, line, column⟩, level, indent, outers, allowed,
      starts, read⟩ = kept.fetch := by
  rw [next_blanks solid, drops]
  exact congrArg fetch (unwind_within within)

theorem leads_line (solid : Solid more) :
    Leads ⟨⟨'\n' :: (List.replicate width ' ' ++ more), index, line, column⟩, level, indent, outers,
        allowed, starts, read⟩
      ⟨⟨more, index + 1 + width, line + 1, width⟩, level, indent, outers, allowed || level == 0,
        starts, read⟩ := by
  refine leads_of_next_eq ?_ ?_
  · rw [next_solid solid, next]
    simp only [List.length_cons]
    rw [skipGaps_line solid]
  · simp only [List.length_cons, List.length_append]
    omega

/-- Blocks that are indented further than something solid end there. -/
theorem leads_close (solid : Solid more) (further : (column : Int) < indent) :
    Leads ⟨⟨more, index, line, column⟩, 0, indent, outer :: outers, allowed, [], read⟩
      ⟨⟨more, index, line, column⟩, 0, outer, outers, allowed, [], read.push .blockEnd⟩ := by
  refine leads_of_next_eq ?_ (Nat.le_refl _)
  rw [next_solid solid, next_solid solid]
  change fetch (unwind _ _) = fetch (unwind _ _)
  simp only [unwind, ↓reduceIte, closeBlocks, further, List.filter_nil]

end Gaps

section Fetching

variable {word rest : List Char} {c follow : Char} {index line column level : Nat} {indent : Int}
  {outers : List Int} {allowed : Bool} {starts : List (Nat × KeyStart)} {read : List Token}
  {token : Token}

theorem fetch_word (member : c ∈ wordChars) (read : Array Token) :
    fetch ⟨⟨c :: rest, index, line, column⟩, level, indent, outers, allowed, starts, read⟩ =
      fetchPlain ⟨⟨c :: rest, index, line, column⟩, level, indent, outers, allowed, starts,
        read⟩ := by
  have inside : (!isGap c && !"-.?:,[]\x7b\x7d#&*!|>'\"%@\x60".toList.contains c) = true :=
    test_of_mem_wordChars
      (fun c => !isGap c && !"-.?:,[]\x7b\x7d#&*!|>'\"%@\x60".toList.contains c) (by decide) member
  simp at inside
  unfold fetch
  simp [Cursor.peek, inside, startsPlain]

theorem fetch_colon (ends : level ≠ 0 ∨ isGap follow) (read : Array Token) :
    fetch ⟨⟨':' :: follow :: rest, index, line, column⟩, level, indent, outers, allowed, starts,
        read⟩ =
      fetchValue ⟨⟨':' :: follow :: rest, index, line, column⟩, level, indent, outers, allowed,
        starts, read⟩ := by
  unfold fetch
  simp [Cursor.peek, ends]

/-- A place where a key may have begun stays in reach on its line. -/
theorem dropStale_near {s : Scan} {start : KeyStart} (only : s.keyStarts = [(level, start)])
    (line : start.line = s.cursor.line) (near : s.cursor.index ≤ start.index + 1024) :
    s.dropStale = .ok s := by
  have fresh : s.isStale start = false := by
    rw [isStale, line, bne_self_eq_false, Bool.false_or, decide_eq_false_iff_not]
    omega
  obtain ⟨cursor, level', indent, outers, allowed, starts, read⟩ := s
  cases only
  simp only [dropStale, List.any_cons, List.any_nil, List.filter_cons, List.filter_nil, fresh]
  rfl

/-- Places on earlier lines are forgotten. -/
theorem dropStale_idle {s : Scan}
    (idle : ∀ start ∈ s.keyStarts, start.2.line < s.cursor.line ∧ start.2.required = false) :
    s.dropStale = .ok { s with keyStarts := [] } := by
  have stale (start : Nat × KeyStart) (member : start ∈ s.keyStarts) :
      s.isStale start.2 = true := by
    rw [isStale, bne_iff_ne.mpr (idle start member).1.ne, Bool.true_or]
  have free : (s.keyStarts.any fun start => s.isStale start.2 && start.2.required) = false := by
    refine List.any_eq_false.mpr fun start member => ?_
    rw [(idle start member).2, Bool.and_false]
    exact Bool.false_ne_true
  have none : (s.keyStarts.filter fun start => !s.isStale start.2) = [] := by
    refine List.filter_eq_nil_iff.mpr fun start member => ?_
    rw [stale start member]
    exact Bool.false_ne_true
  have steps : s.dropStale =
      if s.keyStarts.any fun start => s.isStale start.2 && start.2.required then
        .error .malformed
      else .ok { s with keyStarts := s.keyStarts.filter fun start => !s.isStale start.2 } := rfl
  rw [steps, free, none, if_neg Bool.false_ne_true]

theorem insertIdx_length {α : Type} (front back : List α) (item : α) :
    (front ++ back).insertIdx front.length item = front ++ item :: back := by
  induction front with
  | nil => rfl
  | cons first front ih =>
      rw [List.cons_append, List.length_cons, List.insertIdx_succ_cons, ih, List.cons_append]

/-- The state after a colon that makes a key of the last token. The first key of a block opens
it. -/
def afterKey (cursor : Cursor) (level : Nat) (indent : Int) (outers : List Int) (column : Nat)
    (read : List Token) (token : Token) : Scan :=
  if level = 0 ∧ indent < column then
    ⟨cursor, level, column, indent :: outers, false, [],
      (read ++ [.blockMappingStart, .key, token, .value]).toArray⟩
  else ⟨cursor, level, indent, outers, false, [], (read ++ [.key, token, .value]).toArray⟩

theorem fetchValue_last {start : KeyStart} (place : start.position = read.length) :
    fetchValue ⟨⟨':' :: rest, index, line, column⟩, level, indent, outers, allowed,
        [(level, start)], (read ++ [token]).toArray⟩ =
      .ok (afterKey ⟨rest, index + 1, line, column + 1⟩ level indent outers start.column read
        token) := by
  have moved : (⟨':' :: rest, index, line, column⟩ : Cursor).step =
      ⟨rest, index + 1, line, column + 1⟩ := Cursor.step_inline rfl
  unfold fetchValue afterKey
  simp only [List.lookup_cons, beq_self_eq_true, List.filter_cons, bne_self_eq_false,
    Bool.false_eq_true, ↓reduceIte, List.filter_nil, insertAt, place, insertIdx_length, openBlock,
    push, disallowKey, forward, Cursor.forward]
  by_cases block : level = 0
  · by_cases opens : indent < start.column
    · simp [block, opens, moved]
    · simp [block, opens, moved]
  · simp [block, moved]

theorem back?_afterKey (cursor : Cursor) (start : Nat) :
    (afterKey cursor level indent outers start read token).tokens.back? = some .value := by
  unfold afterKey
  split <;> simp

/-- A colon on the line of a token that may be a key. -/
theorem leads_colon {start : KeyStart} (place : start.position = read.length)
    (here : start.line = line) (near : index ≤ start.index + 1024)
    (ends : level ≠ 0 ∨ isGap follow) (within : level ≠ 0 ∨ indent ≤ column) :
    Leads ⟨⟨':' :: follow :: rest, index, line, column⟩, level, indent, outers, allowed,
        [(level, start)], (read ++ [token]).toArray⟩
      (afterKey ⟨follow :: rest, index + 1, line, column + 1⟩ level indent outers start.column read
        token) := by
  refine leads_of_next ?_ ?_ ?_
  · refine (@next_of_dropStale _ 0 _ _ _ _ _ _ _ _ _ _ rfl (dropStale_near rfl here near)
      within).trans ?_
    rw [Nat.add_zero, Nat.add_zero, fetch_colon ends, fetchValue_last place]
  · rw [back?_afterKey]
    exact nofun
  · unfold afterKey
    split <;> simp

theorem solid_of_isWord (isWord : IsWord word) : Solid (word ++ rest) := by
  obtain ⟨first, others, rfl⟩ := List.exists_cons_of_ne_nil isWord.nonempty
  exact test_of_mem_wordChars isSolid (by decide) (isWord.made first List.mem_cons_self)

theorem fetch_isWord (isWord : IsWord word) (read : Array Token) :
    fetch ⟨⟨word ++ rest, index, line, column⟩, level, indent, outers, allowed, starts, read⟩ =
      fetchPlain ⟨⟨word ++ rest, index, line, column⟩, level, indent, outers, allowed, starts,
        read⟩ := by
  obtain ⟨first, others, rfl⟩ := List.exists_cons_of_ne_nil isWord.nonempty
  exact fetch_word (isWord.made first List.mem_cons_self) read

/-- The places noted where a key may begin. -/
def noted (allowed : Bool) (level : Nat) (start : KeyStart) : List (Nat × KeyStart) :=
  if allowed then [(level, start)] else []

theorem noteKeyStart_none (c : Cursor) (read : Array Token) :
    noteKeyStart ⟨c, level, indent, outers, allowed, [], read⟩ =
      .ok ⟨c, level, indent, outers, allowed, noted allowed level ⟨read.size,
        level == 0 && indent == c.column, c.index, c.line, c.column⟩, read⟩ := by
  cases allowed <;> rfl

theorem next_plain {width : Nat} {after : Cursor} {broken : Bool} (isWord : IsWord word)
    (within : level ≠ 0 ∨ indent ≤ (column + width : Nat))
    (reads : readPlain (level != 0) (indent + 1)
      ⟨word ++ rest, index + width, line, column + width⟩ = (word, after, broken)) :
    ∃ required, next ⟨⟨List.replicate width ' ' ++ (word ++ rest), index, line, column⟩, level,
        indent, outers, allowed, [], read.toArray⟩ =
      .ok ⟨after, level, indent, outers, broken, noted allowed level ⟨read.length, required,
        index + width, line, column + width⟩,
          (read ++ [Token.scalar (String.ofList word) true]).toArray⟩ := by
  refine ⟨level == 0 && indent == (column + width : Nat), ?_⟩
  refine (next_of_dropStale (solid_of_isWord isWord) rfl within).trans ?_
  change fetch ⟨_, level, indent, outers, allowed, [], read.toArray⟩ = _
  rw [fetch_isWord isWord, fetchPlain, noteKeyStart_none]
  simp only [bind, Except.bind, reads, pure, Except.pure, push, List.push_toArray,
    List.size_toArray]

/-- A plain word and its colon are a key of a block. -/
theorem leads_plainKey (isWord : IsWord word) (gap : isGap follow) (within : indent ≤ column) :
    Leads ⟨⟨word ++ ':' :: follow :: rest, index, line, column⟩, 0, indent, outers, true, [],
        read.toArray⟩
      (afterKey ⟨follow :: rest, index + word.length + 1, line, column + word.length + 1⟩ 0 indent
        outers column read (.scalar (String.ofList word) true)) := by
  have ends : endsPlainRun false ':' ((follow :: rest).headD '\x00') := by
    simp [endsPlainRun, gap]
  obtain ⟨required, next⟩ := @next_plain word (':' :: follow :: rest) index line column 0 indent
    outers true read 0 _ _ isWord (.inr within) (readPlain_mark isWord ends rfl)
  refine (leads_of_next next ?_ ?_).trans
    (leads_colon rfl rfl ?_ (.inr gap) (.inr (by simp; omega)))
  · simp
  · have some := List.length_pos_iff.mpr isWord.nonempty
    simp
    omega
  · have short := isWord.short
    simp
    omega

/-- A plain word at the end of its line is a value in a block. -/
theorem leads_plainValue {more : List Char} {width : Nat} (isWord : IsWord word)
    (solid : Solid more) (within : indent ≤ (column + 1 : Nat))
    (last : (width : Int) < indent + 1) :
    Leads ⟨⟨' ' :: (word ++ '\n' :: (List.replicate width ' ' ++ more)), index, line, column⟩, 0,
        indent, outers, false, [], read.toArray⟩
      ⟨⟨more, index + 1 + word.length + 1 + width, line + 1, width⟩, 0, indent, outers, true, [],
        (read ++ [Token.scalar (String.ofList word) true]).toArray⟩ := by
  obtain ⟨required, next⟩ := @next_plain word _ index line column 0 indent outers false read 1 _ _
    isWord (.inr within) (readPlain_line isWord solid last)
  refine leads_of_next next ?_ ?_
  · simp
  · simp
    omega

/-! ### Flow collections -/

section Flow

theorem next_quoted {width : Nat} (isWord : IsWord word)
    (idle : ∀ start ∈ starts, start.2.line < line ∧ start.2.required = false) :
    ∃ required, next ⟨⟨List.replicate width ' ' ++ '"' :: (word ++ '"' :: rest), index, line,
        column⟩, level + 1, indent, outers, allowed, starts, read.toArray⟩ =
      .ok ⟨⟨rest, index + width + word.length + 2, line, column + width + word.length + 2⟩,
        level + 1, indent, outers, false, noted allowed (level + 1) ⟨read.length, required,
          index + width, line, column + width⟩,
        (read ++ [Token.scalar (String.ofList word) false]).toArray⟩ := by
  refine ⟨level + 1 == 0 && indent == (column + width : Nat), ?_⟩
  refine (next_of_dropStale rfl (dropStale_idle idle) (.inl (Nat.succ_ne_zero level))).trans ?_
  change fetchQuoted true ⟨_, level + 1, indent, outers, allowed, [], read.toArray⟩ = _
  rw [fetchQuoted, noteKeyStart_none]
  simp only [bind, Except.bind, readQuoted_word isWord.made, pure, Except.pure, push,
    List.push_toArray, List.size_toArray]

/-- A word in quotes and its colon are a key of a flow mapping. -/
theorem leads_quotedKey (isWord : IsWord word)
    (idle : ∀ start ∈ starts, start.2.line < line ∧ start.2.required = false) :
    Leads ⟨⟨'"' :: (word ++ '"' :: ':' :: follow :: rest), index, line, column⟩, level + 1, indent,
        outers, true, starts, read.toArray⟩
      ⟨⟨follow :: rest, index + word.length + 3, line, column + word.length + 3⟩, level + 1, indent,
        outers, false, [],
        (read ++ [.key, Token.scalar (String.ofList word) false, .value]).toArray⟩ := by
  obtain ⟨required, next⟩ := @next_quoted word (':' :: follow :: rest) index line column level
    indent outers true starts read 0 isWord idle
  have short := isWord.short
  refine (leads_of_next next ?_ ?_).trans ((leads_colon rfl rfl ?_ (.inl (Nat.succ_ne_zero level))
    (.inl (Nat.succ_ne_zero level))).trans ?_)
  · simp
  · simp
    omega
  · simp
    omega
  · exact .refl _

theorem leads_flowEntry :
    Leads ⟨⟨',' :: rest, index, line, column⟩, level + 1, indent, outers, allowed, [],
        read.toArray⟩
      ⟨⟨rest, index + 1, line, column + 1⟩, level + 1, indent, outers, true, [],
        (read ++ [Token.flowEntry]).toArray⟩ := by
  have moved : (⟨',' :: rest, index, line, column⟩ : Cursor).step =
      ⟨rest, index + 1, line, column + 1⟩ := Cursor.step_inline rfl
  refine leads_of_next ?_ ?_ (Nat.lt_succ_self _)
  · refine (@next_of_dropStale (',' :: rest) 0 _ _ _ _ _ _ _ _ _ _ rfl rfl
      (.inl (Nat.succ_ne_zero level))).trans ?_
    change Except.ok (push (forward _ 1) .flowEntry) = _
    simp only [push, forward, Cursor.forward, Nat.add_zero, moved, List.push_toArray,
      List.filter_nil]
  · simp

theorem leads_flowClose :
    Leads ⟨⟨'\x7d' :: rest, index, line, column⟩, level + 1, indent, outers, allowed, [],
        read.toArray⟩
      ⟨⟨rest, index + 1, line, column + 1⟩, level, indent, outers, false, [],
        (read ++ [Token.flowMappingEnd]).toArray⟩ := by
  have moved : (⟨'\x7d' :: rest, index, line, column⟩ : Cursor).step =
      ⟨rest, index + 1, line, column + 1⟩ := Cursor.step_inline rfl
  refine leads_of_next ?_ ?_ (Nat.lt_succ_self _)
  · refine (@next_of_dropStale ('\x7d' :: rest) 0 _ _ _ _ _ _ _ _ _ _ rfl rfl
      (.inl (Nat.succ_ne_zero level))).trans ?_
    change Except.ok (push (forward _ 1) .flowMappingEnd) = _
    simp only [push, forward, Cursor.forward, Nat.add_zero, moved, List.push_toArray,
      Nat.add_sub_cancel, List.filter_nil]
  · simp

/-- A brace opens a flow mapping. A key may begin with it, but not on the next line. -/
theorem leads_flowOpen {width : Nat} (outside : level ≠ 0 ∨ indent < (column + width : Nat)) :
    ∃ starts : List (Nat × KeyStart),
      (∀ start ∈ starts, start.2.line < line + 1 ∧ start.2.required = false) ∧
      Leads ⟨⟨List.replicate width ' ' ++ '\x7b' :: rest, index, line, column⟩, level, indent,
          outers, allowed, [], read.toArray⟩
        ⟨⟨rest, index + width + 1, line, column + width + 1⟩, level + 1, indent, outers, true,
          starts, (read ++ [Token.flowMappingStart]).toArray⟩ := by
  have moved : (⟨'\x7b' :: rest, index + width, line, column + width⟩ : Cursor).step =
      ⟨rest, index + width + 1, line, column + width + 1⟩ := Cursor.step_inline rfl
  have free : (level == 0 && indent == (column + width : Nat)) = false := by
    rw [Bool.and_eq_false_iff, beq_eq_false_iff_ne, beq_eq_false_iff_ne]
    exact outside.imp id Int.ne_of_lt
  refine ⟨noted allowed level ⟨read.length, level == 0 && indent == (column + width : Nat),
    index + width, line, column + width⟩, ?_, leads_of_next ?_ ?_ ?_⟩
  · intro start member
    cases allowed with
    | false => cases member
    | true =>
        obtain rfl := List.mem_singleton.mp member
        exact ⟨Nat.lt_succ_self _, free⟩
  · refine (next_of_dropStale rfl rfl (outside.imp id Int.le_of_lt)).trans ?_
    change fetchFlowStart .flowMappingStart ⟨_, level, indent, outers, allowed, [],
      read.toArray⟩ = _
    rw [fetchFlowStart, noteKeyStart_none]
    simp only [bind, Except.bind, pure, Except.pure, push, forward, Cursor.forward, moved,
      List.push_toArray, List.size_toArray]
  · simp
  · simp
    omega

end Flow

end Fetching

end Scan

open Scan

/-- The tokens of a text are those of the state that ends it. -/
theorem tokens_of_leads {text : List Char} {s after : Scan} (readable : text.all isReadable)
    (solid : Solid text) (leads : (Scan.ofText text).Leads s)
    (next : s.next = .ok after) (ended : after.tokens.back? = some .streamEnd) :
    tokens text = (after.tokens, none) := by
  obtain ⟨count, shorter, same⟩ := leads
  have length : count ≤ text.length := Nat.le_trans (Nat.le_add_left _ _) shorter
  have final (fuel : Nat) : tokensFrom (fuel + 1) s = (after.tokens, none) := by
    rw [tokensFrom, next]
    exact if_pos (beq_iff_eq.mpr ended)
  have ends := same _ _ (final (text.length + 1 - count))
  rw [show text.length + 1 - count + count + 1 = text.length + 2 by omega] at ends
  unfold tokens
  rw [if_pos readable]
  split
  · exact absurd rfl (ne_of_isSolid solid '\uFEFF' rfl)
  · exact ends

end Yaml

end MemberOrder
