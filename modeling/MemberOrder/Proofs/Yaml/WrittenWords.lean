import MemberOrder.Proofs.Json.Writable
import MemberOrder.Proofs.Yaml.WordDocuments

/-!
# Writing documents of words

A document of words is written in YAML with its parts below one another, without any quotes
(`Yaml.write_partsValue`), and in JSON with its parts between braces (`Yaml.draft_partsValue`).
-/

namespace MemberOrder

namespace Yaml

/-! ### The style of a word -/

/-- Whether a character is neither a blank nor a break, needs no escape and is no part of an
indicator. -/
def isUnmarked (c : Char) : Bool :=
  !(c == ' ' || isWrittenBreak c || isSpecial false c || c == ':' || c == '#' || c == '.' ||
    startsIndicator c ' ')

section Styles

variable {text : List Char} {c : Char}

theorem isUnmarked_of_isWord (isWord : IsWord text) : ∀ c ∈ text, isUnmarked c :=
  fun c member => test_of_mem_wordChars isUnmarked (by decide) (isWord.made c member)

theorem here_of_mem_neighboursFrom {before : Char} {n : Neighbours}
    (member : n ∈ neighboursFrom before text) : n.here ∈ text := by
  induction text generalizing before with
  | nil => cases member
  | cons c rest ih =>
      obtain rfl | later := List.mem_cons.mp member
      · exact List.mem_cons_self
      · exact List.mem_cons_of_mem _ (ih later)

theorem any_neighboursFrom_eq_false {before : Char} {test : Neighbours → Bool}
    (fails : ∀ n : Neighbours, n.here ∈ text → test n = false) :
    (neighboursFrom before text).any test = false :=
  List.any_eq_false.mpr fun n member => by simp [fails n (here_of_mem_neighboursFrom member)]

/-- A word is fine without quotes. -/
theorem traits_of_isWord (isWord : IsWord text) :
    TextTraits.of false text = ⟨false, false, true, true, true⟩ := by
  have unmarked : ∀ c ∈ text, (c == ' ') = false ∧ isWrittenBreak c = false ∧
      isSpecial false c = false ∧ (c == ':') = false ∧ (c == '#') = false ∧ (c == '.') = false ∧
      startsIndicator c ' ' = false := fun c member => by
    have clear := isUnmarked_of_isWord isWord c member
    simpa only [isUnmarked, Bool.not_eq_true', Bool.or_eq_false_iff, and_assoc] using clear
  obtain ⟨first, rest, rfl⟩ := List.exists_cons_of_ne_nil isWord.nonempty
  have noBreak : (first :: rest).any isWrittenBreak = false :=
    List.any_eq_false.mpr fun c member => by simp [unmarked c member]
  have noSpecial : (first :: rest).any (isSpecial false) = false :=
    List.any_eq_false.mpr fun c member => by simp [unmarked c member]
  have later (n : Neighbours) (member : n.here ∈ rest) :=
    unmarked n.here (List.mem_cons_of_mem _ member)
  have noIndicator : (neighboursFrom first rest).any isIndicator = false :=
    any_neighboursFrom_eq_false fun n member => by simp [isIndicator, later n member]
  have noBlank : ((neighboursFrom first rest).any fun n =>
      isWrittenBreak n.before && n.here == ' ') = false :=
    any_neighboursFrom_eq_false fun n member => by simp [later n member]
  have noEnd : ((neighboursFrom first rest).any fun n => n.before == ' ' && isWrittenBreak n.here) =
      false := any_neighboursFrom_eq_false fun n member => by simp [later n member]
  obtain ⟨noGap, whole, -, -, -, noPoint, opens⟩ := unmarked first List.mem_cons_self
  have lastWord : (first :: rest).getLast?.getD '\x00' ∈ first :: rest := by
    rw [List.getLast?_eq_some_getLast (List.cons_ne_nil _ _), Option.getD_some]
    exact List.getLast_mem _
  obtain ⟨lastGap, lastWhole, -⟩ := unmarked _ lastWord
  have noMarker : ["---".toList, "...".toList].contains ((first :: rest).take 3) = false := by
    have noDash : first ≠ '-' := by
      rintro rfl
      exact absurd opens (by decide)
    have noDot : first ≠ '.' := beq_eq_false_iff_ne.mp noPoint
    simp [noDash, noDot]
  have noOpening : startsIndicator first (rest.headD '\x00') = false := by
    simp only [startsIndicator, Bool.or_eq_false_iff, Bool.and_eq_false_iff] at opens ⊢
    exact ⟨opens.1, .inl (opens.2.resolve_right (by decide))⟩
  simp only [TextTraits.of, noBreak, noSpecial, noIndicator, noBlank, noEnd, noGap, whole, lastGap,
    lastWhole, noMarker, noOpening, Bool.or_false, Bool.not_false]

/-- A text without blanks and breaks is one stretch. -/
theorem stretches_of_unmarked (nonempty : text ≠ []) (unmarked : ∀ c ∈ text, isUnmarked c) :
    stretches text = [.word text] := by
  induction text with
  | nil => exact absurd rfl nonempty
  | cons c rest ih =>
      obtain ⟨first, later⟩ := List.forall_mem_cons.mp unmarked
      simp only [isUnmarked, Bool.not_eq_true', Bool.or_eq_false_iff, beq_eq_false_iff_ne, ne_eq,
        and_assoc] at first
      obtain ⟨noBlank, noBreak, -⟩ := first
      cases rest with
      | nil => simp [stretches, noBlank, noBreak]
      | cons next rest =>
          rw [stretches, ih (List.cons_ne_nil _ _) later]
          simp [noBlank, noBreak]

end Styles

/-! ### What the pen adds -/

namespace Pen

/-- Whether a pen stands right behind something on its line. -/
structure Behind (pen : Pen) : Prop where
  noBlank : pen.afterBlank = false
  notFirst : pen.onlyIndented = false
  narrow : pen.wide = false

/-- Whether a pen stands where a word needs no blank before it. -/
structure Clear (pen : Pen) : Prop where
  blank : pen.afterBlank = true
  narrow : pen.wide = false

/-- Whether a pen adds a text and stands behind it. -/
structure Adds (pen : Pen) (text : List Char) (after : Pen) : Prop where
  written : after.written = text.reverse ++ pen.written
  behind : after.Behind

variable {pen after last : Pen} {text more : List Char}

theorem Adds.trans (first : pen.Adds text after) (second : after.Adds more last) :
    pen.Adds (text ++ more) last :=
  ⟨by rw [second.written, first.written, List.reverse_append, List.append_assoc], second.behind⟩

/-- A pen that goes to a new line adds a break and the indentation. -/
theorem indentTo_of_behind (behind : pen.Behind) (indent : Nat) :
    (pen.indentTo indent).Clear ∧ (pen.indentTo indent).written =
      ('\n' :: List.replicate indent ' ').reverse ++ pen.written := by
  unfold indentTo
  simp only [behind.notFirst, Bool.not_false, Bool.true_or, if_true]
  split
  · refine ⟨⟨rfl, behind.narrow⟩, ?_⟩
    simp [put, lineBreak]
  · next none =>
      have zero : indent = 0 := Nat.eq_zero_of_not_pos none
      rw [zero]
      exact ⟨⟨rfl, behind.narrow⟩, rfl⟩

/-- A colon behind a key. -/
theorem adds_colon (behind : pen.Behind) : pen.Adds [':'] (pen.indicator ":" false) := by
  refine ⟨?_, ⟨rfl, ?_, behind.narrow⟩⟩
  · simp [indicator, put]
  · simp [indicator]

end Pen

section Words

variable {pen : Pen} {text : String} {tag : NodeTag} {outer : Nat} {simpleKey : Bool}

theorem implicitTag_ne_binary (text : String) : implicitTag text ≠ .binary := by
  unfold implicitTag
  simp only
  split_ifs <;> exact nofun

theorem adds_writePlain (isWord : IsWord text.toList) (indent : Nat) (split : Bool)
    (narrow : pen.wide = false) :
    pen.Adds ((if pen.afterBlank then [] else [' ']) ++ text.toList)
      (writePlain indent split text.toList pen) := by
  have empty : text.toList.isEmpty = false := by simpa using isWord.nonempty
  unfold writePlain
  rw [stretches_of_unmarked isWord.nonempty (isUnmarked_of_isWord isWord), empty, Bool.or_false]
  cases pen.afterBlank with
  | true => exact ⟨by simp [Pen.put, Pen.inside], rfl, rfl, narrow⟩
  | false => exact ⟨by simp [Pen.put, Pen.inside], rfl, rfl, narrow⟩

/-- A word is written without quotes. -/
theorem adds_writeScalar (isWord : IsWord text.toList) (narrow : pen.wide = false) :
    pen.Adds ((if pen.afterBlank then [] else [' ']) ++ text.toList)
      (writeScalar outer simpleKey (implicitTag text) text pen) := by
  have style : ScalarStyle.choose (TextTraits.of pen.wide text.toList) (implicitTag text) text
      simpleKey = .plain := by
    rw [narrow, traits_of_isWord isWord, ScalarStyle.choose, if_neg (implicitTag_ne_binary text)]
    simp
  unfold writeScalar
  simp only [style]
  exact adds_writePlain isWord _ _ narrow

theorem present_word {value : Value} (isWord : WordValue value) (tagged : Bool)
    (anchors : List (Nat × Nat)) (met : List Nat) : present tagged anchors met value =
      (.scalar none (implicitTag (wordText value)) (wordText value), met) := by
  rw [isWord.tag]
  obtain ⟨_, rfl⟩ | ⟨_, rfl⟩ | ⟨_, rfl⟩ := isWord.cases <;> rfl

/-- A key with its colon. -/
theorem adds_key (isWord : WordValue (.str text)) (clear : pen.Clear) (indent : Nat) :
    pen.Adds (text.toList ++ [':']) ((writeNode .mapping indent true pen
      (.scalar none .str text)).indicator ":" false) := by
  have key := @adds_writeScalar pen text indent true isWord.isWord clear.narrow
  have tag : implicitTag text = .str := isWord.tag
  rw [clear.blank, tag] at key
  exact key.trans (Pen.adds_colon key.behind)

theorem isSimpleKey_word (isWord : WordValue (.str text)) :
    (Presented.scalar none .str text).isSimpleKey false := by
  have short := isWord.isWord.short
  rw [wordText, String.length_toList] at short
  have fits : Presented.anchorLength none + (tagWord .str).length + text.length < 128 := by
    change 0 + 5 + text.length < 128
    omega
  have traits : TextTraits.of false text.toList = ⟨false, false, true, true, true⟩ :=
    traits_of_isWord isWord.isWord
  simp [Presented.isSimpleKey, traits, fits]

end Words

/-! ### Documents in YAML -/

section Entries

variable {ι : Type} {rows : List ι} {name : ι → String} {shown : ι → Presented}
  {text : ι → List Char} {indent : Nat}

/-- An entry from a place where its key needs no blank before it. -/
theorem adds_entry {row : ι} {rest : List (Presented × Presented)} {pen : Pen} {before : List Char}
    (isWord : WordValue (.str (name row)))
    (value : ∀ pen : Pen, pen.Behind → pen.Adds (text row)
      (writeNode .mapping indent false pen (shown row)))
    (clear : (pen.indentTo indent).Clear)
    (there : (pen.indentTo indent).written = before.reverse ++ pen.written) :
    ∃ after, pen.Adds (before ++ (name row).toList ++ ':' :: text row) after ∧
      writeEntries indent pen ((.scalar none .str (name row), shown row) :: rest) =
        writeEntries indent after rest := by
  have key := adds_key isWord clear indent
  have whole := key.trans (value _ key.behind)
  refine ⟨_, ⟨?_, whole.behind⟩, ?_⟩
  · rw [whole.written, there]
    simp
  · rw [writeEntries]
    simp only [clear.narrow, isSimpleKey_word isWord, if_true]

/-- Entries on lines of their own. -/
theorem adds_entries (words : ∀ row ∈ rows, WordValue (.str (name row)))
    (values : ∀ row ∈ rows, ∀ pen : Pen, pen.Behind → pen.Adds (text row)
      (writeNode .mapping indent false pen (shown row))) {pen : Pen} (behind : pen.Behind) :
    pen.Adds (rows.map fun row =>
        '\n' :: (List.replicate indent ' ' ++ (name row).toList ++ ':' :: text row)).flatten
      (writeEntries indent pen
        (rows.map fun row => (.scalar none .str (name row), shown row))) := by
  induction rows generalizing pen with
  | nil => exact ⟨rfl, behind⟩
  | cons row rest ih =>
      obtain ⟨word, laterWords⟩ := List.forall_mem_cons.mp words
      obtain ⟨value, laterValues⟩ := List.forall_mem_cons.mp values
      obtain ⟨clear, there⟩ := Pen.indentTo_of_behind behind indent
      obtain ⟨after, added, goesOn⟩ := @adds_entry _ _ _ _ _ _
        (rest.map fun row => (Presented.scalar none .str (name row), shown row)) _ _ word value
        clear there
      rw [List.map_cons, List.map_cons, List.flatten_cons, goesOn]
      simpa using added.trans (ih laterWords laterValues added.behind)

theorem presentEntries_ofFields {value : ι → Value} {tagged : Bool} {anchors : List (Nat × Nat)}
    {met : List Nat}
    (each : ∀ row ∈ rows, present tagged anchors met (value row) = (shown row, met)) :
    presentEntries tagged anchors met
        (Entries.ofFields (rows.map fun row => (name row, value row))) =
      (rows.map fun row => (.scalar none .str (name row), shown row), met) := by
  induction rows with
  | nil => rfl
  | cons row rest ih =>
      obtain ⟨first, later⟩ := List.forall_mem_cons.mp each
      change presentEntries tagged anchors met ((.str (name row), value row) ::
        Entries.ofFields (rest.map fun row => (name row, value row))) = _
      rw [presentEntries]
      simp only [present, first, ih later, List.map_cons]

end Entries

theorem flatten_map_append {ι : Type} (between : List Char) (text : ι → List Char) (first : ι)
    (rest : List ι) : text first ++ (rest.map fun row => between ++ text row).flatten =
      List.intercalate between ((first :: rest).map text) := by
  induction rest generalizing first with
  | nil => simp
  | cons next rest ih =>
      rw [List.map_cons, List.flatten_cons, List.append_assoc between, ih next]
      exact (List.append_assoc ..).symm.trans List.intercalate_cons_cons.symm

section Documents

variable {fields : Fields} {parts : Parts}

/-- A word as it is presented. -/
def shownWord (value : Value) : Presented :=
  .scalar none (implicitTag (wordText value)) (wordText value)

/-- Fields as they are presented. -/
def shownFields (fields : Fields) : Presented :=
  .mapping none false (fields.map fun field => (.scalar none .str field.1, shownWord field.2))

theorem present_fields (words : WordFields fields) (tagged : Bool) (anchors : List (Nat × Nat))
    (met : List Nat) : present tagged anchors met (.map none (Entries.ofFields fields)) =
      (shownFields fields, met) := by
  have entries : presentEntries tagged anchors met
      (Entries.ofFields (fields.map fun field => (field.1, field.2))) = _ :=
    presentEntries_ofFields fun field member =>
      present_word (words.words field member).2 tagged anchors met
  rw [map_eta] at entries
  rw [present]
  simp only [present.aliasOf, present.anchorOf, Option.bind_none, Option.toList_none,
    List.nil_append, entries, shownFields, shownWord]

theorem presentDocument_partsValue (words : WordParts parts) (tagged : Bool) :
    presentDocument tagged (partsValue parts) = .mapping none false (parts.map fun part =>
      (.scalar none .str part.1, shownFields part.2)) := by
  have entries (anchors : List (Nat × Nat)) (met : List Nat) : presentEntries tagged anchors met
      (Entries.ofFields
        (parts.map fun part => (part.1, .map none (Entries.ofFields part.2)))) = _ :=
    presentEntries_ofFields fun part member =>
      present_fields (words.words part member).2 tagged anchors met
  unfold presentDocument partsValue
  rw [present]
  simp only [present.aliasOf, present.anchorOf, Option.bind_none, Option.toList_none,
    List.nil_append, entries]

theorem adds_shownWord {value : Value} (isWord : WordValue value) {pen : Pen} (behind : pen.Behind)
    (indent : Nat) : pen.Adds (' ' :: (wordText value).toList)
      (writeNode .mapping indent false pen (shownWord value)) := by
  have word := @adds_writeScalar pen (wordText value) indent false isWord.isWord behind.narrow
  rwa [behind.noBlank] at word

/-- Fields below the name of their part. -/
theorem adds_shownFields (words : WordFields fields) {pen : Pen} (behind : pen.Behind) :
    pen.Adds (fieldsBelow fields) (writeNode .mapping 0 false pen (shownFields fields)) := by
  have added := @adds_entries _ fields Prod.fst (fun field => shownWord field.2)
    (fun field => ' ' :: (wordText field.2).toList) bestIndent
    (fun field member => (words.words field member).1)
    (fun field member pen behind => adds_shownWord (words.words field member).2 behind bestIndent)
    _ behind
  obtain ⟨first, rest, rfl⟩ := List.exists_cons_of_ne_nil words.nonempty
  have opened : writeNode .mapping 0 false pen (shownFields (first :: rest)) =
      writeEntries bestIndent pen ((first :: rest).map fun field =>
        (.scalar none .str field.1, shownWord field.2)) := rfl
  rw [opened, fieldsBelow, ← flatten_map_append]
  simpa [blockField] using added

/-- **Writing in YAML.** A document of words has its parts below one another. -/
theorem write_partsValue (words : WordParts parts) (tagged : Bool) :
    write ⟨false, tagged⟩ (partsValue parts) = String.ofList (blockText parts) := by
  have named (part : String × Fields) (member : part ∈ parts) := (words.words part member).1
  have below (part : String × Fields) (member : part ∈ parts) (pen : Pen) (behind : pen.Behind) :=
    adds_shownFields (words.words part member).2 behind
  obtain ⟨first, rest, rfl⟩ := List.exists_cons_of_ne_nil words.nonempty
  obtain ⟨word, laterWords⟩ := List.forall_mem_cons.mp named
  obtain ⟨value, laterValues⟩ := List.forall_mem_cons.mp below
  have start : ((Pen.start false).indentTo 0).Clear := ⟨rfl, rfl⟩
  obtain ⟨after, added, goesOn⟩ := @adds_entry _ Prod.fst (fun part => shownFields part.2)
    (fun part => fieldsBelow part.2) 0 first
    (rest.map fun part => (Presented.scalar none .str part.1, shownFields part.2)) _ [] word value
    start rfl
  have whole := added.trans (adds_entries laterWords laterValues added.behind)
  have ends := (Pen.indentTo_of_behind whole.behind 0).2
  have page : writeNode .root 0 false (.start false)
      (presentDocument tagged (partsValue (first :: rest))) =
      writeEntries 0 after
        (rest.map fun part => (Presented.scalar none .str part.1, shownFields part.2)) := by
    rw [presentDocument_partsValue words, ← goesOn]
    rfl
  unfold write
  simp only [page]
  rw [ends, whole.written, blockText, ← flatten_map_append]
  simp [Pen.start, blockPart]

/-! ### Documents in JSON -/

open Json (Draft Layout keyDraft valueDraft entryDrafts)

theorem stringText_word {text : List Char} (isWord : IsWord text) (ascii : Bool) :
    Json.stringText ascii (String.ofList text) = writtenWord false text := by
  have plain : ∀ c ∈ text, Json.escapeChar ascii c = [c] := fun c member => by
    have same := test_of_mem_wordChars
      (fun c => Json.escapeChar true c == [c] && Json.escapeChar false c == [c]) (by decide)
      (isWord.made c member)
    rw [Bool.and_eq_true, beq_iff_eq, beq_iff_eq] at same
    cases ascii
    · exact same.2
    · exact same.1
  have whole : text.flatMap (Json.escapeChar ascii) = text := by
    rw [List.flatMap_congr plain]
    exact List.flatMap_singleton' text
  rw [Json.stringText, String.toList_ofList, whole]
  rfl

theorem keyDraft_word {text : String} (isWord : WordValue (.str text)) (layout : Layout)
    (before : List Char) : keyDraft layout before (.str text) =
      .done (before ++ writtenWord false text.toList ++ [':', ' ']) := by
  have quoted := stringText_word isWord.isWord layout.ascii
  rw [wordText, String.ofList_toList] at quoted
  rw [← quoted]
  rfl

theorem valueDraft_word {value : Value} (isWord : WordValue value) (layout : Layout) (level : Nat) :
    valueDraft layout level value =
      .done (writtenWord (isBare value) (wordText value).toList) := by
  obtain ⟨truth, rfl⟩ | ⟨n, rfl⟩ | ⟨text, rfl⟩ := isWord.cases
  · rw [valueDraft]
    rfl
  · have short := isWord.isWord.short
    rw [wordText, String.length_toList] at short
    rw [valueDraft, Json.wholeText, if_neg (by omega)]
    rfl
  · have quoted := stringText_word isWord.isWord layout.ascii
    rw [wordText, String.ofList_toList] at quoted
    rw [valueDraft, quoted]
    rfl

theorem done_append (first second : List Char) :
    Draft.done first ++ Draft.done second = Draft.done (first ++ second) := rfl

section Rows

variable {ι : Type} {rows : List ι} {name : ι → String} {value : ι → Value} {text : ι → List Char}
  {layout : Layout} {level : Nat} (steps : layout.indent = some 2)
include steps

theorem breakAt_of_steps (level : Nat) :
    layout.breakAt level = '\n' :: List.replicate (2 * level) ' ' := by
  rw [Layout.breakAt, steps]

theorem entryDrafts_ofFields (words : ∀ row ∈ rows, WordValue (.str (name row)))
    (values : ∀ row ∈ rows, valueDraft layout level (value row) = .done (text row)) :
    entryDrafts layout level (Entries.ofFields (rows.map fun row => (name row, value row))) =
      .done (rows.map fun row => flowSeparator (2 * level) ++
        (writtenWord false (name row).toList ++ ':' :: ' ' :: text row)).flatten := by
  have separator : layout.separator level = flowSeparator (2 * level) := by
    rw [Layout.separator, steps, breakAt_of_steps steps, flowSeparator]
  induction rows with
  | nil => rfl
  | cons row rest ih =>
      obtain ⟨word, laterWords⟩ := List.forall_mem_cons.mp words
      obtain ⟨first, laterValues⟩ := List.forall_mem_cons.mp values
      change entryDrafts layout level ((.str (name row), value row) ::
        Entries.ofFields (rest.map fun row => (name row, value row))) = _
      rw [entryDrafts, keyDraft_word word, first, ih laterWords laterValues, done_append,
        done_append, separator]
      simp

/-- The draft of a map of words with some drafts as values. -/
theorem valueDraft_ofFields (nonempty : rows ≠ [])
    (words : ∀ row ∈ rows, WordValue (.str (name row)))
    (values : ∀ row ∈ rows, valueDraft layout (level + 1) (value row) = .done (text row)) :
    valueDraft layout level (.map none (Entries.ofFields (rows.map fun row =>
        (name row, value row)))) =
      .done (braced (2 * (level + 1)) (2 * level)
        (List.intercalate (flowSeparator (2 * (level + 1)))
          (rows.map fun row => writtenWord false (name row).toList ++ ':' :: ' ' :: text row))) := by
  obtain ⟨row, rest, rfl⟩ := List.exists_cons_of_ne_nil nonempty
  obtain ⟨word, laterWords⟩ := List.forall_mem_cons.mp words
  obtain ⟨first, laterValues⟩ := List.forall_mem_cons.mp values
  change valueDraft layout level (.map none ((.str (name row), value row) ::
    Entries.ofFields (rest.map fun row => (name row, value row)))) = _
  rw [valueDraft, keyDraft_word word, first, entryDrafts_ofFields steps laterWords laterValues,
    ← flatten_map_append, breakAt_of_steps steps, breakAt_of_steps steps]
  simp only [done_append]
  simp [braced]

/-- **Writing in JSON.** A document of words has its parts between braces. -/
theorem valueDraft_partsValue (words : WordParts parts) :
    valueDraft layout 0 (partsValue parts) = .done (flowText parts) := by
  refine valueDraft_ofFields steps words.nonempty (fun part member => (words.words part member).1)
    fun part member => ?_
  have fields := (words.words part member).2
  have draft := @valueDraft_ofFields _ part.2 Prod.fst Prod.snd
    (fun field => writtenWord (isBare field.2) (wordText field.2).toList) layout 1 steps
    fields.nonempty (fun field listed => (fields.words field listed).1)
    (fun field listed => valueDraft_word (fields.words field listed).2 _ _)
  rw [map_eta] at draft
  exact draft

end Rows

theorem WordValue.readable {value : Value} (isWord : WordValue value) : value.Readable := by
  obtain ⟨truth, rfl⟩ | ⟨n, rfl⟩ | ⟨text, rfl⟩ := isWord.cases
  · exact .bool truth
  · exact .int n
  · exact .str text

theorem readable_partsValue (words : WordParts parts) : (partsValue parts).Readable := by
  refine .map (by rw [List.map_map]; exact words.distinct) fun field member => ?_
  obtain ⟨part, listed, rfl⟩ := List.mem_map.mp member
  have fields := (words.words part listed).2
  exact .map fields.distinct fun field held => (fields.words field held).2.readable

/-- What stands between braces is read as JSON, too. -/
theorem jsonRead_flowText (words : WordParts parts) :
    Json.read (String.ofList (flowText parts)) = .ok (partsValue parts) ∧
      '\r' ∉ flowText parts := by
  have drafted := @valueDraft_partsValue parts .document rfl words
  have read := @Json.read_of_valueDraft .document _ _ rfl drafted
  rwa [(readable_partsValue words).respelled_eq] at read

theorem exceedsDigits_partsValue (words : WordParts parts) :
    (partsValue parts).exceedsDigits = false := by
  have drafted := @valueDraft_partsValue parts .document rfl words
  have writable := (@Json.fault_valueDraft_iff .document 0 _).mp (congrArg Draft.fault drafted)
  have short := Json.short_respelled writable
  rwa [(readable_partsValue words).respelled_eq] at short

/-! ### Line breaks -/

theorem not_mem_intercalate {c : Char} {between : List Char} {pieces : List (List Char)}
    (apart : c ∉ between) (each : ∀ piece ∈ pieces, c ∉ piece) :
    c ∉ List.intercalate between pieces := by
  induction pieces with
  | nil => exact List.not_mem_nil
  | cons piece rest ih =>
      obtain ⟨first, later⟩ := List.forall_mem_cons.mp each
      cases rest with
      | nil => simpa using first
      | cons next rest =>
          rw [List.intercalate_cons_cons, List.mem_append, List.mem_append, not_or, not_or]
          exact ⟨⟨first, apart⟩, ih later⟩

theorem WordValue.carriage_not_mem {value : Value} (isWord : WordValue value) :
    '\r' ∉ (wordText value).toList :=
  fun member => absurd (isWord.isWord.made _ member) (by decide)

/-- The lines of a document of words end in one way. -/
theorem carriage_not_mem_blockText (words : WordParts parts) : '\r' ∉ blockText parts := by
  have fields (part : String × Fields) (member : part ∈ parts) : '\r' ∉ fieldsBelow part.2 := by
    have inner := @not_mem_intercalate '\r' ('\n' :: List.replicate bestIndent ' ')
      (part.2.map blockField) (by decide) fun piece listed => by
        obtain ⟨field, held, rfl⟩ := List.mem_map.mp listed
        obtain ⟨isName, value⟩ := (words.words part member).2.words field held
        have name : '\r' ∉ field.1.toList := isName.carriage_not_mem
        simp [blockField, name, value.carriage_not_mem]
    simpa [fieldsBelow, bestIndent] using inner
  have lines := @not_mem_intercalate '\r' ['\n'] (parts.map blockPart) (by decide)
    fun piece listed => by
      obtain ⟨part, held, rfl⟩ := List.mem_map.mp listed
      have name : '\r' ∉ part.1.toList := (words.words part held).1.carriage_not_mem
      simp [blockPart, name, fields part held]
  simpa [blockText] using lines

end Documents

end Yaml

end MemberOrder
