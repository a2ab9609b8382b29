import MemberOrder.Proofs.Json.Decimals
import MemberOrder.Proofs.Json.Readable

/-!
# Writing and reading JSON texts

JSON spells a value in its own way: keys become texts, pairs lists, and shared parts copies. What is
written of a value, whatever its indentation, is read as the value in that spelling
(`Json.read_of_write`), which is the value itself if a JSON text can hold it
(`Value.Readable.respelled_eq`).
-/

namespace MemberOrder

namespace Value

/-- The text that stands for a key in a JSON text, if there is one. -/
def keyName (key : Value) : String := (Json.keyText key).toOption.getD ""

/-- Fields with the last value of each name at the place where the name is met first. -/
def unite (before : Entries) (fields : List (String × Value)) : Entries :=
  fields.foldl (fun united field => united.put (.str field.1) field.2) before

mutual

/-- A value as a JSON text spells it. -/
def respelled : Value → Value
  | .float x => .float (if x.isNaN then .nan else x)
  | .list _ items => .list none (respelledItems items)
  | .pair first second => .list none [first.respelled, second.respelled]
  | .map _ entries => .map none (unite [] (respelledFields entries))
  | value => value

def respelledItems : List Value → List Value
  | [] => []
  | item :: rest => item.respelled :: respelledItems rest

def respelledFields : Entries → List (String × Value)
  | [] => []
  | (key, value) :: rest => (key.keyName, value.respelled) :: respelledFields rest

end

theorem respelledItems_eq_map (items : List Value) :
    respelledItems items = items.map respelled := by
  induction items with
  | nil => rfl
  | cons item rest ih => rw [respelledItems, ih]; rfl

theorem respelledFields_eq_map (entries : Entries) :
    respelledFields entries = entries.map fun entry => (entry.1.keyName, entry.2.respelled) := by
  induction entries with
  | nil => rfl
  | cons entry rest ih => rw [respelledFields, ih]; rfl

section Unite

variable {name : String} {value : Value} {fields before : List (String × Value)}

theorem putField_of_fresh (fresh : name ∉ before.map Prod.fst) :
    putField name value before = before ++ [(name, value)] := by
  induction before with
  | nil => rfl
  | cons field rest ih =>
      rw [List.map_cons, List.mem_cons, not_or] at fresh
      rw [putField, if_neg (Ne.symm fresh.1), ih fresh.2]
      rfl

theorem unite_of_nodup (distinct : ((before ++ fields).map Prod.fst).Nodup) :
    unite (Entries.ofFields before) fields = Entries.ofFields (before ++ fields) := by
  induction fields generalizing before with
  | nil => rw [List.append_nil]; rfl
  | cons field rest ih =>
      have fresh : field.1 ∉ before.map Prod.fst := by
        rw [List.map_append] at distinct
        exact fun member =>
          (List.nodup_append.mp distinct).2.2 _ member _ List.mem_cons_self rfl
      rw [List.append_cons] at distinct ⊢
      rw [← ih distinct, ← putField_of_fresh fresh, ← put_ofFields]
      rfl

end Unite

/-- What a JSON text can hold is spelled as it is. -/
theorem Readable.respelled_eq {value : Value} (readable : value.Readable) :
    value.respelled = value := by
  induction readable with
  | null | bool | int | str => simp [respelled]
  | @float x canonical =>
      rw [respelled]
      split
      · next noNumber => rw [canonical noNumber]
      · rfl
  | list all ih =>
      rw [respelled, respelledItems_eq_map, List.map_congr_left ih, List.map_id']
  | @map fields distinct all ih =>
      have same : respelledFields (Entries.ofFields fields) = fields := by
        rw [respelledFields_eq_map, Entries.ofFields, List.map_map]
        conv_rhs => rw [← List.map_id fields]
        exact List.map_congr_left fun field member => Prod.ext rfl (ih field member)
      rw [respelled, same]
      exact congrArg _ (@unite_of_nodup fields [] distinct)

end Value

namespace Json

section Drafts

variable {first second draft : Draft} {text before : List Char}

theorem Draft.append_eq_done_iff :
    first ++ second = .done text ↔
      ∃ start more, first = .done start ∧ second = .done more ∧ text = start ++ more := by
  obtain ⟨start, _ | fault⟩ := first
  · obtain ⟨more, ended⟩ := second
    constructor
    · intro same
      cases same
      exact ⟨start, more, rfl, rfl, rfl⟩
    · rintro ⟨_, _, started, ended, rfl⟩
      cases started
      cases ended
      rfl
  · constructor
    · intro same
      cases same
    · rintro ⟨_, _, impossible, -⟩
      cases impossible

theorem Draft.ofExcept_eq_done_iff {made : Except WriteFault String} :
    Draft.ofExcept made = .done text ↔ ∃ given, made = .ok given ∧ text = given.toList := by
  constructor
  · intro same
    cases made with
    | error fault => cases same
    | ok given =>
        cases same
        exact ⟨given, rfl, rfl⟩
  · rintro ⟨given, rfl, rfl⟩
    rfl

theorem itemDraft_eq_done_iff {item : Value} :
    itemDraft before item draft = .done text ↔
      ∃ own, draft = .done own ∧ text = before ++ own := by
  have usual : Draft.done before ++ draft = .done text ↔
      ∃ own, draft = .done own ∧ text = before ++ own := by
    rw [Draft.append_eq_done_iff]
    constructor
    · rintro ⟨_, own, same, made, rfl⟩
      cases same
      exact ⟨own, made, rfl⟩
    · rintro ⟨own, made, rfl⟩
      exact ⟨before, own, rfl, made, rfl⟩
  unfold itemDraft
  split
  · split
    · next failed =>
        constructor
        · rintro rfl
          cases failed
        · rintro ⟨own, rfl, -⟩
          cases failed
    · exact usual
  · exact usual

theorem keyDraft_eq_done_iff {layout : Layout} {key : Value} :
    keyDraft layout before key = .done text ↔
      ∃ name, key.keyName = name ∧ keyText key = .ok name ∧
        text = before ++ stringText layout.ascii name ++ [':', ' '] := by
  unfold keyDraft Value.keyName
  cases keyText key with
  | error fault =>
      constructor
      · intro same
        cases same
      · rintro ⟨_, -, impossible, -⟩
        cases impossible
  | ok name =>
      constructor
      · intro same
        cases same
        exact ⟨name, rfl, rfl, rfl⟩
      · rintro ⟨_, -, same, rfl⟩
        cases same
        rfl

end Drafts

section Layouts

variable {layout : Layout} {level : Nat} {blanks rest : List Char}

/-- Whether a text is what may stand between items. -/
def Gap (blanks : List Char) : Prop := ∀ c ∈ blanks, c = '\n' ∨ c = ' '

theorem Gap.isSpace (gap : Gap blanks) : ∀ c ∈ blanks, Cursor.isSpace c := by
  intro c member
  rcases gap c member with rfl | rfl <;> rfl

theorem Gap.not_mem (gap : Gap blanks) : '\r' ∉ blanks :=
  fun member => absurd (gap _ member) (by decide)

theorem Gap.ends (gap : Gap blanks) (ends : Ends rest) : Ends (blanks ++ rest) := by
  cases blanks with
  | nil => exact ends
  | cons c more =>
      intro other same
      cases same
      rcases gap c List.mem_cons_self with rfl | rfl <;> decide

theorem gap_breakAt (layout : Layout) (level : Nat) : Gap (layout.breakAt level) := by
  intro c member
  unfold Layout.breakAt at member
  split at member
  · rcases List.mem_cons.mp member with rfl | blank
    · exact .inl rfl
    · exact .inr (List.mem_replicate.mp blank).2
  · cases member

theorem exists_separator_eq (layout : Layout) (level : Nat) :
    ∃ blanks, layout.separator level = ',' :: blanks ∧ Gap blanks := by
  unfold Layout.separator
  split
  · exact ⟨_, rfl, gap_breakAt layout level⟩
  · exact ⟨[' '], rfl, by simp [Gap]⟩

end Layouts

section Strings

theorem not_mem_stringText (s : String) : '\r' ∉ stringText false s := by
  rw [stringText]
  simp [not_mem_escapeChar]

/-- The inside of a string is read up to its quote. -/
theorem gives_readString_stringText (rest : List Char) (s : String) (start fuel offset : Nat)
    (enough : (stringText false s).length ≤ fuel) :
    Gives (readString start fuel [] (Cursor.advance ⟨stringText false s ++ rest, offset⟩ 1))
      s.toList rest := by
  have inside : (stringText false s ++ rest).drop 1 =
      s.toList.flatMap (escapeChar false) ++ '"' :: rest := by
    simp [stringText]
  rw [Cursor.advance, inside]
  refine gives_readString s.toList fuel _ ?_
  simp only [stringText, List.length_append, List.length_cons] at enough
  omega

theorem reads_stringText (s : String) : Reads (stringText false s) (.str s) where
  starts := ⟨'"', _, rfl, by decide⟩
  oneKindOfBreak := not_mem_stringText s
  given fuel offset rest _ enough := by
    cases fuel with
    | zero => cases enough
    | succ fuel =>
        have inside := gives_readString_stringText rest s offset fuel offset (by omega)
        apply inside.bind
        intro later
        simp only [String.ofList_toList]
        exact gives_ok rfl

end Strings

section Items

variable {layout : Layout} {level : Nat} {text more blanks after : List Char}

/-- Whether what a value is written as is read as the value in its spelling. -/
def Returns (layout : Layout) (value : Value) : Prop :=
  ∀ level text, valueDraft layout level value = .done text → Reads text value.respelled

theorem Reads.stops {value : Value} (reads : Reads text value) (rest : List Char) :
    ∀ c ∈ (text ++ rest).head?, Cursor.isSpace c = false := by
  obtain ⟨c, more, rfl, noSpace, -⟩ := reads.starts
  intro other same
  cases same
  exact noSpace

/-- Items are read up to the bracket. -/
theorem gives_readItems {rest : List Value} (tail : itemDrafts layout level rest = .done more)
    (returns : ∀ item ∈ rest, Returns layout item) {item : Value} (head : Reads text item)
    (gap : Gap blanks) (fuel offset : Nat) (enough : 2 * (text.length + more.length) + 1 < fuel) :
    Gives (readItems fuel ⟨text ++ (more ++ (blanks ++ ']' :: after)), offset⟩)
      (item :: Value.respelledItems rest) after := by
  -- Every item takes one from the fuel, and with the comma before it more than one from the text.
  induction rest generalizing item text more fuel offset with
  | nil =>
      cases tail
      cases fuel with
      | zero => cases enough
      | succ fuel =>
          have ends : Ends (blanks ++ ']' :: after) := gap.ends (by simp [Ends])
          apply (head.given fuel offset _ ends (by omega)).bind
          intro later
          have skipped := Cursor.skipSpace_append (']' :: after) later gap.isSpace
            (by simp [Cursor.isSpace])
          simp only [skipped]
          exact gives_ok rfl
  | cons second others ih =>
      obtain ⟨_, further, drafted, later, rfl⟩ := Draft.append_eq_done_iff.mp tail
      obtain ⟨own, made, rfl⟩ := itemDraft_eq_done_iff.mp drafted
      obtain ⟨space, separator, gapSpace⟩ := exists_separator_eq layout level
      have next := returns second List.mem_cons_self _ _ made
      rw [separator] at enough ⊢
      simp only [List.cons_append, List.length_append, List.length_cons] at enough
      simp only [List.cons_append, List.append_assoc]
      cases fuel with
      | zero => cases enough
      | succ fuel =>
          have ends : Ends (',' :: (space ++ (own ++ (further ++ (blanks ++ ']' :: after))))) := by
            simp [Ends]
          apply (head.given fuel offset _ ends (by omega)).bind
          intro place
          have comma := Cursor.skipSpace_of_stops (',' :: (space ++ (own ++ (further ++
            (blanks ++ ']' :: after))))) place (by simp [Cursor.isSpace])
          have skipped := Cursor.skipSpace_append _ (place + 1) gapSpace.isSpace
            (next.stops (further ++ (blanks ++ ']' :: after)))
          simp only [comma]
          refine Gives.bind (?_ : Gives _ (Value.respelledItems (second :: others)) after)
            fun _ => gives_ok rfl
          refine (congrArg (Gives · (Value.respelledItems (second :: others)) after) ?_).mpr
            (ih later (fun item member => returns item (List.mem_cons_of_mem _ member)) next fuel
              (place + 1 + space.length) (by omega))
          exact congrArg (readItems fuel) skipped

end Items

section Entries

variable {layout : Layout} {level : Nat} {name : String} {value : Value}
  {text more blanks rest after : List Char} {entries : Entries}

/-- What is left of a map after the value of an entry. -/
def afterEntry (fuel : Nat) (entries : Entries) (c : Cursor) : Except Fault (Entries × Cursor) :=
  let after := c.skipSpace
  match after.rest with
  | '\x7d' :: _ => .ok (entries, after.advance 1)
  | ',' :: _ => readEntries fuel entries (after.advance 1).skipSpace
  | _ => after.fail .comma

theorem exists_readEntries (entries : Entries) (name : String) (head : Reads text value)
    (ends : Ends rest) (fuel offset : Nat)
    (longName : (stringText false name).length ≤ fuel) (long : 2 * text.length < fuel) :
    ∃ place, readEntries (fuel + 1) entries
        ⟨stringText false name ++ ':' :: ' ' :: (text ++ rest), offset⟩ =
      afterEntry fuel (entries.put (.str name) value) ⟨rest, place⟩ := by
  obtain ⟨place, readName⟩ := gives_readString_stringText (':' :: ' ' :: (text ++ rest)) name offset
    fuel offset longName
  obtain ⟨last, readValue⟩ := head.given fuel (place + 2) rest ends long
  have colon := Cursor.skipSpace_of_stops (':' :: ' ' :: (text ++ rest)) place
    (by simp [Cursor.isSpace])
  have blank := @Cursor.skipSpace_append [' '] (text ++ rest) (place + 1)
    (by simp [Cursor.isSpace]) (head.stops rest)
  refine ⟨last, ?_⟩
  change (readString offset fuel [] (Cursor.advance ⟨stringText false name ++ _, offset⟩ 1) >>= _) =
    _
  have advanced : (Cursor.mk (':' :: ' ' :: (text ++ rest)) place).advance 1 =
    ⟨[' '] ++ (text ++ rest), place + 1⟩ := rfl
  rw [readName]
  simp only [bind, Except.bind, colon, advanced, blank, List.length_singleton, readValue,
    String.ofList_toList]
  rfl

theorem gives_afterEntry (gap : Gap blanks) (fuel place : Nat) :
    Gives (afterEntry fuel entries ⟨blanks ++ '\x7d' :: after, place⟩) entries after := by
  have skipped := Cursor.skipSpace_append ('\x7d' :: after) place gap.isSpace
    (by simp [Cursor.isSpace])
  rw [afterEntry, skipped]
  exact gives_ok rfl

theorem afterEntry_of_comma (gap : Gap blanks) (stops : ∀ c ∈ rest.head?, Cursor.isSpace c = false)
    (fuel place : Nat) :
    afterEntry fuel entries ⟨',' :: (blanks ++ rest), place⟩ =
      readEntries fuel entries ⟨rest, place + 1 + blanks.length⟩ := by
  have comma := Cursor.skipSpace_of_stops (',' :: (blanks ++ rest)) place (by simp [Cursor.isSpace])
  have advanced : (Cursor.mk (',' :: (blanks ++ rest)) place).advance 1 =
    ⟨blanks ++ rest, place + 1⟩ := rfl
  rw [afterEntry, comma]
  simp only [advanced, Cursor.skipSpace_append rest (place + 1) gap.isSpace stops]

/-- Entries are read up to the brace, and put in their order. -/
theorem gives_readEntries (plain : layout.ascii = false) {written : Entries}
    (tail : entryDrafts layout level written = .done more)
    (returns : ∀ entry ∈ written, Returns layout entry.2) (head : Reads text value)
    (gap : Gap blanks) (fuel offset : Nat)
    (enough : 2 * ((stringText false name).length + text.length + more.length) + 1 < fuel) :
    Gives (readEntries fuel entries
        ⟨stringText false name ++ ':' :: ' ' :: (text ++ (more ++ (blanks ++ '\x7d' :: after))),
          offset⟩)
      (Value.unite entries ((name, value) :: Value.respelledFields written)) after := by
  -- The entries that were read are put among those before; each step puts the next one.
  induction written generalizing name value text more entries fuel offset with
  | nil =>
      cases tail
      cases fuel with
      | zero => cases enough
      | succ fuel =>
          have ends : Ends (blanks ++ '\x7d' :: after) := gap.ends (by simp [Ends])
          obtain ⟨place, step⟩ := exists_readEntries entries name head ends fuel offset (by omega)
            (by omega)
          rw [List.nil_append, step]
          exact gives_afterEntry gap fuel place
  | cons entry others ih =>
      obtain ⟨key, given⟩ := entry
      obtain ⟨_, further, drafted, later, rfl⟩ := Draft.append_eq_done_iff.mp tail
      obtain ⟨_, own, keyed, made, rfl⟩ := Draft.append_eq_done_iff.mp drafted
      obtain ⟨label, named, -, rfl⟩ := keyDraft_eq_done_iff.mp keyed
      obtain ⟨space, separator, gapSpace⟩ := exists_separator_eq layout level
      have next : Reads own given.respelled := returns _ List.mem_cons_self _ _ made
      rw [plain, separator] at enough ⊢
      simp only [List.cons_append, List.append_assoc, List.length_append, List.length_cons,
        List.nil_append] at enough ⊢
      cases fuel with
      | zero => cases enough
      | succ fuel =>
          have ends : Ends (',' :: (space ++ (stringText false label ++ ':' :: ' ' :: (own ++
              (further ++ (blanks ++ '\x7d' :: after)))))) := by simp [Ends]
          obtain ⟨place, step⟩ := exists_readEntries entries name head ends fuel offset (by omega)
            (by omega)
          have stops := (reads_stringText label).stops
            (':' :: ' ' :: (own ++ (further ++ (blanks ++ '\x7d' :: after))))
          rw [step, afterEntry_of_comma gapSpace stops, Value.respelledFields, named]
          exact ih later (fun entry member => returns entry (List.mem_cons_of_mem _ member)) next
            fuel (place + 1 + space.length) (by omega)

end Entries

section Values

variable {layout : Layout} {value : Value} {level : Nat} {text more blanks rest after : List Char}

theorem not_mem_itemDrafts {items : List Value}
    (returns : ∀ item ∈ items, Returns layout item)
    (written : itemDrafts layout level items = .done more) : '\r' ∉ more := by
  induction items generalizing more with
  | nil =>
      cases written
      exact List.not_mem_nil
  | cons item rest ih =>
      obtain ⟨_, further, drafted, later, rfl⟩ := Draft.append_eq_done_iff.mp written
      obtain ⟨own, made, rfl⟩ := itemDraft_eq_done_iff.mp drafted
      obtain ⟨space, separator, gap⟩ := exists_separator_eq layout level
      have head := (returns item List.mem_cons_self _ _ made).oneKindOfBreak
      have tail := ih (fun item member => returns item (List.mem_cons_of_mem _ member)) later
      simp [separator, gap.not_mem, head, tail]

theorem not_mem_entryDrafts (plain : layout.ascii = false) {entries : Entries}
    (returns : ∀ entry ∈ entries, Returns layout entry.2)
    (written : entryDrafts layout level entries = .done more) : '\r' ∉ more := by
  induction entries generalizing more with
  | nil =>
      cases written
      exact List.not_mem_nil
  | cons entry rest ih =>
      obtain ⟨_, further, drafted, later, rfl⟩ := Draft.append_eq_done_iff.mp written
      obtain ⟨_, own, keyed, made, rfl⟩ := Draft.append_eq_done_iff.mp drafted
      obtain ⟨name, -, -, rfl⟩ := keyDraft_eq_done_iff.mp keyed
      obtain ⟨space, separator, gap⟩ := exists_separator_eq layout level
      have head := (returns entry List.mem_cons_self _ _ made).oneKindOfBreak
      have tail := ih (fun entry member => returns entry (List.mem_cons_of_mem _ member)) later
      simp [plain, separator, gap.not_mem, not_mem_stringText, head, tail]

/-- A list is read as its items, wherever the first of them stands. -/
theorem readValue_bracket {item : Value} (gap : Gap blanks) (head : Reads text item)
    (fuel offset : Nat) :
    readValue (fuel + 1) ⟨'[' :: (blanks ++ (text ++ rest)), offset⟩ =
      readItems fuel ⟨text ++ rest, offset + 1 + blanks.length⟩ >>= fun (items, after) =>
        .ok (.list none items, after) := by
  have inside : ((Cursor.mk ('[' :: (blanks ++ (text ++ rest))) offset).advance 1).skipSpace =
      ⟨text ++ rest, offset + 1 + blanks.length⟩ :=
    Cursor.skipSpace_append _ (offset + 1) gap.isSpace (head.stops rest)
  obtain ⟨c, more, rfl, -, noBracket, -⟩ := head.starts
  rw [readValue]
  simp only [inside]
  split
  · next same => exact (noBracket (List.cons.inj same).1).elim
  · rfl

theorem readValue_brace {name : String} (gap : Gap blanks) (fuel offset : Nat) :
    readValue (fuel + 1) ⟨'\x7b' :: (blanks ++ (stringText false name ++ rest)), offset⟩ =
      readEntries fuel [] ⟨stringText false name ++ rest, offset + 1 + blanks.length⟩ >>=
        fun (entries, after) => .ok (.map none entries, after) := by
  have inside : ((Cursor.mk ('\x7b' :: (blanks ++ (stringText false name ++ rest))) offset).advance
      1).skipSpace = ⟨stringText false name ++ rest, offset + 1 + blanks.length⟩ :=
    Cursor.skipSpace_append _ (offset + 1) gap.isSpace ((reads_stringText name).stops rest)
  rw [readValue]
  simp only [inside]
  rfl

theorem returns_list {mark : Mark} {items : List Value}
    (returns : ∀ item ∈ items, Returns layout item) : Returns layout (.list mark items) := by
  intro level text written
  rw [Value.respelled]
  cases items with
  | nil =>
      cases written
      refine ⟨⟨'[', _, rfl, by decide⟩, by decide, fun fuel offset rest _ enough => ?_⟩
      cases fuel with
      | zero => cases enough
      | succ fuel => exact gives_ok rfl
  | cons item items =>
      obtain ⟨_, _, drafted, closing, rfl⟩ := Draft.append_eq_done_iff.mp written
      obtain ⟨_, more, first, tail, rfl⟩ := Draft.append_eq_done_iff.mp drafted
      obtain ⟨own, made, rfl⟩ := itemDraft_eq_done_iff.mp first
      cases closing
      have head := returns item List.mem_cons_self _ _ made
      have later := fun item member => returns item (List.mem_cons_of_mem _ member)
      have gap := gap_breakAt layout
      refine ⟨⟨'[', _, rfl, by decide⟩, ?_, fun fuel offset rest _ enough => ?_⟩
      · simp [(gap _).not_mem, head.oneKindOfBreak, not_mem_itemDrafts later tail]
      · simp only [List.cons_append, List.append_assoc, List.length_cons, List.length_append,
          List.nil_append, List.length_nil] at enough ⊢
        cases fuel with
        | zero => cases enough
        | succ fuel =>
            rw [readValue_bracket (gap _) head]
            exact (gives_readItems tail later head (gap _) fuel _ (by omega)).bind
              fun _ => gives_ok rfl

theorem valueDraft_pair (level : Nat) (first second : Value) :
    valueDraft layout level (.pair first second) =
      valueDraft layout level (.list none [first, second]) := by
  have whole (draft : Draft) : draft ++ Draft.done [] = draft := by
    obtain ⟨text, _ | fault⟩ := draft
    · exact congrArg (Draft.mk · none) (List.append_nil text)
    · rfl
  rw [valueDraft, valueDraft, itemDrafts, itemDrafts, whole]

theorem returns_map (plain : layout.ascii = false) {mark : Mark} {entries : Entries}
    (returns : ∀ entry ∈ entries, Returns layout entry.2) :
    Returns layout (.map mark entries) := by
  intro level text written
  rw [Value.respelled]
  cases entries with
  | nil =>
      cases written
      refine ⟨⟨'\x7b', _, rfl, by decide⟩, by decide, fun fuel offset rest _ enough => ?_⟩
      cases fuel with
      | zero => cases enough
      | succ fuel => exact gives_ok rfl
  | cons entry entries =>
      obtain ⟨key, value⟩ := entry
      obtain ⟨_, _, unclosed, closing, rfl⟩ := Draft.append_eq_done_iff.mp written
      obtain ⟨_, more, first, tail, rfl⟩ := Draft.append_eq_done_iff.mp unclosed
      obtain ⟨_, own, front, made, rfl⟩ := Draft.append_eq_done_iff.mp first
      obtain ⟨_, _, opening, keyed, rfl⟩ := Draft.append_eq_done_iff.mp front
      obtain ⟨name, named, -, rfl⟩ := keyDraft_eq_done_iff.mp keyed
      cases closing
      cases opening
      have head : Reads own value.respelled := returns _ List.mem_cons_self _ _ made
      have later := fun entry member => returns entry (List.mem_cons_of_mem _ member)
      have gap := gap_breakAt layout
      refine ⟨⟨'\x7b', _, rfl, by decide⟩, ?_, fun fuel offset rest _ enough => ?_⟩
      · simp [plain, (gap _).not_mem, not_mem_stringText, head.oneKindOfBreak,
          not_mem_entryDrafts plain later tail]
      · simp only [plain, List.cons_append, List.append_assoc, List.length_cons,
          List.length_append, List.nil_append, List.length_nil] at enough ⊢
        cases fuel with
        | zero => cases enough
        | succ fuel =>
            rw [readValue_brace (gap _), Value.respelledFields, named]
            exact (gives_readEntries plain tail later head (gap _) fuel _ (by omega)).bind
              fun _ => gives_ok rfl

theorem returns_float (x : Number.Binary64) : Returns layout (.float x) := by
  intro level text written
  cases written
  rw [Value.respelled]
  by_cases noNumber : x.isNaN
  · have same : x.text .named = Number.Binary64.nan.text .named := by
      rw [Number.Binary64.text, if_pos noNumber]
      rfl
    rw [if_pos noNumber, same]
    exact reads_float fun _ => rfl
  · rw [if_neg noNumber]
    exact reads_float fun found => absurd found noNumber

mutual

/-- A value is read in its spelling from what it is written as. -/
theorem returns_respelled (plain : layout.ascii = false) : (value : Value) → Returns layout value
  | .list _ items => returns_list (returns_items plain items)
  | .map _ entries => returns_map plain (returns_entries plain entries)
  | .pair first second => by
      have both : ∀ item ∈ [first, second], Returns layout item :=
        List.forall_mem_cons.mpr ⟨returns_respelled plain first,
          List.forall_mem_singleton.mpr (returns_respelled plain second)⟩
      intro level text written
      rw [valueDraft_pair] at written
      exact @returns_list layout none _ both level text written
  | .float x => returns_float x
  | .null => fun _ _ written => by
      cases written
      exact @reads_word "null" _ (by simp [words, Value.respelled])
  | .bool false => fun _ _ written => by
      cases written
      exact @reads_word "false" _ (by simp [words, Value.respelled])
  | .bool true => fun _ _ written => by
      cases written
      exact @reads_word "true" _ (by simp [words, Value.respelled])
  | .int n => fun _ _ written => by
      obtain ⟨given, made, rfl⟩ := Draft.ofExcept_eq_done_iff.mp written
      simpa only [Value.respelled] using reads_wholeText made
  | .str s => fun _ _ written => by
      cases written
      simpa only [plain, Value.respelled] using reads_stringText s
  | .back _ _ | .bytes _ | .date _ _ | .moment _ _ | .set _ _ => fun _ _ written => by
      cases written

theorem returns_items (plain : layout.ascii = false) :
    (items : List Value) → ∀ item ∈ items, Returns layout item
  | [] => List.forall_mem_nil _
  | item :: rest =>
      List.forall_mem_cons.mpr ⟨returns_respelled plain item, returns_items plain rest⟩

theorem returns_entries (plain : layout.ascii = false) :
    (entries : Entries) → ∀ entry ∈ entries, Returns layout entry.2
  | [] => List.forall_mem_nil _
  | (_, value) :: rest =>
      List.forall_mem_cons.mpr ⟨returns_respelled plain value, returns_entries plain rest⟩

end

theorem valueDraft_of_write {text : String} (written : write layout value = .ok text) :
    valueDraft layout 0 value = .done text.toList := by
  unfold write at written
  simp only at written
  split at written
  · next none =>
      cases written
      rw [String.toList_ofList, Draft.done, ← none]
  · cases written

/-- The text of a map begins with its brace. -/
theorem brace_mem_of_write {mark : Mark} {entries : Entries} {text : String}
    (written : write layout (.map mark entries) = .ok text) : '\x7b' ∈ text.toList := by
  have drafted := valueDraft_of_write written
  cases entries with
  | nil =>
      rw [← show ['\x7b', '\x7d'] = text.toList from congrArg Draft.text drafted]
      exact List.mem_cons_self
  | cons entry rest =>
      obtain ⟨_, _, unclosed, -, whole⟩ := Draft.append_eq_done_iff.mp drafted
      obtain ⟨_, _, first, -, rfl⟩ := Draft.append_eq_done_iff.mp unclosed
      obtain ⟨_, _, front, -, rfl⟩ := Draft.append_eq_done_iff.mp first
      obtain ⟨_, _, opening, -, rfl⟩ := Draft.append_eq_done_iff.mp front
      cases opening
      simp [whole]

/-- A text that is read as a value is a document of the value, also with blanks behind it. -/
theorem Reads.read {text rest : List Char} {value : Value} (reads : Reads text value)
    (ends : Ends rest) (blank : ∀ place, (⟨rest, place⟩ : Cursor).skipSpace.rest.isEmpty) :
    Json.read (String.ofList (text ++ rest)) = .ok value := by
  obtain ⟨place, given⟩ := reads.given (2 * (text ++ rest).length + 2) 0 rest ends
    (by rw [List.length_append]; omega)
  have start := Cursor.skipSpace_of_stops _ 0 (reads.stops rest)
  obtain ⟨c, more, listed, -, -, noMark⟩ := reads.starts
  unfold Json.read
  simp only [String.toList_ofList, start, given]
  rw [listed]
  split
  · next same => exact (noMark (List.cons.inj same).1).elim
  · exact if_pos (blank place)

/-- **Writing and reading.** A value is read in its spelling from what it is written as and a line
break. The text has line breaks of one kind only. -/
theorem read_of_write {text : String} (plain : layout.ascii = false)
    (written : write layout value = .ok text) :
    read (text ++ "\n") = .ok value.respelled ∧ '\r' ∉ (text ++ "\n").toList := by
  have reads := returns_respelled plain value 0 _ (valueDraft_of_write written)
  have whole : (text ++ "\n").toList = text.toList ++ ['\n'] := String.toList_append
  refine ⟨?_, ?_⟩
  · have broken := @Reads.read text.toList ['\n'] _ reads (by simp [Ends]) fun _ => rfl
    rwa [← whole, String.ofList_toList] at broken
  · rw [whole, List.mem_append, not_or]
    exact ⟨reads.oneKindOfBreak, by decide⟩

/-- What is written of a value is read as its spelling. -/
theorem read_of_valueDraft {text : List Char} (plain : layout.ascii = false)
    (draft : valueDraft layout 0 value = .done text) :
    read (String.ofList text) = .ok value.respelled ∧ '\r' ∉ text := by
  have reads := returns_respelled plain value 0 _ draft
  refine ⟨?_, reads.oneKindOfBreak⟩
  have whole := @Reads.read text [] _ reads (by simp [Ends]) fun _ => rfl
  rwa [List.append_nil] at whole

end Values

end Json

end MemberOrder
