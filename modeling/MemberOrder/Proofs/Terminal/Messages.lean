import MemberOrder.Proofs.Outcome
import MemberOrder.Terminal.Screen

/-!
# Texts that can be shown

A text without an opening bracket has no marks, so it is shown in any manner, alone, as a message
(`Terminal.exists_message`) and in a table (`Terminal.exists_tableText`).
-/

namespace MemberOrder

namespace Terminal

/-- Whether a text has an opening bracket, with which marks begin. -/
def HasBracket (text : String) : Prop := '[' ∈ text.toList

instance (text : String) : Decidable (HasBracket text) := inferInstanceAs (Decidable (_ ∈ _))

/-- Whether no bracket of a text begins a tag. -/
def Untagged (text : List Char) : Prop :=
  ∀ before inside, text = before ++ '[' :: inside → tagBody? inside = none

theorem untagged_of_not_mem {text : List Char} (absent : '[' ∉ text) : Untagged text := by
  rintro before inside rfl
  exact absurd (List.mem_append_right _ List.mem_cons_self) absent

theorem untagged_cons {c : Char} {text : List Char} :
    Untagged (c :: text) ↔ (c = '[' → tagBody? text = none) ∧ Untagged text := by
  constructor
  · exact fun untagged => ⟨fun bracket => untagged [] text (by rw [bracket]; rfl),
      fun before inside same => untagged (c :: before) inside (congrArg (c :: ·) same)⟩
  · rintro ⟨first, others⟩ before inside same
    cases before with
    | nil =>
        obtain ⟨rfl, rfl⟩ := List.cons.inj same
        exact first rfl
    | cons d before => exact others before inside (List.cons.inj same).2

instance : (text : List Char) → Decidable (Untagged text)
  | [] => isTrue (untagged_of_not_mem List.not_mem_nil)
  | _ :: text =>
    have := instDecidableUntagged text
    decidable_of_iff' _ untagged_cons

section Pieces

variable {text body after : List Char} {fuel : Nat}

/-- The text after the backslashes in front of it. -/
theorem slashes_append_drop (text : List Char) :
    text.takeWhile (· == '\\') ++ text.drop (text.takeWhile (· == '\\')).length = text :=
  (List.prefix_iff_eq_append.mp (List.takeWhile_prefix _))

theorem piecesFrom_of_untagged (untagged : Untagged text) (enough : text.length ≤ fuel)
    (held : List Char) : piecesFrom fuel held text = [.text (held.reverse ++ text)] := by
  induction fuel generalizing text held with
  | zero => rw [piecesFrom]
  | succ fuel ih =>
      cases text with
      | nil => simp [piecesFrom]
      | cons c rest =>
          have plain := ih (untagged_cons.mp untagged |>.2)
            (Nat.le_of_succ_le_succ enough) (c :: held)
          have whole := slashes_append_drop (c :: rest)
          simp only [piecesFrom]
          split
          · next inside found =>
              rw [found] at whole
              rw [untagged _ inside whole.symm, plain]
              simp
          · rw [plain]
            simp

/-- A character that begins no tag is held back with those before it. -/
theorem piecesFrom_cons {c : Char} (plain : c ≠ '[' ∧ c ≠ '\\') (held rest : List Char) :
    piecesFrom (fuel + 1) held (c :: rest) = piecesFrom fuel (c :: held) rest := by
  simp [piecesFrom, plain.1, plain.2]

/-- A tag ends the text before it. -/
theorem piecesFrom_tag (begins : body.head?.any beginsTag)
    (inside : body.all fun c => c != ']' && c != '[') (held : List Char) :
    piecesFrom (fuel + 1) held ('[' :: (body ++ ']' :: after)) =
      .text held.reverse :: .text [] :: .tag (.ofBody body) :: piecesFrom fuel [] after := by
  cases body with
  | nil => cases begins
  | cons c rest =>
      have begun : beginsTag c = true := begins
      have taken : (c :: rest ++ ']' :: after).takeWhile (fun c => c != ']' && c != '[') =
          c :: rest := by
        rw [List.takeWhile_append_of_pos (List.all_eq_true.mp inside)]
        simp
      have found : tagBody? (c :: rest ++ ']' :: after) = some (c :: rest, after) := by
        rw [List.cons_append, tagBody?, if_pos begun, ← List.cons_append]
        simp only [taken]
        simp
      rw [List.cons_append] at found ⊢
      simp [piecesFrom, found]

end Pieces

section Unmarked

variable {text : List Char} (unmarked : '[' ∉ text)

include unmarked

theorem plainText_of_unmarked : plainText text = .ok (unescapeBrackets text) := by
  rw [plainText, pieces, piecesFrom_of_untagged (untagged_of_not_mem unmarked) (Nat.le_refl _)]
  simp [textOfPieces, Except.map]

theorem checkStyles_of_unmarked : checkStyles text = .ok () := by
  rw [checkStyles, parameterStyles, pieces,
    piecesFrom_of_untagged (untagged_of_not_mem unmarked) (Nat.le_refl _)]
  rfl

end Unmarked

section Tables

variable {table : Table}

theorem settles_shownText {text : String} (unmarked : ¬HasBracket text) :
    Settles (fun _ => True) (fun _ => False) (shownText text) := by
  rw [shownText, plainText_of_unmarked unmarked]
  exact .ok trivial

theorem settles_shownGrid {grid : List (List String)}
    (unmarked : ∀ row ∈ grid, ∀ cell ∈ row, ¬HasBracket cell) :
    Settles (fun _ => True) (fun _ => False) (shownGrid grid) := by
  have column (index : Nat) : Settles (fun _ => True) (fun _ => False)
      (grid.mapM fun row => shownText (row[index]?.getD "")) := by
    refine (settles_mapM fun row member => settles_shownText ?_).mono fun _ _ => trivial
    cases found : row[index]? with
    | none => decide
    | some cell => exact unmarked row member cell (List.mem_of_getElem? found)
  exact (settles_mapM fun index _ => column index).bind fun _ _ => .ok trivial

theorem hasBracket_of_mem_grid
    (cells : ∀ row ∈ table.columns :: table.rows, ∀ cell ∈ row, ¬HasBracket cell) :
    ∀ row ∈ table.grid, ∀ cell ∈ row, ¬HasBracket cell := by
  intro row member cell inside
  obtain ⟨given, listed, rfl⟩ := List.mem_map.mp member
  obtain own | filled := List.mem_append.mp inside
  · exact cells given listed cell own
  · rw [List.eq_of_mem_replicate filled]
    decide

theorem settles_markedTable (title : ¬HasBracket table.title)
    (cells : ∀ row ∈ table.columns :: table.rows, ∀ cell ∈ row, ¬HasBracket cell) :
    Settles (fun _ => True) (fun _ => False) (markedTable table) := by
  have styles : ∀ cell ∈ table.grid.flatten, checkStyles cell.toList = .ok () := fun cell member =>
    have ⟨row, listed, inside⟩ := List.mem_flatten.mp member
    checkStyles_of_unmarked (hasBracket_of_mem_grid cells row listed cell inside)
  have checked (given : List String) (all : ∀ cell ∈ given, checkStyles cell.toList = .ok ()) :
      given.forM (fun cell => checkStyles cell.toList) = .ok () := by
    induction given with
    | nil => rfl
    | cons cell rest ih =>
        change (checkStyles cell.toList >>= fun _ =>
          rest.forM fun cell => checkStyles cell.toList) = .ok ()
        rw [all cell List.mem_cons_self]
        exact ih fun other member => all other (List.mem_cons_of_mem _ member)
  have ending (title : Option (List Char)) (grid : Grid) :
      Settles (fun _ => True) (fun _ => False) (do
        table.grid.flatten.forM fun cell => checkStyles cell.toList
        return joinLines (framed screenWidth title table.width grid)) := by
    rw [checked _ styles]
    exact .ok trivial
  unfold markedTable
  split
  · exact .ok trivial
  · refine (settles_shownGrid (hasBracket_of_mem_grid cells)).bind fun grid _ => ?_
    split
    · exact ending none grid
    · refine (settles_shownText title).bind fun title _ => ?_
      rw [checkStyles_of_unmarked ‹_›]
      exact ending _ grid

/-- A table without opening brackets can be shown. -/
theorem exists_tableText (title : ¬HasBracket table.title)
    (cells : ∀ row ∈ table.columns :: table.rows, ∀ cell ∈ row, ¬HasBracket cell)
    (manner : Manner) : ∃ shown, tableText manner table = .ok shown := by
  cases manner with
  | plain => exact ⟨_, rfl⟩
  | marked =>
      have settled := settles_markedTable title cells
      cases shown : markedTable table with
      | ok text => exact ⟨text, shown⟩
      | error fault =>
          rw [shown] at settled
          exact settled.bad_of_error.elim

end Tables

section Messages

variable {text : String}

/-- A message with the marks that colour its sign. -/
def markedMessage (kind : MessageKind) (text : String) : String :=
  "[" ++ kind.color ++ "]" ++ kind.sign ++ "[/" ++ kind.color ++ "] " ++ text

theorem exists_sign (kind : MessageKind) :
    ∃ sign, sign ≠ '[' ∧ sign ≠ '\\' ∧ kind.sign.toList = [sign] := by
  cases kind
  · exact ⟨'✓', by decide, by decide, by decide⟩
  · exact ⟨'⚠', by decide, by decide, by decide⟩
  · exact ⟨'✗', by decide, by decide, by decide⟩
  · exact ⟨'ℹ', by decide, by decide, by decide⟩

/-- The marks of a message are those around its sign and those in its text. -/
theorem pieces_markedMessage (kind : MessageKind) (text : String) :
    ∃ fuel, (' ' :: text.toList).length ≤ fuel ∧ pieces (markedMessage kind text).toList =
      .text [] :: .text [] :: .tag ⟨kind.color, none⟩ :: .text kind.sign.toList :: .text [] ::
        .tag ⟨"/" ++ kind.color, none⟩ :: piecesFrom fuel [] (' ' :: text.toList) := by
  obtain ⟨sign, noBracket, noSlash, single⟩ := exists_sign kind
  have shape : (markedMessage kind text).toList = '[' :: (kind.color.toList ++ ']' :: sign ::
      '[' :: ('/' :: kind.color.toList ++ ']' :: ' ' :: text.toList)) := by
    simp [markedMessage, single]
  have opening : kind.color.toList.head?.any beginsTag ∧
      (kind.color.toList.all fun c => c != ']' && c != '[') ∧
      StyleTag.ofBody kind.color.toList = ⟨kind.color, none⟩ ∧
      StyleTag.ofBody ('/' :: kind.color.toList) = ⟨"/" ++ kind.color, none⟩ := by
    cases kind <;> decide
  obtain ⟨begins, inside, named, closed⟩ := opening
  have room : ∃ fuel, (markedMessage kind text).toList.length = fuel + 3 ∧
      (' ' :: text.toList).length ≤ fuel := by
    refine ⟨(markedMessage kind text).toList.length - 3, ?_, ?_⟩ <;> rw [shape] <;> simp <;> omega
  obtain ⟨fuel, size, enough⟩ := room
  refine ⟨fuel, enough, ?_⟩
  rw [pieces, size, shape, piecesFrom_tag begins inside, piecesFrom_cons ⟨noBracket, noSlash⟩,
    piecesFrom_tag rfl (by rw [List.all_cons, inside]; decide), named, closed, single]
  rfl

/-- The mark before a sign is closed by the one after it. -/
theorem textOfPieces_color (kind : MessageKind) (pieces : List Piece) :
    textOfPieces [] (.tag ⟨kind.color, none⟩ :: .text kind.sign.toList :: .text [] ::
      .tag ⟨"/" ++ kind.color, none⟩ :: pieces) =
        (textOfPieces [] pieces).map (unescapeBrackets kind.sign.toList ++ ·) := by
  have named : (styleName kind.color).toOption = some kind.color ∧
      (afterClosing (String.ofList (Text.trimChars kind.color.toList))
        [⟨kind.color, none⟩]).toOption = some [] ∧
      kind.color.toList.head?.all (· ≠ '/') := by
    cases kind <;> decide +kernel
  obtain ⟨same, closed, opens⟩ := named
  have slashed : ("/" ++ kind.color).toList = '/' :: kind.color.toList := by simp
  rw [textOfPieces]
  split
  · next name found => rw [found] at opens; cases opens
  · simp only [eq_ok_of_toOption same, textOfPieces, slashed, bind, Except.bind]
    rw [eq_ok_of_toOption closed]
    simp only
    cases textOfPieces [] pieces <;> rfl

/-- What a message shows are its sign and what its text shows. -/
theorem plainText_markedMessage (kind : MessageKind) (text : String) :
    ∃ fuel, (' ' :: text.toList).length ≤ fuel ∧ plainText (markedMessage kind text).toList =
      (textOfPieces [] (piecesFrom fuel [] (' ' :: text.toList))).map (kind.sign.toList ++ ·) := by
  obtain ⟨fuel, enough, marks⟩ := pieces_markedMessage kind text
  have sign : unescapeBrackets kind.sign.toList = kind.sign.toList := by cases kind <;> decide
  refine ⟨fuel, enough, ?_⟩
  rw [plainText, marks, textOfPieces, textOfPieces, textOfPieces_color, sign]
  cases textOfPieces [] (piecesFrom fuel [] (' ' :: text.toList)) <;> rfl

/-- Of an untagged text with its sign no style has a parameter. -/
theorem checkStyles_markedMessage (untagged : Untagged (' ' :: text.toList)) (kind : MessageKind) :
    checkStyles (markedMessage kind text).toList = .ok () := by
  obtain ⟨fuel, enough, marks⟩ := pieces_markedMessage kind text
  rw [checkStyles, parameterStyles, marks, piecesFrom_of_untagged untagged enough]
  simp [StyleTag.isAction]
  rfl

/-- An untagged message shows what the text after its sign shows. -/
theorem message_of_untagged (untagged : Untagged (' ' :: text.toList)) (kind : MessageKind) :
    message .marked kind text = .ok (joinLines (setText .free .fold screenWidth
      (withoutControls (kind.sign.toList ++ unescapeBrackets (' ' :: text.toList))))) := by
  obtain ⟨fuel, enough, plain⟩ := plainText_markedMessage kind text
  rw [piecesFrom_of_untagged untagged enough] at plain
  change (do
    let shown ← shownText (markedMessage kind text)
    checkStyles (markedMessage kind text).toList
    return joinLines (setText .free .fold screenWidth shown)) = _
  rw [shownText, plain, checkStyles_markedMessage untagged]
  simp [textOfPieces, Except.map]
  rfl

/-- A message without an opening bracket can be shown. -/
theorem exists_message (unmarked : ¬HasBracket text) (manner : Manner) (kind : MessageKind) :
    ∃ shown, message manner kind text = .ok shown := by
  cases manner with
  | plain => exact ⟨_, rfl⟩
  | marked =>
      have absent : '[' ∉ ' ' :: text.toList := fun member =>
        (List.mem_cons.mp member).elim (by decide) unmarked
      exact ⟨_, message_of_untagged (untagged_of_not_mem absent) kind⟩

end Messages

end Terminal

end MemberOrder
