import MemberOrder.Proofs.Terminal.Messages
import MemberOrder.Proofs.Terminal.Wrapping

/-!
# What messages show

In the plain manner a message shows every character of its text, but for blanks and for what a
terminal would act on. In the marked manner it shows the same but for the ends of lines if no
bracket of the text begins a tag or stands after a backslash, and only then
(`Terminal.message_sameContent_iff`).
-/

namespace MemberOrder

namespace Terminal

open Text

/-- Whether a character is shown as itself: it is no blank and no terminal acts on it. -/
def isSolid (c : Char) : Bool := !isBlank c && !isControl c

section Solid

variable {text line : List Char} {width : Nat}

theorem countP_of_filter {first second : List Char}
    (same : first.filter isSolid = second.filter isSolid) :
    first.countP isSolid = second.countP isSolid := by
  rw [List.countP_eq_length_filter, List.countP_eq_length_filter, same]

theorem countP_isSolid_of_blank (all : ∀ c ∈ line, isBlank c) : line.countP isSolid = 0 :=
  List.countP_eq_zero.mpr fun c member => by simp [isSolid, all c member]

theorem countP_trimEndChars (line : List Char) :
    (trimEndChars line).countP isSolid = line.countP isSolid := by
  obtain ⟨blanks, whole, all⟩ := exists_blanks line
  conv_rhs => rw [whole, List.countP_append, countP_isSolid_of_blank all, Nat.add_zero]

theorem filter_withoutControls (text : List Char) :
    (withoutControls text).filter isSolid = text.filter isSolid := by
  rw [withoutControls, List.filter_filter]
  refine List.filter_congr fun c _ => ?_
  cases control : isControl c <;> simp [isSolid, control]

theorem filter_expandTabsFrom (column : Nat) (pieces : List (List Char)) :
    (expandTabsFrom column pieces).filter isSolid = pieces.flatten.filter isSolid := by
  have space : isSolid ' ' = false := by decide
  fun_induction expandTabsFrom column pieces with
  | case1 => rfl
  | case2 => simp
  | case3 _ piece rest _ _ _ ih => simp [List.filter_append, space, ih]

theorem filter_piecesBetween (mark : Char) (blank : isBlank mark) (text : List Char) :
    (piecesBetween mark text).flatten.filter isSolid = text.filter isSolid := by
  rw [flatten_piecesBetween, List.filter_filter]
  refine List.filter_congr fun c _ => ?_
  by_cases same : c = mark
  · simp [same, isSolid, blank]
  · simp [same]

theorem filter_expandTabs (line : List Char) :
    (expandTabs line).filter isSolid = line.filter isSolid := by
  rw [expandTabs, filter_expandTabsFrom, filter_piecesBetween '\t' rfl]

theorem filter_joinLines (lines : List (List Char)) :
    (joinLines lines).toList.filter isSolid = lines.flatten.filter isSolid := by
  have feed : isSolid '\n' = false := by decide
  rw [joinLines, String.toList_ofList]
  induction lines with
  | nil => rfl
  | cons line rest ih => simp [List.filter_append, feed, ih]

/-- A text as it is has all that it shows. -/
theorem filter_freeText (text : String) :
    (freeText text).toList.filter isSolid = text.toList.filter isSolid := by
  rw [freeText, filter_joinLines, setFree, ← filter_withoutControls text.toList,
    ← filter_piecesBetween '\n' rfl (withoutControls text.toList)]
  induction piecesBetween '\n' (withoutControls text.toList) with
  | nil => rfl
  | cons piece rest ih => simp [List.filter_append, filter_expandTabs, ih]

end Solid

section Losses

variable {line : List Char} {width : Nat}

theorem countP_cutGraphemes_le (width : Nat) (graphemes : List Grapheme) :
    (cutGraphemes width graphemes).countP isSolid ≤
      (graphemes.flatMap Grapheme.chars).countP isSolid := by
  induction graphemes generalizing width with
  | nil => exact le_rfl
  | cons first rest ih =>
      rw [cutGraphemes]
      split
      · simpa [List.countP_append] using ih _
      · rw [countP_isSolid_of_blank fun c member => by rw [List.eq_of_mem_replicate member]; rfl]
        exact Nat.zero_le _

theorem countP_align_le (width : Nat) (line : List Char) :
    (align .free .fold width (trimExcess width line)).countP isSolid ≤ line.countP isSolid := by
  have fewer : (trimExcess width line).countP isSolid ≤ line.countP isSolid :=
    (List.take_sublist _ _).countP_le
  refine Nat.le_trans ?_ fewer
  rw [align, truncate]
  split
  · exact le_rfl
  · simp only [cut]
    split
    · exact Nat.zero_le _
    · exact (countP_cutGraphemes_le _ _).trans_eq (by rw [flatMap_graphemes])

theorem countP_flatten_map_le {lines : List (List Char)} {change : List Char → List Char}
    (each : ∀ line, (change line).countP isSolid ≤ line.countP isSolid) :
    (lines.map change).flatten.countP isSolid ≤ lines.flatten.countP isSolid := by
  induction lines with
  | nil => exact le_rfl
  | cons line rest ih =>
      simpa [List.countP_append] using Nat.add_le_add (each line) ih

/-- Setting a text in lines shows nothing that it does not have. -/
theorem countP_setText_le (width : Nat) (text : List Char) :
    (setText .free .fold width text).flatten.countP isSolid ≤ text.countP isSolid := by
  rw [← countP_of_filter (filter_piecesBetween '\n' rfl text), setText]
  induction piecesBetween '\n' text with
  | nil => exact le_rfl
  | cons line rest ih =>
      rw [List.flatMap_cons, List.flatten_append, List.flatten_cons, List.countP_append,
        List.countP_append]
      refine Nat.add_le_add ((countP_flatten_map_le (countP_align_le width)).trans_eq ?_) ih
      rw [flatten_fill, flatten_lineWords, List.nil_append,
        countP_of_filter (filter_expandTabs line)]

end Losses

/-- Whether no bracket of a text stands after a backslash. -/
def Unescaped (text : List Char) : Prop :=
  ∀ before inside, text = before ++ '[' :: inside → before.getLast? ≠ some '\\'

/-- Whether no bracket of a text begins a tag or stands after a backslash. -/
def Unmarked (text : List Char) : Prop := Untagged text ∧ Unescaped text

section Marks

variable {text held : List Char} {opened : List StyleTag} {shown : List Char} {pieces : List Piece}

theorem unescaped_cons {c : Char} : Unescaped (c :: text) ↔
    (c = '\\' → text.head? ≠ some '[') ∧ Unescaped text := by
  constructor
  · intro unescaped
    refine ⟨fun slash isBracket => ?_, fun before inside same isSlash => ?_⟩
    · obtain ⟨inside, rfl⟩ := List.head?_eq_some_iff.mp isBracket
      exact unescaped [c] inside rfl (by rw [slash]; rfl)
    · refine unescaped (c :: before) inside (congrArg (c :: ·) same) ?_
      rw [List.getLast?_cons, isSlash]
      rfl
  · rintro ⟨first, others⟩ before inside same isSlash
    cases before with
    | nil => cases isSlash
    | cons d before =>
        obtain ⟨rfl, rfl⟩ := List.cons.inj same
        cases before with
        | nil => exact first (Option.some.inj isSlash) rfl
        | cons e more => exact others (e :: more) inside rfl (by simpa using isSlash)

instance : (text : List Char) → Decidable (Unescaped text)
  | [] => isTrue fun before inside same => by simp at same
  | _ :: text =>
    have := instDecidableUnescaped text
    decidable_of_iff' _ unescaped_cons

instance (text : List Char) : Decidable (Unmarked text) := inferInstanceAs (Decidable (_ ∧ _))

/-- Taking the backslashes before brackets away loses something, unless there are none. -/
theorem unescapeBrackets_cases (text : List Char) :
    (unescapeBrackets text = text ∧ Unescaped text) ∨
      (unescapeBrackets text).countP isSolid < text.countP isSolid := by
  have marks : isSolid '\\' ∧ isSolid '[' := by decide
  fun_induction unescapeBrackets text with
  | case1 => exact .inl ⟨rfl, fun before inside same => by simp at same⟩
  | case2 rest ih =>
      have fewer : (unescapeBrackets rest).countP isSolid ≤ rest.countP isSolid :=
        ih.elim (fun same => by rw [same.1]) le_of_lt
      right
      rw [List.countP_cons_of_pos marks.1, List.countP_cons_of_pos marks.2,
        List.countP_cons_of_pos marks.2]
      omega
  | case3 c rest other ih =>
      obtain ⟨same, unescaped⟩ | less := ih
      · refine .inl ⟨congrArg (c :: ·) same,
          unescaped_cons.mpr ⟨fun slash isBracket => ?_, unescaped⟩⟩
        obtain ⟨inside, rfl⟩ := List.head?_eq_some_iff.mp isBracket
        exact other inside slash rfl
      · right
        rw [List.countP_cons, List.countP_cons]
        exact Nat.add_lt_add_right less _

theorem countP_unescapeBrackets_le (text : List Char) :
    (unescapeBrackets text).countP isSolid ≤ text.countP isSolid := by
  obtain ⟨same, -⟩ | less := unescapeBrackets_cases text
  · rw [same]
  · exact less.le

theorem unescapeBrackets_of_unescaped (unescaped : Unescaped text) :
    unescapeBrackets text = text := by
  fun_induction unescapeBrackets text with
  | case1 => rfl
  | case2 rest ih => exact absurd rfl ((unescaped_cons.mp unescaped).1 rfl)
  | case3 c rest other ih => rw [ih (unescaped_cons.mp unescaped).2]

theorem textOfPieces_text (chars : List Char) :
    textOfPieces opened (.text chars :: pieces) = .ok shown ↔
      ∃ later, textOfPieces opened pieces = .ok later ∧
        shown = unescapeBrackets chars ++ later := by
  rw [textOfPieces]
  cases textOfPieces opened pieces <;> simp [Except.map, eq_comm]

theorem textOfPieces_tag {tag : StyleTag}
    (done : textOfPieces opened (.tag tag :: pieces) = .ok shown) :
    ∃ opened, textOfPieces opened pieces = .ok shown := by
  rw [textOfPieces] at done
  split at done
  · obtain ⟨closed, -, later⟩ := bind_eq_ok_iff.mp done
    exact ⟨closed, later⟩
  · obtain ⟨name, -, later⟩ := bind_eq_ok_iff.mp done
    exact ⟨_, later⟩

theorem tagBody?_eq {inside body after : List Char}
    (found : tagBody? inside = some (body, after)) :
    inside = body ++ ']' :: after := by
  cases inside with
  | nil => cases found
  | cons c rest =>
      simp only [tagBody?] at found
      split at found
      · split at found
        · next later closing =>
            obtain ⟨rfl, rfl⟩ := Prod.mk.inj (Option.some.inj found)
            rw [← closing]
            exact List.prefix_iff_eq_append.mp (List.takeWhile_prefix _) |>.symm
        · cases found
      · cases found

/-- A tag that stands after backslashes loses itself or one of them. -/
theorem countP_tag_lt {slashes body after : List Char} (all : ∀ c ∈ slashes, c = '\\')
    (goesOn : ∀ {opened later}, textOfPieces opened pieces = .ok later →
      later.countP isSolid ≤ after.countP isSolid)
    (done : textOfPieces opened (.text held.reverse ::
      .text (List.replicate (slashes.length / 2) '\\') ::
        if slashes.length % 2 = 1 then .text ('[' :: body ++ [']']) :: pieces
        else .tag (.ofBody body) :: pieces) = .ok shown) :
    shown.countP isSolid <
      (held.reverse ++ (slashes ++ '[' :: (body ++ ']' :: after))).countP isSolid := by
  have marks : isSolid '\\' ∧ isSolid '[' ∧ isSolid ']' := by decide
  obtain ⟨_, ofHalves, rfl⟩ := (textOfPieces_text _).mp done
  obtain ⟨later, ofTag, rfl⟩ := (textOfPieces_text _).mp ofHalves
  have before := countP_unescapeBrackets_le held.reverse
  have halves : (unescapeBrackets (List.replicate (slashes.length / 2) '\\')).countP isSolid ≤
      slashes.length / 2 :=
    (countP_unescapeBrackets_le _).trans (List.countP_le_length.trans_eq List.length_replicate)
  have allSlashes : slashes.countP isSolid = slashes.length :=
    List.countP_eq_length.mpr fun c member => all c member ▸ marks.1
  have tag : ('[' :: body ++ [']']).countP isSolid = body.countP isSolid + 2 := by
    simp [List.countP_append, marks]
  have total : (held.reverse ++ (slashes ++ '[' :: (body ++ ']' :: after))).countP isSolid =
      held.reverse.countP isSolid + slashes.length + (body.countP isSolid + 2) +
        after.countP isSolid := by
    simp only [List.countP_append, List.countP_cons, allSlashes, marks, if_true]
    omega
  rw [total, List.countP_append, List.countP_append]
  split at ofTag
  · next odd =>
      obtain ⟨last, ofRest, rfl⟩ := (textOfPieces_text _).mp ofTag
      have shownTag := countP_unescapeBrackets_le ('[' :: body ++ [']'])
      have rest := goesOn ofRest
      rw [tag] at shownTag
      rw [List.countP_append]
      omega
  · obtain ⟨opened, ofRest⟩ := textOfPieces_tag ofTag
    have rest := goesOn ofRest
    omega

/-- A text without tags shows no more than it has, and a tag loses something of the text around
it. -/
theorem textOfPieces_cases {fuel : Nat} (enough : text.length ≤ fuel)
    (done : textOfPieces opened (piecesFrom fuel held text) = .ok shown) :
    (Untagged text ∧ shown = unescapeBrackets (held.reverse ++ text)) ∨
      shown.countP isSolid < (held.reverse ++ text).countP isSolid := by
  induction fuel generalizing opened held text shown with
  | zero =>
      obtain rfl := List.length_eq_zero_iff.mp (Nat.le_zero.mp enough)
      obtain ⟨later, none, rfl⟩ := (textOfPieces_text _).mp done
      cases none
      exact .inl ⟨untagged_of_not_mem List.not_mem_nil, by simp⟩
  | succ fuel ih =>
      cases text with
      | nil =>
          obtain ⟨later, none, rfl⟩ := (textOfPieces_text _).mp done
          cases none
          exact .inl ⟨untagged_of_not_mem List.not_mem_nil, by simp⟩
      | cons c rest =>
          have whole := slashes_append_drop (c :: rest)
          have held_cons : (c :: held).reverse ++ rest = held.reverse ++ c :: rest := by simp
          -- A character that begins no tag is held back.
          have goesOn (done : textOfPieces opened (piecesFrom fuel (c :: held) rest) = .ok shown)
              (first : c = '[' → tagBody? rest = none) :
              (Untagged (c :: rest) ∧ shown = unescapeBrackets (held.reverse ++ c :: rest)) ∨
                shown.countP isSolid < (held.reverse ++ c :: rest).countP isSolid := by
            rw [← held_cons]
            refine (ih (Nat.le_of_succ_le_succ enough) done).imp_left fun ⟨untagged, same⟩ => ?_
            exact ⟨untagged_cons.mpr ⟨first, untagged⟩, same⟩
          simp only [piecesFrom] at done
          split at done
          · next inside found =>
              split at done
              · next body after tagged =>
                  rw [found, tagBody?_eq tagged] at whole
                  have size := congrArg List.length whole
                  simp only [List.length_append, List.length_cons] at size enough
                  right
                  rw [← whole]
                  refine countP_tag_lt (fun d member => ?_) (fun {_ later} goesOn => ?_) done
                  · simpa using List.mem_takeWhile_imp member
                  · obtain ⟨-, same⟩ | less := ih (by omega) goesOn
                    · rw [same]
                      exact countP_unescapeBrackets_le after
                    · exact less.le
              · next untagged =>
                  refine goesOn done fun bracket => ?_
                  subst bracket
                  obtain rfl : rest = inside := (List.cons.inj found).2
                  exact untagged
          · next none =>
              refine goesOn done fun bracket => ?_
              subst bracket
              exact absurd rfl (none rest)

end Marks

/-- Whether a text shows what another one does, of which it may have lines broken into several. -/
def SameContent (shown plain : String) : Prop :=
  ∃ groups lines, shown = joinLines groups.flatten ∧ plain = joinLines lines ∧
    (∀ line ∈ lines, '\n' ∉ line) ∧ List.Forall₂ Wraps groups lines

section Messages

variable {text shown plain : String} {kind : MessageKind}

theorem Wraps.countP_eq {lines : List (List Char)} {line : List Char} (wraps : Wraps lines line) :
    lines.flatten.countP isSolid = line.countP isSolid := by
  obtain ⟨parts, rfl, same⟩ := wraps
  have ends (lines : List (List Char)) :
      (lines.map trimEndChars).flatten.countP isSolid = lines.flatten.countP isSolid := by
    induction lines with
    | nil => rfl
    | cons line rest ih => simp [List.countP_append, countP_trimEndChars, ih]
  rw [← ends lines, same, ends]

theorem SameContent.countP_eq (same : SameContent shown plain) :
    shown.toList.countP isSolid = plain.toList.countP isSolid := by
  obtain ⟨groups, lines, rfl, rfl, -, wraps⟩ := same
  rw [countP_of_filter (filter_joinLines _), countP_of_filter (filter_joinLines _)]
  induction wraps with
  | nil => rfl
  | cons first _ ih =>
      rw [List.flatten_cons, List.flatten_append, List.countP_append, List.flatten_cons,
        List.countP_append, first.countP_eq, ih]

/-- A marked message that shows as much as the plain one has no marks. -/
theorem unmarked_of_sameContent (done : message .marked kind text = .ok shown)
    (same : SameContent shown (freeText (kind.sign ++ " " ++ text))) : Unmarked text.toList := by
  obtain ⟨fuel, enough, marked⟩ := plainText_markedMessage kind text
  obtain ⟨chars, isShown, rest⟩ := bind_eq_ok_iff.mp done
  obtain ⟨-, -, ends⟩ := bind_eq_ok_iff.mp rest
  cases ends
  change (plainText (markedMessage kind text).toList).map withoutControls = .ok chars at isShown
  cases found : textOfPieces [] (piecesFrom fuel [] (' ' :: text.toList)) with
  | error fault =>
      rw [marked, found] at isShown
      cases isShown
  | ok later =>
      rw [marked, found] at isShown
      obtain rfl : withoutControls (kind.sign.toList ++ later) = chars := Except.ok.inj isShown
      have counts := same.countP_eq
      have gains := countP_setText_le screenWidth (withoutControls (kind.sign.toList ++ later))
      have total : (kind.sign ++ " " ++ text).toList = kind.sign.toList ++ ' ' :: text.toList := by
        simp
      rw [countP_of_filter (filter_joinLines _), countP_of_filter (filter_freeText _), total,
        List.countP_append] at counts
      rw [countP_of_filter (filter_withoutControls _), List.countP_append] at gains
      -- Whatever is lost of the text is missing on the screen.
      have losses := textOfPieces_cases enough found
      rw [List.reverse_nil, List.nil_append] at losses
      obtain ⟨untagged, rfl⟩ | less := losses
      · obtain ⟨-, unescaped⟩ | less := unescapeBrackets_cases (' ' :: text.toList)
        · exact ⟨(untagged_cons.mp untagged).2, (unescaped_cons.mp unescaped).2⟩
        · omega
      · omega

theorem exists_solid_sign (kind : MessageKind) :
    ∃ sign, isBlank sign = false ∧ isControl sign = false ∧ sign ≠ joiner ∧
      kind.sign.toList = [sign] := by
  cases kind
  · exact ⟨'✓', by decide⟩
  · exact ⟨'⚠', by decide⟩
  · exact ⟨'✗', by decide⟩
  · exact ⟨'ℹ', by decide⟩

/-- With its sign a text can be set as well. -/
theorem settable_message (kind : MessageKind) (settable : Settable (withoutControls text.toList)) :
    Settable (withoutControls (kind.sign ++ " " ++ text).toList) := by
  obtain ⟨sign, solid, shown, notJoiner, single⟩ := exists_solid_sign kind
  have shape : withoutControls (kind.sign ++ " " ++ text).toList =
      sign :: ' ' :: withoutControls text.toList := by
    have space : isControl ' ' = false := by decide
    simp [withoutControls, single, shown, space]
  rw [shape]
  constructor
  · intro c member blank notFeed notTab
    rcases List.mem_cons.mp member with rfl | member
    · rw [solid] at blank
      cases blank
    · rcases List.mem_cons.mp member with rfl | member
      · decide
      · exact settable.cells c member blank notFeed notTab
  · refine List.isChain_cons_cons.mpr ⟨⟨fun _ => notJoiner, fun _ => by decide⟩, ?_⟩
    exact List.isChain_cons_cons.mpr ⟨⟨fun _ => by decide, fun _ => notJoiner⟩, settable.joins⟩

/-- **What a message shows.** In the plain manner a message shows its sign and every character of
its text but for blanks and what a terminal would act on. In the marked manner it shows the same,
with its lines broken, exactly if no bracket of the text begins a tag or stands after a
backslash. -/
theorem message_sameContent_iff (kind : MessageKind)
    (settable : Settable (withoutControls text.toList)) :
    ∃ plain, message .plain kind text = .ok plain ∧
      plain.toList.filter isSolid = (kind.sign ++ " " ++ text).toList.filter isSolid ∧
      ((∃ shown, message .marked kind text = .ok shown ∧ SameContent shown plain) ↔
        Unmarked text.toList) := by
  refine ⟨_, rfl, filter_freeText _, fun ⟨shown, done, same⟩ => unmarked_of_sameContent done same,
    fun ⟨untagged, unescaped⟩ => ?_⟩
  have spaced : Untagged (' ' :: text.toList) := untagged_cons.mpr ⟨nofun, untagged⟩
  have plain : unescapeBrackets (' ' :: text.toList) = ' ' :: text.toList :=
    unescapeBrackets_of_unescaped (unescaped_cons.mpr ⟨nofun, unescaped⟩)
  obtain ⟨groups, set, wraps⟩ :=
    setText_wraps screenWidth (by decide) (settable_message kind settable)
  refine ⟨_, message_of_untagged spaced kind, groups, _, ?_, rfl, fun line listed member => ?_,
    wraps⟩
  · rw [plain, ← set]
    simp
  · exact (mem_setFree listed member).elim (by decide) fun inside => inside.2.1 rfl

/-- The place of a fault has brackets, but begins no tag. -/
theorem message_sameContent_document :
    ∃ shown plain, message .plain .error "document[0]: Missing tag" = .ok plain ∧
      message .marked .error "document[0]: Missing tag" = .ok shown ∧ SameContent shown plain := by
  have settable : Settable (withoutControls "document[0]: Missing tag".toList) := by
    decide +kernel
  obtain ⟨plain, isPlain, -, same⟩ := message_sameContent_iff .error settable
  obtain ⟨shown, isShown, content⟩ := same.mpr (by decide +kernel)
  exact ⟨shown, plain, isPlain, isShown, content⟩

/-- A name with a tag is shown without it, and one with a closing tag cannot be shown. -/
theorem message_drops_tag :
    message .plain .error "a[b].json: not found" = .ok "✗ a[b].json: not found\n" ∧
      message .marked .error "a[b].json: not found" = .ok "✗ a.json: not found\n" ∧
      ¬ SameContent "✗ a.json: not found\n" "✗ a[b].json: not found\n" ∧
      message .marked .error "a[/b].json: not found" = .error .closing := by
  refine ⟨by decide +kernel, by decide +kernel, fun same => ?_, by decide +kernel⟩
  exact absurd same.countP_eq (by decide +kernel)

end Messages

end Terminal

end MemberOrder
