import Mathlib.Data.List.TakeWhile
import MemberOrder.Proofs.Json.LongRows
import MemberOrder.Yaml.Token

/-!
# Why cutting a text into tokens fails

Whatever reads a part of a text goes on within the text. If it fails for more than the rules of the
format, the text shows why: it holds an escape of a code point above the last one, or a number of a
directive with more digits than a number may have. A scalar without quotes does not end with a line
feed (`Yaml.tokensOf_tokens`).
-/

namespace MemberOrder

namespace Yaml

/-- An escape by code point in a text that names one above the last. -/
structure FarEscape (text digits : List Char) : Prop where
  within : '\\' :: 'U' :: digits <:+: text
  eight : digits.length = 8
  hexadecimal : ∀ c ∈ digits, isHexDigit c
  beyond : 0x110000 ≤ hexValue digits

/-- Whether a text shows why reading it fails. -/
def ReadFault.Shows (text : List Char) : ReadFault → Prop
  | .malformed => True
  | .codePoint code => ∃ digits, FarEscape text digits ∧ hexValue digits = code
  | .tooManyDigits count => ∃ row, LongRow text row ∧ row.length = count

section Cursors

variable {c : Cursor} {text : List Char}

theorem Cursor.rest_step (c : Cursor) : c.step.rest = c.rest.tail := by
  unfold step
  split
  · next empty => rw [empty]; rfl
  · next first more listed =>
      rw [listed]
      split <;> rfl

theorem Cursor.rest_forward (c : Cursor) (n : Nat) : (c.forward n).rest = c.rest.drop n := by
  induction n generalizing c with
  | zero => rfl
  | succ n ih => rw [forward, ih, rest_step, List.drop_tail]

theorem suffix_step (within : c.rest <:+ text) : c.step.rest <:+ text := by
  rw [Cursor.rest_step]
  exact (List.tail_suffix _).trans within

theorem suffix_forward (within : c.rest <:+ text) (n : Nat) : (c.forward n).rest <:+ text := by
  rw [Cursor.rest_forward]
  exact (List.drop_suffix _ _).trans within

theorem suffix_skip (within : c.rest <:+ text) (test : Char → Bool) :
    (c.skip test).rest <:+ text :=
  suffix_forward within _

theorem suffix_skipComment (within : c.rest <:+ text) : c.skipComment.rest <:+ text := by
  unfold Cursor.skipComment
  split
  · exact suffix_skip within _
  · exact within

theorem suffix_lineBreak? (within : c.rest <:+ text) {ch : Char} {after : Cursor}
    (found : c.lineBreak? = some (ch, after)) : after.rest <:+ text := by
  unfold Cursor.lineBreak? at found
  split at found
  · cases found
    exact suffix_forward within 2
  · split at found
    · cases found
      exact suffix_step within
    · split at found
      · cases found
        exact suffix_step within
      · cases found
  · cases found

end Cursors

section Reading

variable {α β : Type} {text : List Char} {good : α → Prop} {good' : β → Prop} {c : Cursor}

/-- Whether a reading stays within a text, gives something of one kind and fails as the text
shows. -/
def Stays (text : List Char) (good : α → Prop) : Except ReadFault (α × Cursor) → Prop :=
  Settles (fun result => good result.1 ∧ result.2.rest <:+ text) (ReadFault.Shows text)

theorem Stays.bind {first : Except ReadFault (α × Cursor)}
    {next : α × Cursor → Except ReadFault (β × Cursor)} (starts : Stays text good first)
    (continues : ∀ value after, good value → after.rest <:+ text →
      Stays text good' (next (value, after))) : Stays text good' (first >>= next) :=
  Settles.bind starts fun result held => continues result.1 result.2 held.1 held.2

/-- A reading that may give anything. -/
abbrev StaysWithin (text : List Char) : Except ReadFault (α × Cursor) → Prop :=
  Stays text fun _ => True

theorem settles_finishLine (within : c.rest <:+ text) :
    Settles (fun after => after.rest <:+ text) (ReadFault.Shows text) c.finishLine := by
  have later : c.skipSpaces.skipComment.rest <:+ text :=
    suffix_skipComment (suffix_skip within _)
  unfold Cursor.finishLine
  simp only
  split
  · cases found : c.skipSpaces.skipComment.lineBreak? with
    | none => exact .ok later
    | some pair => exact .ok (suffix_lineBreak? later found)
  · exact .error trivial

/-! ### Scalars -/

theorem staysWithin_quotedBreaks (fuel : Nat) (breaks : List Char) (within : c.rest <:+ text) :
    StaysWithin text (quotedBreaks fuel breaks c) := by
  induction fuel generalizing breaks c with
  | zero => exact .ok ⟨trivial, within⟩
  | succ fuel ih =>
      unfold quotedBreaks
      split
      · exact .error trivial
      · have later := suffix_skip within fun ch => ch == ' ' || ch == '\t'
        simp only
        split
        · next found => exact ih _ (suffix_lineBreak? later found)
        · exact .ok ⟨trivial, later⟩

theorem hexDigitValue_lt {c : Char} (hexadecimal : isHexDigit c) : hexDigitValue c < 16 := by
  simp only [isHexDigit, Char.isDigit, Bool.or_eq_true, Bool.and_eq_true, decide_eq_true_eq,
    ge_iff_le, Char.le_def, UInt32.le_iff_toNat_le] at hexadecimal
  unfold hexDigitValue Char.isDigit
  simp only [Bool.and_eq_true, decide_eq_true_eq, ge_iff_le, Char.le_def, UInt32.le_iff_toNat_le]
  simp only [Char.toNat] at *
  have : '0'.val.toNat = 48 ∧ '9'.val.toNat = 57 ∧ 'a'.val.toNat = 97 ∧ 'f'.val.toNat = 102 ∧
      'A'.val.toNat = 65 ∧ 'F'.val.toNat = 70 := by decide
  split
  · omega
  · split <;> omega

theorem hexValue_lt {digits : List Char} (all : ∀ c ∈ digits, isHexDigit c) :
    hexValue digits < 16 ^ digits.length := by
  induction digits using List.reverseRecOn with
  | nil => decide
  | append_singleton init last ih =>
      have small := hexDigitValue_lt (all last (by simp))
      have before := ih fun c member => all c (by simp [member])
      rw [hexValue, List.foldl_append, List.length_append, List.length_singleton, Nat.pow_succ]
      change hexValue init * 16 + hexDigitValue last < _
      omega

/-- Only an escape of eight digits can name a code point above the last one. -/
theorem shows_codePoint {ch : Char} {count : Nat} {digits : List Char}
    (counted : escapeDigits? ch = some count) (within : '\\' :: ch :: digits <:+: text)
    (enough : digits.length = count) (hexadecimal : ∀ c ∈ digits, isHexDigit c)
    (beyond : 0x110000 ≤ hexValue digits) :
    (ReadFault.codePoint (hexValue digits)).Shows text := by
  have bounded := hexValue_lt hexadecimal
  rw [enough] at bounded
  unfold escapeDigits? at counted
  split at counted
  · cases counted
    omega
  · cases counted
    omega
  · cases counted
    exact ⟨digits, ⟨within, enough, hexadecimal, beyond⟩, rfl⟩
  · cases counted

theorem staysWithin_readEscape (within : '\\' :: c.rest <:+ text) :
    StaysWithin text (readEscape c) := by
  have inside : c.rest <:+ text := (List.suffix_cons _ _).trans within
  unfold readEscape
  split
  · exact .ok ⟨trivial, suffix_step inside⟩
  · next count _ counted =>
      simp only
      split
      · next digits =>
          obtain ⟨enough, hexadecimal⟩ := digits
          split
          · exact .ok ⟨trivial, suffix_forward (suffix_step inside) _⟩
          · next beyond =>
              have started : c.rest = c.peek :: c.step.rest := by
                cases listed : c.rest with
                | nil => simp [Cursor.peek, listed, escapeDigits?] at counted
                | cons ch more => simp [Cursor.peek, Cursor.rest_step, listed]
              refine .error (shows_codePoint counted (List.IsInfix.trans ?_ within.isInfix) enough
                (by simpa using hexadecimal) (Nat.not_lt.mp beyond))
              rw [started]
              exact (List.prefix_append ('\\' :: c.peek :: c.step.rest.take count)
                (c.step.rest.drop count)).isInfix.trans (by simp)
      · exact .error trivial
  · next found => exact staysWithin_quotedBreaks _ _ (suffix_lineBreak? inside found)
  · exact .error trivial

theorem staysWithin_quotedRun (double : Bool) (fuel : Nat) (within : c.rest <:+ text) :
    StaysWithin text (quotedRun double fuel c) := by
  induction fuel generalizing c with
  | zero => exact .ok ⟨trivial, within⟩
  | succ fuel ih =>
      unfold quotedRun
      generalize (if double = true then '"' else '\'') = quote
      split
      · exact .ok ⟨trivial, within⟩
      · next ch more listed =>
          split
          · exact (ih (suffix_forward within 2)).bind fun _ _ _ later => .ok ⟨trivial, later⟩
          · split
            · next escaped =>
                have backslash : ch = '\\' := by simpa using (Bool.and_eq_true_iff.mp escaped).2
                have started : '\\' :: c.step.rest <:+ text := by
                  rw [Cursor.rest_step, listed, List.tail_cons, ← backslash, ← listed]
                  exact within
                exact (staysWithin_readEscape started).bind fun _ _ _ next =>
                  (ih next).bind fun _ _ _ later => .ok ⟨trivial, later⟩
            · split
              · exact .ok ⟨trivial, within⟩
              · exact (ih (suffix_step within)).bind fun _ _ _ later => .ok ⟨trivial, later⟩

theorem staysWithin_quotedGap (within : c.rest <:+ text) : StaysWithin text (quotedGap c) := by
  have later := suffix_forward within (c.run fun ch => ch == ' ' || ch == '\t').length
  unfold quotedGap
  simp only
  split
  · next found =>
      exact (staysWithin_quotedBreaks _ _ (suffix_lineBreak? later found)).bind
        fun _ _ _ ended => .ok ⟨trivial, ended⟩
  · split
    · exact .error trivial
    · exact .ok ⟨trivial, later⟩

theorem staysWithin_quotedRest (double : Bool) (fuel : Nat) (read : List Char)
    (within : c.rest <:+ text) : StaysWithin text (quotedRest double fuel read c) := by
  induction fuel generalizing read c with
  | zero => exact .error trivial
  | succ fuel ih =>
      rw [quotedRest]
      generalize (if double = true then '"' else '\'') = quote
      refine (staysWithin_quotedRun double _ within).bind fun run after _ later => ?_
      simp only
      split
      · exact .ok ⟨trivial, suffix_step later⟩
      · exact (staysWithin_quotedGap later).bind fun gap last _ ended => ih _ ended

theorem staysWithin_readQuoted (double : Bool) (within : c.rest <:+ text) :
    StaysWithin text (readQuoted double c) :=
  staysWithin_quotedRest double _ _ (suffix_step within)

theorem staysWithin_readIncrement (within : c.rest <:+ text) :
    StaysWithin text (readIncrement c) := by
  unfold readIncrement
  split
  · split
    · exact .error trivial
    · exact .ok ⟨trivial, suffix_step within⟩
  · exact .ok ⟨trivial, within⟩

theorem suffix_leadingBreaks (fuel : Nat) (breaks : List Char) (widest : Nat)
    (within : c.rest <:+ text) : (leadingBreaks fuel breaks widest c).2.2.rest <:+ text := by
  induction fuel generalizing breaks widest c with
  | zero => exact within
  | succ fuel ih =>
      unfold leadingBreaks
      split
      · exact ih _ _ (suffix_step within)
      · split
        · next found => exact ih _ _ (suffix_lineBreak? within found)
        · exact within

theorem suffix_blockBreaks (indent fuel : Nat) (breaks : List Char) (within : c.rest <:+ text) :
    (blockBreaks indent fuel breaks c).2.rest <:+ text := by
  induction fuel generalizing breaks c with
  | zero => exact within
  | succ fuel ih =>
      have later : (skipToColumn indent c).rest <:+ text := suffix_forward within _
      unfold blockBreaks
      simp only
      split
      · next found => exact ih _ (suffix_lineBreak? later found)
      · exact later

theorem suffix_blockLines (folded : Bool) (indent fuel : Nat) (read breaks : List Char)
    (within : c.rest <:+ text) :
    (blockLines folded indent fuel read breaks c).2.2.2.rest <:+ text := by
  induction fuel generalizing read breaks c with
  | zero => exact within
  | succ fuel ih =>
      have afterLine := suffix_forward within (c.run fun ch => !isLineEnd ch).length
      unfold blockLines
      simp only
      split
      · next found =>
          have later := suffix_lineBreak? afterLine found
          dsimp only
          split
          · exact ih _ _ (suffix_blockBreaks _ _ _ later)
          · exact suffix_blockBreaks _ _ _ later
      · dsimp only
        split
        · exact ih _ _ (suffix_blockBreaks _ _ _ afterLine)
        · exact suffix_blockBreaks _ _ _ afterLine

/-- The lines of a block are read if there are any. -/
theorem suffix_laterLines {folded : Bool} {indent fuel : Nat} {read breaks : List Char}
    (some : Prop) [Decidable some] (within : c.rest <:+ text) :
    (if some then blockLines folded indent fuel read breaks c
      else ([], [], breaks, c)).2.2.2.rest <:+ text := by
  split
  · exact suffix_blockLines _ _ _ _ _ within
  · exact within

theorem settles_readBlockHeader (within : c.rest <:+ text) :
    Settles (fun result => result.2.2.rest <:+ text) (ReadFault.Shows text)
      (readBlockHeader c) := by
  have finish (chomping : Chomping) (increment : Option Nat) {after : Cursor}
      (later : after.rest <:+ text) :
      Settles (fun result => result.2.2.rest <:+ text) (ReadFault.Shows text)
        (if isGapNoTab after.peek then after.finishLine >>= fun last =>
          (pure (chomping, increment, last) : Except _ _) else throw .malformed) := by
    split
    · exact (settles_finishLine later).bind fun _ ended => .ok ended
    · exact .error trivial
  unfold readBlockHeader
  simp only
  split
  · exact Settles.bind (staysWithin_readIncrement (suffix_step within)) fun _ held =>
      finish _ _ held.2
  · refine Settles.bind (staysWithin_readIncrement within) fun _ held => ?_
    split
    · exact finish _ _ (suffix_step held.2)
    · exact finish _ _ held.2

theorem staysWithin_readBlock (folded : Bool) (outer : Int) (within : c.rest <:+ text) :
    StaysWithin text (readBlock folded outer c) := by
  unfold readBlock
  refine Settles.bind (settles_readBlockHeader (suffix_step within)) fun result later => ?_
  obtain ⟨chomping, increment, after⟩ := result
  refine .ok ⟨trivial, ?_⟩
  cases increment with
  | none => exact suffix_laterLines _ (suffix_leadingBreaks _ _ _ later)
  | some increment => exact suffix_laterLines _ (suffix_blockBreaks _ _ _ later)

/-- Whether a text does not end with a line feed. -/
def Unbroken (text : List Char) : Prop := text.getLast? ≠ some '\n'

theorem isGap_of_mem_plainRun (inFlow : Bool) {rest : List Char} {ch : Char}
    (member : ch ∈ rest.take (plainRun inFlow rest)) : isGap ch = false := by
  induction rest with
  | nil => cases member
  | cons first more ih =>
      rw [plainRun] at member
      split at member
      · cases member
      · next goesOn =>
          rw [List.take_succ_cons, List.mem_cons] at member
          obtain rfl | later := member
          · simp only [endsPlainRun, Bool.not_eq_true, Bool.or_eq_false_iff] at goesOn
            exact goesOn.1.1
          · exact ih later

/-- A run of a plain scalar ends with no line feed. -/
theorem unbroken_append_plainRun (inFlow : Bool) (before : List Char) {rest : List Char}
    (some : plainRun inFlow rest ≠ 0) :
    Unbroken (before ++ rest.take (plainRun inFlow rest)) := by
  intro broken
  obtain ⟨run, same⟩ : ∃ run, run = rest.take (plainRun inFlow rest) := ⟨_, rfl⟩
  have nonempty : run ≠ [] := by
    rw [same]
    intro empty
    cases rest with
    | nil => exact some rfl
    | cons first more => simp_all [List.take_eq_nil_iff]
  rw [← same, List.getLast?_append_of_ne_nil _ nonempty] at broken
  have gap := isGap_of_mem_plainRun inFlow (same ▸ List.mem_of_getLast? broken)
  cases gap

theorem suffix_plainBreaks (fuel : Nat) (breaks : List Char) (within : c.rest <:+ text) :
    (plainBreaks fuel breaks c).2.rest <:+ text := by
  induction fuel generalizing breaks c with
  | zero => exact within
  | succ fuel ih =>
      unfold plainBreaks
      split
      · exact ih _ (suffix_step within)
      · split
        · exact within
        · next found =>
            have later := suffix_lineBreak? within found
            split
            · exact later
            · exact ih _ later

theorem suffix_plainGap (within : c.rest <:+ text) : (plainGap c).2.1.rest <:+ text := by
  have later := suffix_forward within (c.run (· == ' ')).length
  unfold plainGap
  simp only
  split
  · exact later
  · next found =>
      have next := suffix_lineBreak? later found
      have ended := fun fuel breaks => @suffix_plainBreaks _ _ fuel breaks next
      split
      · exact next
      · split
        · next same => exact (congrArg (·.2.rest) same).symm ▸ ended _ _
        · next same => exact (congrArg (·.2.rest) same).symm ▸ ended _ _

theorem plainRuns_spec (inFlow : Bool) (indent : Int) (fuel : Nat) (gap : List Char)
    (newLine : Bool) {read : List Char} (unbroken : Unbroken read) (within : c.rest <:+ text) :
    (plainRuns inFlow indent fuel read gap newLine c).2.1.rest <:+ text ∧
      Unbroken (plainRuns inFlow indent fuel read gap newLine c).1 := by
  induction fuel generalizing gap newLine read c with
  | zero => exact ⟨within, unbroken⟩
  | succ fuel ih =>
      unfold plainRuns
      by_cases comment : c.peek == '#'
      · simp only [comment, ↓reduceIte]
        exact ⟨within, unbroken⟩
      · simp only [comment, Bool.false_eq_true, ↓reduceIte]
        split
        · exact ⟨within, unbroken⟩
        · next goesOn =>
            have longer := unbroken_append_plainRun inFlow (read ++ gap) goesOn
            have later := suffix_plainGap (suffix_forward within (plainRun inFlow c.rest))
            split
            · exact ⟨later, longer⟩
            · exact ih _ _ longer later

theorem readPlain_spec (inFlow : Bool) (indent : Int) (within : c.rest <:+ text) :
    (readPlain inFlow indent c).2.1.rest <:+ text ∧ Unbroken (readPlain inFlow indent c).1 :=
  plainRuns_spec inFlow indent _ _ _ nofun within

/-! ### Names, tags and directives -/

theorem staysWithin_readAnchorName (within : c.rest <:+ text) :
    StaysWithin text (readAnchorName c) := by
  unfold readAnchorName
  simp only
  split
  · exact .error trivial
  · exact .ok ⟨trivial, suffix_forward within _⟩

theorem staysWithin_readOctets (fuel : Nat) (within : c.rest <:+ text) :
    StaysWithin text (readOctets fuel c) := by
  induction fuel generalizing c with
  | zero => exact .ok ⟨trivial, within⟩
  | succ fuel ih =>
      unfold readOctets
      split
      · simp only
        split
        · exact (ih (suffix_forward within 3)).bind fun _ _ _ later => .ok ⟨trivial, later⟩
        · exact .error trivial
      · exact .ok ⟨trivial, within⟩

theorem staysWithin_readTagText (fuel : Nat) (within : c.rest <:+ text) :
    StaysWithin text (readTagText fuel c) := by
  induction fuel generalizing c with
  | zero => exact .ok ⟨trivial, within⟩
  | succ fuel ih =>
      unfold readTagText
      split
      · exact (ih (suffix_step within)).bind fun _ _ _ later => .ok ⟨trivial, later⟩
      · split
        · refine (staysWithin_readOctets _ within).bind fun _ _ _ next => ?_
          simp only
          split
          · exact .error trivial
          · exact (ih next).bind fun _ _ _ later => .ok ⟨trivial, later⟩
        · exact .ok ⟨trivial, within⟩

theorem staysWithin_readTagSuffix (within : c.rest <:+ text) :
    StaysWithin text (readTagSuffix c) := by
  unfold readTagSuffix
  simp only
  split
  · exact (staysWithin_readTagText _ within).bind fun _ _ _ later => .ok ⟨trivial, later⟩
  · exact .error trivial

theorem staysWithin_readTagHandle (within : c.rest <:+ text) :
    StaysWithin text (readTagHandle c) := by
  unfold readTagHandle
  split
  · exact .error trivial
  · simp only
    split
    · exact .ok ⟨trivial, suffix_step within⟩
    · split
      · exact .ok ⟨trivial, suffix_step (suffix_forward within _)⟩
      · exact .error trivial

theorem staysWithin_readTag (within : c.rest <:+ text) : StaysWithin text (readTag c) := by
  have finish (tag : WrittenTag) {after : Cursor} (later : after.rest <:+ text) :
      StaysWithin text (if isGapNoTab after.peek then (pure (tag, after) : Except _ _)
        else throw .malformed) := by
    split
    · exact .ok ⟨trivial, later⟩
    · exact .error trivial
  unfold readTag
  simp only
  split
  · refine (staysWithin_readTagSuffix (suffix_forward within 2)).bind fun _ _ _ later => ?_
    simp only
    split
    · exact finish _ (suffix_step later)
    · exact .error trivial
  · split
    · exact finish _ (suffix_step within)
    · split
      · exact (staysWithin_readTagHandle within).bind fun _ _ _ next =>
          (staysWithin_readTagSuffix next).bind fun _ _ _ later => finish _ later
      · exact (staysWithin_readTagSuffix (suffix_step within)).bind fun _ _ _ later =>
          finish _ later

theorem staysWithin_readVersionNumber (within : c.rest <:+ text) :
    StaysWithin text (readVersionNumber c) := by
  have leads : c.run Char.isDigit <+: c.rest := List.takeWhile_prefix _
  unfold readVersionNumber
  simp only
  split
  · exact .error trivial
  · split
    · next long =>
        exact .error
          ⟨_, ⟨leads.isInfix.trans within.isInfix, fun _ => List.mem_takeWhile_imp, long⟩, rfl⟩
    · exact .ok ⟨trivial, suffix_forward within _⟩

theorem staysWithin_readDirectiveValue (name : String) (within : c.rest <:+ text) :
    StaysWithin text (readDirectiveValue name c) := by
  unfold readDirectiveValue
  split
  · refine (staysWithin_readVersionNumber (suffix_skip within _)).bind fun _ _ _ later => ?_
    simp only
    split
    · exact .error trivial
    · refine (staysWithin_readVersionNumber (suffix_step later)).bind fun _ _ _ ended => ?_
      simp only
      split
      · exact .ok ⟨trivial, ended⟩
      · exact .error trivial
  · split
    · refine (staysWithin_readTagHandle (suffix_skip within _)).bind fun _ _ _ later => ?_
      simp only
      split
      · exact .error trivial
      · refine (staysWithin_readTagSuffix (suffix_skip later _)).bind fun _ _ _ ended => ?_
        simp only
        split
        · exact .ok ⟨trivial, ended⟩
        · exact .error trivial
    · exact .ok ⟨trivial, suffix_skip within _⟩

theorem staysWithin_readDirective (within : c.rest <:+ text) :
    StaysWithin text (readDirective c) := by
  have later := suffix_forward within (1 + (c.step.run isNameChar).length)
  unfold readDirective
  simp only
  split
  · exact .error trivial
  · exact (staysWithin_readDirectiveValue _ later).bind fun _ _ _ next =>
      Settles.bind (settles_finishLine next) fun _ ended => .ok ⟨trivial, ended⟩

end Reading

/-! ### The state between tokens -/

/-- Whether a token is no scalar without quotes that ends with a line feed. -/
def Token.Ended : Token → Prop
  | .scalar text true => Unbroken text.toList
  | _ => True

/-- Whether reading tokens stands within a text, with no token that is not ended. -/
structure Scan.Sound (text : List Char) (s : Scan) : Prop where
  within : s.cursor.rest <:+ text
  ended : ∀ token ∈ s.tokens, token.Ended

section Steps

variable {text : List Char} {s : Scan}

/-- Whether a step of reading tokens stays within a text and fails as the text shows. -/
def Step.Stays (text : List Char) (step : Step) : Prop :=
  ∀ s : Scan, s.Sound text → Settles (Scan.Sound text) (ReadFault.Shows text) (step s)

namespace Scan

theorem Sound.push (sound : s.Sound text) {token : Token} (ended : token.Ended) :
    (s.push token).Sound text where
  within := sound.within
  ended other member := by
    obtain earlier | rfl := Array.mem_push.mp member
    · exact sound.ended other earlier
    · exact ended

theorem Sound.keyStarts (sound : s.Sound text) (starts : List (Nat × KeyStart)) :
    ({ s with keyStarts := starts }).Sound text :=
  ⟨sound.within, sound.ended⟩

theorem Sound.insertAt (sound : s.Sound text) (position : Nat) {token : Token}
    (ended : token.Ended) : (s.insertAt position token).Sound text where
  within := sound.within
  ended other member := by
    obtain rfl | earlier := List.eq_or_mem_of_mem_insertIdx (List.mem_toArray.mp member)
    · exact ended
    · exact sound.ended other (Array.mem_toList_iff.mp earlier)

theorem Sound.forward (sound : s.Sound text) (n : Nat) : (s.forward n).Sound text :=
  ⟨suffix_forward sound.within n, sound.ended⟩

theorem Sound.skipGaps (sound : s.Sound text) (fuel : Nat) : (skipGaps fuel s).Sound text := by
  induction fuel generalizing s with
  | zero => exact sound
  | succ fuel ih =>
      have later : s.cursor.skipSpaces.skipComment.rest <:+ text :=
        suffix_skipComment (suffix_skip sound.within _)
      unfold Scan.skipGaps
      simp only
      split
      · next found => exact ih ⟨suffix_lineBreak? later found, sound.ended⟩
      · exact ⟨later, sound.ended⟩

theorem stays_dropStale : Step.Stays text dropStale := by
  intro s sound
  unfold dropStale
  split
  · exact .error trivial
  · exact .ok ⟨sound.within, sound.ended⟩

theorem stays_dropKeyStart : Step.Stays text dropKeyStart := by
  intro s sound
  unfold dropKeyStart
  split
  · exact .ok sound
  · split
    · exact .error trivial
    · exact .ok ⟨sound.within, sound.ended⟩

theorem stays_noteKeyStart : Step.Stays text noteKeyStart := by
  intro s sound
  unfold noteKeyStart
  split
  · exact (stays_dropKeyStart s sound).bind fun after kept => .ok ⟨kept.within, kept.ended⟩
  · exact .ok sound

theorem Sound.closeBlocks (sound : s.Sound text) (column : Int) (outer : List Int) :
    (closeBlocks column outer s).Sound text := by
  induction outer generalizing s with
  | nil => exact sound
  | cons next rest ih =>
      unfold Scan.closeBlocks
      split
      · exact ih ⟨sound.within, (@Sound.push _ _ sound .blockEnd trivial).ended⟩
      · exact sound

theorem Sound.unwind (sound : s.Sound text) (column : Int) : (s.unwind column).Sound text := by
  unfold Scan.unwind
  split
  · exact sound.closeBlocks _ _
  · exact sound

theorem Sound.openBlock (sound : s.Sound text) (column position : Nat) {token : Token}
    (ended : token.Ended) : (s.openBlock column position token).Sound text := by
  unfold Scan.openBlock
  split
  · exact ⟨sound.within, (sound.insertAt position ended).ended⟩
  · exact sound

theorem stays_openForIndicator {token : Token} (ended : token.Ended) :
    Step.Stays text (openForIndicator token) := by
  intro s sound
  unfold openForIndicator
  split
  · exact .ok sound
  · split
    · exact .ok (sound.openBlock _ _ ended)
    · exact .error trivial

/-! ### One token -/

/-- A token is added to what was read, with the cursor in the text. -/
theorem settles_push (within : s.cursor.rest <:+ text) (earlier : ∀ token ∈ s.tokens, token.Ended)
    {token : Token} (ended : token.Ended) :
    Settles (Scan.Sound text) (ReadFault.Shows text) (.ok (s.push token)) :=
  .ok (Sound.push ⟨within, earlier⟩ ended)

theorem stays_fetchStreamEnd : Step.Stays text fetchStreamEnd := by
  intro s sound
  refine (stays_dropKeyStart _ (sound.unwind (-1))).bind fun _ kept => ?_
  refine settles_push ?_ ?_ trivial
  exacts [kept.within, kept.ended]

theorem stays_fetchDirective : Step.Stays text fetchDirective := by
  intro s sound
  refine (stays_dropKeyStart _ (sound.unwind (-1))).bind fun _ kept => ?_
  refine Settles.bind (staysWithin_readDirective kept.within) fun _ held => ?_
  refine settles_push ?_ ?_ trivial
  exacts [held.2, kept.ended]

theorem stays_fetchDocumentMarker (token : Token) (ended : token.Ended) :
    Step.Stays text (fetchDocumentMarker token) := by
  intro s sound
  refine (stays_dropKeyStart _ (sound.unwind (-1))).bind fun _ kept => ?_
  refine settles_push ?_ ?_ ended
  exacts [suffix_forward kept.within 3, kept.ended]

theorem stays_fetchFlowStart (token : Token) (ended : token.Ended) :
    Step.Stays text (fetchFlowStart token) := by
  intro s sound
  refine (stays_noteKeyStart _ sound).bind fun _ kept => ?_
  refine settles_push ?_ ?_ ended
  exacts [suffix_forward kept.within 1, kept.ended]

theorem stays_fetchFlowEnd (token : Token) (ended : token.Ended) :
    Step.Stays text (fetchFlowEnd token) := by
  intro s sound
  refine (stays_dropKeyStart _ sound).bind fun _ kept => ?_
  refine settles_push ?_ ?_ ended
  exacts [suffix_forward kept.within 1, kept.ended]

theorem stays_fetchFlowEntry : Step.Stays text fetchFlowEntry := by
  intro s sound
  refine (stays_dropKeyStart { s with keyAllowed := true }
    ⟨sound.within, sound.ended⟩).bind fun _ kept => ?_
  refine settles_push ?_ ?_ trivial
  exacts [suffix_forward kept.within 1, kept.ended]

/-- A block entry, a key or a value by its indicator, where a block may begin with it. -/
theorem stays_fetchIndicator {opening token : Token} (opens : opening.Ended) (ended : token.Ended)
    (keyAllowed : Scan → Bool) : Step.Stays text fun s =>
      s.openForIndicator opening >>= fun s =>
        Scan.dropKeyStart { s with keyAllowed := keyAllowed s } >>= fun s =>
          .ok ((s.forward 1).push token) := by
  intro s sound
  refine (stays_openForIndicator opens _ sound).bind fun opened kept => ?_
  refine (stays_dropKeyStart { opened with keyAllowed := keyAllowed opened }
    ⟨kept.within, kept.ended⟩).bind fun _ later => ?_
  refine settles_push ?_ ?_ ended
  exacts [suffix_forward later.within 1, later.ended]

theorem stays_fetchBlockEntry : Step.Stays text fetchBlockEntry :=
  @stays_fetchIndicator text .blockSequenceStart .blockEntry trivial trivial fun _ => true

theorem stays_fetchKey : Step.Stays text fetchKey :=
  @stays_fetchIndicator text .blockMappingStart .key trivial trivial fun s => s.flowLevel == 0

theorem stays_fetchValue : Step.Stays text fetchValue := by
  intro s sound
  unfold fetchValue
  split
  · next start _ =>
      have keyed (starts : List (Nat × KeyStart)) :=
        @Sound.insertAt _ _ (sound.keyStarts starts) start.position .key trivial
      simp only
      split
      · have opened (starts : List (Nat × KeyStart)) :=
          @Sound.openBlock _ _ (keyed starts) start.column start.position .blockMappingStart trivial
        refine settles_push ?_ ?_ trivial
        exacts [suffix_forward (opened _).within 1, (opened _).ended]
      · refine settles_push ?_ ?_ trivial
        exacts [suffix_forward (keyed s.keyStarts).within 1, (keyed s.keyStarts).ended]
  · exact @stays_fetchIndicator text .blockMappingStart .value trivial trivial
      (fun s => s.flowLevel == 0) s sound

theorem stays_fetchAnchor (token : String → Token) (ended : ∀ name, (token name).Ended) :
    Step.Stays text (fetchAnchor token) := by
  intro s sound
  refine (stays_noteKeyStart _ sound).bind fun _ kept => ?_
  refine Settles.bind (staysWithin_readAnchorName (suffix_step kept.within)) fun result held => ?_
  refine settles_push ?_ ?_ (ended result.1)
  exacts [held.2, kept.ended]

theorem stays_fetchTag : Step.Stays text fetchTag := by
  intro s sound
  refine (stays_noteKeyStart _ sound).bind fun _ kept => ?_
  refine Settles.bind (staysWithin_readTag kept.within) fun _ held => ?_
  refine settles_push ?_ ?_ trivial
  exacts [held.2, kept.ended]

theorem stays_fetchBlockScalar (folded : Bool) : Step.Stays text (fetchBlockScalar folded) := by
  intro s sound
  refine (stays_dropKeyStart { s with keyAllowed := true }
    ⟨sound.within, sound.ended⟩).bind fun _ kept => ?_
  refine Settles.bind (staysWithin_readBlock folded _ kept.within) fun _ held => ?_
  refine settles_push ?_ ?_ trivial
  exacts [held.2, kept.ended]

theorem stays_fetchQuoted (double : Bool) : Step.Stays text (fetchQuoted double) := by
  intro s sound
  refine (stays_noteKeyStart _ sound).bind fun _ kept => ?_
  refine Settles.bind (staysWithin_readQuoted double kept.within) fun _ held => ?_
  refine settles_push ?_ ?_ trivial
  exacts [held.2, kept.ended]

theorem ended_plain {read : List Char} (unbroken : Unbroken read) :
    (Token.scalar (String.ofList read) true).Ended := by
  change Unbroken (String.ofList read).toList
  rwa [String.toList_ofList]

theorem stays_fetchPlain : Step.Stays text fetchPlain := by
  intro s sound
  refine (stays_noteKeyStart s sound).bind fun after kept => ?_
  obtain ⟨later, unbroken⟩ :=
    readPlain_spec (after.flowLevel != 0) (after.indent + 1) kept.within
  refine settles_push ?_ ?_ (ended_plain unbroken)
  exacts [later, kept.ended]

theorem stays_fetch : Step.Stays text fetch := by
  intro s sound
  unfold fetch
  simp only
  split
  · exact stays_fetchStreamEnd s sound
  split
  · exact stays_fetchDirective s sound
  split
  · exact stays_fetchDocumentMarker .documentStart trivial s sound
  split
  · exact stays_fetchDocumentMarker .documentEnd trivial s sound
  split
  · exact stays_fetchFlowStart .flowSequenceStart trivial s sound
  · exact stays_fetchFlowStart .flowMappingStart trivial s sound
  · exact stays_fetchFlowEnd .flowSequenceEnd trivial s sound
  · exact stays_fetchFlowEnd .flowMappingEnd trivial s sound
  · exact stays_fetchFlowEntry s sound
  · exact stays_fetchAnchor .alias (fun _ => trivial) s sound
  · exact stays_fetchAnchor .anchor (fun _ => trivial) s sound
  · exact stays_fetchTag s sound
  · exact stays_fetchQuoted false s sound
  · exact stays_fetchQuoted true s sound
  split
  · exact stays_fetchBlockEntry s sound
  split
  · exact stays_fetchKey s sound
  split
  · exact stays_fetchValue s sound
  split
  · exact stays_fetchBlockScalar false s sound
  split
  · exact stays_fetchBlockScalar true s sound
  split
  · exact stays_fetchPlain s sound
  · exact .error trivial

theorem stays_next : Step.Stays text next := fun _ sound =>
  (stays_dropStale _ (sound.skipGaps _)).bind fun _ kept => stays_fetch _ (kept.unwind _)

theorem ended_of_mem_settled (sound : s.Sound text) {token : Token} (member : token ∈ s.settled) :
    token.Ended := by
  unfold settled at member
  exact sound.ended token (by
    rw [← Array.mem_toList_iff] at member ⊢
    simp only [Array.take_eq_extract, Array.toList_extract] at member
    exact List.mem_of_mem_take (by simpa using member))

end Scan

/-- Whether tokens are ended, and ended by a fault only as a text shows. -/
def TokensOf (text : List Char) (read : Array Token × Option ReadFault) : Prop :=
  (∀ token ∈ read.1, token.Ended) ∧ ∀ fault ∈ read.2, fault.Shows text

theorem tokensOf_tokensFrom (fuel : Nat) (sound : s.Sound text) :
    TokensOf text (tokensFrom fuel s) := by
  induction fuel generalizing s with
  | zero =>
      refine ⟨fun token => Scan.ended_of_mem_settled sound, ?_⟩
      rintro _ ⟨⟩
      trivial
  | succ fuel ih =>
      have stays := Scan.stays_next s sound
      unfold tokensFrom
      cases outcome : s.next with
      | error fault =>
          rw [outcome] at stays
          refine ⟨fun token => Scan.ended_of_mem_settled sound, ?_⟩
          rintro _ ⟨⟩
          exact stays.bad_of_error
      | ok after =>
          rw [outcome] at stays
          simp only
          split
          · exact ⟨stays.good_of_ok.ended, nofun⟩
          · exact ih stays.good_of_ok

theorem tokensOf_tokens (text : List Char) : TokensOf text (tokens text) := by
  unfold tokens
  split
  · simp only
    have sound {rest : List Char} (within : rest <:+ text) : (Scan.ofText rest).Sound text :=
      ⟨within, nofun⟩
    split
    · exact tokensOf_tokensFrom _ (sound (List.suffix_cons _ _))
    · exact tokensOf_tokensFrom _ (sound List.suffix_rfl)
  · refine ⟨nofun, ?_⟩
    rintro _ ⟨⟩
    trivial

end Steps

end Yaml

end MemberOrder
