import Mathlib.Data.List.TakeWhile
import MemberOrder.Json.Reader
import MemberOrder.Proofs.Outcome

/-!
# What reading a JSON text makes

Reading stays within the text. It makes words, numbers and texts, lists of what it has made and maps
of it, so that what these have in common holds of every value that is read
(`Json.Inherited.settles_read`), and it fails for the digits of a whole number only if the text
holds a row of more digits than a whole number may have.
-/

namespace MemberOrder

/-- A row of decimal digits in a text that is longer than a whole number may be. -/
structure LongRow (text row : List Char) : Prop where
  within : row <:+: text
  digits : ∀ c ∈ row, c.isDigit
  long : 4300 < row.length

namespace Json

/-- Whether a text shows why reading it fails: where digits are too many, they stand in it. -/
def Fault.Shows (text : List Char) : Fault → Prop
  | .malformed _ _ => True
  | .tooManyDigits count => ∃ row, LongRow text row ∧ row.length = count

/-- What a value may be that is read as a word or as a number. -/
inductive IsScalar : Value → Prop
  | word {spelling : String} {value : Value} (listed : (spelling, value) ∈ words) : IsScalar value
  | whole (negative : Bool) {digits : List Char} (all : ∀ c ∈ digits, c.isDigit)
      (fits : digits.length ≤ digitLimit) :
      IsScalar (.int (if negative then -(decimalValue digits : Int) else decimalValue digits))
  | fraction (negative : Bool) (digits : Nat) (exponent : Int) :
      IsScalar (.float (.ofDecimal negative digits exponent))

/-- A property that words, numbers and texts have, and lists and maps of values that have it. -/
structure Inherited (good : Value → Prop) : Prop where
  scalar : ∀ value, IsScalar value → good value
  str : ∀ text, good (.str text)
  list : ∀ items, (∀ item ∈ items, good item) → good (.list none items)
  empty : good (.map none [])
  put : ∀ (entries : Entries) name value, good (.map none entries) → good value →
    good (.map none (entries.put (.str name) value))

section Reading

variable {α β : Type} {text : List Char} {good : α → Prop} {good' : β → Prop} {c : Cursor}

/-- Whether a reading stays within a text, gives something of one kind and fails as the text
shows. -/
def Stays (text : List Char) (good : α → Prop) : Except Fault (α × Cursor) → Prop :=
  Settles (fun result => good result.1 ∧ result.2.rest <:+ text) (Fault.Shows text)

theorem Stays.bind {first : Except Fault (α × Cursor)}
    {next : α × Cursor → Except Fault (β × Cursor)} (starts : Stays text good first)
    (continues : ∀ value after, good value → after.rest <:+ text →
      Stays text good' (next (value, after))) : Stays text good' (first >>= next) :=
  Settles.bind starts fun result held => continues result.1 result.2 held.1 held.2

theorem suffix_advance (within : c.rest <:+ text) (n : Nat) : (c.advance n).rest <:+ text :=
  (List.drop_suffix n c.rest).trans within

theorem suffix_skipSpace (within : c.rest <:+ text) : c.skipSpace.rest <:+ text :=
  suffix_advance within _

theorem stays_readCode (within : c.rest <:+ text) :
    Stays text (fun _ => True) (readCode c) := by
  have later := suffix_advance within 4
  unfold readCode
  split
  · exact .error trivial
  · split
    · exact .error trivial
    · simp only
      split
      · split
        · split
          · exact .error trivial
          · split
            · exact .ok ⟨trivial, suffix_advance later 6⟩
            · exact .ok ⟨trivial, later⟩
        · exact .ok ⟨trivial, later⟩
      · exact .ok ⟨trivial, later⟩

theorem stays_readString (start fuel : Nat) (read : List Char) (within : c.rest <:+ text) :
    Stays text (fun _ => True) (readString start fuel read c) := by
  induction fuel generalizing read c with
  | zero => rw [readString]; exact .error trivial
  | succ fuel ih =>
      unfold readString
      split
      · exact .error trivial
      · exact .ok ⟨trivial, suffix_advance within 1⟩
      · exact (stays_readCode (suffix_advance within 2)).bind fun letter after _ later =>
          ih (letter :: read) later
      · split
        · exact ih _ (suffix_advance within 2)
        · exact .error trivial
      · exact .error trivial
      · split
        · exact .error trivial
        · exact ih _ (suffix_advance within 1)

theorem wholeDigits_spec (text : List Char) :
    wholeDigits text <+: text ∧ ∀ c ∈ wholeDigits text, c.isDigit := by
  unfold wholeDigits
  split
  · next rest => exact ⟨⟨rest, rfl⟩, by simp⟩
  · exact ⟨List.takeWhile_prefix _, fun _ => List.mem_takeWhile_imp⟩

theorem stays_readNumber (negative : Bool) (start : Nat) (within : c.rest <:+ text) :
    Stays text IsScalar (readNumber negative start c) := by
  obtain ⟨leads, digits⟩ := wholeDigits_spec c.rest
  unfold readNumber
  simp only
  split
  · exact .error trivial
  · unfold readAfterWhole
    simp only
    split
    · split
      · next long =>
          exact .error ⟨_, ⟨leads.isInfix.trans within.isInfix, digits, long⟩, rfl⟩
      · next fits =>
          exact .ok ⟨.whole negative digits (Nat.not_lt.mp fits), suffix_advance within _⟩
    · refine .ok ⟨.fraction _ _ _, suffix_advance ?_ _⟩
      split
      · exact suffix_advance within _
      · exact suffix_advance (suffix_advance within _) _

theorem stays_readScalar (within : c.rest <:+ text) : Stays text IsScalar (readScalar c) := by
  unfold readScalar
  split
  · next word value found =>
      exact .ok ⟨.word (List.mem_of_find?_eq_some found), suffix_advance within _⟩
  · split
    · exact stays_readNumber _ _ (suffix_advance within 1)
    · exact stays_readNumber _ _ within

end Reading

section Inheritance

variable {text : List Char} {good : Value → Prop} {fuel : Nat} {c : Cursor}

/-- Values, the items of lists and the entries of maps are read within the text and have the
property. -/
structure ReadsWithin (text : List Char) (good : Value → Prop) (fuel : Nat) : Prop where
  value : ∀ {c : Cursor}, c.rest <:+ text → Stays text good (readValue fuel c)
  items : ∀ {c : Cursor}, c.rest <:+ text →
    Stays text (fun items => ∀ item ∈ items, good item) (readItems fuel c)
  entries : ∀ {entries : Entries} {c : Cursor}, c.rest <:+ text → good (.map none entries) →
    Stays text (fun more => good (.map none more)) (readEntries fuel entries c)

theorem Inherited.readValue_succ (inherited : Inherited good) (ih : ReadsWithin text good fuel)
    (within : c.rest <:+ text) : Stays text good (readValue (fuel + 1) c) := by
  have inside := suffix_skipSpace (suffix_advance within 1)
  rw [readValue]
  split
  · exact (stays_readString _ _ _ (suffix_advance within 1)).bind
      fun _ _ _ later => .ok ⟨inherited.str _, later⟩
  · simp only
    split
    · exact .ok ⟨inherited.list [] nofun, suffix_advance inside 1⟩
    · exact (ih.items inside).bind fun items _ held later => .ok ⟨inherited.list items held, later⟩
  · simp only
    split
    · exact .ok ⟨inherited.empty, suffix_advance inside 1⟩
    · exact (ih.entries inside inherited.empty).bind fun _ _ held later => .ok ⟨held, later⟩
  · exact (stays_readScalar within).mono fun _ held =>
      ⟨inherited.scalar _ held.1, held.2⟩

theorem ReadsWithin.readItems_succ (ih : ReadsWithin text good fuel) (within : c.rest <:+ text) :
    Stays text (fun items => ∀ item ∈ items, good item) (readItems (fuel + 1) c) := by
  rw [readItems]
  refine (ih.value within).bind fun item after held later => ?_
  have next := suffix_skipSpace later
  simp only
  split
  · exact .ok ⟨by simpa using held, suffix_advance next 1⟩
  · refine (ih.items (suffix_skipSpace (suffix_advance next 1))).bind
      fun items last others ended => .ok ⟨?_, ended⟩
    exact List.forall_mem_cons.mpr ⟨held, others⟩
  · exact .error trivial

theorem Inherited.readEntries_succ (inherited : Inherited good) (ih : ReadsWithin text good fuel)
    {entries : Entries} (within : c.rest <:+ text) (before : good (.map none entries)) :
    Stays text (fun more => good (.map none more)) (readEntries (fuel + 1) entries c) := by
  rw [readEntries]
  split
  · refine (stays_readString _ _ _ (suffix_advance within 1)).bind fun name afterName _ later => ?_
    have next := suffix_skipSpace later
    simp only
    split
    · refine (ih.value (suffix_skipSpace (suffix_advance next 1))).bind
        fun value after held valueRead => ?_
      have ended := suffix_skipSpace valueRead
      have added := inherited.put entries (String.ofList name) value before held
      simp only
      split
      · exact .ok ⟨added, suffix_advance ended 1⟩
      · exact ih.entries (suffix_skipSpace (suffix_advance ended 1)) added
      · exact .error trivial
    · exact .error trivial
  · exact .error trivial

theorem Inherited.readsWithin (inherited : Inherited good) (text : List Char) (fuel : Nat) :
    ReadsWithin text good fuel := by
  induction fuel with
  | zero =>
      refine ⟨fun _ => ?_, fun _ => ?_, fun _ _ => ?_⟩
      · rw [readValue]; exact .error trivial
      · rw [readItems]; exact .error trivial
      · rw [readEntries]; exact .error trivial
  | succ fuel ih =>
      exact ⟨inherited.readValue_succ ih, ih.readItems_succ, inherited.readEntries_succ ih⟩

/-- A value that is read has every property that is inherited, and reading stops at a whole number
that is too long only if its digits stand in the text. -/
theorem Inherited.settles_read (inherited : Inherited good) (text : String) :
    Settles good (Fault.Shows text.toList) (read text) := by
  unfold read
  simp only
  split
  · exact .error trivial
  · have begins : (Cursor.mk text.toList 0).skipSpace.rest <:+ text.toList :=
      suffix_skipSpace List.suffix_rfl
    refine Settles.bind ((inherited.readsWithin text.toList _).value begins) fun result held => ?_
    split
    · exact .ok held.1
    · exact .error trivial

end Inheritance

end Json

end MemberOrder
