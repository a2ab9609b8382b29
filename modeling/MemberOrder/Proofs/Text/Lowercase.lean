import MemberOrder.Text.Lowercase

/-!
# Lower case of plain letters

Of the letters outside ASCII only the Kelvin sign becomes one inside it (`runs_stay_outside`). So a
text has a given plain word as its lower case exactly if it is that word in some mixture of capitals
and small letters (`lowercase_eq_iff`).
-/

namespace MemberOrder

theorem toLower_of_not_capital {c : Char} (other : ¬(65 ≤ c.toNat ∧ c.toNat ≤ 90)) :
    c.toLower = c := by
  unfold Char.toLower
  rw [dif_neg]
  rw [ge_iff_le, UInt32.le_iff_toNat_le, UInt32.le_iff_toNat_le]
  exact other

theorem toNat_toLower {c : Char} (capital : 65 ≤ c.toNat ∧ c.toNat ≤ 90) :
    c.toLower.toNat = c.toNat + 32 := by
  have bounds : c.val ≥ 'A'.val ∧ c.val ≤ 'Z'.val := by
    rw [ge_iff_le, UInt32.le_iff_toNat_le, UInt32.le_iff_toNat_le]
    exact capital
  unfold Char.toLower
  rw [dif_pos bounds]
  change (c.val + 32).toNat = c.val.toNat + 32
  have small : c.val.toNat ≤ 90 := capital.2
  rw [UInt32.toNat_add, show (32 : UInt32).toNat = 32 from rfl]
  omega

namespace Text

theorem lowercaseFrom_of_ascii (before : List Char) {text : List Char}
    (ascii : ∀ c ∈ text, c.toNat < 0x80) :
    lowercaseFrom before text = text.map Char.toLower := by
  induction text generalizing before with
  | nil => rfl
  | cons c rest ih =>
      have small := ascii c List.mem_cons_self
      rw [lowercaseFrom, ih _ fun other member => ascii other (List.mem_cons_of_mem _ member),
        if_neg (by omega), if_neg (by omega), lowercaseLetter, if_pos small]
      rfl

/-- Whether a character is in ASCII and is neither the null character nor a `k`. -/
structure IsPlain (c : Char) : Prop where
  proper : 0 < c.toNat
  ascii : c.toNat < 0x80
  other : c ≠ 'k'

instance : DecidablePred IsPlain := fun c =>
  decidable_of_iff (0 < c.toNat ∧ c.toNat < 0x80 ∧ c ≠ 'k')
    ⟨fun plain => ⟨plain.1, plain.2.1, plain.2.2⟩, fun plain => ⟨plain.1, plain.2, plain.3⟩⟩

theorem toNat_ofNat_cases (code : Nat) :
    (Char.ofNat code).toNat = code ∨ (Char.ofNat code).toNat = 0 := by
  by_cases valid : code.isValidChar
  · exact .inl (congrArg Char.toNat (dif_pos valid))
  · exact .inr (congrArg Char.toNat (dif_neg valid))

/-- The runs of capitals outside ASCII lead to letters outside it, but for the Kelvin sign. -/
theorem runs_stay_outside : ∀ run ∈ lowercaseRuns, 0x80 ≤ run.2.1 →
    (0x80 : Int) ≤ run.1 + run.2.2.2 ∨ run = (0x212A, 0x212A, 1, -8383) := by
  decide +kernel

theorem not_isPlain_lowercaseLetter {c : Char} (far : 0x80 ≤ c.toNat) :
    ¬ IsPlain (lowercaseLetter c) := by
  intro plain
  unfold lowercaseLetter at plain
  rw [if_neg (by omega)] at plain
  split at plain
  · next first last step distance found =>
      obtain ⟨proper, ascii, other⟩ := plain
      have within := List.find?_some found
      simp only [Bool.and_eq_true, decide_eq_true_eq] at within
      have reach : 0x80 ≤ last := by omega
      rcases runs_stay_outside _ (List.mem_of_find?_eq_some found) reach with outside | kelvin
      · have code := toNat_ofNat_cases (c.toNat + distance).toNat
        simp only at outside
        omega
      · cases kelvin
        have sign : c.toNat = 0x212A := by omega
        rw [sign] at other
        exact other rfl
  · exact absurd plain.ascii (by omega)

/-- What has a plain lower case is in ASCII. -/
theorem ascii_of_lowercaseFrom (before : List Char) {text : List Char}
    (plain : ∀ c ∈ lowercaseFrom before text, IsPlain c) : ∀ c ∈ text, c.toNat < 0x80 := by
  induction text generalizing before with
  | nil => simp
  | cons c rest ih =>
      rw [lowercaseFrom] at plain
      obtain ⟨first, later⟩ := List.forall_mem_append.mp plain
      refine List.forall_mem_cons.mpr ⟨Nat.lt_of_not_le fun far => ?_, ih _ later⟩
      split at first
      · have sigma := (first _ List.mem_cons_self).ascii
        split at sigma <;> exact absurd sigma (by decide)
      · split at first
        · have dot := (first _ (List.mem_cons_of_mem _ List.mem_cons_self)).ascii
          exact absurd dot (by decide)
        · exact not_isPlain_lowercaseLetter far (first _ List.mem_cons_self)

theorem toList_toLower (text : String) : text.toLower.toList = text.toList.map Char.toLower :=
  String.toList_map

/-- A text has a plain word as its lower case if it spells that word in letters of either case, all
of them in ASCII. -/
theorem lowercase_eq_iff {text word : String} (plain : ∀ c ∈ word.toList, IsPlain c) :
    lowercase text = word ↔ text.toLower = word := by
  have lowered (ascii : ∀ c ∈ text.toList, c.toNat < 0x80) : lowercase text = text.toLower := by
    rw [lowercase, lowercaseFrom_of_ascii [] ascii, ← toList_toLower, String.ofList_toList]
  constructor
  · rintro rfl
    refine (lowered (ascii_of_lowercaseFrom [] ?_)).symm
    rwa [lowercase, String.toList_ofList] at plain
  · rintro rfl
    refine lowered fun c member => Nat.lt_of_not_le fun far => ?_
    have kept : c ∈ text.toLower.toList := by
      rw [toList_toLower]
      exact List.mem_map.mpr ⟨c, member, toLower_of_not_capital (by omega)⟩
    exact absurd (plain c kept).ascii (by omega)

end Text

end MemberOrder
