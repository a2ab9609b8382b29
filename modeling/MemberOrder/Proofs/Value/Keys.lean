import MemberOrder.Proofs.Number.Shortest
import MemberOrder.Value.Basic

/-!
# Keys of maps

Two values are one key exactly if they have one form (`Value.sameKey_iff`): numbers are told apart
by their value only, and moments by their place in universal time. So being one key is symmetric and
transitive. It is not reflexive, since a NaN is no key that could be found again. A key that is put
has its new value, and every other one the value that it had (`Entries.get?_put`).
-/

namespace MemberOrder

namespace Number

namespace Binary64

variable {x y : Binary64}

/-- The value of a finite number with its sign. -/
def signedValue (x : Binary64) : ℚ := if x.isNegative then -x.value else x.value

theorem equalsInt_iff (n : Int) : x.equalsInt n ↔ x.isFinite ∧ x.signedValue = n := by
  obtain ⟨positiveDen, same⟩ := ratio_spec x
  have size : (x.ratio.2 : ℚ) ≠ 0 := by exact_mod_cast positiveDen.ne'
  rw [equalsInt, Bool.and_eq_true, signedValue, ← same]
  refine and_congr_right fun _ => ?_
  cases x.isNegative with
  | false =>
      simp only [Bool.false_eq_true, if_false, beq_iff_eq]
      rw [div_eq_iff size]
      exact_mod_cast Iff.rfl
  | true =>
      simp only [if_true, beq_iff_eq]
      rw [← neg_div, div_eq_iff size]
      exact_mod_cast Iff.rfl

theorem value_eq_zero (zero : x.isZero) : x.value = 0 := by
  have none : x.magnitude = 0 := by simpa [isZero] using zero
  have parts : x.parts.1 = 0 := by
    have together := magnitude_eq_parts x
    omega
  rw [value, parts, Nat.cast_zero, zero_mul]

/-- Finite numbers of one value differ in nothing but the sign. -/
theorem magnitude_eq_of_value (finiteX : x.isFinite) (finiteY : y.isFinite)
    (same : x.value = y.value) : x.magnitude = y.magnitude := by
  cases zero : x.isZero with
  | true =>
      have zeroY : y.isZero := by
        by_contra nonzero
        have positive := value_pos (Bool.not_eq_true _ ▸ nonzero)
        rw [← same, value_eq_zero zero] at positive
        exact positive.false
      rw [isZero, beq_iff_eq] at zero zeroY
      rw [zero, zeroY]
  | false =>
      obtain ⟨positiveDen, ratio⟩ := ratio_spec x
      have positive := value_pos zero
      have closeX : |(x.ratio.1 : ℚ) / x.ratio.2 - x.value| * 2 ^ 54 < x.value := by
        rwa [ratio, sub_self, abs_zero, zero_mul]
      have closeY : |(x.ratio.1 : ℚ) / x.ratio.2 - y.value| * 2 ^ 54 < y.value := by
        rwa [← same]
      have read : ofMagnitude false x.magnitude = ofMagnitude false y.magnitude :=
        (ofRatio_eq_of_close finiteX positiveDen closeX).symm.trans
          (ofRatio_eq_of_close finiteY positiveDen closeY)
      have equal := congrArg Binary64.magnitude read
      rwa [magnitude_ofMagnitude (magnitude_lt x), magnitude_ofMagnitude (magnitude_lt y)] at equal

theorem value_nonneg (x : Binary64) : 0 ≤ x.value :=
  mul_nonneg (Nat.cast_nonneg _) (zpow_pos two_pos _).le

/-- Finite numbers of one signed value are equal, or both are zero. -/
theorem eq_or_isZero_of_signedValue (finiteX : x.isFinite) (finiteY : y.isFinite)
    (same : x.signedValue = y.signedValue) : x = y ∨ (x.isZero ∧ y.isZero) := by
  have sizes : x.value = y.value := by
    have absolute := congrArg abs same
    unfold signedValue at absolute
    split at absolute <;> split at absolute <;>
      simpa only [abs_neg, abs_of_nonneg (value_nonneg _)] using absolute
  have magnitudes := magnitude_eq_of_value finiteX finiteY sizes
  cases zero : x.isZero with
  | true =>
      refine .inr ⟨rfl, ?_⟩
      rw [isZero] at zero ⊢
      rwa [← magnitudes]
  | false =>
      have positive := value_pos zero
      have signs : x.isNegative = y.isNegative := by
        rw [signedValue, signedValue, ← sizes] at same
        generalize x.isNegative = first at same ⊢
        generalize y.isNegative = second at same ⊢
        cases first <;> cases second <;> simp at same ⊢ <;> linarith
      left
      rw [← ofMagnitude_magnitude x, ← ofMagnitude_magnitude y, signs, magnitudes]

end Binary64

end Number

/-- What makes a value one key with others. -/
inductive KeyForm
  | null
  | number (value : ℚ)
  | infinite (negative : Bool)
  | text (text : String)
  | octets (octets : List UInt8)
  | day (day : Date)
  /-- Microseconds on a clock, in universal time or as the clock says. -/
  | clock (micros : Int) (universal : Bool)
deriving DecidableEq

namespace Number.Binary64

/-- The form of a number as a key. -/
def form? (x : Binary64) : Option KeyForm :=
  if x.isFinite then some (.number x.signedValue)
  else if x.isInfinite then some (.infinite x.isNegative)
  else none

variable {x y : Binary64}

theorem isNaN_of_isFinite (finite : x.isFinite) : x.isNaN = false := by
  simp only [isFinite, isNaN, decide_eq_true_eq, decide_eq_false_iff_not] at finite ⊢
  omega

theorem isNaN_of_isInfinite (infinite : x.isInfinite) : x.isNaN = false := by
  simp only [isInfinite, isNaN, beq_iff_eq, decide_eq_false_iff_not] at infinite ⊢
  omega

theorem exists_form? (number : x.isNaN = false) : ∃ form, x.form? = some form := by
  by_cases finite : x.isFinite
  · exact ⟨_, if_pos finite⟩
  · have infinite : x.isInfinite := by
      simp only [isFinite, isInfinite, isNaN, decide_eq_true_eq, decide_eq_false_iff_not,
        beq_iff_eq] at *
      omega
    exact ⟨_, by rw [form?, if_neg finite, if_pos infinite]⟩

theorem form?_of_isZero (zero : x.isZero) : x.form? = some (.number 0) := by
  have none : x.magnitude = 0 := by simpa [isZero] using zero
  have finite : x.isFinite := by
    rw [isFinite, none]
    decide
  rw [form?, if_pos finite, signedValue, value_eq_zero zero, neg_zero, ite_self]

theorem form?_eq_some_iff {form : KeyForm} :
    x.form? = some form ↔ (x.isFinite ∧ form = .number x.signedValue) ∨
      (x.isInfinite ∧ form = .infinite x.isNegative) := by
  have apart : x.isInfinite → ¬ x.isFinite := by
    simp only [isFinite, isInfinite, decide_eq_true_eq, beq_iff_eq]
    omega
  rw [form?]
  split
  · next finite =>
      have bounded : ¬ x.isInfinite := fun infinite => apart infinite finite
      simp [finite, bounded, eq_comm]
  · next wide =>
      split
      · next infinite => simp [wide, infinite, eq_comm]
      · next bounded => simp [wide, bounded]

/-- Two numbers are the same exactly if they have one form. -/
theorem sameNumber_iff :
    x.sameNumber y ↔ ∃ form, x.form? = some form ∧ y.form? = some form := by
  constructor
  · intro same
    simp only [sameNumber, Bool.and_eq_true, Bool.not_eq_true', Bool.or_eq_true, beq_iff_eq] at same
    obtain ⟨⟨number, -⟩, rfl | ⟨zeroX, zeroY⟩⟩ := same
    · obtain ⟨form, found⟩ := exists_form? number
      exact ⟨form, found, found⟩
    · exact ⟨_, form?_of_isZero zeroX, form?_of_isZero zeroY⟩
  · rintro ⟨form, ofX, ofY⟩
    have numbers : x.isNaN = false ∧ y.isNaN = false ∧ (x = y ∨ (x.isZero ∧ y.isZero)) := by
      obtain ⟨finiteX, rfl⟩ | ⟨infiniteX, rfl⟩ := form?_eq_some_iff.mp ofX <;>
        obtain ⟨finiteY, same⟩ | ⟨infiniteY, same⟩ := form?_eq_some_iff.mp ofY
      · exact ⟨isNaN_of_isFinite finiteX, isNaN_of_isFinite finiteY,
          eq_or_isZero_of_signedValue finiteX finiteY (KeyForm.number.inj same)⟩
      · cases same
      · cases same
      · refine ⟨isNaN_of_isInfinite infiniteX, isNaN_of_isInfinite infiniteY, .inl ?_⟩
        have sizes : x.magnitude = y.magnitude := by
          rw [isInfinite, beq_iff_eq] at infiniteX infiniteY
          rw [infiniteX, infiniteY]
        rw [← ofMagnitude_magnitude x, ← ofMagnitude_magnitude y, KeyForm.infinite.inj same, sizes]
    obtain ⟨numberX, numberY, same⟩ := numbers
    simpa [sameNumber, numberX, numberY] using same

end Number.Binary64

namespace Value

/-- The form of a value as a key; a NaN and what is no key have none. -/
def keyForm? : Value → Option KeyForm
  | .null => some .null
  | .bool b => some (.number (if b then 1 else 0 : Int))
  | .int n => some (.number n)
  | .float x => x.form?
  | .str text => some (.text text)
  | .bytes octets => some (.octets octets)
  | .date _ day => some (.day day)
  | .moment _ time =>
    some (.clock (time.localMicros - time.offset.getD 0 * 1000000) time.offset.isSome)
  | .list _ _ | .pair _ _ | .set _ _ | .map _ _ | .back _ _ => none

end Value

theorem Moment.same_iff {first second : Moment} : first.same second ↔
    first.localMicros - first.offset.getD 0 * 1000000 =
      second.localMicros - second.offset.getD 0 * 1000000 ∧
    first.offset.isSome = second.offset.isSome := by
  have between : first.microsBetween? second =
      if first.offset.isSome = second.offset.isSome then
        some ((second.localMicros - second.offset.getD 0 * 1000000) -
          (first.localMicros - first.offset.getD 0 * 1000000))
      else none := by
    simp only [microsBetween?]
    generalize first.localMicros = m, second.localMicros = n
    generalize first.offset = p, second.offset = q
    cases p <;> cases q <;> simp
  generalize first.localMicros - first.offset.getD 0 * 1000000 = m at *
  generalize second.localMicros - second.offset.getD 0 * 1000000 = n at *
  rw [same, between]
  split
  · next alike => rw [beq_iff_eq, Option.some_inj, sub_eq_zero, eq_comm, and_iff_left alike]
  · next apart => simp [apart]

namespace Value

variable {a b c : Value}

/-- Two values are one key exactly if they have one form. -/
theorem sameKey_iff : a.sameKey b ↔ ∃ form, a.keyForm? = some form ∧ b.keyForm? = some form := by
  cases a <;> cases b <;>
    simp [sameKey, wholeNumber?, keyForm?, Number.Binary64.sameNumber_iff,
      Number.Binary64.form?_eq_some_iff, Number.Binary64.equalsInt_iff, Moment.same_iff,
      -Int.cast_ite]
  -- What is left are equations that have changed their sides.
  all_goals first | exact eq_comm | exact fun _ => eq_comm | exact and_congr eq_comm eq_comm

theorem sameKey_comm : a.sameKey b = b.sameKey a := by
  rw [Bool.eq_iff_iff, sameKey_iff, sameKey_iff]
  simp only [and_comm]

theorem sameKey_trans (first : a.sameKey b) (second : b.sameKey c) : a.sameKey c := by
  obtain ⟨form, ofA, ofB⟩ := sameKey_iff.mp first
  obtain ⟨other, againB, ofC⟩ := sameKey_iff.mp second
  cases ofB.symm.trans againB
  exact sameKey_iff.mpr ⟨form, ofA, ofC⟩

end Value

namespace Entries

/-- The keys in their order. -/
def keys (entries : Entries) : List Value := entries.map Prod.fst

/-- No two keys are one. -/
def Apart (entries : Entries) : Prop :=
  entries.Pairwise fun first second => ¬ first.1.sameKey second.1

instance (entries : Entries) : Decidable entries.Apart :=
  inferInstanceAs (Decidable (entries.Pairwise _))

variable {entries : Entries} {key other value : Value}

theorem apart_cons {rest : Entries} : Apart ((key, value) :: rest) ↔
    (∀ entry ∈ rest, ¬ key.sameKey entry.1) ∧ rest.Apart :=
  List.pairwise_cons

theorem get?_cons (key value : Value) (rest : Entries) (other : Value) :
    get? ((key, value) :: rest) other =
      if key.sameKey other then some value else rest.get? other := rfl

theorem get?_eq_none_iff : entries.get? key = none ↔ ∀ entry ∈ entries, ¬ entry.1.sameKey key := by
  induction entries with
  | nil => exact iff_of_true rfl fun _ member => absurd member List.not_mem_nil
  | cons entry rest ih =>
      rw [get?_cons, List.forall_mem_cons, ← ih]
      by_cases same : entry.1.sameKey key <;> simp [same]

/-- Ways to write one key find the same value. -/
theorem get?_congr (same : key.sameKey other) (entries : Entries) :
    entries.get? key = entries.get? other := by
  induction entries with
  | nil => rfl
  | cons entry rest ih =>
      have alike : entry.1.sameKey key ↔ entry.1.sameKey other :=
        ⟨fun found => Value.sameKey_trans found same,
          fun found => Value.sameKey_trans found (Value.sameKey_comm ▸ same)⟩
      rw [get?_cons, get?_cons, ih]
      exact if_congr alike rfl rfl

theorem mem_of_get? (found : entries.get? key = some value) :
    ∃ entry ∈ entries, entry.1.sameKey key ∧ entry.2 = value := by
  induction entries with
  | nil => cases found
  | cons entry rest ih =>
      rw [get?_cons] at found
      split at found
      · next same => exact ⟨entry, List.mem_cons_self, same, Option.some.inj found⟩
      · obtain ⟨listed, member, holds⟩ := ih found
        exact ⟨listed, List.mem_cons_of_mem _ member, holds⟩

/-- A key that is put has its new value, and every other one the value that it had. -/
theorem get?_put (entries : Entries) (key other value : Value) :
    (entries.put key value).get? other =
      if key.sameKey other then some value else entries.get? other := by
  induction entries with
  | nil => rfl
  | cons entry rest ih =>
      obtain ⟨given, held⟩ := entry
      rw [put]
      split
      · next taken =>
          rw [get?_cons, get?_cons]
          by_cases same : key.sameKey other
          · rw [if_pos same, if_pos (Value.sameKey_trans taken same)]
          · have elsewhere : ¬ given.sameKey other := fun equal =>
              same (Value.sameKey_trans (Value.sameKey_comm ▸ taken) equal)
            rw [if_neg same, if_neg elsewhere, if_neg elsewhere]
      · next differs =>
          rw [get?_cons, get?_cons, ih]
          by_cases found : given.sameKey other
          · have elsewhere : ¬ key.sameKey other := fun equal =>
              differs (Value.sameKey_trans found (Value.sameKey_comm ▸ equal))
            rw [if_pos found, if_neg elsewhere, if_pos found]
          · rw [if_neg found, if_neg found]

theorem keys_put (entries : Entries) (key value : Value) :
    (entries.put key value).keys =
      if entries.keys.any (·.sameKey key) then entries.keys else entries.keys ++ [key] := by
  induction entries with
  | nil => rfl
  | cons entry rest ih =>
      obtain ⟨given, held⟩ := entry
      unfold keys at ih ⊢
      rw [put]
      by_cases same : given.sameKey key
      · simp [same]
      · rw [if_neg same, List.map_cons, ih]
        simp only [List.map_cons, List.any_cons, same, Bool.false_or]
        split <;> rfl

/-- A new key goes to the end. -/
theorem put_of_absent (absent : ∀ entry ∈ entries, ¬ entry.1.sameKey key) (value : Value) :
    entries.put key value = entries ++ [(key, value)] := by
  induction entries with
  | nil => rfl
  | cons entry rest ih =>
      obtain ⟨first, others⟩ := List.forall_mem_cons.mp absent
      rw [put, if_neg first, ih others, List.cons_append]

theorem mem_put {entry : Value × Value} (member : entry ∈ entries.put key value) :
    entry ∈ entries ∨ entry.2 = value := by
  induction entries with
  | nil =>
      obtain rfl := List.mem_singleton.mp member
      exact .inr rfl
  | cons first rest ih =>
      obtain ⟨given, held⟩ := first
      rw [put] at member
      split at member
      · rcases List.mem_cons.mp member with rfl | later
        · exact .inr rfl
        · exact .inl (List.mem_cons_of_mem _ later)
      · rcases List.mem_cons.mp member with rfl | later
        · exact .inl List.mem_cons_self
        · exact (ih later).imp_left (List.mem_cons_of_mem _)

theorem apart_iff_keys : entries.Apart ↔
    entries.keys.Pairwise fun first second => ¬ first.sameKey second := by
  rw [keys, List.pairwise_map]
  rfl

theorem apart_put (apart : entries.Apart) (key value : Value) : (entries.put key value).Apart := by
  rw [apart_iff_keys] at apart ⊢
  rw [keys_put]
  split
  · exact apart
  · next absent =>
      refine List.pairwise_append.mpr ⟨apart, List.pairwise_singleton _ _, fun first member => ?_⟩
      rw [List.forall_mem_singleton]
      exact fun same => absent (List.any_eq_true.mpr ⟨first, member, same⟩)

end Entries

end MemberOrder
