import MemberOrder.Proofs.Text.Lowercase
import MemberOrder.Tree.Document

/-!
# Endings of file names

The ending of a name is what stands behind its last dot, if there is something on both sides of that
dot (`Path.suffixOf_append`, `Path.suffixOf_cases`). It stands for a format in any mixture of
capitals and small letters (`Tree.Format.ofSuffix?_eq_some_iff`).
-/

namespace MemberOrder

namespace Path

theorem suffixOf_append {stem ending : String} (before : stem ≠ "") (behind : ending ≠ "")
    (undotted : '.' ∉ ending.toList) : suffixOf (stem ++ "." ++ ending) = "." ++ ending := by
  have reversed : (stem ++ "." ++ ending).toList.reverse =
      ending.toList.reverse ++ '.' :: stem.toList.reverse := by simp
  have solid : ∀ c ∈ ending.toList.reverse, (c != '.') = true := by
    intro c member
    rw [bne_iff_ne]
    rintro rfl
    exact undotted (List.mem_reverse.mp member)
  have taken : (ending.toList.reverse ++ '.' :: stem.toList.reverse).takeWhile (· != '.') =
      ending.toList.reverse := by
    rw [List.takeWhile_append_of_pos solid]
    simp
  have dropped : (ending.toList.reverse ++ '.' :: stem.toList.reverse).drop
      (ending.toList.reverse.length + 1) = stem.toList.reverse := by
    rw [List.drop_length_add_append, List.drop_one, List.tail_cons]
  unfold suffixOf
  simp only [reversed, taken, dropped]
  rw [if_neg]
  · rw [List.reverse_reverse, String.ofList_toList]
  · simp [before, behind]

/-- What is before and behind the first dot of a row of characters. -/
theorem eq_append_of_drop_ne_nil {chars : List Char}
    (some : chars.drop ((chars.takeWhile (· != '.')).length + 1) ≠ []) :
    chars = chars.takeWhile (· != '.') ++
      '.' :: chars.drop ((chars.takeWhile (· != '.')).length + 1) := by
  have whole := List.takeWhile_append_dropWhile (p := (· != '.')) (l := chars)
  cases tail : chars.dropWhile (· != '.') with
  | nil =>
      rw [tail, List.append_nil] at whole
      rw [whole] at some
      exact (some (List.drop_eq_nil_of_le (Nat.le_succ _))).elim
  | cons c rest =>
      have dot : c = '.' := by
        have stops := List.head?_dropWhile_not (· != '.') chars
        rw [tail] at stops
        simpa using stops
      rw [tail, dot] at whole
      have later : chars.drop ((chars.takeWhile (· != '.')).length + 1) = rest := by
        conv => lhs; arg 2; rw [← whole]
        rw [List.drop_length_add_append, List.drop_one, List.tail_cons]
      rw [later, whole]

theorem suffixOf_cases (name : String) : suffixOf name = "" ∨
    ∃ stem ending, stem ≠ "" ∧ name = stem ++ "." ++ ending ∧ suffixOf name = "." ++ ending := by
  unfold suffixOf
  extract_lets reversed ending before
  split
  · exact .inl rfl
  · next proper =>
      simp only [Bool.or_eq_true, List.isEmpty_iff, beq_iff_eq, not_or] at proper
      obtain ⟨⟨-, some⟩, -⟩ := proper
      refine .inr ⟨String.ofList before.reverse, String.ofList ending.reverse, ?_, ?_, rfl⟩
      · simpa using some
      · have chars : name.toList = before.reverse ++ '.' :: ending.reverse := by
          have backwards := congrArg List.reverse (eq_append_of_drop_ne_nil some)
          simpa [reversed] using backwards
        rw [← String.toList_inj, chars]
        simp

end Path

namespace Tree

namespace Format

/-- The formats of the endings in small letters. -/
def plainEndings : List (String × Format) := [("json", .json), ("yaml", .yaml), ("yml", .yaml)]

theorem lookup_endings {suffix : String} {format : Format} :
    endings.lookup suffix = some format ↔
      ∃ word, suffix = "." ++ word ∧ (word, format) ∈ plainEndings := by
  constructor
  · intro found
    simp only [endings, List.lookup_cons, List.lookup_nil] at found
    split at found
    · next same => cases found; exact ⟨"json", eq_of_beq same, by decide⟩
    · split at found
      · next same => cases found; exact ⟨"yaml", eq_of_beq same, by decide⟩
      · split at found
        · next same => cases found; exact ⟨"yml", eq_of_beq same, by decide⟩
        · cases found
  · rintro ⟨word, rfl, listed⟩
    simp only [plainEndings, List.mem_cons, Prod.mk.injEq, List.not_mem_nil, or_false] at listed
    rcases listed with ⟨rfl, rfl⟩ | ⟨rfl, rfl⟩ | ⟨rfl, rfl⟩ <;> decide

theorem plain_endings : ∀ ending ∈ plainEndings, ending.1 ≠ "" ∧ '.' ∉ ending.1.toList ∧
    ∀ c ∈ ("." ++ ending.1).toList, Text.IsPlain c := by
  -- The characters are checked one after the other: all of them at once are decided by looking at
  -- every character that there is.
  have checked : plainEndings.all fun ending => ending.1 ≠ "" && '.' ∉ ending.1.toList &&
      ("." ++ ending.1).toList.all fun c => Text.IsPlain c := by
    decide +kernel
  simpa only [List.all_eq_true, Bool.and_eq_true, decide_eq_true_eq, and_assoc] using checked

theorem lowercase_dot_eq_iff {ending word : String} {format : Format}
    (listed : (word, format) ∈ plainEndings) :
    Text.lowercase ("." ++ ending) = "." ++ word ↔ ending.toLower = word := by
  rw [Text.lowercase_eq_iff (plain_endings _ listed).2.2, ← String.toList_inj,
    ← String.toList_inj]
  simp [Text.toList_toLower]

theorem ofSuffix?_eq_some_iff {name : String} {format : Format} :
    ofSuffix? (Path.suffixOf name) = some format ↔ ∃ stem ending, stem ≠ "" ∧
      name = stem ++ "." ++ ending ∧ (ending.toLower, format) ∈ plainEndings := by
  rw [ofSuffix?, lookup_endings]
  constructor
  · rintro ⟨word, lower, listed⟩
    rcases Path.suffixOf_cases name with none | ⟨stem, ending, some, same, suffix⟩
    · rw [none] at lower
      exact absurd (congrArg String.toList lower) (by simp [Text.lowercase, Text.lowercaseFrom])
    · rw [suffix, lowercase_dot_eq_iff listed] at lower
      exact ⟨stem, ending, some, same, lower ▸ listed⟩
  · rintro ⟨stem, ending, some, rfl, listed⟩
    obtain ⟨proper, undotted, -⟩ := plain_endings _ listed
    refine ⟨ending.toLower, ?_, listed⟩
    rw [Path.suffixOf_append some, lowercase_dot_eq_iff listed]
    · rintro rfl
      exact proper (String.toList_inj.mp (Text.toList_toLower ""))
    · intro member
      refine undotted ?_
      rw [Text.toList_toLower]
      exact List.mem_map.mpr ⟨'.', member, rfl⟩

end Format

end Tree

end MemberOrder
