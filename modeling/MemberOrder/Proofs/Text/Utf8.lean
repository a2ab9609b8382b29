import MemberOrder.Text.Newline
import MemberOrder.Text.Utf8

/-!
# Octets of a text and back

What a text is encoded as is decoded as the text (`Text.decodeUtf8?_encodeUtf8`), and a text without
carriage returns has only newlines of one kind (`Text.unifyNewlines_of_not_mem`).
-/

namespace MemberOrder

namespace Text

section Octets

variable {code : Nat} {c : Char}

theorem isValidChar_toNat (c : Char) :
    c.toNat < 0x110000 ∧ ¬ (0xD800 ≤ c.toNat ∧ c.toNat ≤ 0xDFFF) := by
  have valid : c.toNat < 0xD800 ∨ 0xDFFF < c.toNat ∧ c.toNat < 0x110000 := c.valid
  omega

theorem charAbove?_toNat {least : Nat} (enough : least ≤ c.toNat) :
    charAbove? least c.toNat = some c := by
  obtain ⟨below, proper⟩ := isValidChar_toNat c
  rw [charAbove?, if_pos ⟨enough, below, proper⟩, Char.ofNat_toNat]

theorem toNat_octet (small : code < 256) : (UInt8.ofNat code).toNat = code := by
  rw [UInt8.toNat_ofNat']
  exact Nat.mod_eq_of_lt small

theorem continuation?_tail (code : Nat) :
    continuation? (UInt8.ofNat (0x80 + code % 64)) = some (code % 64) := by
  have octet : (UInt8.ofNat (0x80 + code % 64)).toNat = 0x80 + code % 64 :=
    toNat_octet (by omega)
  rw [continuation?, octet, if_pos (by omega)]
  congr 1
  omega

variable {a b d e : UInt8} {rest : List UInt8}

theorem decodeUtf8?_one (lead : a.toNat < 0x80) :
    decodeUtf8? (a :: rest) = (decodeUtf8? rest).map (Char.ofNat a.toNat :: ·) := by
  rw [decodeUtf8?.eq_def]
  simp only [if_pos lead]

theorem decodeUtf8?_two {second : Nat} (lead : 0xC0 ≤ a.toNat ∧ a.toNat < 0xE0)
    (read : continuation? b = some second)
    (value : charAbove? 0x80 (a.toNat % 32 * 64 + second) = some c) :
    decodeUtf8? (a :: b :: rest) = (decodeUtf8? rest).map (c :: ·) := by
  rw [decodeUtf8?.eq_def, Option.map_eq_bind]
  simp only [if_neg (show ¬ a.toNat < 0x80 by omega), if_pos lead, read, value, Option.bind_eq_bind,
    Option.bind_some]
  rfl

theorem decodeUtf8?_three {second third : Nat} (lead : 0xE0 ≤ a.toNat ∧ a.toNat < 0xF0)
    (read : continuation? b = some second) (readNext : continuation? d = some third)
    (value : charAbove? 0x800 ((a.toNat % 16 * 64 + second) * 64 + third) = some c) :
    decodeUtf8? (a :: b :: d :: rest) = (decodeUtf8? rest).map (c :: ·) := by
  rw [decodeUtf8?.eq_def, Option.map_eq_bind]
  simp only [if_neg (show ¬ a.toNat < 0x80 by omega),
    if_neg (show ¬ (0xC0 ≤ a.toNat ∧ a.toNat < 0xE0) by omega), if_pos lead, read, readNext, value,
    Option.bind_eq_bind, Option.bind_some]
  rfl

theorem decodeUtf8?_four {second third fourth : Nat} (lead : 0xF0 ≤ a.toNat ∧ a.toNat < 0xF8)
    (read : continuation? b = some second) (readNext : continuation? d = some third)
    (readLast : continuation? e = some fourth)
    (value : charAbove? 0x10000 (((a.toNat % 8 * 64 + second) * 64 + third) * 64 + fourth) =
      some c) :
    decodeUtf8? (a :: b :: d :: e :: rest) = (decodeUtf8? rest).map (c :: ·) := by
  rw [decodeUtf8?.eq_def, Option.map_eq_bind]
  simp only [if_neg (show ¬ a.toNat < 0x80 by omega),
    if_neg (show ¬ (0xC0 ≤ a.toNat ∧ a.toNat < 0xE0) by omega),
    if_neg (show ¬ (0xE0 ≤ a.toNat ∧ a.toNat < 0xF0) by omega), if_pos lead, read, readNext,
    readLast, value, Option.bind_eq_bind, Option.bind_some]
  rfl

/-- The octets of a character are decoded as the character, whatever comes after them. -/
theorem decodeUtf8?_encodeChar_append (c : Char) (rest : List UInt8) :
    decodeUtf8? (encodeChar c ++ rest) = (decodeUtf8? rest).map (c :: ·) := by
  obtain ⟨below, -⟩ := isValidChar_toNat c
  unfold encodeChar
  by_cases one : c.toNat < 0x80
  · have lead := toNat_octet (show c.toNat < 256 by omega)
    rw [if_pos one, List.singleton_append, decodeUtf8?_one (by omega), lead, Char.ofNat_toNat]
  by_cases two : c.toNat < 0x800
  · have lead := toNat_octet (show 0xC0 + c.toNat / 64 < 256 by omega)
    have value : (0xC0 + c.toNat / 64) % 32 * 64 + c.toNat / 1 % 64 = c.toNat := by omega
    rw [if_neg one, if_pos two]
    refine decodeUtf8?_two (by omega) (continuation?_tail _) ?_
    rw [lead, value, charAbove?_toNat (by omega)]
  by_cases three : c.toNat < 0x10000
  · have lead := toNat_octet (show 0xE0 + c.toNat / 4096 < 256 by omega)
    have value : ((0xE0 + c.toNat / 4096) % 16 * 64 + c.toNat / 64 % 64) * 64 +
        c.toNat / 1 % 64 = c.toNat := by omega
    rw [if_neg one, if_neg two, if_pos three]
    refine decodeUtf8?_three (by omega) (continuation?_tail _) (continuation?_tail _) ?_
    rw [lead, value, charAbove?_toNat (by omega)]
  · have lead := toNat_octet (show 0xF0 + c.toNat / 262144 < 256 by omega)
    have value : (((0xF0 + c.toNat / 262144) % 8 * 64 + c.toNat / 4096 % 64) * 64 +
        c.toNat / 64 % 64) * 64 + c.toNat / 1 % 64 = c.toNat := by omega
    rw [if_neg one, if_neg two, if_neg three]
    refine decodeUtf8?_four (by omega) (continuation?_tail _) (continuation?_tail _)
      (continuation?_tail _) ?_
    rw [lead, value, charAbove?_toNat (by omega)]

end Octets

/-- What a text is encoded as is decoded as the text. -/
theorem decodeUtf8?_encodeUtf8 (text : String) :
    decodeUtf8? (encodeUtf8 text) = some text.toList := by
  unfold encodeUtf8
  induction text.toList with
  | nil => rfl
  | cons c rest ih => rw [List.flatMap_cons, decodeUtf8?_encodeChar_append, ih, Option.map_some]

/-- A text without carriage returns has one kind of newline. -/
theorem unifyNewlines_of_not_mem {text : List Char} (absent : '\r' ∉ text) :
    unifyNewlines text = text := by
  induction text with
  | nil => rfl
  | cons c rest ih =>
      rw [List.mem_cons, not_or] at absent
      obtain ⟨other, absentLater⟩ := absent
      have single : unifyNewlines (c :: rest) = c :: unifyNewlines rest := by
        rw [unifyNewlines]
        · intro _ same
          exact (other same.symm).elim
        · intro same
          exact (other same.symm).elim
      rw [single, ih absentLater]

end Text

end MemberOrder
