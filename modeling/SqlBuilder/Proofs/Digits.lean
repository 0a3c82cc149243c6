import Mathlib.Algebra.Group.Nat.Defs
import Mathlib.Data.List.TakeWhile
import SqlBuilder.Text.Digits
import SqlBuilder.Uuid

/-!
# Digits that are read back

What is written for a number is a run of decimal digits with that value, and a run of digits before
a text that begins with something else is found again as the longest run of digits.  Two
hexadecimal digits are written for a byte and read as that byte, and so an identifier is read back
from its hyphenated form.
-/

namespace SqlBuilder

/-! ## Decimal digits -/

theorem isDigit_of_mem_toDigits {n : Nat} {c : Char} (h : c ∈ Nat.toDigits 10 n) : c.isDigit :=
  Nat.isDigit_of_mem_toDigits (b := 10) (by decide) (by decide) h

theorem toNat_range_of_isDigit {c : Char} (h : c.isDigit) : 48 ≤ c.toNat ∧ c.toNat ≤ 57 := by
  simpa [Char.isDigit, UInt32.le_iff_toNat_le] using h

/-- The digits of a number that is not zero do not begin with a zero. -/
theorem head?_toDigits_ne_zero {n : Nat} (h : 0 < n) : (Nat.toDigits 10 n).head? ≠ some '0' := by
  induction n using Nat.strongRecOn with
  | ind n ih =>
    rcases Nat.lt_or_ge n 10 with small | large
    · rw [Nat.toDigits_of_lt_base small, List.head?_cons]
      intro zero
      have := Nat.digitChar_eq_zero.1 (Option.some.inj zero)
      omega
    · have first := ih (n / 10) (by omega) (by omega)
      rw [Nat.toDigits_of_base_le (by decide) large]
      cases hd : Nat.toDigits 10 (n / 10) with
      | nil => exact absurd hd Nat.toDigits_ne_nil
      | cons c cs => rwa [hd] at first

/-- Whether a text does not go on with a digit. -/
def EndsDigits (cs : List Char) : Prop :=
  ∀ c ∈ cs.head?, c.isDigit = false

theorem endsDigits_nil : EndsDigits [] := by
  intro c h
  simp at h

theorem endsDigits_cons {c : Char} {cs : List Char} (h : c.isDigit = false) :
    EndsDigits (c :: cs) := by
  intro d hd
  obtain rfl : c = d := by simpa using hd
  exact h

/-- What follows the end of a run of digits does not make the run longer. -/
theorem takeWhile_isDigit_append (cs : List Char) {rest : List Char} (ends : EndsDigits rest) :
    (cs ++ rest).takeWhile Char.isDigit = cs.takeWhile Char.isDigit := by
  have none : rest.takeWhile Char.isDigit = [] := by
    cases rest with
    | nil => rfl
    | cons c rest =>
      have hc : c.isDigit = false := ends c rfl
      rw [List.takeWhile_cons, hc]
      rfl
  rw [List.takeWhile_append, none]
  split
  · next all =>
    rw [List.append_nil]
    exact (List.IsPrefix.eq_of_length (List.takeWhile_prefix _) all).symm
  · rfl

/-- The longest run of digits in front of a text that goes on with something else. -/
theorem takeWhile_digits_append {ds rest : List Char} (digits : ∀ c ∈ ds, c.isDigit)
    (ends : EndsDigits rest) : (ds ++ rest).takeWhile Char.isDigit = ds := by
  rw [takeWhile_isDigit_append ds ends, List.takeWhile_eq_self_iff.2 digits]

/-! ### Numbers with a least count of digits -/

theorem isDigit_of_mem_padded {w n : Nat} {c : Char} (h : c ∈ padded w n) : c.isDigit := by
  rcases List.mem_append.1 h with zero | digit
  · rw [List.eq_of_mem_replicate zero]
    rfl
  · exact isDigit_of_mem_toDigits digit

theorem digitsValue_padded (w n : Nat) : digitsValue (padded w n) = n := by
  change Nat.ofDigitChars 10 (padded w n) 0 = n
  rw [padded, Nat.ofDigitChars_append, Nat.ofDigitChars_replicate_zero, Nat.mul_zero,
    Nat.ofDigitChars_ten_toDigits]

theorem length_padded {w n : Nat} (pos : 0 < w) (fits : n < 10 ^ w) : (padded w n).length = w := by
  have short : (Nat.toDigits 10 n).length ≤ w :=
    (Nat.length_toDigits_le_iff (by decide) pos).2 fits
  rw [padded, List.length_append, List.length_replicate]
  omega

theorem exists_padded (w n : Nat) : ∃ c cs, padded w n = c :: cs ∧ c.isDigit := by
  cases hp : padded w n with
  | nil => exact absurd (List.append_eq_nil_iff.1 hp).2 Nat.toDigits_ne_nil
  | cons c cs => exact ⟨c, cs, rfl, isDigit_of_mem_padded (hp ▸ List.mem_cons_self)⟩

theorem isEmpty_padded (w n : Nat) : (padded w n).isEmpty = false := by
  obtain ⟨c, cs, written, -⟩ := exists_padded w n
  rw [written]
  rfl

/-! ## Hexadecimal digits -/

theorem hexValue?_hexDigit {n : Nat} (h : n < 16) : hexValue? (hexDigit n) = some n := by
  revert n
  decide

theorem hexBytes_writeHexBytes (bs : List UInt8) : hexBytes (writeHexBytes bs) = some bs := by
  induction bs with
  | nil => rfl
  | cons b bs ih =>
    have small := b.toNat_lt
    have high : hexValue? (hexDigit (b.toNat / 16)) = some (b.toNat / 16) :=
      hexValue?_hexDigit (by omega)
    have low : hexValue? (hexDigit (b.toNat % 16)) = some (b.toNat % 16) :=
      hexValue?_hexDigit (by omega)
    have whole : UInt8.ofNat (16 * (b.toNat / 16) + b.toNat % 16) = b := by
      rw [Nat.div_add_mod, UInt8.ofNat_toNat]
    change hexBytes (hexDigit (b.toNat / 16) :: hexDigit (b.toNat % 16) :: writeHexBytes bs) = _
    simp only [hexBytes, high, low, ih, whole, Option.bind_eq_bind, Option.bind_some,
      Option.pure_def]

theorem Uuid.readBare_writeHexBytes (u : Uuid) : readBare (writeHexBytes u.bytes) = some u := by
  simp [readBare, hexBytes_writeHexBytes, ofBytes, u.length_eq]

/-- The hyphenated form of an identifier is read as the identifier. -/
theorem Uuid.read_write (u : Uuid) : read (String.ofList u.write) = some u := by
  -- With its sixteen bytes named, the hyphens of the written form stand where they are looked for.
  have written : u.write.length = 36 ∧
      readHyphenated u.write = readBare (writeHexBytes u.bytes) := by
    obtain ⟨bytes, sixteen⟩ := u
    match bytes, sixteen with
    | [_, _, _, _, _, _, _, _, _, _, _, _, _, _, _, _], _ =>
      simp [readHyphenated, write, writeHexBytes, hexOfByte]
  obtain ⟨length, hyphenated⟩ := written
  simp only [read, String.toList_ofList, length, hyphenated]
  exact readBare_writeHexBytes u

end SqlBuilder
