import Mathlib.Data.List.Induction
import Mathlib.Data.List.TakeWhile
import Mathlib.Data.Rat.Cast.Order
import Mathlib.Tactic.FieldSimp
import Mathlib.Tactic.Ring

/-! Canonical decimal numerals and their exact values: a whole number without a superfluous zero
in front, and perhaps a point and a fraction that does not end in a zero. -/

namespace DecimalNumeral

def IsWhole (digits : List Char) : Prop :=
  digits ≠ [] ∧ (∀ c ∈ digits, c.isDigit = true) ∧ (digits.head? = some '0' → digits = ['0'])

def IsFraction (digits : List Char) : Prop :=
  digits ≠ [] ∧ (∀ c ∈ digits, c.isDigit = true) ∧ digits.getLast? ≠ some '0'

inductive Canonical : List Char → Prop
  | whole {digits : List Char} (h : IsWhole digits) : Canonical digits
  | point {digits fraction : List Char} (h : IsWhole digits) (hf : IsFraction fraction) :
      Canonical (digits ++ '.' :: fraction)

def wholePart (text : List Char) : List Char := text.takeWhile (· != '.')

def fractionPart (text : List Char) : List Char := (text.dropWhile (· != '.')).tail

def value (text : List Char) : ℚ :=
  Nat.ofDigitChars 10 (wholePart text) 0 +
    Nat.ofDigitChars 10 (fractionPart text) 0 / 10 ^ (fractionPart text).length

theorem ne_point_of_isDigit {c : Char} (h : c.isDigit = true) : (c != '.') = true := by
  rw [bne_iff_ne]
  rintro rfl
  exact absurd h (by decide)

theorem point_notMem {digits : List Char} (h : ∀ c ∈ digits, c.isDigit = true) :
    '.' ∉ digits := by
  intro hmem
  exact absurd (h '.' hmem) (by decide)

theorem value_whole {digits : List Char} (h : ∀ c ∈ digits, c.isDigit = true) :
    value digits = Nat.ofDigitChars 10 digits 0 := by
  have hne : ∀ c ∈ digits, (c != '.') = true := fun c hc => ne_point_of_isDigit (h c hc)
  have hwhole : wholePart digits = digits := List.takeWhile_eq_self_iff.mpr hne
  have hfraction : fractionPart digits = [] := by
    rw [fractionPart, List.dropWhile_eq_nil_iff.mpr hne]
    rfl
  rw [value, hwhole, hfraction]
  simp

theorem value_point {digits : List Char} (h : ∀ c ∈ digits, c.isDigit = true)
    (fraction : List Char) :
    value (digits ++ '.' :: fraction) =
      Nat.ofDigitChars 10 digits 0 + Nat.ofDigitChars 10 fraction 0 / 10 ^ fraction.length := by
  have hne : ∀ c ∈ digits, (c != '.') = true := fun c hc => ne_point_of_isDigit (h c hc)
  have hwhole : wholePart (digits ++ '.' :: fraction) = digits := by
    rw [wholePart, List.takeWhile_append_of_pos hne]
    simp
  have hfraction : fractionPart (digits ++ '.' :: fraction) = fraction := by
    rw [fractionPart, List.dropWhile_append_of_pos hne]
    simp
  rw [value, hwhole, hfraction]

theorem isDigit_toDigits (n : ℕ) : ∀ c ∈ Nat.toDigits 10 n, c.isDigit = true :=
  fun _ h => Nat.isDigit_of_mem_toDigits (by decide) (by decide) h

theorem head?_toDigits {n : ℕ} (h : (Nat.toDigits 10 n).head? = some '0') : n = 0 := by
  induction n using Nat.strongRecOn with
  | _ n ih =>
    by_cases hlt : n < 10
    · rw [Nat.toDigits_of_lt_base hlt, List.head?_cons, Option.some.injEq] at h
      have hvalue := Nat.toNat_digitChar_sub_48_of_lt_ten hlt
      rw [h] at hvalue
      exact hvalue.symm
    · have hne : Nat.toDigits 10 (n / 10) ≠ [] := Nat.toDigits_ne_nil
      rw [Nat.toDigits_of_base_le (by decide) (by omega),
        List.head?_append_of_ne_nil _ hne] at h
      have hzero := ih (n / 10) (by omega) h
      omega

theorem isWhole_toDigits (n : ℕ) : IsWhole (Nat.toDigits 10 n) := by
  refine ⟨Nat.toDigits_ne_nil, isDigit_toDigits n, fun h => ?_⟩
  rw [head?_toDigits h, Nat.toDigits_zero]

theorem value_toDigits (n : ℕ) : value (Nat.toDigits 10 n) = n := by
  rw [value_whole (isDigit_toDigits n), Nat.ofDigitChars_ten_toDigits]

/-- Every list of characters ends in some number of zeros. -/
theorem exists_trailing_zeros (digits : List Char) :
    ∃ front zeros, digits = front ++ List.replicate zeros '0' ∧ front.getLast? ≠ some '0' := by
  induction digits using List.reverseRecOn with
  | nil => exact ⟨[], 0, rfl, by simp⟩
  | append_singleton digits c ih =>
    by_cases hc : c = '0'
    · obtain ⟨front, zeros, rfl, hlast⟩ := ih
      refine ⟨front, zeros + 1, ?_, hlast⟩
      rw [hc, List.append_assoc, ← List.replicate_succ']
    · refine ⟨digits ++ [c], 0, by simp, ?_⟩
      rw [List.getLast?_concat]
      simpa using hc

/-- Trailing zeros of a fraction do not count. -/
theorem ofDigitChars_trailing_zeros (front : List Char) (zeros : ℕ) :
    (Nat.ofDigitChars 10 (front ++ List.replicate zeros '0') 0 : ℚ) /
        10 ^ (front ++ List.replicate zeros '0').length =
      Nat.ofDigitChars 10 front 0 / 10 ^ front.length := by
  rw [Nat.ofDigitChars_append, Nat.ofDigitChars_replicate_zero, List.length_append,
    List.length_replicate, pow_add]
  push_cast
  field_simp

/-- The digits of a number after the point, filled up with zeros in front. -/
theorem ofDigitChars_leading_zeros (digits : List Char) (zeros : ℕ) :
    Nat.ofDigitChars 10 (List.replicate zeros '0' ++ digits) 0 =
      Nat.ofDigitChars 10 digits 0 := by
  rw [Nat.ofDigitChars_append, Nat.ofDigitChars_replicate_zero, Nat.mul_zero]

end DecimalNumeral
