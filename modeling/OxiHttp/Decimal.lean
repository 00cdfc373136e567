/-
**Decimal numerals.**

A numeral is a sequence of decimal digits, leading zeros and all.  Its value is that of the library;
this module has the numerals of a fixed width.

Main definitions:

* `Decimal.IsNumeral`, `Decimal.value` — numerals and their values;
* `Decimal.padded` — a number with leading zeros up to a width.

Main results:

* `Decimal.value_padded`, `Decimal.isNumeral_padded` — a padded number is a numeral of its value;
* `Decimal.value_lt_pow` — the width of a numeral bounds its value.
-/

import Mathlib.Algebra.Group.Nat.Defs
import Mathlib.Data.List.Basic
import Mathlib.Tactic.Common

set_option relaxedAutoImplicit false
set_option autoImplicit false

namespace Decimal

/-- One decimal digit or more. -/
def IsNumeral (s : List Char) : Prop := s ≠ [] ∧ ∀ c ∈ s, c.isDigit = true

/-- The value of a numeral. -/
def value (s : List Char) : ℕ := Nat.ofDigitChars 10 s 0

/-- The number with leading zeros. -/
def padded (width n : ℕ) : List Char := List.leftpad width '0' (Nat.toDigits 10 n)

instance (s : List Char) : Decidable (IsNumeral s) :=
  @instDecidableAnd _ _ _ (List.decidableBAll _ s)

theorem padded_eq (width n : ℕ) : padded width n
    = List.replicate (width - (Nat.toDigits 10 n).length) '0' ++ Nat.toDigits 10 n := rfl

theorem isNumeral_toDigits (n : ℕ) : IsNumeral (Nat.toDigits 10 n) :=
  ⟨Nat.toDigits_ne_nil, fun _ hc => Nat.isDigit_of_mem_toDigits (by decide) (by decide) hc⟩

@[simp] theorem value_toDigits (n : ℕ) : value (Nat.toDigits 10 n) = n :=
  Nat.ofDigitChars_ten_toDigits

/-- Leading zeros keep a numeral a numeral. -/
theorem isNumeral_padded (width n : ℕ) : IsNumeral (padded width n) := by
  obtain ⟨hne, hdigits⟩ := isNumeral_toDigits n
  rw [padded_eq]
  refine ⟨List.append_ne_nil_of_right_ne_nil _ hne, fun c hc => ?_⟩
  rcases List.mem_append.1 hc with hc | hc
  · rw [List.eq_of_mem_replicate hc]
    rfl
  · exact hdigits c hc

/-- And they do not change its value. -/
@[simp] theorem value_padded (width n : ℕ) : value (padded width n) = n := by
  rw [padded_eq, value, Nat.ofDigitChars_append, Nat.ofDigitChars_replicate_zero, Nat.mul_zero]
  exact value_toDigits n

theorem digit_lt_ten {c : Char} (h : c.isDigit = true) : c.toNat - '0'.toNat < 10 := by
  have hle := (Char.isDigit_iff_toNat.1 h).2
  have hnine : '9'.toNat = '0'.toNat + 9 := rfl
  omega

/-- The value of a numeral is that of its first digit and that of the rest. -/
theorem value_cons (c : Char) (s : List Char) :
    value (c :: s) = 10 ^ s.length * (c.toNat - '0'.toNat) + value s := by
  rw [value, Nat.ofDigitChars_cons, Nat.mul_zero, Nat.zero_add,
    Nat.ofDigitChars_eq_ofDigitChars_zero, value]

/-- A value has no more digits than its numeral. -/
theorem value_lt_pow {s : List Char} (h : ∀ c ∈ s, c.isDigit = true) :
    value s < 10 ^ s.length := by
  induction s with
  | nil => exact Nat.one_pos
  | cons c s ih =>
      rw [List.forall_mem_cons] at h
      have hdigit := digit_lt_ten h.1
      have hrest := ih h.2
      calc value (c :: s) = 10 ^ s.length * (c.toNat - '0'.toNat) + value s := value_cons c s
        _ < 10 ^ s.length * (c.toNat - '0'.toNat) + 10 ^ s.length := by omega
        _ = 10 ^ s.length * (c.toNat - '0'.toNat + 1) := (Nat.mul_succ _ _).symm
        _ ≤ 10 ^ s.length * 10 := Nat.mul_le_mul_left _ hdigit
        _ = 10 ^ (c :: s).length := (Nat.pow_succ 10 s.length).symm

/-- A digit is no other character. -/
theorem IsNumeral.notMem {s : List Char} (h : IsNumeral s) {c : Char} (hc : c.isDigit = false) :
    c ∉ s := by
  intro hmem
  rw [h.2 c hmem] at hc
  cases hc

example : padded 2 7 = "07".toList ∧ value "007".toList = 7 := by decide

end Decimal
