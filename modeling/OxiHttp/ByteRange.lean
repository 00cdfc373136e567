/-
**Byte ranges.**

The byte ranges of RFC 7233: a first and a last position, a first position only, or the length of a
suffix, in decimal digits of any number.  A range is taken as far as the representation goes, and it
cannot be satisfied when nothing of the representation is in it.

Main definitions:

* `ByteRange.Spec`, `ByteRange.Spec.Reads` — the ranges, and the texts they are written as;
* `ByteRange.Spec.select` — the positions that a range selects.

Main results:

* `ByteRange.Spec.lt_of_select` — they lie within the representation, the first before the last.
-/

import OxiHttp.Decimal

set_option relaxedAutoImplicit false
set_option autoImplicit false

namespace ByteRange

/-- A range of bytes, as it is asked for. -/
inductive Spec where
  | firstLast (first last : ℕ)
  | start (first : ℕ)
  | suffix (length : ℕ)
deriving DecidableEq, Repr

namespace Spec

/-- The text of a range. -/
inductive Reads : List Char → Spec → Prop where
  | firstLast {a b : List Char} : Decimal.IsNumeral a → Decimal.IsNumeral b →
      Reads (a ++ '-' :: b) (.firstLast (Decimal.value a) (Decimal.value b))
  | start {a : List Char} : Decimal.IsNumeral a → Reads (a ++ ['-']) (.start (Decimal.value a))
  | suffix {k : List Char} : Decimal.IsNumeral k → Reads ('-' :: k) (.suffix (Decimal.value k))

/-- The positions of the first and the last byte that a range selects of a representation of `n`
bytes. -/
def select (n : ℕ) : Spec → Option (ℕ × ℕ)
  | .firstLast first last =>
      if first ≤ last ∧ first < n then some (first, min last (n - 1)) else none
  | .start first => if first < n then some (first, n - 1) else none
  | .suffix length => if 0 < length ∧ 0 < n then some (n - min length n, n - 1) else none

/-- What is selected is there. -/
theorem lt_of_select {n s e : ℕ} {spec : Spec} (h : spec.select n = some (s, e)) :
    s ≤ e ∧ e < n := by
  cases spec with
  | firstLast first last =>
      rw [select] at h
      split_ifs at h
      cases h
      omega
  | start first =>
      rw [select] at h
      split_ifs at h
      cases h
      omega
  | suffix length =>
      rw [select] at h
      split_ifs at h
      cases h
      omega

end Spec

end ByteRange
