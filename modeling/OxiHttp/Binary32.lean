/-
**Floating-point numbers of 32 bits.**

Every finite number of the format is a multiple of `2 ^ -149`, of which it has 24 significant bits,
and the numbers stop below `2 ^ 128`.  A number is taken here as comparisons take it: the two zeros
are one, and the infinities stand where the numbers stop.  A text is read as the number that is
nearest to it, and as the one with an even last bit when two are.

Main definitions:

* `Binary32.Value`, `Binary32.partialCmp` — the numbers, and how they compare;
* `Binary32.ofRatio` — the number nearest to a quotient;
* `Binary32.parse` — the number that a text is read as.

Main results:

* `Binary32.partialCmp_eq_some`, `Binary32.isTotal_of_numbers` — values that are numbers are in
  order;
* `Binary32.roundUnits_mul` — rounding depends on the quotient only;
* `Binary32.roundUnits_lt_of_lt` — it keeps quotients with a small denominator apart.
-/

import OxiHttp.Decimal
import OxiHttp.SortBy
import Mathlib.Data.Int.Order.Basic
import Mathlib.Order.OrderDual

set_option relaxedAutoImplicit false
set_option autoImplicit false

namespace Binary32

/-! ### Numbers -/

/-- A value: a number of units of `2 ^ -149`, or none. -/
inductive Value where
  | nan
  | num (units : ℤ)
deriving DecidableEq, Repr

/-- The units up to `2 ^ 128`. -/
def infinity : ℕ := 2 ^ 277

theorem pow_le_infinity {n : ℕ} (h : n ≤ 277) : 2 ^ n ≤ infinity := by
  rw [infinity, ← Nat.add_sub_cancel' h, Nat.pow_add]
  exact Nat.le_mul_of_pos_right _ (Nat.pow_pos Nat.two_pos)

def one : Value := .num (2 ^ 149 : ℕ)

/-- `partial_cmp`. -/
def partialCmp : Value → Value → Option Ordering
  | .num a, .num b => some (compare a b)
  | _, _ => none

/-- `> 0.0`. -/
def Value.IsPositive : Value → Prop
  | .num units => 0 < units
  | .nan => False

instance : DecidablePred Value.IsPositive
  | .num units => inferInstanceAs (Decidable (0 < units))
  | .nan => inferInstanceAs (Decidable False)

/-- The units of a value that is a number. -/
def Value.units : Value → ℤ
  | .num units => units
  | .nan => 0

theorem partialCmp_eq_some {a b : Value} (ha : a ≠ .nan) (hb : b ≠ .nan) :
    partialCmp a b = some (compare a.units b.units) := by
  cases a with
  | nan => exact absurd rfl ha
  | num m =>
      cases b with
      | nan => exact absurd rfl hb
      | num n => rfl

/-- A comparison by a value, the greater one first, is one of a total order on elements whose values
are numbers. -/
theorem isTotal_of_numbers {α : Type} {q : α → Value} {cmp : α → α → Ordering} {l : List α}
    (hcmp : ∀ a b, cmp a b = (partialCmp (q b) (q a)).getD .eq) (hnum : ∀ a ∈ l, q a ≠ .nan) :
    SortBy.IsTotal cmp l := by
  refine SortBy.isTotal_of_key (fun a => OrderDual.toDual (q a).units) fun a ha b hb => ?_
  rw [hcmp, partialCmp_eq_some (hnum b hb) (hnum a ha), Option.getD_some]
  rfl

/-! ### Rounding -/

/-- A quotient as an integer, rounded to the nearest one, and between two to the even one. -/
def roundHalfEven (n d : ℕ) : ℕ :=
  let q := n / d
  let r := n % d
  if 2 * r < d ∨ (2 * r = d ∧ q % 2 = 0) then q else q + 1

/-- The number nearest to a quotient, in units: with 24 bits, from the first one that is set on. -/
def roundUnits (n d : ℕ) : ℕ :=
  let shift := Nat.log2 (n * 2 ^ 149 / d) - 23
  roundHalfEven (n * 2 ^ 149) (d * 2 ^ shift) * 2 ^ shift

theorem roundHalfEven_mul {k : ℕ} (hk : 0 < k) (n d : ℕ) :
    roundHalfEven (k * n) (k * d) = roundHalfEven n d := by
  have hlt : 2 * (k * (n % d)) < k * d ↔ 2 * (n % d) < d := by
    rw [Nat.mul_left_comm]
    exact Nat.mul_lt_mul_left hk
  have heq : 2 * (k * (n % d)) = k * d ↔ 2 * (n % d) = d := by
    rw [Nat.mul_left_comm]
    exact Nat.mul_right_inj (Nat.pos_iff_ne_zero.1 hk)
  simp only [roundHalfEven, Nat.mul_div_mul_left n d hk, Nat.mul_mod_mul_left, hlt, heq]

/-- A quotient in other terms is rounded to the same number. -/
theorem roundUnits_mul {k : ℕ} (hk : 0 < k) (n d : ℕ) :
    roundUnits (k * n) (k * d) = roundUnits n d := by
  have hunits : k * n * 2 ^ 149 = k * (n * 2 ^ 149) := Nat.mul_assoc _ _ _
  rw [roundUnits, roundUnits, hunits, Nat.mul_div_mul_left _ _ hk]
  simp only [Nat.mul_assoc k d, roundHalfEven_mul hk]

/-- Rounding moves a quotient by one at most. -/
theorem roundHalfEven_bounds {n d : ℕ} (hd : 0 < d) :
    d * roundHalfEven n d ≤ n + d ∧ n ≤ d * roundHalfEven n d + d := by
  have hdiv := Nat.div_add_mod n d
  have hmod := Nat.mod_lt n hd
  unfold roundHalfEven
  dsimp only
  split_ifs
  · omega
  · rw [Nat.mul_succ]
    omega

/-- Up to one the units are at most the last of 24 bits away. -/
theorem roundUnits_bounds {n d : ℕ} (hd : 0 < d) (h : n ≤ d) :
    d * roundUnits n d ≤ n * 2 ^ 149 + d * 2 ^ 126 ∧
      n * 2 ^ 149 ≤ d * roundUnits n d + d * 2 ^ 126 := by
  have hquotient : n * 2 ^ 149 / d ≤ 2 ^ 149 := by
    refine Nat.div_le_of_le_mul ?_
    exact Nat.mul_le_mul_right _ h
  have hlog : Nat.log2 (n * 2 ^ 149 / d) - 23 ≤ 126 := by
    by_cases hzero : n * 2 ^ 149 / d = 0
    · rw [hzero]
      decide
    · have hlt : Nat.log2 (n * 2 ^ 149 / d) < 150 :=
        (Nat.log2_lt hzero).2 (Nat.lt_of_le_of_lt hquotient (by decide))
      omega
  rw [roundUnits]
  generalize Nat.log2 (n * 2 ^ 149 / d) - 23 = shift at hlog
  have hshift : d * 2 ^ shift ≤ d * 2 ^ 126 :=
    Nat.mul_le_mul_left _ (Nat.pow_le_pow_right Nat.two_pos hlog)
  have hbounds := @roundHalfEven_bounds (n * 2 ^ 149) (d * 2 ^ shift)
    (Nat.mul_pos hd (Nat.pow_pos Nat.two_pos))
  rw [Nat.mul_comm (roundHalfEven _ _), ← Nat.mul_assoc]
  omega

/-- Quotients up to one with a small denominator are told apart. -/
theorem roundUnits_lt_of_lt {j k d : ℕ} (hk : k ≤ d) (hd : d < 2 ^ 22) (h : j < k) :
    roundUnits j d < roundUnits k d := by
  have hpos : 0 < d := by omega
  have hj := (roundUnits_bounds hpos (Nat.le_trans (Nat.le_of_lt h) hk)).1
  have hk := (roundUnits_bounds hpos hk).2
  have hgap : (j + 1) * 2 ^ 149 ≤ k * 2 ^ 149 := Nat.mul_le_mul_right _ h
  have hlt : d * roundUnits j d < d * roundUnits k d := by omega
  exact Nat.lt_of_mul_lt_mul_left hlt

def signed (negative : Bool) (units : ℕ) : Value := .num (if negative then -units else units)

def ofRatio (negative : Bool) (n d : ℕ) : Value :=
  signed negative (min (roundUnits n d) infinity)

/-! ### Texts -/

/-- A sign, if there is one: whether it is a minus, and what stands behind it. -/
def readSign : List Char → Bool × List Char
  | '-' :: s => (true, s)
  | '+' :: s => (false, s)
  | s => (false, s)

instance (s : List Char) : Decidable (Decimal.IsNumeral s) :=
  have := List.decidableBAll (fun c : Char => c.isDigit = true) s
  inferInstanceAs (Decidable (_ ∧ _))

/-- What stands behind the digits of a number: its exponent, or nothing. -/
def readExponent : List Char → Option ℤ
  | [] => some 0
  | c :: s =>
      let (negative, digits) := readSign s
      if (c = 'e' ∨ c = 'E') ∧ Decimal.IsNumeral digits then
        some (if negative then -(Decimal.value digits : ℤ) else Decimal.value digits)
      else none

/-- The fraction, behind its point, and what follows it. -/
def readFraction : List Char → List Char × List Char
  | '.' :: s => (s.takeWhile Char.isDigit, s.dropWhile Char.isDigit)
  | s => ([], s)

/-- The numerator and the denominator of a power of ten times a number. -/
def scale (n : ℕ) : ℤ → ℕ × ℕ
  | .ofNat e => (n * 10 ^ e, 1)
  | .negSucc e => (n, 10 ^ (e + 1))

/-- An unsigned number, as a quotient.  There is a digit before the point or behind it. -/
def readNumber (s : List Char) : Option (ℕ × ℕ) :=
  let whole := s.takeWhile Char.isDigit
  let (fraction, rest) := readFraction (s.dropWhile Char.isDigit)
  if whole = [] ∧ fraction = [] then none
  else
    (readExponent rest).map fun e =>
      scale (Decimal.value (whole ++ fraction)) (e - fraction.length)

/-- The names of the values that are not finite, in any case. -/
def readName (negative : Bool) (s : List Char) : Option Value :=
  let name := s.map Char.toLower
  if name = "nan".toList then some .nan
  else if name = "inf".toList ∨ name = "infinity".toList then some (signed negative infinity)
  else none

/-- `parse::<f32>`. -/
def parse (s : List Char) : Option Value :=
  let (negative, s) := readSign s
  match readNumber s with
  | some (n, d) => some (ofRatio negative n d)
  | none => readName negative s

example : parse "0.5".toList = some (.num (2 ^ 148)) ∧ parse "1e-50".toList = some (.num 0) ∧
    parse "-Inf".toList = some (.num (-2 ^ 277)) ∧ parse "1.e".toList = none := by decide +kernel

end Binary32
