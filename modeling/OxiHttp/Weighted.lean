/-
**Lists with weights.**

RFC 9110 §5.6.1, §12.4.2: the elements of a list are separated by commas, with optional white space
around them, and some may be empty.  Behind an element a semicolon, with optional white space around
it, and the letter `q` give it a weight: a number from zero to one with at most three decimals.

Main definitions:

* `Weighted.Qvalue`, `Weighted.Weight`, `Weighted.Element`, `Weighted.Piece` — weights, elements and
  lists, with the text of each;
* `Weighted.Element.thousandths` — the weight of an element.

Main results:

* `Weighted.splitOn_text` — the pieces between the commas are those of the list;
* `Weighted.Qvalue.parse_text` — the number that a weight is read as;
* `Weighted.units_lt_iff` — these numbers are in the order of the weights.
-/

import OxiHttp.Binary32
import OxiHttp.FieldList
import OxiHttp.FieldParameters

set_option relaxedAutoImplicit false
set_option autoImplicit false

namespace Weighted

/-! ### Weights -/

/-- A number from zero to one with at most three decimals. -/
structure Qvalue where
  one : Bool
  /-- What stands behind the point. -/
  fraction : Option (List Char) := none
  short : ∀ f ∈ fraction, f.length ≤ 3
  digits : ∀ f ∈ fraction, ∀ c ∈ f, c.isDigit = true
  limit : one = true → ∀ f ∈ fraction, ∀ c ∈ f, c = '0'

namespace Qvalue

/-- The digit in front of the point. -/
def whole (q : Qvalue) : Char := if q.one then '1' else '0'

/-- The digits behind it, if there are any. -/
def decimals (q : Qvalue) : List Char := q.fraction.getD []

/-- The text of the number. -/
def text (q : Qvalue) : List Char :=
  q.whole ::
    match q.fraction with
    | some f => '.' :: f
    | none => []

/-- The number in thousandths. -/
def thousandths (q : Qvalue) : ℕ :=
  (if q.one then 1000 else 0) + Decimal.value q.decimals * 10 ^ (3 - q.decimals.length)

end Qvalue

/-- A weight behind an element. -/
structure Weight where
  before : List Char
  after : List Char
  /-- The letter is a capital one. -/
  capital : Bool
  value : Qvalue
  before_ows : ∀ c ∈ before, FieldList.isOws c = true
  after_ows : ∀ c ∈ after, FieldList.isOws c = true

/-- The weight behind its semicolon. -/
def Weight.param (w : Weight) : List Char := (if w.capital then 'Q' else 'q') :: '=' :: w.value.text

def Weight.text (w : Weight) : List Char := w.before ++ ';' :: (w.after ++ w.param)

/-- A weight of zero. -/
def Weight.zero : Weight where
  before := []
  after := []
  capital := false
  value := ⟨false, none, by simp, by simp, by simp⟩
  before_ows := by simp
  after_ows := by simp

/-! ### Lists -/

/-- A character of the name of an element: of a token, or a slash between two. -/
def isNameChar (c : Char) : Bool := Parameters.isTchar c || c = '/'

/-- An element, with the white space around it. -/
structure Element where
  lead : List Char
  name : List Char
  weight : Option Weight
  trail : List Char
  lead_ows : ∀ c ∈ lead, FieldList.isOws c = true
  name_ne : name ≠ []
  name_chars : ∀ c ∈ name, isNameChar c = true
  trail_ows : ∀ c ∈ trail, FieldList.isOws c = true

namespace Element

/-- An element with no white space around it. -/
def bare (name : List Char) (weight : Option Weight)
    (h : name ≠ [] ∧ name.all isNameChar = true) : Element where
  lead := []
  name := name
  weight := weight
  trail := []
  lead_ows := List.forall_mem_nil _
  name_ne := h.1
  name_chars := List.all_eq_true.1 h.2
  trail_ows := List.forall_mem_nil _

/-- The element without the white space around it. -/
def core (e : Element) : List Char :=
  e.name ++ match e.weight with
    | some w => w.text
    | none => []

def text (e : Element) : List Char := e.lead ++ e.core ++ e.trail

/-- The weight of the element, in thousandths; without one it is one. -/
def thousandths (e : Element) : ℕ :=
  match e.weight with
  | some w => w.value.thousandths
  | none => 1000

end Element

/-- What stands between two commas. -/
inductive Piece where
  | blank (ows : List Char) (h : ∀ c ∈ ows, FieldList.isOws c = true)
  | element (e : Element)

def Piece.text : Piece → List Char
  | .blank ows _ => ows
  | .element e => e.text

/-- The text of a list. -/
def text (pieces : List Piece) : List Char := [','].intercalate (pieces.map Piece.text)

/-- The elements of a list. -/
def elements (pieces : List Piece) : List Element :=
  pieces.filterMap fun
    | .blank _ _ => none
    | .element e => some e

/-! ### The characters -/

theorem Qvalue.isDigit_whole (q : Qvalue) : q.whole.isDigit = true := by
  unfold whole
  cases q.one <;> rfl

theorem Qvalue.mem_text {q : Qvalue} {c : Char} (h : c ∈ q.text) : c.isDigit = true ∨ c = '.' := by
  rw [text] at h
  rcases List.mem_cons.1 h with rfl | h
  · exact .inl q.isDigit_whole
  · cases hf : q.fraction with
    | none =>
        rw [hf] at h
        cases h
    | some f =>
        rw [hf] at h
        rcases List.mem_cons.1 h with rfl | h
        · exact .inr rfl
        · exact .inl (q.digits f hf c h)

/-- A name is made of printing characters. -/
theorem toNat_of_isNameChar {c : Char} (h : isNameChar c = true) :
    33 ≤ c.toNat ∧ c.toNat ≤ 126 := by
  rcases Bool.or_eq_true_iff.1 h with h | h
  · exact Parameters.toNat_of_isTchar h
  · rw [of_decide_eq_true h]
    exact ⟨by decide, by decide⟩

theorem comma_notMem_ows {s : List Char} (h : ∀ c ∈ s, FieldList.isOws c = true) : ',' ∉ s :=
  fun hmem => absurd (h _ hmem) (by decide)

theorem comma_notMem_weight (w : Weight) : ',' ∉ w.text := by
  have hvalue : ',' ∉ w.value.text := fun h => absurd (Qvalue.mem_text h) (by decide)
  have hletter : ',' ≠ if w.capital then 'Q' else 'q' := by cases w.capital <;> decide
  simp only [Weight.text, Weight.param, List.mem_append, List.mem_cons, not_or]
  exact ⟨comma_notMem_ows w.before_ows, by decide, comma_notMem_ows w.after_ows, hletter,
    by decide, hvalue⟩

theorem comma_notMem_piece (p : Piece) : ',' ∉ p.text := by
  cases p with
  | blank ows h => exact comma_notMem_ows h
  | element e =>
      have hname : ',' ∉ e.name := fun h => absurd (e.name_chars _ h) (by decide)
      rw [Piece.text, Element.text, List.mem_append, List.mem_append, not_or, not_or]
      refine ⟨⟨comma_notMem_ows e.lead_ows, ?_⟩, comma_notMem_ows e.trail_ows⟩
      cases hweight : e.weight with
      | none => simpa [Element.core, hweight] using hname
      | some w => simpa [Element.core, hweight] using ⟨hname, comma_notMem_weight w⟩

/-- The pieces between the commas are those of the list. -/
theorem splitOn_text {pieces : List Piece} (h : pieces ≠ []) :
    (text pieces).splitOn ',' = pieces.map Piece.text := by
  refine List.splitOn_intercalate ',' (fun l hl => ?_) (by simpa using h)
  obtain ⟨p, -, rfl⟩ := List.mem_map.1 hl
  exact comma_notMem_piece p

/-! ### The numbers -/

/-- The units of a number of thousandths. -/
def units (k : ℕ) : ℕ := Binary32.roundUnits k 1000

/-- More thousandths are more units. -/
theorem units_lt_of_lt {j k : ℕ} (hk : k ≤ 1000) (h : j < k) : units j < units k :=
  Binary32.roundUnits_lt_of_lt hk (by omega) h

/-- The numbers are in the order of the weights. -/
theorem units_lt_iff {j k : ℕ} (hj : j ≤ 1000) (hk : k ≤ 1000) : units j < units k ↔ j < k := by
  constructor
  · intro h
    by_contra hnot
    rcases Nat.lt_or_eq_of_le (Nat.not_lt.1 hnot) with hlt | rfl
    · exact absurd (units_lt_of_lt hj hlt) (by omega)
    · omega
  · exact units_lt_of_lt hk

theorem units_zero : units 0 = 0 := by decide +kernel

theorem units_thousand : units 1000 = 2 ^ 149 := by decide +kernel

theorem units_le {k : ℕ} (hk : k ≤ 1000) : units k ≤ 2 ^ 149 := by
  rw [← units_thousand]
  rcases Nat.lt_or_eq_of_le hk with h | rfl
  · exact (units_lt_of_lt le_rfl h).le
  · exact le_rfl

namespace Qvalue

variable (q : Qvalue)

theorem decimals_digits : ∀ c ∈ q.decimals, c.isDigit = true := by
  intro c hc
  cases hf : q.fraction with
  | none => simp [decimals, hf] at hc
  | some f => exact q.digits f hf c (by simpa [decimals, hf] using hc)

theorem length_decimals : q.decimals.length ≤ 3 := by
  cases hf : q.fraction with
  | none => simp [decimals, hf]
  | some f => simpa [decimals, hf] using q.short f hf

/-- The unit of the last place that is written. -/
theorem pow_mul_pow : 10 ^ q.decimals.length * 10 ^ (3 - q.decimals.length) = 1000 := by
  rw [← Nat.pow_add, Nat.add_sub_cancel' q.length_decimals]

/-- No weight is greater than one. -/
theorem thousandths_le : q.thousandths ≤ 1000 := by
  unfold thousandths
  cases hone : q.one with
  | true =>
      have hzero : q.decimals = List.replicate q.decimals.length '0' := by
        refine List.eq_replicate_of_mem fun c hc => ?_
        cases hf : q.fraction with
        | none => simp [decimals, hf] at hc
        | some f => exact q.limit hone f hf c (by simpa [decimals, hf] using hc)
      have hvalue : Decimal.value q.decimals = 0 := by
        rw [hzero, Decimal.value, Nat.ofDigitChars_replicate_zero, Nat.mul_zero]
      simp [hvalue]
  | false =>
      have hlt := Decimal.value_lt_pow q.decimals_digits
      have hmul := Nat.mul_le_mul_right (10 ^ (3 - q.decimals.length)) hlt.le
      rw [q.pow_mul_pow] at hmul
      simpa using hmul

theorem readNumber_text : Binary32.readNumber q.text =
    some (Binary32.scale (Decimal.value (q.whole :: q.decimals)) (0 - q.decimals.length)) := by
  have hwhole := q.isDigit_whole
  cases hf : q.fraction with
  | none =>
      have htext : q.text = [q.whole] := by simp [text, hf]
      have hdecimals : q.decimals = [] := by simp [decimals, hf]
      simp [Binary32.readNumber, htext, hdecimals, hwhole, Binary32.readFraction,
        Binary32.readExponent]
  | some f =>
      have htext : q.text = q.whole :: '.' :: f := by simp [text, hf]
      have hdecimals : q.decimals = f := by simp [decimals, hf]
      have hpoint : ('.' : Char).isDigit = false := rfl
      have htake : f.takeWhile Char.isDigit = f := List.takeWhile_eq_self_iff.2 (q.digits f hf)
      have hdrop : f.dropWhile Char.isDigit = [] := List.dropWhile_eq_nil_iff.2 (q.digits f hf)
      simp [Binary32.readNumber, htext, hdecimals, hwhole, hpoint, Binary32.readFraction, htake,
        hdrop, Binary32.readExponent]

theorem readSign_text : Binary32.readSign q.text = (false, q.text) := by
  unfold text whole
  cases q.one <;> rfl

/-- The quotient that is read is the weight. -/
theorem roundUnits_scale :
    let (n, d) := Binary32.scale (Decimal.value (q.whole :: q.decimals)) (0 - q.decimals.length)
    Binary32.roundUnits n d = units q.thousandths := by
  have hscale : Binary32.scale (Decimal.value (q.whole :: q.decimals)) (0 - q.decimals.length) =
      (Decimal.value (q.whole :: q.decimals), 10 ^ q.decimals.length) := by
    cases q.decimals.length with
    | zero => simp [Binary32.scale]
    | succ n =>
        have hneg : (0 : ℤ) - (n + 1 : ℕ) = .negSucc n := by omega
        rw [hneg, Binary32.scale]
  have hdigit : q.whole.toNat - '0'.toNat = if q.one then 1 else 0 := by
    unfold whole
    cases q.one <;> rfl
  have hvalue : 10 ^ (3 - q.decimals.length) * Decimal.value (q.whole :: q.decimals) =
      q.thousandths := by
    rw [Decimal.value_cons, hdigit, Nat.mul_add, ← Nat.mul_assoc, Nat.mul_comm (10 ^ (3 - _)),
      q.pow_mul_pow, thousandths, Nat.mul_comm _ (Decimal.value _)]
    cases q.one <;> rfl
  have hden : 10 ^ (3 - q.decimals.length) * 10 ^ q.decimals.length = 1000 := by
    rw [Nat.mul_comm, q.pow_mul_pow]
  rw [hscale]
  calc Binary32.roundUnits (Decimal.value (q.whole :: q.decimals)) (10 ^ q.decimals.length)
      = Binary32.roundUnits (10 ^ (3 - q.decimals.length) * Decimal.value (q.whole :: q.decimals))
          (10 ^ (3 - q.decimals.length) * 10 ^ q.decimals.length) :=
        (Binary32.roundUnits_mul (Nat.pow_pos (by decide)) _ _).symm
    _ = units q.thousandths := by rw [hvalue, hden, units]

/-- A weight is read as the number nearest to it. -/
theorem parse_text : Binary32.parse q.text = some (.num (units q.thousandths)) := by
  have hle : units q.thousandths ≤ Binary32.infinity :=
    (units_le q.thousandths_le).trans (Binary32.pow_le_infinity (by omega))
  have hround := q.roundUnits_scale
  rw [Binary32.parse, readSign_text]
  dsimp only
  rw [readNumber_text]
  dsimp only at hround ⊢
  rw [Binary32.ofRatio, hround, Nat.min_eq_left hle]
  rfl

end Qvalue

end Weighted
