/-
**Days and dates are each other's inverse.**

`unix_days_to_civil` and `days_since_epoch` do not share their arithmetic.  The day that is so many
days after the beginning of 1970 is the date that the first computes, the second counts these days
again, and the next day is the next date of the calendar.  This holds of the formulas over the
integers without a bound, and of the functions on `i64` as long as the days are no more than
`2 ^ 60`.

Main definitions:

* `OxiHttp.unixDaysToCivil64` — `unix_days_to_civil` with the overflows of `i64`;
* `OxiHttp.exactDaysSinceEpoch` — `days_since_epoch` without them.

Main results:

* `OxiHttp.unixDaysToCivil64_eq` — nothing overflows up to `2 ^ 60` days;
* `OxiHttp.civil_inverse` — the two directions.
-/

import OxiHttp.CivilDays

set_option relaxedAutoImplicit false
set_option autoImplicit false

namespace OxiHttp

/-! ### Both functions in both arithmetics -/

/-- `unix_days_to_civil` on `i64`.  The dividends of `/` are not negative. -/
def unixDaysToCivil64 (days : ℤ) : Except DateStop (ℤ × ℤ × ℤ) := do
  let z ← i64 (days + 719468)
  let era := z / 146097
  let doe := z % 146097
  -- `(doe - doe / 1460 + doe / 36524 - doe / 146096) / 365`
  let yoe ← i64 (doe - doe / 1460)
  let yoe ← i64 (yoe + doe / 36524)
  let yoe ← i64 (yoe - doe / 146096)
  let yoe := yoe / 365
  let y ← i64 (era * 400)
  let y ← i64 (yoe + y)
  -- `doe - (365 * yoe + yoe / 4 - yoe / 100)`
  let doy ← i64 (365 * yoe)
  let doy ← i64 (doy + yoe / 4)
  let doy ← i64 (doy - yoe / 100)
  let doy ← i64 (doe - doy)
  -- `(5 * doy + 2) / 153`
  let mp ← i64 (5 * doy)
  let mp ← i64 (mp + 2)
  let mp := mp / 153
  -- `doy - (153 * mp + 2) / 5 + 1`
  let d ← i64 (153 * mp)
  let d ← i64 (d + 2)
  let d ← i64 (doy - d / 5)
  let d ← i64 (d + 1)
  let m ← if mp < 10 then i64 (mp + 3) else i64 (mp - 9)
  let y ← if m ≤ 2 then i64 (y + 1) else .ok y
  return (y, m, d)

/-- `days_since_epoch` on the integers. -/
def exactDaysSinceEpoch (year month day : ℤ) : Option ℤ :=
  let result := marchDays year month day
  if result < 0 then none else some result

/-- The year, the month and the day of a date. -/
def civil (date : Gregorian.Date) : ℤ × ℤ × ℤ := (date.year, date.month, date.day)

/-- Nothing overflows up to `2 ^ 60` days. -/
theorem unixDaysToCivil64_eq {days : ℤ} (h : 0 ≤ days) (h' : days ≤ 2 ^ 60) :
    unixDaysToCivil64 days = .ok (unixDaysToCivil days) := by
  have hera : 0 ≤ (days + 719468) / 146097 ∧ (days + 719468) / 146097 < 2 ^ 44 := by omega
  have hdoe : 0 ≤ (days + 719468) % 146097 ∧ (days + 719468) % 146097 < 146097 := by omega
  unfold unixDaysToCivil64 unixDaysToCivil
  dsimp only
  rw [i64_bind (by omega) (by omega)]
  generalize (days + 719468) / 146097 = era at hera
  generalize (days + 719468) % 146097 = doe at hdoe
  rw [i64_bind (by omega) (by omega), i64_bind (by omega) (by omega),
    i64_bind (by omega) (by omega)]
  have hyoe : 0 ≤ (doe - doe / 1460 + doe / 36524 - doe / 146096) / 365 ∧
      (doe - doe / 1460 + doe / 36524 - doe / 146096) / 365 < 401 := by omega
  generalize (doe - doe / 1460 + doe / 36524 - doe / 146096) / 365 = yoe at hyoe
  rw [i64_bind (by omega) (by omega), i64_bind (by omega) (by omega),
    i64_bind (by omega) (by omega), i64_bind (by omega) (by omega), i64_bind (by omega) (by omega),
    i64_bind (by omega) (by omega)]
  have hdoy : -2 ^ 20 ≤ doe - (365 * yoe + yoe / 4 - yoe / 100) ∧
      doe - (365 * yoe + yoe / 4 - yoe / 100) < 2 ^ 20 := by omega
  generalize doe - (365 * yoe + yoe / 4 - yoe / 100) = doy at hdoy
  rw [i64_bind (by omega) (by omega), i64_bind (by omega) (by omega)]
  have hmp : -2 ^ 20 ≤ (5 * doy + 2) / 153 ∧ (5 * doy + 2) / 153 < 2 ^ 20 := by omega
  generalize (5 * doy + 2) / 153 = mp at hmp
  rw [i64_bind (by omega) (by omega), i64_bind (by omega) (by omega),
    i64_bind (by omega) (by omega), i64_bind (by omega) (by omega)]
  split_ifs with hten hearly hearly <;>
    rw [i64_bind (by omega) (by omega)]
  · rw [if_pos hearly, i64_bind (by omega) (by omega)]
    rfl
  · rw [if_neg hearly]
    rfl
  · rw [if_pos hearly, i64_bind (by omega) (by omega)]
    rfl
  · rw [if_neg hearly]
    rfl

/-! ### The dates from 1970 on -/

open Gregorian (Date unixEpoch daysBeforeYear)

/-- The date that is so many days after the beginning of 1970. -/
def dateOfDay (d : ℕ) : Date := Date.next^[d] unixEpoch

theorem dateOfDay_succ (d : ℕ) : dateOfDay (d + 1) = (dateOfDay d).next :=
  Function.iterate_succ_apply' _ _ _

theorem ordinal_dateOfDay (d : ℕ) : (dateOfDay d).ordinal = unixEpoch.ordinal + d :=
  Date.ordinal_iterate_next _ _

theorem year_dateOfDay (d : ℕ) : 1970 ≤ (dateOfDay d).year :=
  Date.year_le_iterate_next unixEpoch d

/-- From 1970 on a date is some days after the beginning of 1970. -/
theorem exists_ordinal_eq {date : Date} (h : 1970 ≤ date.year) :
    ∃ d : ℕ, date.ordinal = unixEpoch.ordinal + d := by
  have hyears : daysBeforeYear (1969 + 1) ≤ date.ordinal :=
    (Gregorian.daysBeforeYear_mono h).trans date.daysBeforeYear_le_ordinal
  have hcount := Gregorian.daysBeforeYear_succ_eq 1969
  refine Nat.exists_eq_add_of_le ?_
  rw [Gregorian.ordinal_unixEpoch]
  omega

/-- Within `2 ^ 60` days there are less than `2 ^ 52` years. -/
theorem year_lt_of_ordinal {date : Date} {d : ℕ} (h : date.ordinal = unixEpoch.ordinal + d)
    (hd : d ≤ 2 ^ 60) : date.year < 2 ^ 52 := by
  have hyears := date.daysBeforeYear_le_ordinal
  rw [h, Gregorian.ordinal_unixEpoch] at hyears
  cases hy : date.year with
  | zero => omega
  | succ y =>
      have hcount := Gregorian.daysBeforeYear_succ_eq y
      rw [hy] at hyears
      omega

section

variable {date : Date} {d : ℕ} (hyear : 1970 ≤ date.year)
  (hd : date.ordinal = unixEpoch.ordinal + d)

include hyear hd

theorem marchDays_of_ordinal : marchDays date.year date.month date.day = d := by
  rw [marchDays_date date (by omega), hd]
  push_cast
  omega

theorem unixDaysToCivil_of_ordinal : unixDaysToCivil d = civil date := by
  have hcivil := unixDaysToCivil_ordinal date (by omega)
  have hdays : (date.ordinal : ℤ) - unixEpoch.ordinal = d := by
    rw [hd]
    push_cast
    omega
  rw [hdays] at hcivil
  rw [hcivil, civil]

theorem exactDaysSinceEpoch_of_ordinal :
    exactDaysSinceEpoch date.year date.month date.day = some (d : ℤ) := by
  rw [exactDaysSinceEpoch, marchDays_of_ordinal hyear hd]
  exact if_neg (by omega)

/-- On `i64` it is the same up to `2 ^ 60` days. -/
theorem civil64_of_ordinal (hle : d ≤ 2 ^ 60) :
    unixDaysToCivil64 d = .ok (civil date) ∧
      daysSinceEpoch date.year date.month date.day = .ok (d : ℤ) := by
  have hlt := year_lt_of_ordinal hd hle
  have hmonth := date.month_pos
  have hmonth' := date.month_le
  have hday := date.day_pos
  have hday' := date.day_le.trans (Gregorian.monthLength_le _ _)
  constructor
  · rw [unixDaysToCivil64_eq (by omega) (by omega), unixDaysToCivil_of_ordinal hyear hd]
  · rw [daysSinceEpoch_eq (by omega) (by omega) (by omega) (by omega) (by omega),
      marchDays_of_ordinal hyear hd]

end

/-- Each day from the beginning of 1970 on has a date of the calendar, which counts that many days;
the date of the next day is the next date; and each date from 1970 on is that of the days that it
counts.  The functions on `i64` agree up to `2 ^ 60` days. -/
theorem civil_inverse :
    (∀ d : ℕ, ∃ date : Date, unixDaysToCivil d = civil date ∧
      unixDaysToCivil ((d + 1 : ℕ) : ℤ) = civil date.next ∧
      exactDaysSinceEpoch date.year date.month date.day = some (d : ℤ) ∧
      (d ≤ 2 ^ 60 → unixDaysToCivil64 d = .ok (civil date) ∧
        daysSinceEpoch date.year date.month date.day = .ok (d : ℤ))) ∧
    (∀ date : Date, 1970 ≤ date.year → ∃ d : ℕ,
      exactDaysSinceEpoch date.year date.month date.day = some (d : ℤ) ∧
      unixDaysToCivil d = civil date ∧
      (d ≤ 2 ^ 60 → daysSinceEpoch date.year date.month date.day = .ok (d : ℤ) ∧
        unixDaysToCivil64 d = .ok (civil date))) := by
  constructor
  · intro d
    have hyear := year_dateOfDay d
    have hd := ordinal_dateOfDay d
    refine ⟨dateOfDay d, unixDaysToCivil_of_ordinal hyear hd, ?_,
      exactDaysSinceEpoch_of_ordinal hyear hd, civil64_of_ordinal hyear hd⟩
    rw [← dateOfDay_succ]
    exact unixDaysToCivil_of_ordinal (year_dateOfDay _) (ordinal_dateOfDay _)
  · intro date hyear
    obtain ⟨d, hd⟩ := exists_ordinal_eq hyear
    exact ⟨d, exactDaysSinceEpoch_of_ordinal hyear hd, unixDaysToCivil_of_ordinal hyear hd,
      fun hle => (civil64_of_ordinal hyear hd hle).symm⟩

example : unixDaysToCivil 11016 = (2000, 2, 29) := by decide

end OxiHttp
