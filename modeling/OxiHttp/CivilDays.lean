/-
**Dates and days.**

The server turns a date into the number of days since the beginning of 1970 and back with a year
that begins in March, so that the leap day is its last.  The numbers of a date come from a client
and may be any `u32`; the arithmetic is that of `i64` and `u64`, where an overflow stops the
program.

Main definitions:

* `OxiHttp.DateStop` — why there is no result: a refusal, or an overflow;
* `OxiHttp.daysSinceEpoch`, `OxiHttp.dateToUnix` — `days_since_epoch` and `date_to_unix`;
* `OxiHttp.unixDaysToCivil` — `unix_days_to_civil`.

Main results:

* `OxiHttp.dateToUnix_eq` — there is no overflow, and what comes out is `OxiHttp.marchDays`;
* `OxiHttp.marchDays_date` — which counts the days of the calendar;
* `OxiHttp.unixDaysToCivil_ordinal` — and back.
-/

import OxiHttp.HttpDate
import Mathlib.Tactic.IntervalCases

set_option relaxedAutoImplicit false
set_option autoImplicit false

namespace OxiHttp

/-! ### Machine integers -/

/-- Why a date has no result: it is refused (`None`), or an arithmetic operation overflows. -/
inductive DateStop where
  | refused
  | overflow
deriving DecidableEq, Repr

/-- The result of an operation on `i64`. -/
def i64 (x : ℤ) : Except DateStop ℤ :=
  if -2 ^ 63 ≤ x ∧ x < 2 ^ 63 then .ok x else .error .overflow

/-- The result of an operation on `u64`. -/
def u64 (n : ℕ) : Except DateStop ℕ := if n < 2 ^ 64 then .ok n else .error .overflow

/-- The result of an operation on `u32`. -/
def u32 (n : ℕ) : Except DateStop ℕ := if n < 2 ^ 32 then .ok n else .error .overflow

theorem i64_bind {x : ℤ} (hlow : -2 ^ 63 ≤ x) (hhigh : x < 2 ^ 63) {α : Type}
    (f : ℤ → Except DateStop α) : (i64 x >>= f) = f x := by
  rw [i64, if_pos ⟨hlow, hhigh⟩]
  rfl

theorem ok_bind {α β : Type} (a : α) (f : α → Except DateStop β) : (Except.ok a >>= f) = f a := rfl

theorem u64_bind {n : ℕ} (h : n < 2 ^ 64) {α : Type} (f : ℕ → Except DateStop α) :
    (u64 n >>= f) = f n := by
  rw [u64, if_pos h]
  rfl

theorem u64_ok {n : ℕ} (h : n < 2 ^ 64) : u64 n = .ok n := if_pos h

/-! ### Dates to days -/

/-- The second half of `days_since_epoch`, for a month from March on.  The dividends of `/` are not
negative. -/
def daysOfMarchYear (y m day : ℤ) : Except DateStop ℤ := do
  let era := y / 400
  let yoe := y % 400
  -- `(153 * m + 2) / 5 + day - 1`
  let doy ← i64 (153 * m)
  let doy ← i64 (doy + 2)
  let doy ← i64 (doy / 5 + day)
  let doy ← i64 (doy - 1)
  -- `yoe * 365 + yoe / 4 - yoe / 100 + doy`
  let doe ← i64 (yoe * 365)
  let doe ← i64 (doe + yoe / 4)
  let doe ← i64 (doe - yoe / 100)
  let doe ← i64 (doe + doy)
  -- `era * 146097 + doe - 719468`
  let result ← i64 (era * 146097)
  let result ← i64 (result + doe)
  let result ← i64 (result - 719468)
  if result < 0 then .error .refused else .ok result

/-- `days_since_epoch`. -/
def daysSinceEpoch (year month day : ℤ) : Except DateStop ℤ :=
  if month ≤ 2 then do
    let m ← i64 (month + 9)
    let y ← i64 (year - 1)
    daysOfMarchYear y m day
  else do
    let m ← i64 (month - 3)
    daysOfMarchYear year m day

/-- `date_to_unix`. -/
def dateToUnix (year month day hour min sec : ℕ) : Except DateStop ℕ :=
  if ¬ (1 ≤ month ∧ month ≤ 12) ∨ ¬ (1 ≤ day ∧ day ≤ 31) ∨ year < 1970 then .error .refused
  else do
    let days ← daysSinceEpoch year month day
    -- `days as u64 * 86400 + hour as u64 * 3600 + min as u64 * 60 + sec as u64`
    let dayPart ← u64 (days.toNat * 86400)
    let hourPart ← u64 (hour * 3600)
    let total ← u64 (dayPart + hourPart)
    let minPart ← u64 (min * 60)
    let total ← u64 (total + minPart)
    u64 (total + sec)

/-- The days of a year of an era, and of the years before it. -/
def dayOfEra (yoe doy : ℤ) : ℤ := yoe * 365 + yoe / 4 - yoe / 100 + doy

/-- The days since the beginning of 1970, of a year that begins in March, of a month from March on
and of a day. -/
def marchFormula (y m day : ℤ) : ℤ :=
  y / 400 * 146097 + dayOfEra (y % 400) ((153 * m + 2) / 5 + day - 1) - 719468

/-- The same, of a date of the calendar. -/
def marchDays (year month day : ℤ) : ℤ :=
  if month ≤ 2 then marchFormula (year - 1) (month + 9) day else marchFormula year (month - 3) day

/-- From 1970 on there are no negative days, and not too many. -/
theorem marchFormula_bounds {y m day : ℤ} (hy : 1970 ≤ y ∨ y = 1969 ∧ 10 ≤ m)
    (hm : 0 ≤ m) (hm' : m < 12) (hday : 1 ≤ day) (hday' : day ≤ 31) :
    0 ≤ marchFormula y m day ∧ marchFormula y m day ≤ 366 * y := by
  unfold marchFormula dayOfEra
  rcases hy with hy | ⟨rfl, hm⟩ <;> omega

/-- No operation leaves the range of `i64`. -/
theorem daysOfMarchYear_eq {y m day : ℤ} (hy : 1970 ≤ y ∨ y = 1969 ∧ 10 ≤ m) (hy' : y < 2 ^ 52)
    (hm : 0 ≤ m) (hm' : m < 12) (hday : 1 ≤ day) (hday' : day ≤ 31) :
    daysOfMarchYear y m day = .ok (marchFormula y m day) := by
  obtain ⟨hnonneg, hlt⟩ := marchFormula_bounds hy hm hm' hday hday'
  have hlow : 1969 ≤ y := by omega
  unfold daysOfMarchYear
  unfold marchFormula dayOfEra at *
  generalize hera : y / 400 = era at *
  generalize hyoe : y % 400 = yoe at *
  generalize hdoy : (153 * m + 2) / 5 = doy at *
  rw [i64_bind (by omega) (by omega), i64_bind (by omega) (by omega), hdoy]
  have hdoy' : 0 ≤ doy ∧ doy < 400 := by omega
  have hyoe' : 0 ≤ yoe ∧ yoe < 400 := by omega
  have hera' : 0 ≤ era ∧ era < 2 ^ 44 := by omega
  clear hera hyoe hdoy
  simp (disch := omega) only [i64_bind]
  rw [if_neg (by omega)]

theorem marchDays_bounds (year month day : ℤ) (hyear : 1970 ≤ year)
    (hmonth : 1 ≤ month ∧ month ≤ 12) (hday : 1 ≤ day) (hday' : day ≤ 31) :
    0 ≤ marchDays year month day ∧ marchDays year month day ≤ 366 * year := by
  unfold marchDays
  split_ifs with h
  · have hbounds := @marchFormula_bounds (year - 1) (month + 9) day (by omega) (by omega)
      (by omega) hday hday'
    omega
  · exact marchFormula_bounds (.inl hyear) (by omega) (by omega) hday hday'

theorem daysSinceEpoch_eq {year month day : ℤ} (hyear : 1970 ≤ year) (hyear' : year < 2 ^ 52)
    (hmonth : 1 ≤ month ∧ month ≤ 12) (hday : 1 ≤ day) (hday' : day ≤ 31) :
    daysSinceEpoch year month day = .ok (marchDays year month day) := by
  unfold daysSinceEpoch marchDays
  split_ifs with h
  · rw [i64_bind (by omega) (by omega), i64_bind (by omega) (by omega)]
    exact daysOfMarchYear_eq (by omega) (by omega) (by omega) (by omega) hday hday'
  · rw [i64_bind (by omega) (by omega)]
    exact daysOfMarchYear_eq (.inl hyear) hyear' (by omega) (by omega) hday hday'

/-- With numbers that are `u32` nothing overflows, and days up to the 31st of any month are
counted. -/
theorem dateToUnix_eq {year month hour min sec : ℕ} (day : ℕ) (hyear : year < 2 ^ 32)
    (hmonth : 1 ≤ month ∧ month ≤ 12) (hhour : hour < 2 ^ 32) (hmin : min < 2 ^ 32)
    (hsec : sec < 2 ^ 32) :
    dateToUnix year month day hour min sec =
      if 1970 ≤ year ∧ 1 ≤ day ∧ day ≤ 31 then
        .ok ((marchDays year month day).toNat * 86400 + hour * 3600 + min * 60 + sec)
      else .error .refused := by
  unfold dateToUnix
  by_cases h : 1970 ≤ year ∧ 1 ≤ day ∧ day ≤ 31
  · obtain ⟨hlow, hday, hday'⟩ := h
    have hbounds := marchDays_bounds year month day (by omega) (by omega) (by omega) (by omega)
    rw [if_neg (by omega), if_pos ⟨hlow, hday, hday'⟩, daysSinceEpoch_eq (by omega) (by omega)
      (by omega) (by omega) (by omega)]
    have hdays : (marchDays year month day).toNat < 2 ^ 41 := by omega
    rw [ok_bind, u64_bind, u64_bind, u64_bind, u64_bind, u64_bind, u64_ok] <;> omega
  · rw [if_pos (by omega), if_neg h]

/-! ### The days of the calendar -/

open Gregorian (IsLeap yearLength monthLength daysBeforeYear daysBeforeMonth)

/-- The days of a year before a month from March on. -/
theorem daysBeforeMonth_eq {y m : ℕ} (hm : m < 10) :
    daysBeforeMonth y (m + 3) = 31 + monthLength y 2 + (153 * m + 2) / 5 := by
  have hlong : monthLength y 1 = 31 ∧ monthLength y 3 = 31 ∧ monthLength y 5 = 31 ∧
      monthLength y 7 = 31 ∧ monthLength y 8 = 31 ∧ monthLength y 10 = 31 :=
    ⟨rfl, rfl, rfl, rfl, rfl, rfl⟩
  have hshort : monthLength y 4 = 30 ∧ monthLength y 6 = 30 ∧ monthLength y 9 = 30 ∧
      monthLength y 11 = 30 := ⟨rfl, rfl, rfl, rfl⟩
  interval_cases m <;> simp only [daysBeforeMonth, Nat.reduceAdd] <;> omega

/-- Eras aside, the leap years are counted. -/
theorem marchFormula_eq (y m day : ℤ) : marchFormula y m day
    = 365 * y + y / 4 - y / 100 + y / 400 + (153 * m + 2) / 5 + day - 719469 := by
  have hquad : y % 400 / 4 = y / 4 - y / 400 * 100 := by omega
  have hcentury : y % 400 / 100 = y / 100 - y / 400 * 4 := by omega
  unfold marchFormula dayOfEra
  rw [hquad, hcentury]
  omega

/-- The code counts the days of the calendar. -/
theorem marchDays_date (d : Gregorian.Date) (h : 1 ≤ d.year) :
    marchDays d.year d.month d.day = (d.ordinal : ℤ) - Gregorian.unixEpoch.ordinal := by
  have hmonth := d.month_pos
  have hday := d.day_pos
  rw [Gregorian.ordinal_unixEpoch, Gregorian.Date.ordinal]
  unfold marchDays
  rw [marchFormula_eq, marchFormula_eq]
  split_ifs with hjanuary
  · obtain ⟨y, hy⟩ : ∃ y, d.year = y + 1 := ⟨d.year - 1, by omega⟩
    have hyears := Gregorian.daysBeforeYear_succ_eq y
    have hfirst : daysBeforeMonth d.year d.month = 31 * (d.month - 1) := by
      obtain hone | htwo : d.month = 1 ∨ d.month = 2 := by omega
      · rw [hone]
        rfl
      · rw [htwo]
        rfl
    have hcast : ((y + 1 : ℕ) : ℤ) - 1 = y := by omega
    rw [hfirst, hy, hcast]
    omega
  · obtain ⟨m, hm⟩ : ∃ m, d.month = m + 3 := ⟨d.month - 3, by omega⟩
    have hle := d.month_le
    have hyears := Gregorian.daysBeforeYear_succ_eq d.year
    have hcast : ((m + 3 : ℕ) : ℤ) - 3 = m := by omega
    rw [daysBeforeYear, yearLength] at hyears
    rw [hm, daysBeforeMonth_eq (by omega), monthLength, if_pos rfl, hcast]
    by_cases hyear : IsLeap d.year
    · rw [if_pos hyear] at hyears ⊢
      omega
    · rw [if_neg hyear] at hyears ⊢
      omega

/-! ### Days to dates -/

/-- `unix_days_to_civil`.  The dividends of `/` are not negative. -/
def unixDaysToCivil (days : ℤ) : ℤ × ℤ × ℤ :=
  let z := days + 719468
  let era := z / 146097
  let doe := z % 146097
  let yoe := (doe - doe / 1460 + doe / 36524 - doe / 146096) / 365
  let y := yoe + era * 400
  let doy := doe - (365 * yoe + yoe / 4 - yoe / 100)
  let mp := (5 * doy + 2) / 153
  let d := doy - (153 * mp + 2) / 5 + 1
  let m := if mp < 10 then mp + 3 else mp - 9
  let y := if m ≤ 2 then y + 1 else y
  (y, m, d)

/-- The year of a day of an era. -/
theorem yearOfEra_eq (yoe : ℤ) {doy : ℤ} (hyoe : 0 ≤ yoe) (hyoe' : yoe < 400) (hdoy : 0 ≤ doy)
    (hdoy' : doy ≤ 364 ∨ doy = 365 ∧ yoe % 4 = 3 ∧ (yoe % 100 ≠ 99 ∨ yoe = 399)) :
    (dayOfEra yoe doy - dayOfEra yoe doy / 1460 + dayOfEra yoe doy / 36524
      - dayOfEra yoe doy / 146096) / 365 = yoe := by
  by_cases hlast : yoe = 399 ∧ doy = 365
  · -- the last day of the era
    obtain ⟨rfl, rfl⟩ := hlast
    decide
  · obtain ⟨c, q, k, hc, hc', hq, hq', hk, hk', rfl⟩ : ∃ c q k : ℤ, 0 ≤ c ∧ c < 4 ∧ 0 ≤ q ∧
        q < 25 ∧ 0 ≤ k ∧ k < 4 ∧ yoe = 100 * c + 4 * q + k :=
      ⟨yoe / 100, yoe % 100 / 4, yoe % 4, by omega, by omega, by omega, by omega, by omega,
        by omega, by omega⟩
    have hdoe : dayOfEra (100 * c + 4 * q + k) doy = 36524 * c + 1461 * q + 365 * k + doy := by
      unfold dayOfEra
      omega
    generalize dayOfEra (100 * c + 4 * q + k) doy = doe at hdoe
    have hmodQuad : (100 * c + 4 * q + k) % 4 = k := by omega
    have hmodCentury : (100 * c + 4 * q + k) % 100 = 4 * q + k := by omega
    rw [hmodQuad, hmodCentury] at hdoy'
    have hlt : 1461 * q + 365 * k + doy < 36524 := by omega
    have hcentury : doe / 36524 = c := by omega
    have hera : doe / 146096 = 0 := by omega
    -- a day too many is taken off only at the end of a leap year
    have hquad : doe / 1460 = 25 * c + q ∨
        doe / 1460 = 25 * c + q + 1 ∧ 365 ≤ 24 * c + q + doy ∧ k = 3 := by omega
    have hleap : doy = 365 → k = 3 := by omega
    rw [hcentury, hera]
    omega

/-- A day of a year that begins in March. -/
structure MarchDay (y m day : ℤ) : Prop where
  month_nonneg : 0 ≤ m
  month_lt : m < 12
  day_pos : 1 ≤ day
  day_le : day ≤ 31
  day_le_short : m = 1 ∨ m = 3 ∨ m = 6 ∨ m = 8 → day ≤ 30
  day_le_february : m = 11 →
    day ≤ 28 ∨ day = 29 ∧ y % 4 = 3 ∧ (y % 100 ≠ 99 ∨ y % 400 = 399)

/-- The month of a day of the year. -/
theorem MarchDay.month_eq {y m day : ℤ} (h : MarchDay y m day) :
    (5 * ((153 * m + 2) / 5 + day - 1) + 2) / 153 = m := by
  obtain ⟨hm, hm', hday, hday', hshort, hfebruary⟩ := h
  interval_cases m <;> omega

theorem unixDaysToCivil_march {y m day : ℤ} (h : MarchDay y m day) :
    unixDaysToCivil (marchFormula y m day)
      = if m < 10 then (y, m + 3, day) else (y + 1, m - 9, day) := by
  have hmonth := h.month_eq
  obtain ⟨hm, hm', hday, hday', hshort, hfebruary⟩ := h
  have hdoy : 0 ≤ (153 * m + 2) / 5 + day - 1 := by omega
  have hdoy' : (153 * m + 2) / 5 + day - 1 ≤ 364 ∨ (153 * m + 2) / 5 + day - 1 = 365 ∧
      y % 400 % 4 = 3 ∧ (y % 400 % 100 ≠ 99 ∨ y % 400 = 399) := by
    interval_cases m <;> omega
  have hyear := yearOfEra_eq (y % 400) (by omega) (by omega) hdoy hdoy'
  unfold unixDaysToCivil marchFormula
  generalize hd : (153 * m + 2) / 5 + day - 1 = doy at *
  have hdoe : 0 ≤ dayOfEra (y % 400) doy ∧ dayOfEra (y % 400) doy < 146097 := by
    unfold dayOfEra
    omega
  have hoff : dayOfEra (y % 400) doy - (365 * (y % 400) + y % 400 / 4 - y % 400 / 100) = doy := by
    unfold dayOfEra
    omega
  generalize dayOfEra (y % 400) doy = doe at *
  have hera : (y / 400 * 146097 + doe - 719468 + 719468) / 146097 = y / 400 := by omega
  have hmod : (y / 400 * 146097 + doe - 719468 + 719468) % 146097 = doe := by omega
  have hback : y % 400 + y / 400 * 400 = y := by omega
  have hday : doy - (153 * m + 2) / 5 + 1 = day := by omega
  dsimp only
  rw [hera, hmod, hyear, hoff, hmonth, hback, hday]
  by_cases hten : m < 10
  · rw [if_pos hten, if_pos hten, if_neg (by omega)]
  · rw [if_neg hten, if_neg hten, if_pos (by omega)]

/-- A date in the year that began in March. -/
theorem marchDay_of_date (d : Gregorian.Date) :
    if d.month ≤ 2 then MarchDay (d.year - 1) (d.month + 9) d.day
    else MarchDay d.year (d.month - 3) d.day := by
  have hmonth := d.month_pos
  have hmonth' := d.month_le
  have hday := d.day_pos
  have hday' := d.day_le.trans (Gregorian.monthLength_le _ _)
  have hshort := d.day_le_short
  split_ifs with hjanuary
  · refine ⟨by omega, by omega, by omega, by omega, by omega, fun hfebruary => ?_⟩
    rcases d.day_le_february (by omega) with hle | ⟨heq, hleap⟩
    · omega
    · obtain ⟨hquad, hcentury⟩ := hleap
      omega
  · exact ⟨by omega, by omega, by omega, by omega, by omega, by omega⟩

/-- The days of the calendar are turned into its dates. -/
theorem unixDaysToCivil_ordinal (d : Gregorian.Date) (h : 1 ≤ d.year) :
    unixDaysToCivil ((d.ordinal : ℤ) - Gregorian.unixEpoch.ordinal)
      = ((d.year : ℤ), (d.month : ℤ), (d.day : ℤ)) := by
  have hmonth := d.month_pos
  have hmonth' := d.month_le
  have hmarch := marchDay_of_date d
  rw [← marchDays_date d h, marchDays]
  by_cases hjanuary : d.month ≤ 2
  · rw [if_pos hjanuary] at hmarch
    rw [if_pos (by omega), unixDaysToCivil_march hmarch, if_neg (by omega)]
    simp
  · rw [if_neg hjanuary] at hmarch
    rw [if_neg (by omega), unixDaysToCivil_march hmarch, if_pos (by omega)]
    simp

end OxiHttp
