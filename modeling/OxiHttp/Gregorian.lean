/-
**The Gregorian calendar.**

Dates from year 0 on, where the calendar is continued into the past.  A date has a day that its
month has; the date after it is the next day of the month, the first of the next month or the first
of the next year; and the ordinal of a date counts the days before it.

Main definitions:

* `Gregorian.monthLength` — how many days a month has;
* `Gregorian.Date`, `Gregorian.Date.next` — dates, and the day after;
* `Gregorian.Date.ordinal` — the days from 1 January of year 0 to a date;
* `Gregorian.Weekday` — the days of the week;
* `Gregorian.unixEpoch` — 1 January 1970, a Thursday.

Main results:

* `Gregorian.Date.ordinal_iterate_next` — each day counts one;
* `Gregorian.daysBeforeYear_succ_eq` — how many days there are up to the end of a year.
-/

import Mathlib.Algebra.Order.Ring.Nat
import Mathlib.Data.Nat.ModEq
import Mathlib.Logic.Function.Iterate
import Mathlib.Order.Monotone.Basic
import Mathlib.Tactic.Common

set_option relaxedAutoImplicit false
set_option autoImplicit false

namespace Gregorian

/-! ### Years and months -/

/-- A leap year: every fourth, but of those that end a century only every fourth. -/
def IsLeap (y : ℕ) : Prop := y % 4 = 0 ∧ (y % 100 ≠ 0 ∨ y % 400 = 0)

instance (y : ℕ) : Decidable (IsLeap y) := inferInstanceAs (Decidable (_ ∧ _))

/-- The number of days of a year. -/
def yearLength (y : ℕ) : ℕ := if IsLeap y then 366 else 365

/-- The number of days of a month. -/
def monthLength (y m : ℕ) : ℕ :=
  if m = 2 then if IsLeap y then 29 else 28
  else if m = 4 ∨ m = 6 ∨ m = 9 ∨ m = 11 then 30
  else 31

/-- The days of the years before a year. -/
def daysBeforeYear : ℕ → ℕ
  | 0 => 0
  | y + 1 => daysBeforeYear y + yearLength y

/-- The days of the months of a year before a month, which are counted from 1. -/
def daysBeforeMonth (y : ℕ) : ℕ → ℕ
  | 0 => 0
  | 1 => 0
  | m + 2 => daysBeforeMonth y (m + 1) + monthLength y (m + 1)

/-- The days up to the end of a year, with the leap years counted. -/
theorem daysBeforeYear_succ_eq (y : ℕ) :
    daysBeforeYear (y + 1) + y / 100 = 366 + 365 * y + y / 4 + y / 400 := by
  induction y with
  | zero => rfl
  | succ y ih =>
      rw [daysBeforeYear, yearLength, Nat.succ_div (b := 4),
        Nat.succ_div (b := 100), Nat.succ_div (b := 400)]
      generalize y / 4 = fours at *
      generalize y / 100 = centuries at *
      generalize y / 400 = eras at *
      by_cases hleap : IsLeap (y + 1)
      · rw [if_pos hleap]
        unfold IsLeap at hleap
        split_ifs <;> omega
      · rw [if_neg hleap]
        unfold IsLeap at hleap
        split_ifs <;> omega

theorem daysBeforeYear_mono : Monotone daysBeforeYear :=
  monotone_nat_of_le_succ fun _ => Nat.le_add_right _ _

/-- The months of a year make it up. -/
theorem daysBeforeMonth_twelve (y : ℕ) :
    daysBeforeMonth y 12 + monthLength y 12 = yearLength y := by
  by_cases hleap : IsLeap y
  · simp only [daysBeforeMonth, monthLength, yearLength, if_pos hleap]
    rfl
  · simp only [daysBeforeMonth, monthLength, yearLength, if_neg hleap]
    rfl

/-! ### Dates -/

/-- A date that exists. -/
@[ext] structure Date where
  year : ℕ
  month : ℕ
  day : ℕ
  month_pos : 1 ≤ month
  month_le : month ≤ 12
  day_pos : 1 ≤ day
  day_le : day ≤ monthLength year month
deriving DecidableEq

theorem monthLength_pos (y m : ℕ) : 1 ≤ monthLength y m := by
  unfold monthLength
  split_ifs <;> decide

theorem monthLength_le (y m : ℕ) : monthLength y m ≤ 31 := by
  unfold monthLength
  split_ifs <;> decide

namespace Date

theorem day_le_short (d : Date) (h : d.month = 4 ∨ d.month = 6 ∨ d.month = 9 ∨ d.month = 11) :
    d.day ≤ 30 := by
  have hle := d.day_le
  rwa [monthLength, if_neg (by omega), if_pos h] at hle

/-- The leap day is in February. -/
theorem day_le_february (d : Date) (h : d.month = 2) :
    d.day ≤ 28 ∨ d.day = 29 ∧ IsLeap d.year := by
  have hle := d.day_le
  rw [monthLength, if_pos h] at hle
  split_ifs at hle with hleap
  · rcases Nat.lt_or_eq_of_le hle with hlt | heq
    · exact .inl (by omega)
    · exact .inr ⟨heq, hleap⟩
  · exact .inl hle

/-- The day after. -/
def next (d : Date) : Date :=
  if h : d.day < monthLength d.year d.month then
    { d with day := d.day + 1, day_pos := Nat.le_add_left _ _, day_le := h }
  else if h : d.month < 12 then
    { year := d.year
      month := d.month + 1
      day := 1
      month_pos := Nat.le_add_left _ _
      month_le := h
      day_pos := le_rfl
      day_le := monthLength_pos _ _ }
  else
    { year := d.year + 1
      month := 1
      day := 1
      month_pos := le_rfl
      month_le := by decide
      day_pos := le_rfl
      day_le := monthLength_pos _ _ }

/-- The number of days before a date, from 1 January of year 0 on. -/
def ordinal (d : Date) : ℕ := daysBeforeYear d.year + daysBeforeMonth d.year d.month + (d.day - 1)

theorem daysBeforeYear_le_ordinal (d : Date) : daysBeforeYear d.year ≤ d.ordinal := by
  unfold ordinal
  omega

/-- The day after is one day later. -/
theorem ordinal_next (d : Date) : d.next.ordinal = d.ordinal + 1 := by
  have hday := d.day_pos
  have hle := d.day_le
  have hmonth := d.month_pos
  unfold next ordinal
  split_ifs with hlast hdecember
  · dsimp only
    omega
  · -- the last of a month that is not December
    obtain ⟨m, hm⟩ : ∃ m, d.month = m + 1 := ⟨d.month - 1, by omega⟩
    dsimp only
    rw [hm] at hlast hle ⊢
    rw [daysBeforeMonth]
    omega
  · have htwelve : d.month = 12 := le_antisymm d.month_le (not_lt.1 hdecember)
    have hyear := daysBeforeMonth_twelve d.year
    dsimp only
    rw [htwelve] at hlast hle ⊢
    rw [daysBeforeYear, daysBeforeMonth]
    omega

/-- Each day counts one. -/
theorem ordinal_iterate_next (d : Date) (n : ℕ) : (next^[n] d).ordinal = d.ordinal + n := by
  induction n with
  | zero => rfl
  | succ n ih => rw [Function.iterate_succ_apply', ordinal_next, ih, Nat.add_assoc]

/-- Time does not go back. -/
theorem year_le_next (d : Date) : d.year ≤ d.next.year := by
  unfold next
  split_ifs
  · exact le_rfl
  · exact le_rfl
  · exact Nat.le_succ _

theorem year_le_iterate_next (d : Date) (n : ℕ) : d.year ≤ (next^[n] d).year := by
  induction n with
  | zero => exact le_rfl
  | succ n ih =>
      rw [Function.iterate_succ_apply']
      exact ih.trans (year_le_next _)

end Date

/-! ### Weeks -/

/-- A day of the week. -/
inductive Weekday where
  | sunday
  | monday
  | tuesday
  | wednesday
  | thursday
  | friday
  | saturday
deriving DecidableEq, Repr

namespace Weekday

/-- The day after. -/
def next : Weekday → Weekday
  | sunday => monday
  | monday => tuesday
  | tuesday => wednesday
  | wednesday => thursday
  | thursday => friday
  | friday => saturday
  | saturday => sunday

/-- The number of a day, from Sunday on. -/
def index : Weekday → ℕ
  | sunday => 0
  | monday => 1
  | tuesday => 2
  | wednesday => 3
  | thursday => 4
  | friday => 5
  | saturday => 6

theorem index_next (w : Weekday) : w.next.index = (w.index + 1) % 7 := by
  cases w <;> rfl

/-- After a week it is the same day again. -/
theorem index_iterate_next (w : Weekday) (n : ℕ) : (next^[n] w).index = (w.index + n) % 7 := by
  induction n with
  | zero => cases w <;> rfl
  | succ n ih =>
      rw [Function.iterate_succ_apply', index_next, ih]
      omega

end Weekday

/-! ### The epoch of Unix -/

/-- 1 January 1970. -/
def unixEpoch : Date := ⟨1970, 1, 1, by decide, by decide, by decide, by decide⟩

/-- The day of the week that it was. -/
def unixEpochWeekday : Weekday := .thursday

theorem ordinal_unixEpoch : unixEpoch.ordinal = 719528 := by
  have hyears := daysBeforeYear_succ_eq 1969
  have hyear : unixEpoch.year = 1969 + 1 := rfl
  have hmonths : daysBeforeMonth unixEpoch.year unixEpoch.month = 0 := rfl
  have hday : unixEpoch.day = 1 := rfl
  rw [Date.ordinal, hmonths, hday]
  rw [hyear]
  omega

end Gregorian
