/-
**Dates of HTTP.**

The three forms of a date in RFC 7231: the preferred one of fixed length, that of RFC 850 with a
year of two digits, and that of the C function `asctime`.  They all say a moment, to the second and
in Greenwich time, along with the day of the week.

Main definitions:

* `HttpDate.Moment`, `HttpDate.Moment.unix` — a moment, and its Unix time;
* `HttpDate.imfFixdate`, `HttpDate.rfc850`, `HttpDate.asctime` — how it is written;
* `HttpDate.Denotes` — the texts that say a moment;
* `HttpDate.ofUnix` — the moment of a Unix time.

Main results:

* `HttpDate.ofUnix_unix` — a Unix time is that of its moment.
-/

import OxiHttp.Decimal
import OxiHttp.Gregorian

set_option relaxedAutoImplicit false
set_option autoImplicit false

namespace HttpDate

open Gregorian (Date Weekday)

/-! ### Moments -/

/-- A second of an existing date; the last minute may have a leap second. -/
structure Moment where
  date : Date
  hour : ℕ
  minute : ℕ
  second : ℕ
  hour_lt : hour < 24
  minute_lt : minute < 60
  second_le : second ≤ 60

/-- The seconds since the beginning of 1970, without leap seconds. -/
def Moment.unix (m : Moment) : ℤ :=
  ((m.date.ordinal : ℤ) - Gregorian.unixEpoch.ordinal) * 86400 + m.hour * 3600 + m.minute * 60
    + m.second

/-- The moment that is `t` seconds after the beginning of 1970. -/
def ofUnix (t : ℕ) : Moment where
  date := Date.next^[t / 86400] Gregorian.unixEpoch
  hour := t % 86400 / 3600
  minute := t % 3600 / 60
  second := t % 60
  hour_lt := by omega
  minute_lt := by omega
  second_le := by omega

/-- The day of the week at a Unix time. -/
def weekdayOfUnix (t : ℕ) : Weekday := Weekday.next^[t / 86400] Gregorian.unixEpochWeekday

theorem ofUnix_date_ordinal (t : ℕ) :
    (ofUnix t).date.ordinal = Gregorian.unixEpoch.ordinal + t / 86400 :=
  Date.ordinal_iterate_next _ _

theorem ofUnix_date_year (t : ℕ) : 1970 ≤ (ofUnix t).date.year :=
  Date.year_le_iterate_next Gregorian.unixEpoch _

theorem ofUnix_unix (t : ℕ) : (ofUnix t).unix = t := by
  simp only [Moment.unix, ofUnix_date_ordinal]
  simp only [ofUnix]
  push_cast
  omega

/-! ### How they are written -/

/-- The name of a month, counted from 1. -/
def monthName (month : ℕ) : List Char :=
  (["Jan", "Feb", "Mar", "Apr", "May", "Jun", "Jul", "Aug", "Sep", "Oct", "Nov", "Dec"].getD
    (month - 1) "").toList

/-- The short name of a day of the week. -/
def dayName : Weekday → List Char
  | .sunday => "Sun".toList
  | .monday => "Mon".toList
  | .tuesday => "Tue".toList
  | .wednesday => "Wed".toList
  | .thursday => "Thu".toList
  | .friday => "Fri".toList
  | .saturday => "Sat".toList

/-- The long name of a day of the week. -/
def longDayName : Weekday → List Char
  | .sunday => "Sunday".toList
  | .monday => "Monday".toList
  | .tuesday => "Tuesday".toList
  | .wednesday => "Wednesday".toList
  | .thursday => "Thursday".toList
  | .friday => "Friday".toList
  | .saturday => "Saturday".toList

open Decimal (padded)

/-- The time of day. -/
def Moment.time (m : Moment) : List Char :=
  padded 2 m.hour ++ ':' :: (padded 2 m.minute ++ ':' :: padded 2 m.second)

/-- A moment in the preferred form: `Sun, 06 Nov 1994 08:49:37 GMT`. -/
def imfFixdate (w : Weekday) (m : Moment) : List Char :=
  dayName w ++ (", ".toList ++ (padded 2 m.date.day ++ ' ' :: (monthName m.date.month ++
    ' ' :: (padded 4 m.date.year ++ ' ' :: (m.time ++ ' ' :: "GMT".toList)))))

/-- A moment in the form of RFC 850: `Sunday, 06-Nov-94 08:49:37 GMT`. -/
def rfc850 (w : Weekday) (yy : ℕ) (m : Moment) : List Char :=
  longDayName w ++ (", ".toList ++ ((padded 2 m.date.day ++ '-' :: (monthName m.date.month ++
    '-' :: padded 2 yy)) ++ ' ' :: (m.time ++ ' ' :: "GMT".toList)))

/-- A moment in the form of `asctime`: `Sun Nov  6 08:49:37 1994`. -/
def asctime (w : Weekday) (day : List Char) (m : Moment) : List Char :=
  dayName w ++ ' ' :: (monthName m.date.month ++ ' ' :: (day ++ ' ' :: (m.time ++
    ' ' :: padded 4 m.date.year)))

/-- A text says a moment, in one of the three forms.  The century of a year of two digits is what
the reader takes it to be. -/
inductive Denotes (century : ℕ → ℕ) : List Char → Moment → Prop where
  | imfFixdate {w : Weekday} {m : Moment} : m.date.year < 10000 →
      Denotes century (imfFixdate w m) m
  | rfc850 {w : Weekday} {yy : ℕ} {m : Moment} : yy < 100 → m.date.year = century yy + yy →
      Denotes century (rfc850 w yy m) m
  | asctime {w : Weekday} {m : Moment} : m.date.year < 10000 →
      Denotes century (asctime w (padded 2 m.date.day) m) m
  | asctimeSpace {w : Weekday} {m : Moment} : m.date.year < 10000 → m.date.day < 10 →
      Denotes century (asctime w (' ' :: padded 1 m.date.day) m) m

end HttpDate
