/-
**The dates of the static file server.**

`parse_http_date` tries the three forms of RFC 7231 one after the other; `format_http_date` writes
the preferred one.  The parsers take a text apart at the first `", "`, at white space, dashes and
colons, and leave the numbers to `parse::<u32>`.

Main definitions:

* `OxiHttp.parseImfFixdate`, `OxiHttp.parseRfc850Date`, `OxiHttp.parseAsctime`,
  `OxiHttp.parseHttpDate` — the parsers;
* `OxiHttp.formatHttpDate`, `OxiHttp.isModifiedSince` — the functions of these names.

Main results:

* `OxiHttp.parseHttpDate_of_denotes` — a date in one of the forms is read as its Unix time;
* `OxiHttp.formatHttpDate_eq` — what is written is the moment in the preferred form;
* `OxiHttp.parseHttpDate_formatHttpDate` — the round trip.
-/

import OxiHttp.CivilDays
import OxiHttp.TextParse

set_option relaxedAutoImplicit false
set_option autoImplicit false

namespace OxiHttp

/-! ### Reading -/

/-- The numbers of a date, as they are read. -/
structure CivilTime where
  year : ℕ
  month : ℕ
  day : ℕ
  hour : ℕ
  min : ℕ
  sec : ℕ
deriving DecidableEq, Repr

/-- The arms of `parse_month`. -/
def monthArms : List (Str × ℕ) :=
  [("Jan".toList, 1), ("Feb".toList, 2), ("Mar".toList, 3), ("Apr".toList, 4), ("May".toList, 5),
    ("Jun".toList, 6), ("Jul".toList, 7), ("Aug".toList, 8), ("Sep".toList, 9), ("Oct".toList, 10),
    ("Nov".toList, 11), ("Dec".toList, 12)]

/-- `parse_month`. -/
def parseMonth (s : Str) : Option ℕ := monthArms.lookup s

/-- Hour, minute and second, between colons. -/
def parseTime (s : Str) : Option (ℕ × ℕ × ℕ) :=
  match s.splitOn ':' with
  | [hour, min, sec] => do
      let hour ← parseU32 hour
      let min ← parseU32 min
      let sec ← parseU32 sec
      pure (hour, min, sec)
  | _ => none

/-- The Unix time of the numbers, if there are any. -/
def unixOfFields : Option CivilTime → Except DateStop ℕ
  | none => .error .refused
  | some f => dateToUnix f.year f.month f.day f.hour f.min f.sec

/-- The numbers in an IMF-fixdate. -/
def imfFields (s : Str) : Option CivilTime := do
  let (_, rest) ← splitOnceStr ", ".toList s
  match splitWhitespace rest with
  | [day, month, year, time, tz] =>
      if tz ≠ "GMT".toList then none
      else do
        let day ← parseU32 day
        let month ← parseMonth month
        let year ← parseU32 year
        let (hour, min, sec) ← parseTime time
        pure ⟨year, month, day, hour, min, sec⟩
  | _ => none

/-- `parse_imf_fixdate`. -/
def parseImfFixdate (s : Str) : Except DateStop ℕ := unixOfFields (imfFields s)

/-- The day, the month and the two digits of the year of an RFC 850 date, and what follows them. -/
def rfc850Date (s : Str) : Option (ℕ × ℕ × ℕ × Str) := do
  let (_, rest) ← splitOnceStr ", ".toList s
  let (datePart, timeTz) ← splitOnce ' ' rest
  match datePart.splitOn '-' with
  | [day, month, yy] => do
      let day ← parseU32 day
      let month ← parseMonth month
      let yy ← parseU32 yy
      pure (day, month, yy, timeTz)
  | _ => none

/-- The time of an RFC 850 date. -/
def rfc850Time (timeTz : Str) : Option (ℕ × ℕ × ℕ) := do
  let (timePart, tz) ← rsplitOnce ' ' timeTz
  if tz ≠ "GMT".toList then none else parseTime timePart

/-- The century that a year of two digits is taken to be in. -/
def century (yy : ℕ) : ℕ := if yy < 70 then 2000 else 1900

/-- `parse_rfc850_date`.  The year is computed before the time is looked at. -/
def parseRfc850Date (s : Str) : Except DateStop ℕ :=
  match rfc850Date s with
  | none => .error .refused
  | some (day, month, yy, timeTz) => do
      let year ← u32 (century yy + yy)
      unixOfFields ((rfc850Time timeTz).map fun (hour, min, sec) =>
        ⟨year, month, day, hour, min, sec⟩)

/-- The numbers in a date of `asctime`. -/
def asctimeFields (s : Str) : Option CivilTime :=
  match splitWhitespace s with
  | [_, month, day, time, year] => do
      let month ← parseMonth month
      let day ← parseU32 day
      let (hour, min, sec) ← parseTime time
      let year ← parseU32 year
      pure ⟨year, month, day, hour, min, sec⟩
  | _ => none

/-- `parse_asctime`. -/
def parseAsctime (s : Str) : Except DateStop ℕ := unixOfFields (asctimeFields s)

/-- The first result, or what comes of the second computation when the first one refuses. -/
def orTry {α : Type} (x y : Except DateStop α) : Except DateStop α :=
  match x with
  | .error .refused => y
  | x => x

/-- `parse_http_date`; `None` is `DateStop.refused`. -/
def parseHttpDate (s : Str) : Except DateStop ℕ :=
  let s := trim s
  orTry (parseImfFixdate s) (orTry (parseRfc850Date s) (parseAsctime s))

/-! ### Writing -/

/-- `secs as i64`. -/
def asI64 (n : ℕ) : ℤ := if n < 2 ^ 63 then n else n - 2 ^ 64

/-- `{:02}` and `{:04}` of an `i64`. -/
def formatZero (width : ℕ) (n : ℤ) : Str :=
  if n < 0 then '-' :: Decimal.padded (width - 1) n.natAbs else Decimal.padded width n.toNat

def dowNames : List String := ["Sun", "Mon", "Tue", "Wed", "Thu", "Fri", "Sat"]

def monthNames : List String :=
  ["", "Jan", "Feb", "Mar", "Apr", "May", "Jun", "Jul", "Aug", "Sep", "Oct", "Nov", "Dec"]

/-- `format_http_date`.  The day of the week and the month are always in their tables. -/
def formatHttpDate (secs : ℕ) : Str :=
  let secs := asI64 secs
  let days := secs / 86400
  let timeOfDay := secs % 86400
  let hour := timeOfDay / 3600
  let min := timeOfDay % 3600 / 60
  let sec := timeOfDay % 60
  let dow := ((days + 4) % 7).toNat
  let (year, month, day) := unixDaysToCivil days
  (dowNames.getD dow "").toList ++ ", ".toList ++ formatZero 2 day ++ " ".toList ++
    (monthNames.getD month.toNat "").toList ++ " ".toList ++ formatZero 4 year ++ " ".toList ++
    formatZero 2 hour ++ ":".toList ++ formatZero 2 min ++ ":".toList ++ formatZero 2 sec ++
    " GMT".toList

example : formatHttpDate 784111777 = "Sun, 06 Nov 1994 08:49:37 GMT".toList := by decide
example : parseHttpDate "Sunday, 06-Nov-94 08:49:37 GMT".toList = .ok 784111777 := by decide
example : parseHttpDate " Sun Nov  6 08:49:37 1994".toList = .ok 784111777 := by decide

/-- The `Last-Modified` header of a file, for a time of modification in nanoseconds. -/
def lastModified (mtime : ℤ) : Option Str :=
  if 0 ≤ mtime then some (formatHttpDate (mtime / 10 ^ 9).toNat) else none

/-- `is_modified_since`, for a time of modification in nanoseconds. -/
def isModifiedSince (mtime : ℤ) (ims : Str) : Except DateStop Bool :=
  match parseHttpDate ims with
  | .ok imsSecs => .ok (decide (imsSecs < (mtime / 10 ^ 9).toNat))
  | .error .refused => .ok true
  | .error .overflow => .error .overflow

/-! ### The forms of a date are read -/

open HttpDate (Moment dayName longDayName monthName)
open Decimal (padded)

/-- The numbers of a moment. -/
def civilTimeOf (m : Moment) : CivilTime :=
  ⟨m.date.year, m.date.month, m.date.day, m.hour, m.minute, m.second⟩

theorem parseMonth_monthName {month : ℕ} (h : 1 ≤ month) (h' : month ≤ 12) :
    parseMonth (monthName month) = some month := by
  interval_cases month <;> decide

theorem isWord_monthName {month : ℕ} (h : 1 ≤ month) (h' : month ≤ 12) :
    IsWord (monthName month) := by
  interval_cases month <;> decide

theorem dash_notMem_monthName {month : ℕ} (h : 1 ≤ month) (h' : month ≤ 12) :
    '-' ∉ monthName month := by
  interval_cases month <;> decide

theorem isWhitespace_of_isDigit {c : Char} (h : c.isDigit = true) : isWhitespace c = false := by
  unfold Char.isDigit at h
  unfold isWhitespace
  grind [UInt32.le_iff_toNat_le, Char.toNat]

theorem isWord_padded (width n : ℕ) : IsWord (padded width n) :=
  ⟨(Decimal.isNumeral_padded width n).1,
    fun c hc => isWhitespace_of_isDigit ((Decimal.isNumeral_padded width n).2 c hc)⟩

theorem IsWord.append {a b : Str} (ha : IsWord a) (hb : ∀ c ∈ b, isWhitespace c = false) :
    IsWord (a ++ b) := by
  refine ⟨List.append_ne_nil_of_left_ne_nil ha.1 _, fun c hc => ?_⟩
  rcases List.mem_append.1 hc with hc | hc
  · exact ha.2 c hc
  · exact hb c hc

theorem IsWord.notMem {s : Str} (h : IsWord s) {c : Char} (hc : isWhitespace c = true) : c ∉ s := by
  intro hmem
  rw [h.2 c hmem] at hc
  cases hc

theorem notMem_padded {c : Char} (h : c.isDigit = false) (width n : ℕ) : c ∉ padded width n :=
  (Decimal.isNumeral_padded width n).notMem h

/-- The time of day is a word. -/
theorem isWord_time (m : Moment) : IsWord m.time := by
  refine (isWord_padded 2 m.hour).append fun c hc => ?_
  rcases List.mem_cons.1 hc with rfl | hc
  · decide
  rcases List.mem_append.1 hc with hc | hc
  · exact (isWord_padded 2 m.minute).2 c hc
  rcases List.mem_cons.1 hc with rfl | hc
  · decide
  · exact (isWord_padded 2 m.second).2 c hc

theorem parseTime_time (m : Moment) : parseTime m.time = some (m.hour, m.minute, m.second) := by
  have hcolon : ∀ n, ':' ∉ padded 2 n := notMem_padded (by decide) 2
  have hhour := m.hour_lt
  have hminute := m.minute_lt
  have hsecond := m.second_le
  unfold parseTime Moment.time
  rw [List.splitOn_append_cons_self_of_not_mem (hcolon _),
    List.splitOn_append_cons_self_of_not_mem (hcolon _), List.splitOn_eq_singleton (hcolon _)]
  dsimp only
  rw [parseU32_padded (by omega), parseU32_padded (by omega), parseU32_padded (by omega)]
  rfl

/-- A moment has its Unix time, from 1970 on; before there is none. -/
theorem unixOfFields_civilTimeOf {m : Moment} (h : m.date.year < 2 ^ 32) :
    unixOfFields (some (civilTimeOf m))
      = if 1970 ≤ m.date.year then .ok m.unix.toNat else .error .refused := by
  have hhour := m.hour_lt
  have hminute := m.minute_lt
  have hsecond := m.second_le
  have hday := m.date.day_pos
  have hday' := m.date.day_le.trans (Gregorian.monthLength_le _ _)
  have hmonth : 1 ≤ m.date.month ∧ m.date.month ≤ 12 := ⟨m.date.month_pos, m.date.month_le⟩
  have hlt : m.hour < 2 ^ 32 ∧ m.minute < 2 ^ 32 ∧ m.second < 2 ^ 32 := by omega
  refine (dateToUnix_eq m.date.day h hmonth hlt.1 hlt.2.1 hlt.2.2).trans ?_
  by_cases hyear : 1970 ≤ m.date.year
  · have hbounds := marchDays_bounds m.date.year m.date.month m.date.day (by omega)
      (by omega) (by omega) (by omega)
    rw [if_pos ⟨hyear, hday, hday'⟩, if_pos hyear, Moment.unix]
    rw [marchDays_date m.date (by omega)] at hbounds ⊢
    generalize (m.date.ordinal : ℤ) - Gregorian.unixEpoch.ordinal = days at *
    exact congrArg _ (by omega)
  · rw [if_neg (fun h => hyear h.1), if_neg hyear]

theorem unix_nonneg {m : Moment} (h : 1970 ≤ m.date.year) :
    0 ≤ m.unix := by
  have hday := m.date.day_pos
  have hday' := m.date.day_le.trans (Gregorian.monthLength_le _ _)
  have hmonth : 1 ≤ m.date.month ∧ m.date.month ≤ 12 := ⟨m.date.month_pos, m.date.month_le⟩
  have hbounds := marchDays_bounds m.date.year m.date.month m.date.day (by omega)
    (by omega) (by omega) (by omega)
  rw [marchDays_date m.date (by omega)] at hbounds
  rw [Moment.unix]
  omega

/-- The day of the week is split off. -/
theorem splitOnceStr_comma {a : Str} (h : ',' ∉ a) (b : Str) :
    splitOnceStr ", ".toList (a ++ (", ".toList ++ b)) = some (a, b) := splitOnceStr_append h b

theorem splitOnceStr_comma_eq_none {s : Str} (h : ',' ∉ s) : splitOnceStr ", ".toList s = none :=
  splitOnceStr_eq_none h

/-- The comma belongs to the first word. -/
theorem splitWhitespace_comma {a : Str} (h : IsWord a) (b : Str) :
    splitWhitespace (a ++ (", ".toList ++ b)) = (a ++ [',']) :: splitWhitespace b := by
  have htext : a ++ (", ".toList ++ b) = (a ++ [',']) ++ ' ' :: b := by simp
  have hword : IsWord (a ++ [',']) := h.append fun c hc => by
    rw [List.mem_singleton.1 hc]
    decide
  rw [htext, splitWhitespace_cons hword (by decide)]

/-- The words of an IMF-fixdate behind its comma. -/
theorem splitWhitespace_imfFixdate (m : Moment) :
    splitWhitespace (padded 2 m.date.day ++ ' ' :: (monthName m.date.month ++
      ' ' :: (padded 4 m.date.year ++ ' ' :: (m.time ++ ' ' :: "GMT".toList))))
      = [padded 2 m.date.day, monthName m.date.month, padded 4 m.date.year, m.time,
        "GMT".toList] := by
  have hspace : isWhitespace ' ' = true := by decide
  have hmonth := isWord_monthName m.date.month_pos m.date.month_le
  rw [splitWhitespace_cons (isWord_padded _ _) hspace, splitWhitespace_cons hmonth hspace,
    splitWhitespace_cons (isWord_padded _ _) hspace, splitWhitespace_cons (isWord_time m) hspace,
    splitWhitespace_of_isWord (by decide)]

theorem imfFields_imfFixdate (w : Gregorian.Weekday) {m : Moment} (h : m.date.year < 2 ^ 32) :
    imfFields (HttpDate.imfFixdate w m) = some (civilTimeOf m) := by
  have hday' := m.date.day_le.trans (Gregorian.monthLength_le _ _)
  have hcomma : ',' ∉ dayName w := by cases w <;> decide
  unfold imfFields HttpDate.imfFixdate
  rw [splitOnceStr_comma hcomma, Option.bind_eq_bind, Option.bind_some]
  dsimp only
  rw [splitWhitespace_imfFixdate]
  dsimp only
  rw [if_neg (not_not.2 rfl), parseU32_padded (by omega),
    parseMonth_monthName m.date.month_pos m.date.month_le, parseU32_padded h, parseTime_time]
  rfl

/-- An IMF-fixdate is in no other form. -/
theorem rfc850Date_imfFixdate (w : Gregorian.Weekday) (m : Moment) :
    rfc850Date (HttpDate.imfFixdate w m) = none := by
  have hcomma : ',' ∉ dayName w := by cases w <;> decide
  unfold rfc850Date HttpDate.imfFixdate
  rw [splitOnceStr_comma hcomma, Option.bind_eq_bind, Option.bind_some]
  dsimp only
  rw [splitOnce_append (notMem_padded (by decide) _ _), Option.bind_eq_bind, Option.bind_some]
  dsimp only
  rw [List.splitOn_eq_singleton (notMem_padded (by decide) _ _)]

theorem asctimeFields_imfFixdate (w : Gregorian.Weekday) (m : Moment) :
    asctimeFields (HttpDate.imfFixdate w m) = none := by
  have hword : IsWord (dayName w) := by cases w <;> decide
  unfold asctimeFields HttpDate.imfFixdate
  rw [splitWhitespace_comma hword, splitWhitespace_imfFixdate]

/-- The date is one word. -/
theorem isWord_rfc850 (m : Moment) (yy : ℕ) :
    IsWord (padded 2 m.date.day ++ '-' :: (monthName m.date.month ++ '-' :: padded 2 yy)) := by
  refine (isWord_padded 2 m.date.day).append fun c hc => ?_
  rcases List.mem_cons.1 hc with rfl | hc
  · decide
  rcases List.mem_append.1 hc with hc | hc
  · exact (isWord_monthName m.date.month_pos m.date.month_le).2 c hc
  rcases List.mem_cons.1 hc with rfl | hc
  · decide
  · exact (isWord_padded 2 yy).2 c hc

/-- The numbers in an RFC 850 date. -/
theorem rfc850Date_rfc850 (w : Gregorian.Weekday) {yy : ℕ} (m : Moment) (h : yy < 2 ^ 32) :
    rfc850Date (HttpDate.rfc850 w yy m)
      = some (m.date.day, m.date.month, yy, m.time ++ ' ' :: "GMT".toList) := by
  have hday' := m.date.day_le.trans (Gregorian.monthLength_le _ _)
  have hcomma : ',' ∉ longDayName w := by cases w <;> decide
  have hdash : ∀ width n, '-' ∉ padded width n := notMem_padded (by decide)
  have hmonth := dash_notMem_monthName m.date.month_pos m.date.month_le
  unfold rfc850Date HttpDate.rfc850
  rw [splitOnceStr_comma hcomma, Option.bind_eq_bind, Option.bind_some]
  dsimp only
  rw [splitOnce_append ((isWord_rfc850 m yy).notMem (by decide)), Option.bind_eq_bind,
    Option.bind_some]
  dsimp only
  rw [List.splitOn_append_cons_self_of_not_mem (hdash _ _),
    List.splitOn_append_cons_self_of_not_mem hmonth, List.splitOn_eq_singleton (hdash _ _)]
  dsimp only
  rw [parseU32_padded (by omega), parseMonth_monthName m.date.month_pos m.date.month_le,
    parseU32_padded h]
  rfl

theorem rfc850Time_gmt (m : Moment) :
    rfc850Time (m.time ++ ' ' :: "GMT".toList) = some (m.hour, m.minute, m.second) := by
  unfold rfc850Time
  rw [rsplitOnce_append (by decide), Option.bind_eq_bind, Option.bind_some]
  dsimp only
  rw [if_neg (not_not.2 rfl), parseTime_time]

/-- An RFC 850 date is in no other form. -/
theorem imfFields_rfc850 (w : Gregorian.Weekday) (yy : ℕ) (m : Moment) :
    imfFields (HttpDate.rfc850 w yy m) = none := by
  have hcomma : ',' ∉ longDayName w := by cases w <;> decide
  have hspace : isWhitespace ' ' = true := by decide
  unfold imfFields HttpDate.rfc850
  rw [splitOnceStr_comma hcomma, Option.bind_eq_bind, Option.bind_some]
  dsimp only
  rw [splitWhitespace_cons (isWord_rfc850 m yy) hspace, splitWhitespace_cons (isWord_time m) hspace,
    splitWhitespace_of_isWord (by decide)]

theorem asctimeFields_rfc850 (w : Gregorian.Weekday) (yy : ℕ) (m : Moment) :
    asctimeFields (HttpDate.rfc850 w yy m) = none := by
  have hspace : isWhitespace ' ' = true := by decide
  have hword : IsWord (longDayName w) := by cases w <;> decide
  unfold asctimeFields HttpDate.rfc850
  rw [splitWhitespace_comma hword, splitWhitespace_cons (isWord_rfc850 m yy) hspace,
    splitWhitespace_cons (isWord_time m) hspace, splitWhitespace_of_isWord (by decide)]

/-- A date of `asctime` has no comma. -/
theorem comma_notMem_asctime (w : Gregorian.Weekday) {day : Str} (hday : ',' ∉ day) (m : Moment) :
    ',' ∉ HttpDate.asctime w day m := by
  have hname : ',' ∉ dayName w := by cases w <;> decide
  have hmonth : ',' ∉ monthName m.date.month := by
    have hpos := m.date.month_pos
    have hle := m.date.month_le
    generalize m.date.month = month at *
    interval_cases month <;> decide
  have hnumber : ∀ width n, ',' ∉ padded width n := notMem_padded (by decide)
  simp [HttpDate.asctime, Moment.time, hname, hmonth, hday, hnumber]

theorem imfFields_of_comma_notMem {s : Str} (h : ',' ∉ s) : imfFields s = none := by
  unfold imfFields
  rw [splitOnceStr_comma_eq_none h]
  rfl

theorem rfc850Date_of_comma_notMem {s : Str} (h : ',' ∉ s) : rfc850Date s = none := by
  unfold rfc850Date
  rw [splitOnceStr_comma_eq_none h]
  rfl

/-- The numbers in a date of `asctime`. -/
theorem asctimeFields_asctime (w : Gregorian.Weekday) {day : Str} {width : ℕ} {m : Moment}
    (h : m.date.year < 2 ^ 32)
    (hday : day = padded width m.date.day ∨ day = ' ' :: padded width m.date.day) :
    asctimeFields (HttpDate.asctime w day m) = some (civilTimeOf m) := by
  have hspace : isWhitespace ' ' = true := by decide
  have hday' := m.date.day_le.trans (Gregorian.monthLength_le _ _)
  have hname : IsWord (dayName w) := by cases w <;> decide
  have hmonth := isWord_monthName m.date.month_pos m.date.month_le
  have hwords : splitWhitespace (HttpDate.asctime w day m) = [dayName w, monthName m.date.month,
      padded width m.date.day, m.time, padded 4 m.date.year] := by
    rw [HttpDate.asctime, splitWhitespace_cons hname hspace, splitWhitespace_cons hmonth hspace]
    rcases hday with rfl | rfl
    · rw [splitWhitespace_cons (isWord_padded _ _) hspace,
        splitWhitespace_cons (isWord_time m) hspace, splitWhitespace_of_isWord (isWord_padded _ _)]
    · rw [List.cons_append, splitWhitespace_space hspace,
        splitWhitespace_cons (isWord_padded _ _) hspace,
        splitWhitespace_cons (isWord_time m) hspace, splitWhitespace_of_isWord (isWord_padded _ _)]
  unfold asctimeFields
  rw [hwords]
  dsimp only
  rw [parseMonth_monthName m.date.month_pos m.date.month_le, parseU32_padded (by omega),
    parseTime_time, parseU32_padded h]
  rfl

theorem orTry_refused {α : Type} (x : Except DateStop α) : orTry (.error .refused) x = x := rfl

theorem orTry_self {α : Type} (x : Except DateStop α) : orTry x (.error .refused) = x := by
  unfold orTry
  split <;> rfl

theorem century_lt {yy : ℕ} (h : yy < 100) : century yy + yy < 10000 := by
  unfold century
  split_ifs <;> omega

/-- A moment in one of the three forms is read by the parser of this form. -/
theorem parseHttpDate_eq_of_denotes {s : Str} {m : Moment}
    (h : HttpDate.Denotes century (trim s) m) :
    parseHttpDate s = unixOfFields (some (civilTimeOf m)) ∧ m.date.year < 10000 := by
  unfold parseHttpDate parseImfFixdate parseRfc850Date parseAsctime
  dsimp only
  generalize trim s = text at h ⊢
  cases h with
  | imfFixdate hyear =>
      refine ⟨?_, hyear⟩
      rw [imfFields_imfFixdate _ (by omega), rfc850Date_imfFixdate, asctimeFields_imfFixdate]
      exact orTry_self _
  | @rfc850 w yy m hyy hyear =>
      have hlt := century_lt hyy
      refine ⟨?_, by omega⟩
      rw [imfFields_rfc850, rfc850Date_rfc850 _ _ (by omega), asctimeFields_rfc850]
      dsimp only
      rw [rfc850Time_gmt, u32, if_pos (by omega), ← hyear]
      exact orTry_self _
  | asctime hyear =>
      refine ⟨?_, hyear⟩
      rw [imfFields_of_comma_notMem (comma_notMem_asctime _ (notMem_padded (by decide) _ _) _),
        rfc850Date_of_comma_notMem (comma_notMem_asctime _ (notMem_padded (by decide) _ _) _),
        asctimeFields_asctime _ (by omega) (.inl rfl)]
      rfl
  | @asctimeSpace w m hyear _ =>
      have hday : ',' ∉ ' ' :: padded 1 m.date.day := by
        simp [notMem_padded (c := ',') (by decide)]
      refine ⟨?_, hyear⟩
      rw [imfFields_of_comma_notMem (comma_notMem_asctime _ hday _),
        rfc850Date_of_comma_notMem (comma_notMem_asctime _ hday _),
        asctimeFields_asctime _ (by omega) (.inr rfl)]
      rfl

/-- A moment in one of the three forms is read as its Unix time, from 1970 on; before it is
refused. -/
theorem parseHttpDate_of_denotes {s : Str} {m : Moment}
    (h : HttpDate.Denotes century (trim s) m) :
    parseHttpDate s = if 1970 ≤ m.date.year then .ok m.unix.toNat else .error .refused := by
  obtain ⟨heq, hyear⟩ := parseHttpDate_eq_of_denotes h
  rw [heq, unixOfFields_civilTimeOf (by omega)]

/-! ### The round trip -/

theorem dowNames_index (w : Gregorian.Weekday) :
    (dowNames.getD w.index "").toList = dayName w := by
  cases w <;> rfl

theorem formatZero_natCast (width n : ℕ) : formatZero width n = padded width n := by
  rw [formatZero, if_neg (by omega), Int.toNat_natCast]

theorem monthNames_month {month : ℕ} (h : 1 ≤ month) (h' : month ≤ 12) :
    (monthNames.getD month "").toList = monthName month := by
  interval_cases month <;> rfl

/-- The date of a Unix time. -/
theorem unixDaysToCivil_ofUnix (t : ℕ) :
    unixDaysToCivil ((t / 86400 : ℕ) : ℤ) = (((HttpDate.ofUnix t).date.year : ℤ),
      ((HttpDate.ofUnix t).date.month : ℤ), ((HttpDate.ofUnix t).date.day : ℤ)) := by
  have hyear := HttpDate.ofUnix_date_year t
  rw [← unixDaysToCivil_ordinal (HttpDate.ofUnix t).date (by omega), HttpDate.ofUnix_date_ordinal,
    Nat.cast_add, add_sub_cancel_left]

/-- What is written is the moment in the preferred form. -/
theorem formatHttpDate_eq {t : ℕ} (h : t < 2 ^ 63) :
    formatHttpDate t = HttpDate.imfFixdate (HttpDate.weekdayOfUnix t) (HttpDate.ofUnix t) := by
  have hcivil := unixDaysToCivil_ofUnix t
  have hindex := Gregorian.Weekday.index_iterate_next Gregorian.unixEpochWeekday (t / 86400)
  have hmonth := monthNames_month (HttpDate.ofUnix t).date.month_pos
    (HttpDate.ofUnix t).date.month_le
  have hdow : (((t / 86400 : ℕ) + 4 : ℤ) % 7).toNat = (HttpDate.weekdayOfUnix t).index := by
    rw [HttpDate.weekdayOfUnix, hindex]
    change _ = (4 + t / 86400) % 7
    omega
  have hdays : (t : ℤ) / 86400 = (t / 86400 : ℕ) := by omega
  have hhour : (t : ℤ) % 86400 / 3600 = ((HttpDate.ofUnix t).hour : ℕ) := by
    change _ = ((t % 86400 / 3600 : ℕ) : ℤ)
    omega
  have hmin : (t : ℤ) % 86400 % 3600 / 60 = ((HttpDate.ofUnix t).minute : ℕ) := by
    change _ = ((t % 3600 / 60 : ℕ) : ℤ)
    omega
  have hsec : (t : ℤ) % 86400 % 60 = ((HttpDate.ofUnix t).second : ℕ) := by
    change _ = ((t % 60 : ℕ) : ℤ)
    omega
  unfold formatHttpDate
  rw [asI64, if_pos h]
  dsimp only
  rw [hdays, hcivil, hhour, hmin, hsec, hdow]
  dsimp only
  rw [dowNames_index, Int.toNat_natCast, hmonth]
  have hspace : " ".toList = [' '] := rfl
  have hcolon : ":".toList = [':'] := rfl
  have hgmt : " GMT".toList = ' ' :: "GMT".toList := rfl
  simp only [hspace, hcolon, hgmt, formatZero_natCast, HttpDate.imfFixdate, Moment.time,
    List.append_assoc, List.cons_append, List.nil_append]

/-- A text that begins and ends with a letter has nothing to trim. -/
theorem trim_imfFixdate (w : Gregorian.Weekday) (m : Moment) :
    trim (HttpDate.imfFixdate w m) = HttpDate.imfFixdate w m := by
  refine trim_eq_self (fun c hc => ?_) (fun c hc => ?_)
  · have hfirst : ∀ s, (dayName w ++ s).head? = some c → isWhitespace c = false := by
      cases w <;> intro s h <;> cases h <;> decide
    exact hfirst _ hc
  · have hlast : HttpDate.imfFixdate w m = (dayName w ++ (", ".toList ++ (padded 2 m.date.day ++
        ' ' :: (monthName m.date.month ++ ' ' :: (padded 4 m.date.year ++ ' ' :: (m.time ++
          " GM".toList)))))) ++ ['T'] := by
      simp [HttpDate.imfFixdate]
    rw [hlast, List.getLast?_append] at hc
    cases hc
    decide

/-- The dates of the years of four digits. -/
theorem ofUnix_year_lt {t : ℕ} (h : t < 253402300800) : (HttpDate.ofUnix t).date.year < 10000 := by
  by_contra hyear
  have hmono := Gregorian.daysBeforeYear_mono (not_lt.1 hyear)
  have hle := Gregorian.Date.daysBeforeYear_le_ordinal (HttpDate.ofUnix t).date
  have hyears : Gregorian.daysBeforeYear 10000 + 9999 / 100 = 366 + 365 * 9999 + 9999 / 4 +
      9999 / 400 := Gregorian.daysBeforeYear_succ_eq 9999
  rw [HttpDate.ofUnix_date_ordinal, Gregorian.ordinal_unixEpoch] at hle
  omega

theorem parseHttpDate_imfFixdate {t : ℕ} (h : t < 253402300800) :
    parseHttpDate (HttpDate.imfFixdate (HttpDate.weekdayOfUnix t) (HttpDate.ofUnix t)) = .ok t := by
  have hdenotes : HttpDate.Denotes century _ (HttpDate.ofUnix t) :=
    .imfFixdate (w := HttpDate.weekdayOfUnix t) (ofUnix_year_lt h)
  rw [← trim_imfFixdate] at hdenotes
  rw [parseHttpDate_of_denotes hdenotes, if_pos (HttpDate.ofUnix_date_year t),
    HttpDate.ofUnix_unix, Int.toNat_natCast]

/-- Before the year 10000 what is written is read again, and it is the date and the day of the week
in the calendar; a file is not modified since the date the server sent for it, and it is modified
since every earlier one. -/
theorem parseHttpDate_formatHttpDate {t : ℕ} (h : t < 253402300800) :
    parseHttpDate (formatHttpDate t) = .ok t ∧
      formatHttpDate t
        = HttpDate.imfFixdate (HttpDate.weekdayOfUnix t) (HttpDate.ofUnix t) ∧
      ∀ mtime : ℤ, mtime / 10 ^ 9 = t →
        lastModified mtime = some (formatHttpDate t) ∧
          isModifiedSince mtime (formatHttpDate t) = .ok false ∧
          ∀ t' < t, isModifiedSince mtime (formatHttpDate t') = .ok true := by
  have hparse : ∀ t' ≤ t, parseHttpDate (formatHttpDate t') = .ok t' := by
    intro t' hle
    rw [formatHttpDate_eq (by omega), parseHttpDate_imfFixdate (by omega)]
  refine ⟨hparse t le_rfl, formatHttpDate_eq (by omega), fun mtime hmtime => ⟨?_, ?_, ?_⟩⟩
  · have hnonneg : 0 ≤ mtime := by omega
    rw [lastModified, if_pos hnonneg, hmtime, Int.toNat_natCast]
  · rw [isModifiedSince, hparse t le_rfl, hmtime, Int.toNat_natCast]
    simp
  · intro t' hlt
    rw [isModifiedSince, hparse t' hlt.le, hmtime, Int.toNat_natCast]
    simp [hlt]

/-- The round trip of 29 February 2000. -/
theorem parseHttpDate_formatHttpDate_leapDay :
    parseHttpDate (formatHttpDate 951782400) = .ok 951782400 :=
  (parseHttpDate_formatHttpDate (t := 951782400) (by decide)).1

end OxiHttp
