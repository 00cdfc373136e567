/-
**Which dates the server reads.**

The parsers accept more than the three forms of a date: numbers of any length and with plus signs,
any white space, any day of the week, hours and minutes of any size, and the 31st of every month.
In the form of RFC 850 the year may be so large that adding the century overflows.

Main definitions:

* `OxiHttp.LooseDate` — the texts that are read, and their numbers;
* `OxiHttp.OverflowingYear` — the texts whose year overflows;
* `OxiHttp.ParsesDateExactly` — what reading a date should be.

Main results:

* `OxiHttp.LooseDate.unique` — no text is taken for two dates;
* `OxiHttp.parseHttpDate_eq_ok_iff`, `OxiHttp.parseHttpDate_overflow_iff` — what is read, and what
  overflows;
* `OxiHttp.parsesDateExactly_iff` — where this is as it should be.
-/

import OxiHttp.DateFormat

set_option relaxedAutoImplicit false
set_option autoImplicit false

namespace OxiHttp

open HttpDate (Moment monthName)

/-! ### Loosely written dates -/

/-- A `u32` in digits, perhaps after a plus sign. -/
def LooseNumber (s : Str) (n : ℕ) : Prop :=
  Decimal.IsNumeral (dropPlus s) ∧ Decimal.value (dropPlus s) = n ∧ n < 2 ^ 32

/-- Three numbers between colons. -/
def LooseTime (s : Str) (f : CivilTime) : Prop :=
  ∃ hour min sec, s.splitOn ':' = [hour, min, sec] ∧ LooseNumber hour f.hour ∧
    LooseNumber min f.min ∧ LooseNumber sec f.sec

/-- The name of a month. -/
def IsMonth (s : Str) (month : ℕ) : Prop := 1 ≤ month ∧ month ≤ 12 ∧ s = monthName month

/-- Day, month and year between dashes, behind the day of the week. -/
def LooseRfc850Date (s : Str) (day month yy : ℕ) (timeTz : Str) : Prop :=
  ∃ weekday rest date dayText monthText yyText,
    splitOnceStr ", ".toList s = some (weekday, rest) ∧ splitOnce ' ' rest = some (date, timeTz) ∧
      date.splitOn '-' = [dayText, monthText, yyText] ∧ LooseNumber dayText day ∧
      IsMonth monthText month ∧ LooseNumber yyText yy

/-- A text that is taken to have the form of a date, and the numbers in it. -/
inductive LooseDate (s : Str) (f : CivilTime) : Prop where
  | imf {weekday rest day month year time : Str} :
      splitOnceStr ", ".toList s = some (weekday, rest) →
      splitWhitespace rest = [day, month, year, time, "GMT".toList] → LooseNumber day f.day →
      IsMonth month f.month → LooseNumber year f.year → LooseTime time f → LooseDate s f
  | rfc850 {timeTz time : Str} {yy : ℕ} :
      LooseRfc850Date s f.day f.month yy timeTz → f.year = century yy + yy → f.year < 2 ^ 32 →
      rsplitOnce ' ' timeTz = some (time, "GMT".toList) → LooseTime time f → LooseDate s f
  | asctime {weekday month day time year : Str} :
      splitWhitespace s = [weekday, month, day, time, year] → IsMonth month f.month →
      LooseNumber day f.day → LooseTime time f → LooseNumber year f.year → LooseDate s f

/-- The century does not fit into a `u32` with the year. -/
def OverflowingYear (s : Str) : Prop :=
  ∃ day month yy timeTz, LooseRfc850Date s day month yy timeTz ∧ 2 ^ 32 ≤ century yy + yy

theorem parseU32_iff {s : Str} {n : ℕ} : parseU32 s = some n ↔ LooseNumber s n :=
  parseU32_eq_some_iff

theorem parseMonth_iff {s : Str} {month : ℕ} : parseMonth s = some month ↔ IsMonth s month := by
  constructor
  · intro h
    have harms : ∀ arm ∈ monthArms, IsMonth arm.1 arm.2 := by
      unfold IsMonth
      decide
    obtain ⟨before, after, hsplit, -⟩ := List.lookup_eq_some_iff.1 h
    exact harms (s, month) (by rw [hsplit]; simp)
  · rintro ⟨hpos, hle, rfl⟩
    exact parseMonth_monthName hpos hle

theorem parseTime_iff {s : Str} {f : CivilTime} :
    parseTime s = some (f.hour, f.min, f.sec) ↔ LooseTime s f := by
  unfold parseTime LooseTime
  constructor
  · intro h
    split at h
    · next hour min sec hsplit =>
        simp only [Option.bind_eq_bind, Option.bind_eq_some_iff, Option.pure_def,
          Option.some.injEq, Prod.mk.injEq] at h
        obtain ⟨_, hhour, _, hmin, _, hsec, rfl, rfl, rfl⟩ := h
        exact ⟨_, _, _, hsplit, parseU32_iff.1 hhour, parseU32_iff.1 hmin, parseU32_iff.1 hsec⟩
    · cases h
  · rintro ⟨hour, min, sec, hsplit, hhour, hmin, hsec⟩
    rw [hsplit]
    dsimp only
    rw [parseU32_iff.2 hhour, parseU32_iff.2 hmin, parseU32_iff.2 hsec]
    rfl

/-- What the first parser takes for an IMF-fixdate. -/
theorem imfFields_iff {s : Str} {f : CivilTime} :
    imfFields s = some f ↔ ∃ weekday rest day month year time,
      splitOnceStr ", ".toList s = some (weekday, rest) ∧
        splitWhitespace rest = [day, month, year, time, "GMT".toList] ∧ LooseNumber day f.day ∧
        IsMonth month f.month ∧ LooseNumber year f.year ∧ LooseTime time f := by
  unfold imfFields
  constructor
  · intro h
    obtain ⟨⟨weekday, rest⟩, hsplit, h⟩ := Option.bind_eq_some_iff.1 h
    dsimp only at h
    split at h
    · next day month year time tz hwords =>
        split_ifs at h with htz
        simp only [Option.bind_eq_bind, Option.bind_eq_some_iff, Option.pure_def,
          Option.some.injEq] at h
        obtain ⟨_, hday, _, hmonth, _, hyear, ⟨_, _, _⟩, htime, rfl⟩ := h
        rw [not_not] at htz
        subst htz
        exact ⟨_, _, _, _, _, _, hsplit, hwords, parseU32_iff.1 hday, parseMonth_iff.1 hmonth,
          parseU32_iff.1 hyear, parseTime_iff.1 htime⟩
    · cases h
  · rintro ⟨weekday, rest, day, month, year, time, hsplit, hwords, hday, hmonth, hyear, htime⟩
    rw [hsplit, Option.bind_eq_bind, Option.bind_some]
    dsimp only
    rw [hwords]
    dsimp only
    rw [if_neg (not_not.2 rfl), parseU32_iff.2 hday, parseMonth_iff.2 hmonth,
      parseU32_iff.2 hyear, parseTime_iff.2 htime]
    rfl

/-- The date that the second parser finds. -/
theorem rfc850Date_iff {s timeTz : Str} {day month yy : ℕ} :
    rfc850Date s = some (day, month, yy, timeTz) ↔ LooseRfc850Date s day month yy timeTz := by
  unfold rfc850Date LooseRfc850Date
  constructor
  · intro h
    obtain ⟨⟨weekday, rest⟩, hsplit, h⟩ := Option.bind_eq_some_iff.1 h
    obtain ⟨⟨date, timeTz'⟩, hspace, h⟩ := Option.bind_eq_some_iff.1 h
    dsimp only at h hspace
    split at h
    · next dayText monthText yyText hdashes =>
        simp only [Option.bind_eq_bind, Option.bind_eq_some_iff, Option.pure_def,
          Option.some.injEq, Prod.mk.injEq] at h
        obtain ⟨_, hday, _, hmonth, _, hyy, rfl, rfl, rfl, rfl⟩ := h
        exact ⟨_, _, _, _, _, _, hsplit, hspace, hdashes, parseU32_iff.1 hday,
          parseMonth_iff.1 hmonth, parseU32_iff.1 hyy⟩
    · cases h
  · rintro ⟨weekday, rest, date, dayText, monthText, yyText, hsplit, hspace, hdashes, hday, hmonth,
      hyy⟩
    rw [hsplit, Option.bind_eq_bind, Option.bind_some]
    dsimp only
    rw [hspace, Option.bind_eq_bind, Option.bind_some]
    dsimp only
    rw [hdashes]
    dsimp only
    rw [parseU32_iff.2 hday, parseMonth_iff.2 hmonth, parseU32_iff.2 hyy]
    rfl

theorem rfc850Time_iff {timeTz : Str} {f : CivilTime} :
    rfc850Time timeTz = some (f.hour, f.min, f.sec) ↔
      ∃ time, rsplitOnce ' ' timeTz = some (time, "GMT".toList) ∧ LooseTime time f := by
  unfold rfc850Time
  constructor
  · intro h
    obtain ⟨⟨time, tz⟩, hsplit, h⟩ := Option.bind_eq_some_iff.1 h
    dsimp only at h
    split_ifs at h with htz
    rw [not_not] at htz
    subst htz
    exact ⟨time, hsplit, parseTime_iff.1 h⟩
  · rintro ⟨time, hsplit, htime⟩
    rw [hsplit, Option.bind_eq_bind, Option.bind_some]
    dsimp only
    rw [if_neg (not_not.2 rfl), parseTime_iff.2 htime]

/-- What the third parser takes for a date of `asctime`. -/
theorem asctimeFields_iff {s : Str} {f : CivilTime} :
    asctimeFields s = some f ↔ ∃ weekday month day time year,
      splitWhitespace s = [weekday, month, day, time, year] ∧ IsMonth month f.month ∧
        LooseNumber day f.day ∧ LooseTime time f ∧ LooseNumber year f.year := by
  unfold asctimeFields
  constructor
  · intro h
    split at h
    · next weekday month day time year hwords =>
        simp only [Option.bind_eq_bind, Option.bind_eq_some_iff, Option.pure_def,
          Option.some.injEq] at h
        obtain ⟨_, hmonth, _, hday, ⟨_, _, _⟩, htime, _, hyear, rfl⟩ := h
        exact ⟨_, _, _, _, _, hwords, parseMonth_iff.1 hmonth, parseU32_iff.1 hday,
          parseTime_iff.1 htime, parseU32_iff.1 hyear⟩
    · cases h
  · rintro ⟨weekday, month, day, time, year, hwords, hmonth, hday, htime, hyear⟩
    rw [hwords]
    dsimp only
    rw [parseMonth_iff.2 hmonth, parseU32_iff.2 hday, parseTime_iff.2 htime, parseU32_iff.2 hyear]
    rfl

/-! ### What is read -/

/-- The numbers are a day of a month from 1970 on. -/
def CivilTime.Counted (f : CivilTime) : Prop := 1970 ≤ f.year ∧ 1 ≤ f.day ∧ f.day ≤ 31

instance (f : CivilTime) : Decidable f.Counted := inferInstanceAs (Decidable (_ ∧ _ ∧ _))

/-- The seconds from 1970 on.  A day that the month does not have is counted into the next one, and
so are hours, minutes and seconds that there are not. -/
def CivilTime.unix (f : CivilTime) : ℕ :=
  (marchDays f.year f.month f.day).toNat * 86400 + f.hour * 3600 + f.min * 60 + f.sec

/-- The numbers are those of a month and of the type `u32`. -/
def CivilTime.InRange (f : CivilTime) : Prop :=
  f.year < 2 ^ 32 ∧ (1 ≤ f.month ∧ f.month ≤ 12) ∧ f.hour < 2 ^ 32 ∧ f.min < 2 ^ 32 ∧
    f.sec < 2 ^ 32

theorem unixOfFields_eq {f : CivilTime} (h : f.InRange) :
    unixOfFields (some f) = if f.Counted then .ok f.unix else .error .refused := by
  obtain ⟨hyear, hmonth, hhour, hmin, hsec⟩ := h
  exact dateToUnix_eq f.day hyear hmonth hhour hmin hsec

theorem LooseDate.inRange {s : Str} {f : CivilTime} (h : LooseDate s f) : f.InRange := by
  cases h with
  | imf _ _ hday hmonth hyear htime =>
      obtain ⟨_, _, _, -, hhour, hmin, hsec⟩ := htime
      exact ⟨hyear.2.2, ⟨hmonth.1, hmonth.2.1⟩, hhour.2.2, hmin.2.2, hsec.2.2⟩
  | rfc850 hdate _ hyear _ htime =>
      obtain ⟨_, _, _, -, hhour, hmin, hsec⟩ := htime
      obtain ⟨_, _, _, _, _, _, -, -, -, -, hmonth, -⟩ := hdate
      exact ⟨hyear, ⟨hmonth.1, hmonth.2.1⟩, hhour.2.2, hmin.2.2, hsec.2.2⟩
  | asctime _ hmonth hday htime hyear =>
      obtain ⟨_, _, _, -, hhour, hmin, hsec⟩ := htime
      exact ⟨hyear.2.2, ⟨hmonth.1, hmonth.2.1⟩, hhour.2.2, hmin.2.2, hsec.2.2⟩

/-- A parser that finds loosely written dates reads them, and overflows nowhere. -/
theorem unixOfFields_cases {s : Str} {fields : Option CivilTime}
    (h : ∀ f, fields = some f → LooseDate s f) :
    (unixOfFields fields = .error .refused ∧ ∀ f, fields = some f → ¬ f.Counted) ∨
      ∃ f, unixOfFields fields = .ok f.unix ∧ fields = some f ∧ f.Counted := by
  cases fields with
  | none => exact .inl ⟨rfl, fun f hf => by cases hf⟩
  | some f =>
      rw [unixOfFields_eq (h f rfl).inRange]
      by_cases hcounted : f.Counted
      · exact .inr ⟨f, if_pos hcounted, rfl, hcounted⟩
      · exact .inl ⟨if_neg hcounted, fun f' hf' => by cases hf'; exact hcounted⟩

theorem looseDate_of_imfFields {s : Str} {f : CivilTime} (h : imfFields s = some f) :
    LooseDate s f := by
  obtain ⟨_, _, _, _, _, _, hsplit, hwords, hday, hmonth, hyear, htime⟩ := imfFields_iff.1 h
  exact .imf hsplit hwords hday hmonth hyear htime

theorem looseDate_of_asctimeFields {s : Str} {f : CivilTime} (h : asctimeFields s = some f) :
    LooseDate s f := by
  obtain ⟨_, _, _, _, _, hwords, hmonth, hday, htime, hyear⟩ := asctimeFields_iff.1 h
  exact .asctime hwords hmonth hday htime hyear

/-- The numbers that the second parser finds, when the year does not overflow. -/
def rfc850Fields (s : Str) : Option CivilTime :=
  (rfc850Date s).bind fun (day, month, yy, timeTz) =>
    (rfc850Time timeTz).map fun (hour, min, sec) => ⟨century yy + yy, month, day, hour, min, sec⟩

theorem parseRfc850Date_of_overflowingYear {s : Str} (h : OverflowingYear s) :
    parseRfc850Date s = .error .overflow := by
  obtain ⟨day, month, yy, timeTz, hdate, hyear⟩ := h
  rw [parseRfc850Date, rfc850Date_iff.2 hdate]
  dsimp only
  rw [u32, if_neg (by omega)]
  rfl

theorem parseRfc850Date_of_not_overflowingYear {s : Str} (h : ¬ OverflowingYear s) :
    parseRfc850Date s = unixOfFields (rfc850Fields s) := by
  unfold parseRfc850Date rfc850Fields
  cases hdate : rfc850Date s with
  | none => rfl
  | some p =>
      obtain ⟨day, month, yy, timeTz⟩ := p
      have hyear : century yy + yy < 2 ^ 32 := by
        by_contra hge
        exact h ⟨day, month, yy, timeTz, rfc850Date_iff.1 hdate, not_lt.1 hge⟩
      dsimp only
      rw [u32, if_pos hyear]
      rfl

theorem looseDate_of_rfc850Fields {s : Str} {f : CivilTime} (h : rfc850Fields s = some f)
    (hover : ¬ OverflowingYear s) : LooseDate s f := by
  obtain ⟨⟨day, month, yy, timeTz⟩, hdate, h⟩ := Option.bind_eq_some_iff.1 h
  obtain ⟨⟨hour, min, sec⟩, htime, rfl⟩ := Option.map_eq_some_iff.1 h
  obtain ⟨time, hgmt, hloose⟩ := rfc850Time_iff (f := ⟨_, month, day, hour, min, sec⟩).1 htime
  have hloose' := rfc850Date_iff.1 hdate
  refine .rfc850 hloose' rfl ?_ hgmt hloose
  by_contra hge
  exact hover ⟨day, month, yy, timeTz, hloose', not_lt.1 hge⟩

/-! ### The three parsers together -/

theorem isWhitespace_of_mem_looseNumber {s : Str} {n : ℕ} (h : LooseNumber s n) {c : Char}
    (hc : c ∈ s) : isWhitespace c = false := by
  by_cases hplus : c = '+'
  · rw [hplus]
    decide
  · exact isWhitespace_of_isDigit (h.1.2 c (mem_of_mem_dropPlus hc hplus))

/-- The date is a word with dashes. -/
theorem LooseRfc850Date.exists_word {s timeTz : Str} {day month yy : ℕ}
    (h : LooseRfc850Date s day month yy timeTz) :
    ∃ weekday date, splitOnceStr ", ".toList s = some (weekday, date ++ ' ' :: timeTz) ∧
      IsWord date ∧ '-' ∈ date := by
  obtain ⟨weekday, rest, date, dayText, monthText, yyText, hsplit, hspace, hdashes, hday, hmonth,
    hyy⟩ := h
  obtain ⟨hrest, -⟩ := splitOnce_eq_some hspace
  have hdash : '-' ∈ date := by
    by_contra hnot
    rw [List.splitOn_eq_singleton hnot] at hdashes
    cases hdashes
  refine ⟨weekday, date, by rw [hsplit, hrest], ⟨List.ne_nil_of_mem hdash, fun c hc => ?_⟩, hdash⟩
  by_cases hc' : c = '-'
  · rw [hc']
    decide
  · obtain ⟨piece, hpiece, hmem⟩ := Pieces.mem_splitOn '-' hc hc'
    rw [hdashes] at hpiece
    simp only [List.mem_cons, List.not_mem_nil, or_false] at hpiece
    rcases hpiece with rfl | rfl | rfl
    · exact isWhitespace_of_mem_looseNumber hday hmem
    · obtain ⟨hpos, hle, rfl⟩ := hmonth
      exact (isWord_monthName hpos hle).2 c hmem
    · exact isWhitespace_of_mem_looseNumber hyy hmem

theorem dash_notMem_looseNumber {s : Str} {n : ℕ} (h : LooseNumber s n) : '-' ∉ s := fun hmem =>
  notMem_of_isNumeral_dropPlus h.1 (by decide) rfl hmem

theorem dash_notMem_looseTime {s : Str} {f : CivilTime} (h : LooseTime s f) : '-' ∉ s := by
  obtain ⟨hour, min, sec, hsplit, hhour, hmin, hsec⟩ := h
  intro hmem
  obtain ⟨piece, hpiece, hdash⟩ := Pieces.mem_splitOn ':' hmem (by decide)
  rw [hsplit] at hpiece
  simp only [List.mem_cons, List.not_mem_nil, or_false] at hpiece
  rcases hpiece with rfl | rfl | rfl
  · exact dash_notMem_looseNumber hhour hdash
  · exact dash_notMem_looseNumber hmin hdash
  · exact dash_notMem_looseNumber hsec hdash

/-- A date that is written with dashes is no number, so that the first parser does not take it. -/
theorem imfFields_of_looseRfc850Date {s timeTz : Str} {day month yy : ℕ}
    (h : LooseRfc850Date s day month yy timeTz) : imfFields s = none := by
  obtain ⟨weekday, date, hsplit, hword, hdash⟩ := h.exists_word
  cases himf : imfFields s with
  | none => rfl
  | some f =>
      obtain ⟨weekday', rest', first, _, _, _, hsplit', hwords, hfirst, -⟩ := imfFields_iff.1 himf
      rw [hsplit] at hsplit'
      cases hsplit'
      rw [splitWhitespace_cons hword (by decide)] at hwords
      obtain ⟨rfl, -⟩ := List.cons.inj hwords
      exact absurd hdash (dash_notMem_looseNumber hfirst)

/-- There is a word in front of a comma with a blank behind it. -/
theorem exists_words_of_comma {s weekday rest : Str}
    (h : splitOnceStr ", ".toList s = some (weekday, rest)) :
    ∃ word words, splitWhitespace s = word :: (words ++ splitWhitespace rest) := by
  have htext : s = (weekday ++ [',']) ++ ' ' :: rest := by
    rw [splitOnceStr_eq_some h]
    simp
  obtain ⟨piece, hpiece, hcomma⟩ := Pieces.mem_splitOnP isWhitespace
    (show ',' ∈ weekday ++ [','] by simp) (by decide)
  have hmem : piece ∈ splitWhitespace (weekday ++ [',']) :=
    List.mem_filter.2 ⟨hpiece, by simpa using List.ne_nil_of_mem hcomma⟩
  obtain ⟨word, words, hwords⟩ := List.exists_cons_of_ne_nil (List.ne_nil_of_mem hmem)
  refine ⟨word, words, ?_⟩
  rw [htext, splitWhitespace_append_cons (by decide), hwords]
  rfl

/-- A date of `asctime` has too few words for the first parser. -/
theorem imfFields_of_asctimeFields {s : Str} {f : CivilTime} (h : asctimeFields s = some f) :
    imfFields s = none := by
  obtain ⟨_, _, _, _, _, hwords, -⟩ := asctimeFields_iff.1 h
  cases himf : imfFields s with
  | none => rfl
  | some f' =>
      obtain ⟨_, _, _, _, _, _, hsplit, hrest, -⟩ := imfFields_iff.1 himf
      obtain ⟨word, words, hall⟩ := exists_words_of_comma hsplit
      rw [hwords, hrest] at hall
      have hlength := congrArg List.length hall
      simp only [List.length_cons, List.length_append, List.length_nil] at hlength
      omega

/-- Nor does a word with dashes stand in it behind the first. -/
theorem asctimeFields_of_looseRfc850Date {s timeTz : Str} {day month yy : ℕ}
    (h : LooseRfc850Date s day month yy timeTz) : asctimeFields s = none := by
  obtain ⟨weekday, date, hsplit, hword, hdash⟩ := h.exists_word
  cases hasc : asctimeFields s with
  | none => rfl
  | some f =>
      obtain ⟨_, monthText, dayText, time, year, hwords, hmonth, hday, htime, hyear⟩ :=
        asctimeFields_iff.1 hasc
      obtain ⟨word, words, hall⟩ := exists_words_of_comma hsplit
      rw [hwords, splitWhitespace_cons hword (by decide)] at hall
      have hmem : date ∈ [monthText, dayText, time, year] := by
        rw [(List.cons.inj hall).2]
        simp
      simp only [List.mem_cons, List.not_mem_nil, or_false] at hmem
      rcases hmem with rfl | rfl | rfl | rfl
      · obtain ⟨hpos, hle, rfl⟩ := hmonth
        exact absurd hdash (dash_notMem_monthName hpos hle)
      · exact absurd hdash (dash_notMem_looseNumber hday)
      · exact absurd hdash (dash_notMem_looseTime htime)
      · exact absurd hdash (dash_notMem_looseNumber hyear)

/-- The numbers in the first of the forms that a text is taken to have. -/
def looseFields (s : Str) : Option CivilTime :=
  (imfFields s).or ((rfc850Fields s).or (asctimeFields s))

/-- A text is taken to have one form only. -/
theorem LooseDate.looseFields_eq {s : Str} {f : CivilTime} (h : LooseDate s f) :
    looseFields s = some f := by
  unfold looseFields
  cases h with
  | imf hsplit hwords hday hmonth hyear htime =>
      rw [imfFields_iff.2 ⟨_, _, _, _, _, _, hsplit, hwords, hday, hmonth, hyear, htime⟩,
        Option.some_or]
  | @rfc850 timeTz time yy hdate hyear _ hgmt htime =>
      have hfields : rfc850Fields s = some f := by
        rw [rfc850Fields, rfc850Date_iff.2 hdate, Option.bind_some]
        dsimp only
        rw [rfc850Time_iff.2 ⟨time, hgmt, htime⟩, Option.map_some, ← hyear]
      rw [imfFields_of_looseRfc850Date hdate, Option.none_or, hfields, Option.some_or]
  | asctime hwords hmonth hday htime hyear =>
      have hfields := asctimeFields_iff.2 ⟨_, _, _, _, _, hwords, hmonth, hday, htime, hyear⟩
      have hnone : rfc850Fields s = none := by
        cases hdate : rfc850Date s with
        | none => rw [rfc850Fields, hdate, Option.bind_none]
        | some p =>
            rw [asctimeFields_of_looseRfc850Date (rfc850Date_iff.1 hdate)] at hfields
            cases hfields
      rw [imfFields_of_asctimeFields hfields, Option.none_or, hnone, Option.none_or, hfields]

theorem LooseDate.unique {s : Str} {f f' : CivilTime} (h : LooseDate s f) (h' : LooseDate s f') :
    f = f' := Option.some_inj.1 (h.looseFields_eq.symm.trans h'.looseFields_eq)

/-- Its year does not overflow. -/
theorem LooseDate.not_overflowingYear {s : Str} {f : CivilTime} (h : LooseDate s f) :
    ¬ OverflowingYear s := by
  rintro ⟨day, month, yy, timeTz, hdate, hge⟩
  cases h with
  | imf hsplit hwords hday hmonth hyear htime =>
      cases (imfFields_of_looseRfc850Date hdate).symm.trans
        (imfFields_iff.2 ⟨_, _, _, _, _, _, hsplit, hwords, hday, hmonth, hyear, htime⟩)
  | rfc850 hdate' hyear hlt _ _ =>
      cases (rfc850Date_iff.2 hdate).symm.trans (rfc850Date_iff.2 hdate')
      omega
  | asctime hwords hmonth hday htime hyear =>
      cases (asctimeFields_of_looseRfc850Date hdate).symm.trans
        (asctimeFields_iff.2 ⟨_, _, _, _, _, hwords, hmonth, hday, htime, hyear⟩)

/-- When the year does not overflow, a text is read just in case it is a loosely written date. -/
theorem parseHttpDate_cases {s : Str} (hover : ¬ OverflowingYear (trim s)) :
    (parseHttpDate s = .error .refused ∧ ∀ f, LooseDate (trim s) f → ¬ f.Counted) ∨
      ∃ f, parseHttpDate s = .ok f.unix ∧ LooseDate (trim s) f ∧ f.Counted := by
  unfold parseHttpDate parseImfFixdate parseAsctime
  dsimp only
  rw [parseRfc850Date_of_not_overflowingYear hover]
  generalize trim s = text at hover ⊢
  have hloose := fun f hf => looseDate_of_rfc850Fields (s := text) (f := f) hf hover
  rcases unixOfFields_cases fun f => looseDate_of_imfFields (s := text) (f := f) with
    ⟨himf, hnoImf⟩ | ⟨f, himf, hf, hcounted⟩
  case inr => exact .inr ⟨f, by rw [himf]; rfl, looseDate_of_imfFields hf, hcounted⟩
  rw [himf, orTry_refused]
  rcases unixOfFields_cases hloose with ⟨hrfc, hnoRfc⟩ | ⟨f, hrfc, hf, hcounted⟩
  case inr => exact .inr ⟨f, by rw [hrfc]; rfl, hloose f hf, hcounted⟩
  rw [hrfc, orTry_refused]
  rcases unixOfFields_cases fun f => looseDate_of_asctimeFields (s := text) (f := f) with
    ⟨hasc, hnoAsc⟩ | ⟨f, hasc, hf, hcounted⟩
  case inr => exact .inr ⟨f, hasc, looseDate_of_asctimeFields hf, hcounted⟩
  refine .inl ⟨hasc, fun f hf => ?_⟩
  have hfields := hf.looseFields_eq
  rw [looseFields, Option.or_eq_some_iff, Option.or_eq_some_iff] at hfields
  rcases hfields with hf | ⟨-, hf | ⟨-, hf⟩⟩
  · exact hnoImf f hf
  · exact hnoRfc f hf
  · exact hnoAsc f hf

/-- The year of an RFC 850 date is all that overflows. -/
theorem parseHttpDate_overflow_iff {s : Str} :
    parseHttpDate s = .error .overflow ↔ OverflowingYear (trim s) := by
  constructor
  · intro h
    by_contra hover
    rcases parseHttpDate_cases hover with ⟨hrefused, -⟩ | ⟨_, hok, -⟩
    · rw [h] at hrefused
      cases hrefused
    · rw [h] at hok
      cases hok
  · intro hover
    obtain ⟨day, month, yy, timeTz, hdate, -⟩ := id hover
    unfold parseHttpDate parseImfFixdate
    dsimp only
    rw [imfFields_of_looseRfc850Date hdate, parseRfc850Date_of_overflowingYear hover]
    rfl

/-- **What is read**: a loosely written date from 1970 on with a day up to the 31st, as the seconds
that are counted for it. -/
theorem parseHttpDate_eq_ok_iff {s : Str} {t : ℕ} :
    parseHttpDate s = .ok t ↔ ∃ f, LooseDate (trim s) f ∧ f.Counted ∧ f.unix = t := by
  by_cases hover : OverflowingYear (trim s)
  · rw [parseHttpDate_overflow_iff.2 hover]
    exact iff_of_false (fun h => by cases h) fun ⟨f, hf, _⟩ => hf.not_overflowingYear hover
  · rcases parseHttpDate_cases hover with ⟨hrefused, hnone⟩ | ⟨f, hok, hf, hcounted⟩
    · rw [hrefused]
      exact iff_of_false (fun h => by cases h) fun ⟨f, hf, hcounted, _⟩ => hnone f hf hcounted
    · rw [hok, Except.ok.injEq]
      refine ⟨fun ht => ⟨f, hf, hcounted, ht⟩, ?_⟩
      rintro ⟨f', hf', -, rfl⟩
      rw [hf.unique hf']

/-! ### What reading a date should be -/

/-- Reading a date overflows nowhere, gives the Unix time of the moment that the text says in one of
the three forms, and gives nothing for a text that says none. -/
structure ParsesDateExactly (s : Str) : Prop where
  noOverflow : parseHttpDate s ≠ .error .overflow
  exact : ∀ t : ℕ, parseHttpDate s = .ok t →
    ∃ m : Moment, HttpDate.Denotes century (trim s) m ∧ (t : ℤ) = m.unix
  impossible : (∀ m : Moment, ¬ HttpDate.Denotes century (trim s) m) →
    parseHttpDate s = .error .refused

/-- A date is read exactly when its year does not overflow and, where it is written like a date with
a day up to the 31st from 1970 on, it is an existing moment in one of the three forms. -/
theorem parsesDateExactly_iff (s : Str) :
    ParsesDateExactly s ↔ ¬ OverflowingYear (trim s) ∧
      ∀ f, LooseDate (trim s) f → f.Counted →
        ∃ m : Moment, HttpDate.Denotes century (trim s) m := by
  constructor
  · intro h
    have hover : ¬ OverflowingYear (trim s) := mt parseHttpDate_overflow_iff.2 h.noOverflow
    refine ⟨hover, fun f hf hcounted => ?_⟩
    obtain ⟨m, hm, -⟩ := h.exact f.unix (parseHttpDate_eq_ok_iff.2 ⟨f, hf, hcounted, rfl⟩)
    exact ⟨m, hm⟩
  · rintro ⟨hover, hdenotes⟩
    have hread : ∀ t, parseHttpDate s = .ok t →
        ∃ m : Moment, HttpDate.Denotes century (trim s) m := by
      intro t ht
      obtain ⟨f, hf, hcounted, -⟩ := parseHttpDate_eq_ok_iff.1 ht
      exact hdenotes f hf hcounted
    refine ⟨mt parseHttpDate_overflow_iff.1 hover, fun t ht => ?_, fun hnone => ?_⟩
    · obtain ⟨m, hm⟩ := hread t ht
      refine ⟨m, hm, ?_⟩
      have hyear := (parseHttpDate_eq_of_denotes hm).2
      have hlt : m.date.year < 2 ^ 32 := hyear.trans (by decide)
      have heq := parseHttpDate_of_denotes hm
      rw [ht] at heq
      split_ifs at heq with hpast
      rw [Except.ok.inj heq]
      exact Int.toNat_of_nonneg (unix_nonneg hpast)
    · rcases parseHttpDate_cases hover with ⟨hrefused, -⟩ | ⟨f, hok, -⟩
      · exact hrefused
      · obtain ⟨m, hm⟩ := hread f.unix hok
        exact absurd hm (hnone m)

/-- What the first parser finds in a date are the numbers of its moment. -/
theorem civilTimeOf_eq_of_imfFields {s : Str} {m : Moment} {f : CivilTime}
    (h : HttpDate.Denotes century s m) (hf : imfFields s = some f) : civilTimeOf m = f := by
  cases h with
  | imfFixdate hyear =>
      rw [imfFields_imfFixdate _ (by omega)] at hf
      exact Option.some.inj hf
  | rfc850 _ _ =>
      rw [imfFields_rfc850] at hf
      cases hf
  | asctime _ =>
      have hday := notMem_padded (c := ',') (by decide) 2 m.date.day
      rw [imfFields_of_comma_notMem (comma_notMem_asctime _ hday _)] at hf
      cases hf
  | asctimeSpace _ _ =>
      have hday : ',' ∉ ' ' :: Decimal.padded 1 m.date.day := by
        simp [notMem_padded (c := ',') (by decide)]
      rw [imfFields_of_comma_notMem (comma_notMem_asctime _ hday _)] at hf
      cases hf

/-- The 31st of February is read as a day. -/
theorem not_parsesDateExactly_february :
    ¬ ParsesDateExactly "Sun, 31 Feb 2021 00:00:00 GMT".toList := by
  intro h
  obtain ⟨m, hm, -⟩ := h.exact 1614729600 (by decide)
  have hfields := civilTimeOf_eq_of_imfFields hm (f := ⟨2021, 2, 31, 0, 0, 0⟩) (by decide)
  have hyear : m.date.year = 2021 := congrArg CivilTime.year hfields
  have hmonth : m.date.month = 2 := congrArg CivilTime.month hfields
  have hday : m.date.day = 31 := congrArg CivilTime.day hfields
  have hle := m.date.day_le
  rw [hyear, hmonth, hday] at hle
  revert hle
  decide

end OxiHttp
