/-
# The proleptic Gregorian calendar

The dates of the calendar, in both directions of time, and the numbers of their days, where the
day zero is 1970-01-01.  Years are counted from March here, so that the day a leap year has more
is the last one of its year, and months are counted through all years, so that the date of a day
is found by its month alone.  The number of a date goes up with the date, and every number has its
date: dates and days are the same order.

The arithmetic is that of the usual conversions: an era is 400 years of 146097 days, and the year
of an era is its day, less the leap days before it, over 365.  That this quotient is the right
year is the one fact that is not linear (`yearOfEra_eq`); the rest is that months are as long as
the calendar says and follow each other without a gap.

A `Date` carries that its month and its day exist, so a conversion to dates cannot return the
thirtieth of February, and a statement about all dates is about those that exist.
-/
import Mathlib.Data.Int.ConditionallyCompleteOrder
import Mathlib.Data.Prod.Lex
import Mathlib.Order.Hom.Set
import Mathlib.Order.SuccPred.IntervalSucc
import Mathlib.Tactic.IntervalCases

namespace Lib.Calendar

/-! ## 1. Years -/

def IsLeap (year : ℤ) : Prop := year % 4 = 0 ∧ (year % 100 ≠ 0 ∨ year % 400 = 0)

instance (year : ℤ) : Decidable (IsLeap year) := inferInstanceAs (Decidable (_ ∧ _))

/-- The days from the first of March of the year 0 to that of the year. -/
def daysBeforeYear (year : ℤ) : ℤ := 365 * year + year / 4 - year / 100 + year / 400

/-- A year that begins in March has a leap day if the next January is one of a leap year. -/
theorem daysBeforeYear_succ (year : ℤ) : daysBeforeYear (year + 1) =
    daysBeforeYear year + if IsLeap (year + 1) then 366 else 365 := by
  unfold daysBeforeYear
  split
  · next hleap =>
    unfold IsLeap at hleap
    omega
  · next hleap =>
    unfold IsLeap at hleap
    omega

/-! ## 2. Months -/

def daysInMonth (year month : ℤ) : ℤ :=
  if month = 2 then (if IsLeap year then 29 else 28)
  else if month = 4 ∨ month = 6 ∨ month = 9 ∨ month = 11 then 30
  else 31

/-- The days before a month of a year that begins in March. -/
def daysBeforeMonth (month : ℤ) : ℤ := (153 * month + 2) / 5

/-- Counted from March, the months of 30 days are April, June, September and November. -/
theorem daysBeforeMonth_succ {month : ℤ} (h0 : 0 ≤ month) (h1 : month ≤ 10) :
    daysBeforeMonth (month + 1) = daysBeforeMonth month +
      if month = 1 ∨ month = 3 ∨ month = 6 ∨ month = 8 then 30 else 31 := by
  interval_cases month <;> rfl

/-- The first day of a month, counted from January of the year 0. -/
def monthStart (index : ℤ) : ℤ :=
  daysBeforeYear ((index - 2) / 12) + daysBeforeMonth ((index - 2) % 12) - 719468

/-- The month of a year that begins in March. -/
theorem monthStart_eq (year : ℤ) {month : ℤ} (h0 : 0 ≤ month) (h1 : month ≤ 11) :
    monthStart (12 * year + month + 2) =
      daysBeforeYear year + daysBeforeMonth month - 719468 := by
  have hyear : (12 * year + month + 2 - 2) / 12 = year := by omega
  have hmonth : (12 * year + month + 2 - 2) % 12 = month := by omega
  rw [monthStart, hyear, hmonth]

/-- **A month is as long as the calendar says.** -/
theorem monthStart_succ (index : ℤ) :
    monthStart (index + 1) = monthStart index + daysInMonth (index / 12) (index % 12 + 1) := by
  obtain ⟨year, month, hindex, h0, h1⟩ :
      ∃ year month, index = 12 * year + month + 2 ∧ 0 ≤ month ∧ month ≤ 11 :=
    ⟨(index - 2) / 12, (index - 2) % 12, by omega, by omega, by omega⟩
  subst hindex
  rw [monthStart_eq _ h0 h1]
  by_cases hlast : month = 11
  · -- February, and the March of the next year after it
    have hmarch : 12 * year + month + 2 + 1 = 12 * (year + 1) + 0 + 2 := by omega
    have hyear : (12 * year + month + 2) / 12 = year + 1 := by omega
    have hmonth : (12 * year + month + 2) % 12 + 1 = 2 := by omega
    rw [hmarch, monthStart_eq _ (Int.le_refl 0) (by decide), daysBeforeYear_succ, hyear, hmonth,
      daysInMonth, if_pos rfl, hlast]
    unfold daysBeforeMonth
    split
    · omega
    · omega
  · have hnext : 12 * year + month + 2 + 1 = 12 * year + (month + 1) + 2 := by omega
    have hlong : ¬ (12 * year + month + 2) % 12 + 1 = 2 := by omega
    rw [hnext, monthStart_eq _ (by omega) (by omega), daysBeforeMonth_succ h0 (by omega),
      daysInMonth, if_neg hlong]
    split
    · split
      · omega
      · omega
    · split
      · omega
      · omega

theorem daysInMonth_pos (year month : ℤ) : 0 < daysInMonth year month := by
  unfold daysInMonth
  repeat' split
  all_goals decide

theorem monthStart_strictMono : StrictMono monthStart :=
  strictMono_int_of_lt_succ fun index => by
    rw [monthStart_succ]
    exact Int.lt_add_of_pos_right _ (daysInMonth_pos _ _)

/-! ## 3. Dates -/

@[ext] structure Date where
  year : ℤ
  month : ℤ
  day : ℤ
  month_mem : 1 ≤ month ∧ month ≤ 12
  day_mem : 1 ≤ day ∧ day ≤ daysInMonth year month
deriving DecidableEq

namespace Date

/-- The month, counted from January of the year 0. -/
def monthIndex (d : Date) : ℤ := 12 * d.year + (d.month - 1)

/-- Dates go by year, month and day. -/
instance : LinearOrder Date :=
  LinearOrder.lift' (fun d => toLex (d.year, toLex (d.month, d.day))) fun a b h => by
    simp only [EmbeddingLike.apply_eq_iff_eq, Prod.mk.injEq] at h
    exact Date.ext h.1 h.2.1 h.2.2

theorem lt_iff (a b : Date) : a < b ↔
    a.year < b.year ∨ a.year = b.year ∧
      (a.month < b.month ∨ a.month = b.month ∧ a.day < b.day) := by
  change toLex (a.year, toLex (a.month, a.day)) < toLex (b.year, toLex (b.month, b.day)) ↔ _
  rw [Prod.Lex.toLex_lt_toLex, Prod.Lex.toLex_lt_toLex]

/-- Dates go by month and day. -/
theorem lt_iff_monthIndex (a b : Date) : a < b ↔
    a.monthIndex < b.monthIndex ∨ a.monthIndex = b.monthIndex ∧ a.day < b.day := by
  have ha := a.month_mem
  have hb := b.month_mem
  rw [lt_iff]
  unfold monthIndex
  omega

/-- The days of the month of a date. -/
theorem monthStart_succ (d : Date) :
    monthStart (d.monthIndex + 1) = monthStart d.monthIndex + daysInMonth d.year d.month := by
  have hmonth := d.month_mem
  rw [Calendar.monthStart_succ]
  have hyear : d.monthIndex / 12 = d.year := by
    unfold monthIndex
    omega
  have hmonth : d.monthIndex % 12 + 1 = d.month := by
    unfold monthIndex
    omega
  rw [hyear, hmonth]

/-- The days from 1970-01-01 to the date. -/
def dayNumber (d : Date) : ℤ := monthStart d.monthIndex + d.day - 1

/-- A date stands within its month. -/
theorem dayNumber_mem (d : Date) :
    monthStart d.monthIndex ≤ d.dayNumber ∧ d.dayNumber < monthStart (d.monthIndex + 1) := by
  have hday := d.day_mem
  rw [monthStart_succ]
  unfold dayNumber
  omega

/-- **The number goes up with the date.** -/
theorem dayNumber_strictMono : StrictMono dayNumber := by
  intro a b hab
  rcases (lt_iff_monthIndex a b).mp hab with hmonth | ⟨hmonth, hday⟩
  · have hle : monthStart (a.monthIndex + 1) ≤ monthStart b.monthIndex :=
      monthStart_strictMono.monotone hmonth
    have ha := a.dayNumber_mem.2
    have hb := b.dayNumber_mem.1
    omega
  · unfold dayNumber
    rw [hmonth]
    omega

/-- The first day of a year. -/
def january (year : ℤ) : Date where
  year := year
  month := 1
  day := 1
  month_mem := by decide
  day_mem := ⟨by decide, daysInMonth_pos year 1⟩

/-- **A year is as long as the calendar says.** -/
theorem dayNumber_january_succ (year : ℤ) : (january (year + 1)).dayNumber =
    (january year).dayNumber + if IsLeap year then 366 else 365 := by
  have hstart (year : ℤ) : (january (year + 1)).dayNumber =
      daysBeforeYear year + 306 - 719468 := by
    have hindex : (january (year + 1)).monthIndex = 12 * year + 10 + 2 := by
      change 12 * (year + 1) + (1 - 1) = _
      omega
    rw [dayNumber, hindex, monthStart_eq _ (by decide) (by decide), daysBeforeMonth]
    change daysBeforeYear year + (153 * 10 + 2) / 5 - 719468 + 1 - 1 = _
    omega
  have hyear := daysBeforeYear_succ (year - 1)
  have hlast := hstart (year - 1)
  rw [Int.sub_add_cancel] at hyear hlast
  rw [hstart, hlast, hyear]
  omega

/-! ## 4. The date of a day -/

/-- The date that lies in a month, counted through all years. -/
def ofMonth (index n : ℤ) (h : monthStart index ≤ n ∧ n < monthStart (index + 1)) : Date where
  year := index / 12
  month := index % 12 + 1
  day := n - monthStart index + 1
  month_mem := by omega
  day_mem := by
    rw [Calendar.monthStart_succ] at h
    omega

theorem dayNumber_ofMonth {index n : ℤ} (h : monthStart index ≤ n ∧ n < monthStart (index + 1)) :
    (ofMonth index n h).dayNumber = n := by
  have hindex : (ofMonth index n h).monthIndex = index := by
    change 12 * (index / 12) + (index % 12 + 1 - 1) = index
    omega
  rw [dayNumber, hindex]
  change monthStart index + (n - monthStart index + 1) - 1 = n
  omega

end Date

/-- The year of an era in which a day of the era lies. -/
def yearOfEra (day : ℤ) : ℤ := (day - day / 1460 + day / 36524 - day / 146096) / 365

/-- The day of the year in which a day of the era lies. -/
def dayOfYear (day : ℤ) : ℤ :=
  day - (365 * yearOfEra day + yearOfEra day / 4 - yearOfEra day / 100)

/-- A day of an era lies in one of its centuries, one of the four years from leap year to leap
year, and one of these years. -/
theorem exists_parts {day : ℤ} (h0 : 0 ≤ day) (h1 : day < 146097) : ∃ c q r t : ℤ,
    (0 ≤ c ∧ c ≤ 3) ∧ (0 ≤ q ∧ q ≤ 24) ∧ (0 ≤ r ∧ r ≤ 3) ∧
      (0 ≤ t ∧ (t ≤ 364 ∨ t = 365 ∧ r = 3 ∧ (q ≤ 23 ∨ c = 3))) ∧
      day = 36524 * c + 1461 * q + 365 * r + t := by
  obtain ⟨c, hc⟩ : ∃ c, c = min 3 (day / 36524) := ⟨_, rfl⟩
  obtain ⟨q, hq⟩ : ∃ q, q = (day - 36524 * c) / 1461 := ⟨_, rfl⟩
  obtain ⟨r, hr⟩ : ∃ r, r = min 3 ((day - 36524 * c - 1461 * q) / 365) := ⟨_, rfl⟩
  refine ⟨c, q, r, day - 36524 * c - 1461 * q - 365 * r, ?_, ?_, ?_, ?_, ?_⟩ <;> omega

/-- **The year of an era** is the one its day lies in.  The day is given by centuries, groups of
four years, years and days, which is what the leap days depend on. -/
theorem yearOfEra_eq {c q r t : ℤ} (hc : 0 ≤ c ∧ c ≤ 3) (hq : 0 ≤ q ∧ q ≤ 24)
    (hr : 0 ≤ r ∧ r ≤ 3) (ht : 0 ≤ t ∧ (t ≤ 364 ∨ t = 365 ∧ r = 3 ∧ (q ≤ 23 ∨ c = 3))) :
    yearOfEra (36524 * c + 1461 * q + 365 * r + t) = 100 * c + 4 * q + r := by
  obtain ⟨day, hday⟩ : ∃ day, 36524 * c + 1461 * q + 365 * r + t = day := ⟨_, rfl⟩
  rw [hday, yearOfEra]
  -- the last day of the era counts as one of a fifth century, which the era takes off again
  have hcentury : day / 36524 - day / 146096 = c := by
    by_cases hlast : day = 146096
    · omega
    · have hle : 36524 * c ≤ day := by omega
      have hlt : day < 36524 * (c + 1) := by omega
      omega
  -- the leap days before it
  have hleap : day / 1460 = 25 * c + q + (24 * c + q + 365 * r + t) / 1460 := by omega
  by_cases hlast : 1460 ≤ 24 * c + q + 365 * r + t
  · have hone : (24 * c + q + 365 * r + t) / 1460 = 1 := by omega
    omega
  · have hzero : (24 * c + q + 365 * r + t) / 1460 = 0 := by omega
    omega

theorem yearOfEra_mem (day : ℤ) (h0 : 0 ≤ day) (h1 : day < 146097) :
    0 ≤ yearOfEra day ∧ yearOfEra day ≤ 399 := by
  obtain ⟨c, q, r, t, hc, hq, hr, ht, rfl⟩ := exists_parts h0 h1
  rw [yearOfEra_eq hc hq hr ht]
  omega

/-- The day of a year is one of it. -/
theorem dayOfYear_mem (day : ℤ) (h0 : 0 ≤ day) (h1 : day < 146097) :
    0 ≤ dayOfYear day ∧
      dayOfYear day < if IsLeap (yearOfEra day + 1) then 366 else 365 := by
  obtain ⟨c, q, r, t, hc, hq, hr, ht, rfl⟩ := exists_parts h0 h1
  rw [dayOfYear, yearOfEra_eq hc hq hr ht]
  have hfour : (100 * c + 4 * q + r) / 4 = 25 * c + q := by omega
  have hhundred : (100 * c + 4 * q + r) / 100 = c := by omega
  rw [hfour, hhundred]
  split
  · omega
  · next hleap =>
    unfold IsLeap at hleap
    omega

/-- The days before a year of an era. -/
theorem daysBeforeYear_era (year era : ℤ) (h0 : 0 ≤ year) (h1 : year ≤ 399) :
    daysBeforeYear (year + era * 400) =
      era * 146097 + (year * 365 + year / 4 - year / 100) := by
  unfold daysBeforeYear
  omega

section

variable (n : ℤ)

/-- The year of a day, when years begin in March. -/
def marchYear : ℤ := yearOfEra ((n + 719468) % 146097) + (n + 719468) / 146097 * 400

/-- The month of a day, when years begin in March. -/
def marchMonth : ℤ := (5 * dayOfYear ((n + 719468) % 146097) + 2) / 153

/-- The days before a day in its year, when years begin in March. -/
theorem eq_marchYear :
    n = daysBeforeYear (marchYear n) + dayOfYear ((n + 719468) % 146097) - 719468 := by
  have hyear := yearOfEra_mem ((n + 719468) % 146097) (by omega) (by omega)
  rw [marchYear, daysBeforeYear_era _ _ hyear.1 hyear.2]
  unfold dayOfYear
  omega

theorem dayOfYear_lt : 0 ≤ dayOfYear ((n + 719468) % 146097) ∧
    dayOfYear ((n + 719468) % 146097) < if IsLeap (marchYear n + 1) then 366 else 365 := by
  have hmem := dayOfYear_mem ((n + 719468) % 146097) (by omega) (by omega)
  have hleap : IsLeap (marchYear n + 1) ↔
      IsLeap (yearOfEra ((n + 719468) % 146097) + 1) := by
    unfold marchYear IsLeap
    omega
  simpa only [hleap] using hmem

theorem marchMonth_mem : 0 ≤ marchMonth n ∧ marchMonth n ≤ 11 := by
  have hday := dayOfYear_lt n
  unfold marchMonth
  split at hday
  · omega
  · omega

/-- **A day lies in the month that is found for it.** -/
theorem monthStart_march :
    monthStart (12 * marchYear n + marchMonth n + 2) ≤ n ∧
      n < monthStart (12 * marchYear n + marchMonth n + 2 + 1) := by
  have hmonth := marchMonth_mem n
  have hday := dayOfYear_lt n
  have hn := eq_marchYear n
  have hdef : marchMonth n = (5 * dayOfYear ((n + 719468) % 146097) + 2) / 153 := rfl
  generalize dayOfYear ((n + 719468) % 146097) = doy at hn hday hdef
  constructor
  · rw [monthStart_eq _ hmonth.1 hmonth.2, daysBeforeMonth]
    omega
  · by_cases hlast : marchMonth n = 11
    · have hmarch : 12 * marchYear n + marchMonth n + 2 + 1 =
          12 * (marchYear n + 1) + 0 + 2 := by omega
      rw [hmarch, monthStart_eq _ (Int.le_refl 0) (by decide), daysBeforeYear_succ,
        daysBeforeMonth]
      omega
    · have hnext : 12 * marchYear n + marchMonth n + 2 + 1 =
          12 * marchYear n + (marchMonth n + 1) + 2 := by omega
      rw [hnext, monthStart_eq _ (by omega) (by omega), daysBeforeMonth]
      omega

/-- The date of a day. -/
def ofDayNumber : Date :=
  Date.ofMonth (12 * marchYear n + marchMonth n + 2) n (monthStart_march n)

theorem dayNumber_ofDayNumber : (ofDayNumber n).dayNumber = n := Date.dayNumber_ofMonth _

end

/-- **Dates and day numbers are the same order.** -/
noncomputable def dayNumbers : Date ≃o ℤ :=
  Date.dayNumber_strictMono.orderIsoOfRightInverse Date.dayNumber ofDayNumber
    dayNumber_ofDayNumber

theorem ofDayNumber_dayNumber (d : Date) : ofDayNumber d.dayNumber = d :=
  dayNumbers.symm_apply_apply d

/-- The day zero. -/
example : (ofDayNumber 0).year = 1970 ∧ (ofDayNumber 0).month = 1 ∧ (ofDayNumber 0).day = 1 := by
  decide

/-! ## 5. As the conversions are written -/

/-- A quotient that is rounded towards zero is the floor when a negative dividend is less by
what the floor takes off. -/
theorem tdiv_eq_floor {n : ℤ} (hn : 0 < n) (z : ℤ) :
    (if 0 ≤ z then z else z - (n - 1)).tdiv n = z / n := by
  split
  · next h => exact Int.tdiv_eq_ediv_of_nonneg h
  · have hceil : (n - 1 - z) / n = -(z / n) := by
      have hparts := Int.mul_ediv_add_emod z n
      have hlt := Int.emod_lt_of_pos z hn
      have hnonneg := Int.emod_nonneg z hn.ne'
      refine ((Int.ediv_emod_unique (r := n - 1 - z % n) hn).mpr ⟨?_, by omega, by omega⟩).1
      rw [Int.mul_neg]
      omega
    have hneg : z - (n - 1) = -(n - 1 - z) := by omega
    rw [hneg, Int.neg_tdiv, Int.tdiv_eq_ediv_of_nonneg (by omega), hceil, Int.neg_neg]

/-- The number of a date, by the day of its era. -/
theorem dayNumber_eq {year month : ℤ} (d : Date)
    (hyear : year = if d.month ≤ 2 then d.year - 1 else d.year)
    (hmonth : month = (d.month + 9) % 12) :
    d.dayNumber = year / 400 * 146097 + ((year % 400) * 365 + year % 400 / 4 - year % 400 / 100 +
      ((153 * month + 2) / 5 + d.day - 1)) - 719468 := by
  have hmem := d.month_mem
  have hindex : d.monthIndex = 12 * year + month + 2 := by
    unfold Date.monthIndex
    split at hyear
    · omega
    · omega
  have hera : year = year % 400 + year / 400 * 400 := by omega
  have hdays := daysBeforeYear_era (year % 400) (year / 400) (by omega) (by omega)
  rw [← hera] at hdays
  rw [Date.dayNumber, hindex, monthStart_eq _ (by omega) (by omega), hdays, daysBeforeMonth]
  omega

/-- The date of a day, with its year and month counted from January. -/
theorem ofDayNumber_eq (n : ℤ) :
    (ofDayNumber n).month =
        (if marchMonth n < 10 then marchMonth n + 3 else marchMonth n - 9) ∧
      (ofDayNumber n).year =
        (if (ofDayNumber n).month ≤ 2 then marchYear n + 1 else marchYear n) ∧
      (ofDayNumber n).day = dayOfYear ((n + 719468) % 146097) -
        (153 * marchMonth n + 2) / 5 + 1 := by
  have hmonth := marchMonth_mem n
  have hn := eq_marchYear n
  have hstart := monthStart_eq (marchYear n) hmonth.1 hmonth.2
  have hm : (ofDayNumber n).month = (12 * marchYear n + marchMonth n + 2) % 12 + 1 := rfl
  have hy : (ofDayNumber n).year = (12 * marchYear n + marchMonth n + 2) / 12 := rfl
  have hd : (ofDayNumber n).day =
      n - monthStart (12 * marchYear n + marchMonth n + 2) + 1 := rfl
  unfold daysBeforeMonth at hstart
  refine ⟨?_, ?_, ?_⟩
  · rw [hm]
    split
    · omega
    · omega
  · rw [hy, hm]
    split
    · omega
    · omega
  · omega

end Lib.Calendar
