/-
# Sample times

The times of `miniseed2/src/lib.rs` once more, with an eye on their 64-bit arithmetic: every sum,
difference and product on `i64` is a checked operation here, so a step that leaves the range would
show as a panic.  None does, for any header: the start of a record is computed exactly, its period
is a whole number of microseconds that is the inverse of the declared rate, and the times of its
samples go up from the start by one period each.

The checked functions are the ones of the source, operation by operation, and each is proved equal
to its counterpart over the integers, from which the parser of `Miniseed2.Parse` is built.  The
bounds come from the header's widths: a year is between 1900 and 2100 where it is converted at
all, so the number of the day is small; a correction is 32 bits of ticks; the terms of a rate are
at most 30 bits each.

A rate is two signed numbers, and their signs say which of the four ways to combine them is meant.
What the four have in common is a positive quotient (`rateRatio_some`), and a period is accepted
only when it divides evenly, so it is the inverse of the rate exactly and not up to rounding.

The last step is about what an ACCEPTED record holds: the parser checks the span of a record, and
the time of a sample lies within it (`SpanFits`).
-/
import Mathlib.Data.Rat.Cast.Order
import Mathlib.Tactic.FieldSimp
import Musubi.Lib.Calendar
import Musubi.Lib.CheckedInt
import Musubi.Miniseed2.Tiling

namespace Musubi.Miniseed2

open Lib Lib.Checked

/-! ## 1. The checked functions -/

section

variable {ε : Type}

/-- The year of a month, when years begin in March. -/
def marchYear (year month : ℤ) : Checked ε ℤ := if month ≤ 2 then i64 (year - 1) else .ok year

/-- What is divided to find the era. -/
def eraDividend (y : ℤ) : Checked ε ℤ := if 0 ≤ y then .ok y else i64 (y - 399)

/-- `days_from_civil`. -/
def daysFromCivilChecked (year month day : ℤ) : Checked ε ℤ := do
  let y ← marchYear year month
  let era := (← eraDividend y).tdiv 400
  let yoe ← i64 (y - (← i64 (era * 400)))
  let mp := (← i64 (month + 9)).tmod 12
  let doy ← i64 ((← i64 ((← i64 ((← i64 (153 * mp)) + 2)).tdiv 5 + day)) - 1)
  let years ← i64 ((← i64 ((← i64 (yoe * 365)) + yoe.tdiv 4)) - yoe.tdiv 100)
  let doe ← i64 (years + doy)
  i64 ((← i64 ((← i64 (era * 146097)) + doe)) - 719468)

end

/-- `btime_unix_us`. -/
def btimeUnixUsChecked (t : BTime) (offset : ℕ) : Parse ℤ :=
  let bad := fun what => fail (.badStartTime offset what)
  if ¬ (1900 ≤ t.year.toNat ∧ t.year.toNat ≤ 2100) then bad "year outside 1900..=2100"
  else
    let daysInYear := if isLeap t.year.toNat then 366 else 365
    if t.dayOfYear.toNat = 0 ∨ daysInYear < t.dayOfYear.toNat then
      bad "day of year outside the year"
    else if 23 < t.hour.toNat then bad "hour above 23"
    else if 59 < t.minute.toNat then bad "minute above 59"
    else if 59 < t.second.toNat then bad "second above 59 (leap second not convertible)"
    else if 9999 < t.tenthMs.toNat then bad "0.0001 s ticks above 9999"
    else do
      let january ← daysFromCivilChecked t.year.toNat 1 1
      let days ← i64 ((← i64 (january + t.dayOfYear.toNat)) - 1)
      let hours ← i64 ((← i64 (days * 86400)) + (← i64 (t.hour.toNat * 3600)))
      let seconds ← i64 ((← i64 (hours + (← i64 (t.minute.toNat * 60)))) + t.second.toNat)
      i64 ((← i64 (seconds * 1000000)) + (← i64 (t.tenthMs.toNat * 100)))

/-- The declared start of a record, from its header and its blockette 1001. -/
def startUnixUsChecked (start : BTime) (offset : ℕ) (timeCorrectionTicks : Int32)
    (timeCorrectionApplied : Bool) (microsecondOffset : Option Int8) : Parse ℤ := do
  let raw ← btimeUnixUsChecked start offset
  let correction ← if timeCorrectionApplied then .ok 0 else i64 (timeCorrectionTicks.toInt * 100)
  i64 ((← i64 (raw + correction)) + (microsecondOffset.getD 0).toInt)

/-- `rate_ratio`. -/
def rateRatioChecked (factor multiplier : Int16) : Parse (Option (ℤ × ℤ)) :=
  let f := factor.toInt
  let m := multiplier.toInt
  if f = 0 ∨ m = 0 then return none
  else if 0 < f then
    if 0 < m then return some (← i64 (f * m), 1) else return some (f, ← i64 (-m))
  else
    if 0 < m then return some (m, ← i64 (-f)) else return some (1, ← i64 (f * m))

/-- `sample_period_us`. -/
def samplePeriodUsChecked (factor multiplier : Int16) (offset : ℕ) : Parse ℤ := do
  match ← rateRatioChecked factor multiplier with
  | none => fail (.badSampleRate offset)
  | some (num, den) =>
    let scaled ← i64 (1000000 * den)
    if num = 0 then .error .panic
    else if (← i64 (scaled.tmod num)) ≠ 0 then
      fail (.samplePeriodNotRepresentable offset factor multiplier)
    else i64 (scaled.tdiv num)

section

variable {ε : Type}

/-- `nominal_span_us`. -/
def Record.nominalSpanUs (r : Record) : Checked ε ℤ :=
  i64 (r.samplePeriodUs * (Int64.ofNat r.sampleCountDeclared).toInt)

/-- `sample_time_unix_us`; the index is cast to an `i64`. -/
def Record.sampleTimeUnixUs (r : Record) (index : ℕ) : Checked ε ℤ := do
  i64 (r.startUnixUs + (← i64 (r.samplePeriodUs * (Int64.ofNat index).toInt)))

/-! ## 2. The calendar -/

theorem marchYear_eq {year month : ℤ} (h0 : -2 ^ 40 ≤ year) (h1 : year ≤ 2 ^ 40) :
    (marchYear year month : Checked ε ℤ) = .ok (if month ≤ 2 then year - 1 else year) := by
  unfold marchYear
  split
  · exact i64_eq ⟨by omega, by omega⟩
  · rfl

theorem eraDividend_eq {y : ℤ} (h : -2 ^ 41 ≤ y) :
    (eraDividend y : Checked ε ℤ) = .ok (if 0 ≤ y then y else y - 399) := by
  unfold eraDividend
  split
  · rfl
  · exact i64_eq ⟨by omega, by omega⟩

/-- **The number of a day never overflows** for the years that a header can declare, and for many
more: intermediate results are multiples of the year by a few hundred. -/
theorem daysFromCivilChecked_eq {year month day : ℤ} (hlow : -2 ^ 40 ≤ year)
    (hhigh : year ≤ 2 ^ 40) (hmonth : 1 ≤ month ∧ month ≤ 12) (hday : 1 ≤ day ∧ day ≤ 31) :
    (daysFromCivilChecked year month day : Checked ε ℤ) = .ok (daysFromCivil year month day) := by
  unfold daysFromCivilChecked daysFromCivil
  obtain ⟨y, hy⟩ : ∃ y, (if month ≤ 2 then year - 1 else year) = y := ⟨_, rfl⟩
  have hera : (if 0 ≤ y then y else y - 399).tdiv 400 = y / 400 :=
    Calendar.tdiv_eq_floor (n := 400) (by decide) y
  have hmp : (month + 9).tmod 12 = (month + 9) % 12 := Int.tmod_eq_emod_of_nonneg (by omega)
  have hylow : -2 ^ 40 - 1 ≤ y := by split at hy <;> omega
  have hyhigh : y ≤ 2 ^ 40 := by split at hy <;> omega
  rw [marchYear_eq hlow hhigh, ok_bind, hy, eraDividend_eq (by omega), ok_bind]
  simp only [hera]
  obtain ⟨yoe, hyoe⟩ : ∃ yoe, y - y / 400 * 400 = yoe := ⟨_, rfl⟩
  rw [i64_eq ⟨by omega, by omega⟩, ok_bind, i64_eq ⟨by omega, by omega⟩, ok_bind, hyoe,
    i64_eq ⟨by omega, by omega⟩, ok_bind]
  -- the year of the era and the day of the year are small
  obtain ⟨doy, hdoy⟩ : ∃ doy, (153 * ((month + 9) % 12) + 2).tdiv 5 = doy := ⟨_, rfl⟩
  have hdoy0 : 0 ≤ doy ∧ doy ≤ 337 := by
    rw [Int.tdiv_eq_ediv_of_nonneg (by omega)] at hdoy
    omega
  simp only [hmp, Int.tdiv_eq_ediv_of_nonneg (show 0 ≤ yoe by omega)]
  rw [i64_eq ⟨by omega, by omega⟩, ok_bind, i64_eq ⟨by omega, by omega⟩, ok_bind, hdoy,
    i64_eq ⟨by omega, by omega⟩, ok_bind, i64_eq ⟨by omega, by omega⟩, ok_bind,
    i64_eq ⟨by omega, by omega⟩, ok_bind, i64_eq ⟨by omega, by omega⟩, ok_bind,
    i64_eq ⟨by omega, by omega⟩, ok_bind, i64_eq ⟨by omega, by omega⟩, ok_bind,
    i64_eq ⟨by omega, by omega⟩, ok_bind, i64_eq ⟨by omega, by omega⟩, ok_bind,
    i64_eq ⟨by omega, by omega⟩]

/-- The first day of a year of this century, the one before it or the first of the next. -/
theorem daysFromCivil_january_mem (year : ℤ) (hlow : 1900 ≤ year) (hhigh : year ≤ 2100) :
    -25567 ≤ daysFromCivil year 1 1 ∧ daysFromCivil year 1 1 ≤ 47482 := by
  unfold daysFromCivil
  simp only [if_pos (show (1 : ℤ) ≤ 2 by decide)]
  have hera : (if 0 ≤ year - 1 then year - 1 else year - 1 - 399).tdiv 400 = (year - 1) / 400 :=
    Calendar.tdiv_eq_floor (n := 400) (by decide) _
  have hyoe : 0 ≤ year - 1 - (year - 1) / 400 * 400 := by omega
  have hdoy : (153 * Int.tmod (1 + 9) 12 + 2).tdiv 5 = 306 := by decide
  rw [hera, hdoy, Int.tdiv_eq_ediv_of_nonneg hyoe, Int.tdiv_eq_ediv_of_nonneg hyoe]
  omega

end

/-! ## 3. The start of a record -/

/-- A start time is one of the 201 years that a header can declare. -/
theorem btimeUnixUs_mem {t : BTime} {offset : ℕ} {us : ℤ} (h : btimeUnixUs t offset = .ok us) :
    -2 ^ 52 ≤ us ∧ us ≤ 2 ^ 52 := by
  have hsafe : Safe (btimeUnixUs t offset) fun us => -2 ^ 52 ≤ us ∧ us ≤ 2 ^ 52 := by
    simp only [btimeUnixUs]
    refine Safe.guard fun hyear => Safe.guard fun hday => Safe.guard fun hhour => ?_
    refine Safe.guard fun hminute => Safe.guard fun hsecond => Safe.guard fun htick => ?_
    have hjanuary := daysFromCivil_january_mem t.year.toNat (by omega) (by omega)
    have hlength : (if isLeap t.year.toNat then 366 else 365) ≤ 366 := by
      split
      · exact Nat.le_refl _
      · decide
    exact safe_ok ⟨by omega, by omega⟩
  rw [h] at hsafe
  exact hsafe

/-- **A start time never overflows.** The fields are checked before they are used, and an error is
the same one on either side. -/
theorem btimeUnixUsChecked_eq (t : BTime) (offset : ℕ) :
    btimeUnixUsChecked t offset = btimeUnixUs t offset := by
  simp only [btimeUnixUsChecked, btimeUnixUs]
  by_cases hyear : ¬ (1900 ≤ t.year.toNat ∧ t.year.toNat ≤ 2100)
  · rw [if_pos hyear, if_pos hyear]
  rw [if_neg hyear, if_neg hyear]
  have hlength : (if isLeap t.year.toNat then 366 else 365) ≤ 366 := by
    split
    · exact Nat.le_refl _
    · decide
  generalize (if isLeap t.year.toNat then 366 else 365) = daysInYear at hlength
  by_cases hday : t.dayOfYear.toNat = 0 ∨ daysInYear < t.dayOfYear.toNat
  · rw [if_pos hday, if_pos hday]
  rw [if_neg hday, if_neg hday]
  by_cases hhour : 23 < t.hour.toNat
  · rw [if_pos hhour, if_pos hhour]
  rw [if_neg hhour, if_neg hhour]
  by_cases hminute : 59 < t.minute.toNat
  · rw [if_pos hminute, if_pos hminute]
  rw [if_neg hminute, if_neg hminute]
  by_cases hsecond : 59 < t.second.toNat
  · rw [if_pos hsecond, if_pos hsecond]
  rw [if_neg hsecond, if_neg hsecond]
  by_cases htick : 9999 < t.tenthMs.toNat
  · rw [if_pos htick, if_pos htick]
  rw [if_neg htick, if_neg htick]
  -- the arithmetic, of at most 201 years
  have hjanuary := daysFromCivil_january_mem t.year.toNat (by omega) (by omega)
  rw [daysFromCivilChecked_eq (by omega) (by omega) (by decide) (by decide), ok_bind]
  generalize daysFromCivil t.year.toNat 1 1 = january at hjanuary
  rw [i64_eq ⟨by omega, by omega⟩, ok_bind, i64_eq ⟨by omega, by omega⟩, ok_bind,
    i64_eq ⟨by omega, by omega⟩, ok_bind, i64_eq ⟨by omega, by omega⟩, ok_bind,
    i64_eq ⟨by omega, by omega⟩, ok_bind, i64_eq ⟨by omega, by omega⟩, ok_bind,
    i64_eq ⟨by omega, by omega⟩, ok_bind, i64_eq ⟨by omega, by omega⟩, ok_bind,
    i64_eq ⟨by omega, by omega⟩, ok_bind, i64_eq ⟨by omega, by omega⟩, ok_bind,
    i64_eq ⟨by omega, by omega⟩]

/-- **The start of a record never overflows**, whatever its header and its blockette 1001.  The
correction is applied unless the header says that it has been. -/
theorem startUnixUsChecked_eq (start : BTime) (offset : ℕ) (timeCorrectionTicks : Int32)
    (timeCorrectionApplied : Bool) (microsecondOffset : Option Int8) :
    startUnixUsChecked start offset timeCorrectionTicks timeCorrectionApplied microsecondOffset =
      (btimeUnixUs start offset).map fun raw => raw +
        (if timeCorrectionApplied then 0 else timeCorrectionTicks.toInt * 100) +
        (microsecondOffset.getD 0).toInt := by
  unfold startUnixUsChecked
  rw [btimeUnixUsChecked_eq]
  cases hstart : btimeUnixUs start offset with
  | error e => rfl
  | ok raw =>
    have hraw := btimeUnixUs_mem hstart
    have htick0 := Int32.le_toInt timeCorrectionTicks
    have htick1 := Int32.toInt_lt timeCorrectionTicks
    have hmicro0 := Int8.le_toInt (microsecondOffset.getD 0)
    have hmicro1 := Int8.toInt_lt (microsecondOffset.getD 0)
    rw [ok_bind, Except.map]
    cases timeCorrectionApplied with
    | true =>
      simp only [if_true]
      rw [ok_bind, i64_eq ⟨by omega, by omega⟩, ok_bind, i64_eq ⟨by omega, by omega⟩]
    | false =>
      simp only [Bool.false_eq_true, if_false]
      rw [i64_eq ⟨by omega, by omega⟩, ok_bind, i64_eq ⟨by omega, by omega⟩, ok_bind,
        i64_eq ⟨by omega, by omega⟩]

/-! ## 4. Periods -/

/-- The sample rate that the two integers of a header declare: a positive one is a factor, a
negative one a divisor. -/
def nominalRate (factor multiplier : ℤ) : ℚ :=
  (if 0 < factor then (factor : ℚ) else -1 / factor) *
    if 0 < multiplier then (multiplier : ℚ) else -1 / multiplier

/-- A product of two 16-bit integers; the largest is that of the two least ones. -/
theorem natAbs_mul_le (f m : Int16) : (f.toInt * m.toInt).natAbs ≤ 2 ^ 30 := by
  have hf0 := Int16.le_toInt f
  have hf1 := Int16.toInt_lt f
  have hm0 := Int16.le_toInt m
  have hm1 := Int16.toInt_lt m
  rw [Int.natAbs_mul]
  calc f.toInt.natAbs * m.toInt.natAbs ≤ 2 ^ 15 * 2 ^ 15 :=
        Nat.mul_le_mul (by omega) (by omega)
    _ = 2 ^ 30 := by decide

/-- A ratio fits: its terms are positive, and products of two 16-bit integers at most. -/
theorem rateRatioChecked_eq (f m : Int16) :
    rateRatioChecked f m = .ok (rateRatio f m) := by
  have hf0 := Int16.le_toInt f
  have hf1 := Int16.toInt_lt f
  have hm0 := Int16.le_toInt m
  have hm1 := Int16.toInt_lt m
  have hmul := natAbs_mul_le f m
  unfold rateRatioChecked rateRatio
  simp only
  split
  · rfl
  split
  · split
    · rw [i64_eq ⟨by omega, by omega⟩]
      rfl
    · rw [i64_eq ⟨by omega, by omega⟩]
      rfl
  · split
    · rw [i64_eq ⟨by omega, by omega⟩]
      rfl
    · rw [i64_eq ⟨by omega, by omega⟩]
      rfl

/-- **The four cases of the signs.** The terms of the ratio are positive, and it is the rate.  The
bounds are what a product of two 16-bit numbers leaves. -/
theorem rateRatio_some {f m : Int16} {num den : ℤ} (h : rateRatio f m = some (num, den)) :
    0 < num ∧ 0 < den ∧ num ≤ 2 ^ 30 ∧ den ≤ 2 ^ 30 ∧
      nominalRate f.toInt m.toInt = num / den := by
  have hf0 := Int16.le_toInt f
  have hf1 := Int16.toInt_lt f
  have hm0 := Int16.le_toInt m
  have hm1 := Int16.toInt_lt m
  have hmul := natAbs_mul_le f m
  unfold rateRatio at h
  simp only at h
  unfold nominalRate
  generalize f.toInt = f at *
  generalize m.toInt = m at *
  split at h
  · cases h
  next hzero =>
  obtain ⟨hf, hm⟩ := not_or.mp hzero
  split at h
  · next hfpos =>
    split at h
    · next hmpos =>
      cases h
      have hpos := Int.mul_pos hfpos hmpos
      refine ⟨hpos, by decide, by omega, by decide, ?_⟩
      rw [if_pos hfpos, if_pos hmpos]
      push_cast
      ring
    · next hmpos =>
      cases h
      refine ⟨hfpos, by omega, by omega, by omega, ?_⟩
      rw [if_pos hfpos, if_neg hmpos]
      push_cast
      field_simp
  · next hfpos =>
    split at h
    · next hmpos =>
      cases h
      refine ⟨hmpos, by omega, by omega, by omega, ?_⟩
      rw [if_neg hfpos, if_pos hmpos]
      push_cast
      field_simp
    · next hmpos =>
      cases h
      have hpos := Int.mul_pos_of_neg_of_neg (a := f) (b := m) (by omega) (by omega)
      refine ⟨by decide, hpos, by decide, by omega, ?_⟩
      rw [if_neg hfpos, if_neg hmpos]
      push_cast
      field_simp

/-- **A period never overflows**, and nothing is divided by zero: a rate of zero is refused before
the division. -/
theorem samplePeriodUsChecked_eq (factor multiplier : Int16) (offset : ℕ) :
    samplePeriodUsChecked factor multiplier offset = samplePeriodUs factor multiplier offset := by
  unfold samplePeriodUsChecked samplePeriodUs
  rw [rateRatioChecked_eq, ok_bind]
  cases hratio : rateRatio factor multiplier with
  | none => rfl
  | some r =>
    obtain ⟨num, den⟩ := r
    obtain ⟨hnum, hden, hnum', hden', -⟩ := rateRatio_some hratio
    simp only
    have hscaled : 0 ≤ 1000000 * den := by omega
    have hmod : (1000000 * den).tmod num = 1000000 * den % num :=
      Int.tmod_eq_emod_of_nonneg hscaled
    have hmod0 := Int.emod_nonneg (1000000 * den) hnum.ne'
    have hmod1 := Int.emod_lt_of_pos (1000000 * den) hnum
    have hdiv : (1000000 * den).tdiv num = 1000000 * den / num :=
      Int.tdiv_eq_ediv_of_nonneg hscaled
    have hdiv0 := Int.ediv_nonneg hscaled hnum.le
    have hdiv1 := Int.ediv_le_self num hscaled
    rw [i64_eq ⟨by omega, by omega⟩, ok_bind, if_neg hnum.ne', hmod, hdiv,
      i64_eq ⟨by omega, by omega⟩, ok_bind, i64_eq ⟨by omega, by omega⟩]

/-- **A period is the inverse of the rate**, a whole number of microseconds.  A rate whose period
is not whole is refused, so no error accumulates over the samples. -/
theorem samplePeriodUs_rate {factor multiplier : Int16} {offset : ℕ} {period : ℤ}
    (h : samplePeriodUs factor multiplier offset = .ok period) :
    0 < period ∧ (period : ℚ) * nominalRate factor.toInt multiplier.toInt = 1000000 := by
  unfold samplePeriodUs at h
  cases hratio : rateRatio factor multiplier with
  | none =>
    rw [hratio] at h
    cases h
  | some r =>
    obtain ⟨num, den⟩ := r
    obtain ⟨hnum, hden, -, -, hrate⟩ := rateRatio_some hratio
    rw [hratio] at h
    simp only at h
    split at h
    · cases h
    next hmod =>
    cases h
    have hscaled : 0 < 1000000 * den := by omega
    rw [Int.tmod_eq_emod_of_nonneg hscaled.le, not_not] at hmod
    have hexact : 1000000 * den / num * num = 1000000 * den :=
      Int.ediv_mul_cancel (Int.dvd_of_emod_eq_zero hmod)
    rw [Int.tdiv_eq_ediv_of_nonneg hscaled.le]
    refine ⟨?_, ?_⟩
    · exact Int.ediv_pos_of_pos_of_dvd hscaled hnum.le (Int.dvd_of_emod_eq_zero hmod)
    · have hden' : (den : ℚ) ≠ 0 := Int.cast_ne_zero.mpr hden.ne'
      have hexact' : ((1000000 * den / num : ℤ) : ℚ) * num = 1000000 * den := by
        exact_mod_cast hexact
      rw [hrate, ← mul_div_assoc, hexact', mul_div_cancel_right₀ _ hden']

/-! ## 5. The times of the samples -/

/-- A count of a header, or an index below it, is cast to itself. -/
theorem toInt_ofNat {n : ℕ} (h : n < 2 ^ 16) : (Int64.ofNat n).toInt = n :=
  Int64.toInt_ofNat_of_lt (h.trans (by decide))

section

variable {r : Record}

/-- The declared samples and their span fit, and the start is far from the ends of the range.  The
parser has checked the span; the rest is what the widths of the header leave. -/
structure SpanFits (r : Record) : Prop where
  count_lt : r.sampleCountDeclared < 2 ^ 16
  period_pos : 0 < r.samplePeriodUs
  span : InI64 (r.samplePeriodUs * r.sampleCountDeclared)
  stop : InI64 (r.startUnixUs + r.samplePeriodUs * r.sampleCountDeclared)
  start : -2 ^ 53 ≤ r.startUnixUs ∧ r.startUnixUs ≤ 2 ^ 53

theorem SpanFits.span_nonneg (h : SpanFits r) :
    0 ≤ r.samplePeriodUs * (r.sampleCountDeclared : ℤ) :=
  Int.mul_nonneg h.period_pos.le (Int.natCast_nonneg _)

theorem nominalSpanUs_eq {ε : Type} (h : SpanFits r) :
    (r.nominalSpanUs : Checked ε ℤ) = .ok (r.samplePeriodUs * r.sampleCountDeclared) := by
  rw [Record.nominalSpanUs, toInt_ofNat h.count_lt, i64_eq h.span]

/-- **The time of a sample** lies between the start and the end of the span, both of which fit;
this is why the product and the sum do. -/
theorem sampleTimeUnixUs_eq {ε : Type} (h : SpanFits r) {i : ℕ} (hi : i < r.sampleCountDeclared) :
    (r.sampleTimeUnixUs i : Checked ε ℤ) = .ok (r.startUnixUs + r.samplePeriodUs * i) := by
  have hcount := h.count_lt
  have hstart := h.start.1
  obtain ⟨hspan0, hspan1⟩ := h.span
  obtain ⟨hstop0, hstop1⟩ := h.stop
  have hnonneg : 0 ≤ r.samplePeriodUs * (i : ℤ) :=
    Int.mul_nonneg h.period_pos.le (Int.natCast_nonneg i)
  have hle : r.samplePeriodUs * (i : ℤ) ≤ r.samplePeriodUs * r.sampleCountDeclared :=
    Int.mul_le_mul_of_nonneg_left (Int.ofNat_le.mpr hi.le) h.period_pos.le
  rw [Record.sampleTimeUnixUs, toInt_ofNat (hi.trans hcount), i64_eq ⟨by omega, by omega⟩,
    ok_bind, i64_eq ⟨by omega, by omega⟩]

theorem HeaderOf.toSpanFits {bytes : List UInt8} (h : HeaderOf bytes r)
    (hcount : r.sampleCountDeclared < 2 ^ 16) : SpanFits r := by
  have hraw := btimeUnixUs_mem h.started
  have htick0 := Int32.le_toInt r.timeCorrectionTicks
  have htick1 := Int32.toInt_lt r.timeCorrectionTicks
  have hmicro0 := Int8.le_toInt (r.microsecondOffset.getD 0)
  have hmicro1 := Int8.toInt_lt (r.microsecondOffset.getD 0)
  have hstart := h.corrected
  have hcorrection :
      (if r.timeCorrectionApplied then 0 else r.timeCorrectionTicks.toInt * 100).natAbs ≤
        2 ^ 38 := by
    split
    · decide
    · omega
  obtain ⟨hspan, hstop⟩ := h.spanFits
  exact
    { count_lt := hcount
      period_pos := (samplePeriodUs_rate h.period).1
      span := of_decide_eq_true hspan
      stop := of_decide_eq_true hstop
      start := by omega }

end

/-- **The times of accepted records.** For every header the declared start is computed without
overflow.  In an accepted input the start of every record is that one, its period is a whole and
positive number of microseconds, which is the inverse of the rate of the header, and neither the
span nor the time of any sample overflows: sample `i` is at `start + i * period`, after all
samples before it.  The first half is about headers as such, accepted or not; in the second the
only hypothesis is that the parser has accepted the input, and the two numbers of the rate are
read from its bytes. -/
theorem sample_times :
    (∀ (start : BTime) (offset : ℕ) (timeCorrectionTicks : Int32) (timeCorrectionApplied : Bool)
      (microsecondOffset : Option Int8),
      startUnixUsChecked start offset timeCorrectionTicks timeCorrectionApplied
          microsecondOffset =
        (btimeUnixUs start offset).map fun raw => raw +
          (if timeCorrectionApplied then 0 else timeCorrectionTicks.toInt * 100) +
          (microsecondOffset.getD 0).toInt) ∧
    ∀ (bytes : List UInt8) (records : List Record), parse bytes = .ok records →
      ∀ r ∈ records,
        startUnixUsChecked r.start r.offset r.timeCorrectionTicks r.timeCorrectionApplied
            r.microsecondOffset = .ok r.startUnixUs ∧
        (∃ factor multiplier : UInt16, be16 bytes (r.offset + 32) = .ok factor ∧
          be16 bytes (r.offset + 34) = .ok multiplier ∧
          samplePeriodUsChecked factor.toInt16 multiplier.toInt16 r.offset =
            .ok r.samplePeriodUs ∧
          0 < r.samplePeriodUs ∧
          (r.samplePeriodUs : ℚ) *
            nominalRate factor.toInt16.toInt multiplier.toInt16.toInt = 1000000) ∧
        (r.nominalSpanUs : Parse ℤ) = .ok (r.samplePeriodUs * r.sampleCountDeclared) ∧
        ∃ time : ℕ → ℤ, StrictMono time ∧
          (∀ i, time i = r.startUnixUs + i * r.samplePeriodUs) ∧
          ∀ i < r.sampleCountDeclared, (r.sampleTimeUnixUs i : Parse ℤ) = .ok (time i) := by
  refine ⟨startUnixUsChecked_eq, fun bytes records h r hr => ?_⟩
  have hsafe := safe_parse bytes
  rw [h] at hsafe
  obtain ⟨-, htiles, hheaders⟩ := hsafe
  have hheaded := hheaders r hr
  obtain ⟨count, -, hcount⟩ := (htiles.each r hr).sampled
  have hfits : SpanFits r := hheaded.toSpanFits (hcount ▸ count.toNat_lt)
  refine ⟨?_, ?_, nominalSpanUs_eq hfits, fun i => r.startUnixUs + i * r.samplePeriodUs, ?_,
    fun _ => rfl, fun i hi => ?_⟩
  · rw [startUnixUsChecked_eq, hheaded.started, hheaded.corrected]
    rfl
  · obtain ⟨factor, multiplier, hfactor, hmultiplier, hf, hm⟩ := hheaded.rated
    have hperiod := hheaded.period
    rw [hf, hm] at hperiod
    have hrate := samplePeriodUs_rate hperiod
    exact ⟨factor, multiplier, hfactor, hmultiplier, by rw [samplePeriodUsChecked_eq, hperiod],
      hrate.1, hrate.2⟩
  · intro i j hij
    have hlt := Int.mul_lt_mul_of_pos_right (Int.ofNat_lt.mpr hij) hfits.period_pos
    exact Int.add_lt_add_left hlt _
  · rw [sampleTimeUnixUs_eq hfits hi, Int.mul_comm]

/-- A record of two samples, 10 milliseconds apart, whose clock was 0.3 ms late. -/
def twoSamples : List UInt8 :=
  "000001D STA  00BHZNT".toList.map (fun c => UInt8.ofNat c.toNat) ++
    [0x07, 0xE8, 0x00, 0x01, 0, 0, 15, 0, 0x1D, 0x1A, 0x00, 0x02, 0x00, 0x64, 0x00, 0x01,
      0, 0, 0, 1, 0, 0, 0, 3, 0x00, 0x40, 0x00, 0x30,
      0x03, 0xE8, 0x00, 0x00, 10, 1, 8, 0, 0, 0, 0, 0, 0, 0, 0, 0,
      0x01, 0, 0, 0, 0, 0, 0, 5, 0, 0, 0, 12, 5, 7, 0, 0] ++
    List.replicate 176 0

theorem sample_times_twoSamples : ∃ records, parse twoSamples = .ok records ∧
    records.map (fun r => (r.startUnixUs, (r.sampleTimeUnixUs 1 : Parse ℤ).toOption, r.samples)) =
      [(1704067215745300, some 1704067215755300, [5, 12])] ∧
    ∀ r ∈ records, 0 < r.samplePeriodUs := by
  have hok : ((parse twoSamples).toOption.map fun records => records.map fun r =>
      (r.startUnixUs, (r.sampleTimeUnixUs 1 : Parse ℤ).toOption, r.samples)) =
        some [(1704067215745300, some 1704067215755300, [5, 12])] := by
    decide +kernel
  cases h : parse twoSamples with
  | error e =>
    rw [h] at hok
    cases hok
  | ok records =>
    rw [h] at hok
    refine ⟨records, rfl, Option.some.inj hok, fun r hr => ?_⟩
    obtain ⟨-, ⟨_, _, -, -, -, hpos, -⟩, -⟩ := sample_times.2 twoSamples records h r hr
    exact hpos

end Musubi.Miniseed2
