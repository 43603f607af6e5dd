/-
# One calendar

Days and dates are converted in five places: to days by the miniSEED decoder, the reader of
handset logs and the adapter for surface vessels, and to dates by the serializers and by the
reference pipeline.  Some round towards zero and some down, and each has its own way to count the
months.  All of them are the one calendar of the library, so that a time that is written by one of
them is read back by another.

`Lib.Calendar` proves of one pair of conversions that they undo each other and keep the order of
dates.  What is left for each function here is that it is one of the pair: the three that go to
days differ in the order of their divisions and in how they treat a negative year (section 1), the
two that go back in the same (section 2).

A date of the library is a valid date, so the functions are compared where the program uses them.
The serializer writes a year with four digits, and a parser of four digits can read no other; this
is why the statement about written times speaks of the years 0000 to 9999.
-/
import Musubi.Lib.Calendar
import Musubi.Miniseed2.Parse
import Musubi.Northbound.Format
import Musubi.Pipeline.Timefmt
import Musubi.Reference.EdgeTx
import Musubi.UsvJson.Times

namespace Musubi

open Lib Lib.Calendar

/-! ## 1. To days -/

/-- A year is rounded towards zero to its era, or down. -/
theorem era_eq (y : ℤ) : (if 0 ≤ y then y else y - 399).tdiv 400 = y / 400 :=
  tdiv_eq_floor (n := 400) (by decide) y

section

variable (d : Date)

theorem Miniseed2.daysFromCivil_eq :
    Miniseed2.daysFromCivil d.year d.month d.day = d.dayNumber := by
  have hmonth := d.month_mem
  rw [dayNumber_eq d rfl rfl, Miniseed2.daysFromCivil]
  generalize (if d.month ≤ 2 then d.year - 1 else d.year) = y
  have hmp : (d.month + 9).tmod 12 = (d.month + 9) % 12 := Int.tmod_eq_emod_of_nonneg (by omega)
  have hyoe : y - y / 400 * 400 = y % 400 := by omega
  simp only [era_eq, hmp, hyoe]
  rw [Int.tdiv_eq_ediv_of_nonneg (by omega), Int.tdiv_eq_ediv_of_nonneg (by omega),
    Int.tdiv_eq_ediv_of_nonneg (by omega)]

theorem Reference.EdgeTx.daysFromCivil_eq :
    Reference.EdgeTx.daysFromCivil d.year d.month d.day = d.dayNumber := by
  rw [dayNumber_eq d rfl rfl, Reference.EdgeTx.daysFromCivil]

theorem UsvJson.daysFromCivil_eq :
    UsvJson.daysFromCivil d.year d.month.toNat d.day.toNat = d.dayNumber := by
  obtain ⟨hmonth0, hmonth1⟩ := d.month_mem
  have hday := d.day_mem.1
  have hm : ((d.month.toNat : ℕ) : ℤ) = d.month := Int.toNat_of_nonneg (by omega)
  have hd : ((d.day.toNat : ℕ) : ℤ) = d.day := Int.toNat_of_nonneg (by omega)
  have hmp : (if d.month > 2 then d.month - 3 else d.month + 9) = (d.month + 9) % 12 := by
    split
    · omega
    · omega
  have hy : (if d.month.toNat ≤ 2 then d.year - 1 else d.year) =
      if d.month ≤ 2 then d.year - 1 else d.year := if_congr (by omega) rfl rfl
  rw [dayNumber_eq d rfl rfl, UsvJson.daysFromCivil]
  simp only [hm, hd, hmp, hy]
  generalize (if d.month ≤ 2 then d.year - 1 else d.year) = y
  have hyoe : y - y / 400 * 400 = y % 400 := by omega
  simp only [era_eq, hyoe]
  rw [Int.tdiv_eq_ediv_of_nonneg (by omega), Int.tdiv_eq_ediv_of_nonneg (by omega),
    Int.tdiv_eq_ediv_of_nonneg (by omega)]

/-- The length of a month, as the adapter knows it. -/
theorem UsvJson.daysInMonth_eq :
    UsvJson.daysInMonth d.year d.month = Calendar.daysInMonth d.year d.month := by
  obtain ⟨hmonth0, hmonth1⟩ := d.month_mem
  unfold UsvJson.daysInMonth Calendar.daysInMonth IsLeap
  generalize d.month = month at *
  interval_cases month
  all_goals simp
  omega

end

/-! ## 2. To dates -/

/-- A date as year, month and day. -/
def civil (d : Date) : ℤ × ℕ × ℕ := (d.year, d.month.toNat, d.day.toNat)

theorem Pipeline.civilFromDays_eq (n : ℤ) : Pipeline.civilFromDays n = civil (ofDayNumber n) := by
  obtain ⟨hmonth, hyear, hday⟩ := ofDayNumber_eq n
  unfold civil
  rw [hyear, hday, hmonth]
  rfl

theorem Northbound.civilFromDays_eq (n : ℤ) :
    Northbound.civilFromDays n = civil (ofDayNumber n) := by
  rw [← Pipeline.civilFromDays_eq]
  unfold Northbound.civilFromDays Pipeline.civilFromDays
  have hera (z : ℤ) : (if 0 ≤ z then z else z - 146096).tdiv 146097 = z / 146097 :=
    tdiv_eq_floor (n := 146097) (by decide) z
  have hdoe : n + 719468 - (n + 719468) / 146097 * 146097 = (n + 719468) % 146097 := by omega
  simp only [hera, hdoe]
  have hdoe0 : 0 ≤ (n + 719468) % 146097 := by omega
  have hdoe1 : (n + 719468) % 146097 < 146097 := by omega
  generalize (n + 719468) % 146097 = doe at hdoe0 hdoe1
  have hyoe := yearOfEra_mem _ hdoe0 hdoe1
  have hdoy := (dayOfYear_mem _ hdoe0 hdoe1).1
  unfold dayOfYear at hdoy
  unfold yearOfEra at hyoe hdoy
  simp only [Int.tdiv_eq_ediv_of_nonneg hdoe0]
  rw [Int.tdiv_eq_ediv_of_nonneg (show 0 ≤ doe - doe / 1460 + doe / 36524 - doe / 146096 by omega)]
  generalize (doe - doe / 1460 + doe / 36524 - doe / 146096) / 365 = yoe at hyoe hdoy
  simp only [Int.tdiv_eq_ediv_of_nonneg hyoe.1]
  generalize doe - (365 * yoe + yoe / 4 - yoe / 100) = doy at hdoy
  rw [Int.tdiv_eq_ediv_of_nonneg (show 0 ≤ 5 * doy + 2 by omega),
    Int.tdiv_eq_ediv_of_nonneg (show 0 ≤ 153 * ((5 * doy + 2) / 153) + 2 by omega)]

/-! ## 3. Written times -/

theorem Northbound.length_zeroPad {width n : ℕ} (hwidth : 0 < width) (h : n < 10 ^ width) :
    (Northbound.zeroPad width n).length = width := by
  have hlength : n.repr.toList.length ≤ width :=
    (Nat.length_repr_le_iff hwidth).mpr h
  unfold Northbound.zeroPad
  simp only [List.length_append, List.length_replicate]
  omega

theorem Northbound.isDigit_of_mem_zeroPad {width n : ℕ} {c : Char}
    (h : c ∈ Northbound.zeroPad width n) : c.isDigit = true := by
  rcases List.mem_append.mp h with h | h
  · rw [List.eq_of_mem_replicate h]
    rfl
  · exact isDigit_of_mem_repr h

/-- Digits that are padded with zeros are parsed as the number; zeros in front add nothing. -/
theorem parseI64_zeroPad {width n : ℕ} (h : n < 2 ^ 63) :
    (parseI64 (Northbound.zeroPad width n)).map Int64.toInt = some (n : ℤ) := by
  have hdigits : parseDigits (Northbound.zeroPad width n) = some n := by
    have hne : Northbound.zeroPad width n ≠ [] := by
      have hpos := Nat.length_repr_pos (n := n)
      intro hnil
      have hlength := congrArg List.length hnil
      simp only [Northbound.zeroPad, List.length_append, List.length_nil] at hlength
      have htoList : n.repr.toList.length = n.repr.length := rfl
      omega
    have hall : (Northbound.zeroPad width n).all Char.isDigit = true :=
      List.all_eq_true.mpr fun c hc => Northbound.isDigit_of_mem_zeroPad hc
    rw [parseDigits, if_pos ⟨hne, hall⟩, Northbound.zeroPad]
    simp only [Nat.ofDigitChars_append, Nat.ofDigitChars_replicate_zero, Nat.mul_zero,
      Nat.toList_repr, Nat.ofDigitChars_ten_toDigits]
  have hsign : ∀ c ∈ (Northbound.zeroPad width n).head?, c.isDigit = true := fun c hc =>
    Northbound.isDigit_of_mem_zeroPad (List.mem_of_mem_head? hc)
  rw [parseI64_digits hdigits hsign h, Option.map_some, Int64.toInt_ofNat_of_lt h]

theorem toNat_lt_of_isDigit {c : Char} (h : c.isDigit = true) : c.toNat < 0x80 := by
  simp [Char.isDigit, UInt32.le_iff_toNat_le] at h
  have htoNat : c.val.toNat = c.toNat := rfl
  omega

/-- The byte of a character, and the character of the byte. -/
theorem ofNat_byte {c : Char} (h : c.toNat < 0x80) :
    Char.ofNat (UInt8.ofNat c.toNat).toNat = c := by
  rw [toNat_ofNat_byte (by omega), Char.ofNat_toNat]

namespace UsvJson

/-- A slice of the bytes of an ASCII text is a slice of the text. -/
theorem map_ofNat_byte {cs : List Char} (h : ∀ c ∈ cs, c.toNat < 0x80) :
    (cs.map fun c => UInt8.ofNat c.toNat).map (fun b => Char.ofNat b.toNat) = cs := by
  rw [List.map_map]
  conv_rhs => rw [← List.map_id cs]
  exact List.map_congr_left fun c hc => ofNat_byte (h c hc)

/-- Two digits are a number; so are three or four.  The text has the width, digits only, and is
parsed as the value. -/
structure Digits (width : ℕ) (value : ℤ) (cs : List Char) : Prop where
  length_eq : cs.length = width
  isDigit : ∀ c ∈ cs, c.isDigit = true
  parsed : (parseI64 cs).map Int64.toInt = some value

theorem Digits.ascii {width : ℕ} {value : ℤ} {cs : List Char} (h : Digits width value cs) :
    ∀ c ∈ cs, c.toNat < 0x80 := fun c hc => toNat_lt_of_isDigit (h.isDigit c hc)

theorem digits_zeroPad (width : ℕ) {n : ℕ} (hwidth : 0 < width) (h : n < 10 ^ width)
    (hsmall : width ≤ 4) :
    Digits width n (Northbound.zeroPad width n) := by
  have hbound : (10 : ℕ) ^ width ≤ 10 ^ 4 := Nat.pow_le_pow_right (by decide) hsmall
  exact ⟨Northbound.length_zeroPad hwidth h, fun c hc => Northbound.isDigit_of_mem_zeroPad hc,
    parseI64_zeroPad (h.trans_le (hbound.trans (by decide)))⟩

theorem digits_zeroPadInt (width : ℕ) {n : ℤ} (hwidth : 0 < width) (h0 : 0 ≤ n)
    (h : n.toNat < 10 ^ width) (hsmall : width ≤ 4) :
    Digits width n (Northbound.zeroPadInt width n) := by
  have hnat : n.natAbs = n.toNat := by omega
  rw [Northbound.zeroPadInt, if_neg (not_lt.mpr h0), hnat]
  have hdigits := digits_zeroPad width hwidth h hsmall
  rwa [Int.toNat_of_nonneg h0] at hdigits

theorem number_ascii {text : List Char} (start stop : ℕ) {value : ℤ}
    (hascii : ∀ c ∈ text, c.toNat < 0x80) (hstop : stop ≤ text.length)
    (hparsed : (parseI64 ((text.drop start).take (stop - start))).map Int64.toInt = some value) :
    number (text.map fun c => UInt8.ofNat c.toNat) start stop = some value := by
  rw [number, if_pos (by rwa [List.length_map]), slice, List.map_take, List.map_drop,
    map_ofNat_byte hascii, hparsed]

/-- Three digits behind the point, and the zone behind them. -/
theorem millisAt_ascii {text fraction rest : List Char} {zone : Char} {idx : ℕ} {millis : ℤ}
    (hascii : ∀ c ∈ text, c.toNat < 0x80)
    (hdrop : text.drop idx = '.' :: (fraction ++ zone :: rest))
    (hzone : zone.isDigit = false) (hfraction : Digits 3 millis fraction) :
    millisAt (text.map fun c => UInt8.ofNat c.toNat) idx = some (millis, idx + 4) := by
  have hpoint : text[idx]? = some '.' := by
    have hget : (text.drop idx)[0]? = some '.' := by rw [hdrop]; rfl
    rwa [List.getElem?_drop, Nat.add_zero] at hget
  have hbehind : text.drop (idx + 1) = fraction ++ zone :: rest := by
    rw [← List.drop_drop, hdrop]
    rfl
  have hbyte : (text.map fun c => UInt8.ofNat c.toNat)[idx]? = some 0x2E := by
    rw [List.getElem?_map, hpoint]
    rfl
  have htake : (fraction ++ zone :: rest).takeWhile Char.isDigit = fraction := by
    rw [List.takeWhile_append_of_pos hfraction.isDigit,
      List.takeWhile_cons_of_neg (by simp [hzone]),
      List.append_nil]
  have hlength := hfraction.length_eq
  rw [millisAt, if_pos hbyte, List.map_drop, map_ofNat_byte hascii, hbehind]
  simp only [htake, UsvJson.fraction, List.take_of_length_le hlength.le, hlength, Nat.sub_self,
    List.replicate_zero, List.append_nil, hfraction.parsed, Option.map_some]

variable {y m d h i s f : List Char} {year month day hour minute second millis : ℤ}

/-- **A time that is written in full is parsed**, with its milliseconds and at offset zero.  The
serializer always writes all the fields, so of the parser's branches this is the only one that is
taken. -/
theorem iso8601BytesToEpochMicros_eq (hy : Digits 4 year y) (hm : Digits 2 month m)
    (hd : Digits 2 day d) (hh : Digits 2 hour h) (hi : Digits 2 minute i) (hs : Digits 2 second s)
    (hf : Digits 3 millis f) (hmonth : 1 ≤ month ∧ month ≤ 12) (hhour : 0 ≤ hour ∧ hour ≤ 23)
    (hminute : 0 ≤ minute ∧ minute ≤ 59) (hsecond : 0 ≤ second ∧ second ≤ 60)
    (hday : 1 ≤ day ∧ day ≤ UsvJson.daysInMonth year month) :
    iso8601BytesToEpochMicros ((y ++ '-' :: (m ++ '-' :: (d ++ 'T' :: (h ++ ':' :: (i ++ ':' ::
        (s ++ '.' :: (f ++ ['Z']))))))).map fun c => UInt8.ofNat c.toNat) =
      some ((UsvJson.daysFromCivil year month.toNat day.toNat * 86400 + hour * 3600 +
        minute * 60 + second) * 1000000 + millis * 1000) := by
  obtain ⟨text, htext⟩ : ∃ text, y ++ '-' :: (m ++ '-' :: (d ++ 'T' :: (h ++ ':' :: (i ++ ':' ::
      (s ++ '.' :: (f ++ ['Z'])))))) = text := ⟨_, rfl⟩
  have hascii : ∀ c ∈ text, c.toNat < 0x80 := by
    rw [← htext]
    simp only [List.forall_mem_append, List.forall_mem_cons]
    exact ⟨hy.ascii, by decide, hm.ascii, by decide, hd.ascii, by decide, hh.ascii, by decide,
      hi.ascii, by decide, hs.ascii, by decide, hf.ascii, by decide, fun _ h => nomatch h⟩
  obtain ⟨y0, y1, y2, y3, rfl⟩ : ∃ y0 y1 y2 y3, y = [y0, y1, y2, y3] := by
    match y, hy.length_eq with
    | [y0, y1, y2, y3], _ => exact ⟨y0, y1, y2, y3, rfl⟩
  obtain ⟨m0, m1, rfl⟩ := List.length_eq_two.mp hm.length_eq
  obtain ⟨d0, d1, rfl⟩ := List.length_eq_two.mp hd.length_eq
  obtain ⟨h0, h1, rfl⟩ := List.length_eq_two.mp hh.length_eq
  obtain ⟨i0, i1, rfl⟩ := List.length_eq_two.mp hi.length_eq
  obtain ⟨s0, s1, rfl⟩ := List.length_eq_two.mp hs.length_eq
  obtain ⟨f0, f1, f2, rfl⟩ := List.length_eq_three.mp hf.length_eq
  have hlength : text.length = 24 := htext ▸ rfl
  -- where the fields stand
  have hyear := number_ascii 0 4 hascii (by omega) (by rw [← htext]; exact hy.parsed)
  have hmon := number_ascii 5 7 hascii (by omega) (by rw [← htext]; exact hm.parsed)
  have hdayNumber := number_ascii 8 10 hascii (by omega)
    (by rw [← htext]; exact hd.parsed)
  have hhourNumber := number_ascii 11 13 hascii (by omega)
    (by rw [← htext]; exact hh.parsed)
  have hmin := number_ascii 14 16 hascii (by omega) (by rw [← htext]; exact hi.parsed)
  have hsec := number_ascii 17 19 hascii (by omega) (by rw [← htext]; exact hs.parsed)
  have hpoint : text.drop 19 = '.' :: ([f0, f1, f2] ++ 'Z' :: []) := by
    rw [← htext]
    rfl
  have hmillis := millisAt_ascii hascii hpoint rfl hf
  rw [htext]
  generalize hbytes : (text.map fun c => UInt8.ofNat c.toNat) = bytes at *
  have hat (i : ℕ) : bytes[i]? = text[i]?.map fun c => UInt8.ofNat c.toNat := by
    rw [← hbytes, List.getElem?_map]
  have h4 : bytes[4]? = some 0x2D := by rw [hat, ← htext]; rfl
  have h7 : bytes[7]? = some 0x2D := by rw [hat, ← htext]; rfl
  have h10 : bytes[10]? = some 0x54 := by rw [hat, ← htext]; rfl
  have h13 : bytes[13]? = some 0x3A := by rw [hat, ← htext]; rfl
  have h16 : bytes[16]? = some 0x3A := by rw [hat, ← htext]; rfl
  have h23 : bytes[23]? = some 0x5A := by rw [hat, ← htext]; rfl
  have hzone : zoneAt bytes (19 + 4) = some 0 := by
    simp [zoneAt, h23]
  have hlong : ¬ bytes.length < 20 := by
    rw [← hbytes, List.length_map]
    omega
  unfold iso8601BytesToEpochMicros
  rw [if_neg hlong, hyear]
  simp [h4, hmon, h7, hdayNumber, h10, hhourNumber, h13, hmin, h16, hsec, hmonth, hhour, hminute,
    hsecond, hday, hmillis, hzone]

/-- A time of the years 0000 to 9999 is parsed as it was written. -/
theorem iso8601UtcToEpochMicros_iso8601 {t : Int64}
    (hyear0 : 0 ≤ (Northbound.civilFromDays (t.toInt / 1000 / 86400)).1)
    (hyear1 : (Northbound.civilFromDays (t.toInt / 1000 / 86400)).1 ≤ 9999) :
    iso8601UtcToEpochMicros (String.ofList (Northbound.iso8601UtcFromEpochMs t)) =
      some (t.toInt * 1000) := by
  have hnumber := dayNumber_ofDayNumber (t.toInt / 1000 / 86400)
  unfold Northbound.iso8601UtcFromEpochMs iso8601UtcToEpochMicros Core.utf8
  simp only [Northbound.civilFromDays_eq, civil] at hyear0 hyear1 ⊢
  generalize ofDayNumber (t.toInt / 1000 / 86400) = date at *
  obtain ⟨hmonth0, hmonth1⟩ := date.month_mem
  obtain ⟨hday0, hday1⟩ := date.day_mem
  have hday31 : daysInMonth date.year date.month ≤ 31 := by
    rw [daysInMonth_eq]
    unfold Calendar.daysInMonth
    repeat' split
    all_goals decide
  rw [← daysInMonth_eq] at hday1
  have hsod0 : 0 ≤ t.toInt / 1000 % 86400 := by omega
  rw [Int.tmod_eq_emod_of_nonneg hsod0, Int.tmod_eq_emod_of_nonneg hsod0,
    Int.tdiv_eq_ediv_of_nonneg hsod0, Int.tdiv_eq_ediv_of_nonneg (by omega)]
  have hm : ((date.month.toNat : ℕ) : ℤ) = date.month := Int.toNat_of_nonneg (by omega)
  have hd : ((date.day.toNat : ℕ) : ℤ) = date.day := Int.toNat_of_nonneg (by omega)
  have hyear := digits_zeroPadInt 4 (by decide) hyear0 (by omega) (by decide)
  have hmonth := digits_zeroPad 2 (n := date.month.toNat) (by decide) (by omega)
    (by decide)
  have hday := digits_zeroPad 2 (n := date.day.toNat) (by decide) (by omega)
    (by decide)
  rw [hm] at hmonth
  rw [hd] at hday
  have htwo {n : ℤ} (h0 : 0 ≤ n) (h1 : n < 100) : Digits 2 n (Northbound.zeroPadInt 2 n) :=
    digits_zeroPadInt 2 (by decide) h0 (by omega) (by decide)
  have hhour := htwo (n := t.toInt / 1000 % 86400 / 3600) (by omega) (by omega)
  have hminute := htwo (n := t.toInt / 1000 % 86400 % 3600 / 60) (by omega) (by omega)
  have hsecond := htwo (n := t.toInt / 1000 % 86400 % 60) (by omega) (by omega)
  have hmillis := digits_zeroPadInt 3 (n := t.toInt % 1000) (by decide) (by omega)
    (by omega) (by decide)
  have hascii := iso8601BytesToEpochMicros_eq hyear hmonth hday hhour hminute hsecond hmillis
    ⟨hmonth0, hmonth1⟩ (by omega) (by omega) (by omega) ⟨hday0, hday1⟩
  rw [toByteArray_ascii ?_, hascii, daysFromCivil_eq, hnumber]
  · congr 1
    omega
  · simp only [List.forall_mem_append, List.forall_mem_cons]
    exact ⟨hyear.ascii, by decide, hmonth.ascii, by decide, hday.ascii, by decide, hhour.ascii,
      by decide, hminute.ascii, by decide, hsecond.ascii, by decide, hmillis.ascii, by decide,
      fun _ h => nomatch h⟩

end UsvJson

/-! ## 4. Header times -/

namespace Miniseed2

/-- The fields of a header time, from the year down. -/
def BTime.fields (t : BTime) : List ℕ :=
  [t.year.toNat, t.dayOfYear.toNat, t.hour.toNat, t.minute.toNat, t.second.toNat, t.tenthMs.toNat]

theorem isLeap_iff (year : ℤ) : isLeap year = true ↔ IsLeap year := by
  unfold isLeap IsLeap
  rw [decide_eq_true_iff]
  omega

/-- What is known of a time that is converted: each field is in its range, the day of the year is
one of that year, and the microseconds are put together from them. -/
structure BTimeAt (t : BTime) (us day : ℤ) : Prop where
  day_eq : day = (Date.january t.year.toNat).dayNumber + t.dayOfYear.toNat - 1
  dayOfYear_pos : 1 ≤ t.dayOfYear.toNat
  dayOfYear_le : day < (Date.january (t.year.toNat + 1)).dayNumber
  hour_le : t.hour.toNat ≤ 23
  minute_le : t.minute.toNat ≤ 59
  second_le : t.second.toNat ≤ 59
  tick_le : t.tenthMs.toNat ≤ 9999
  us_eq : us = (day * 86400 + t.hour.toNat * 3600 + t.minute.toNat * 60 + t.second.toNat) *
    1000000 + t.tenthMs.toNat * 100

theorem btimeUnixUs_at {t : BTime} {offset : ℕ} {us : ℤ} (h : btimeUnixUs t offset = .ok us) :
    ∃ day, BTimeAt t us day := by
  have hjanuary : daysFromCivil t.year.toNat 1 1 = (Date.january t.year.toNat).dayNumber :=
    daysFromCivil_eq (Date.january t.year.toNat)
  have hlength := Date.dayNumber_january_succ t.year.toNat
  have hsafe : Checked.Safe (btimeUnixUs t offset) fun us => ∃ day, BTimeAt t us day := by
    simp only [btimeUnixUs, hjanuary, isLeap_iff]
    refine Checked.Safe.guard fun _ => Checked.Safe.guard fun hday => ?_
    refine Checked.Safe.guard fun hhour => Checked.Safe.guard fun hminute => ?_
    refine Checked.Safe.guard fun hsecond => ?_
    refine Checked.Safe.guard fun htick => Checked.safe_ok
      ⟨(Date.january t.year.toNat).dayNumber + t.dayOfYear.toNat - 1, ?_⟩
    exact
      { day_eq := rfl
        dayOfYear_pos := by omega
        dayOfYear_le := by
          split at hday
          · rw [hlength, if_pos ‹_›]
            omega
          · rw [hlength, if_neg ‹_›]
            omega
        hour_le := by omega
        minute_le := by omega
        second_le := by omega
        tick_le := by omega
        us_eq := rfl }
  rw [h] at hsafe
  exact hsafe

theorem january_strictMono : StrictMono fun year => (Date.january year).dayNumber :=
  strictMono_int_of_lt_succ fun year => by
    rw [Date.dayNumber_january_succ]
    split
    · omega
    · omega

/-- **Header times are ordered as their fields are.** The comparison is lexicographic, from the
year to the offset; the day is that of the year, which is why the lengths of the months do not
come in. -/
theorem btimeUnixUs_lt_iff {t t' : BTime} {offset offset' : ℕ} {us us' : ℤ}
    (h : btimeUnixUs t offset = .ok us) (h' : btimeUnixUs t' offset' = .ok us') :
    t.fields < t'.fields ↔ us < us' := by
  obtain ⟨day, hday⟩ := btimeUnixUs_at h
  obtain ⟨day', hday'⟩ := btimeUnixUs_at h'
  obtain ⟨h1, h2, h3, h4, h5, h6, h7, h8⟩ := hday
  obtain ⟨h1', h2', h3', h4', h5', h6', h7', h8'⟩ := hday'
  -- a day of an earlier year is an earlier day
  have hyear : t.year.toNat < t'.year.toNat → day < day' := by
    intro hlt
    have hle := january_strictMono.monotone (show (t.year.toNat : ℤ) + 1 ≤ t'.year.toNat by omega)
    omega
  have hyear' : t'.year.toNat < t.year.toNat → day' < day := by
    intro hlt
    have hle := january_strictMono.monotone (show (t'.year.toNat : ℤ) + 1 ≤ t.year.toNat by omega)
    omega
  have hsame : t.year.toNat = t'.year.toNat →
      day' - day = t'.dayOfYear.toNat - t.dayOfYear.toNat := by
    intro heq
    rw [← heq] at h1'
    omega
  simp only [BTime.fields, List.cons_lt_cons_iff, List.lt_irrefl, and_false, or_false]
  omega

end Miniseed2

/-! ## 5. All of them -/

theorem toNat_inj_of_pos {a b : ℤ} (ha : 1 ≤ a) (hb : 1 ≤ b) (h : a.toNat = b.toNat) : a = b := by
  omega

/-- A date is told by its year, month and day. -/
theorem civil_injective : Function.Injective civil := by
  intro d d' h
  obtain ⟨hyear, hrest⟩ := Prod.mk.inj h
  obtain ⟨hmonth, hday⟩ := Prod.mk.inj hrest
  exact Date.ext hyear (toNat_inj_of_pos d.month_mem.1 d'.month_mem.1 hmonth)
    (toNat_inj_of_pos d.day_mem.1 d'.day_mem.1 hday)

/-- The date that is found for a day is the one with that number. -/
theorem Northbound.civilFromDays_eq_civil_iff (n : ℤ) (d : Date) :
    Northbound.civilFromDays n = civil d ↔ d.dayNumber = n := by
  rw [Northbound.civilFromDays_eq]
  constructor
  · intro h
    rw [← civil_injective h, dayNumber_ofDayNumber]
  · rintro rfl
    rw [ofDayNumber_dayNumber]

/-- **One calendar.** The three ways to the number of a day agree on all dates, the two ways back
agree on all days, each way undoes the other, and both go up.  So a time of the years 0000 to 9999
that a serializer writes is the one that the adapter parses, and the times of headers are ordered
as their fields are.  Dates are those that exist, of any year, also before year zero; days are
arbitrary integers.  Header times are compared when both convert: a field out of its range makes
the conversion fail. -/
theorem calendars_agree :
    (∀ d : Date,
      UsvJson.daysFromCivil d.year d.month.toNat d.day.toNat =
          Miniseed2.daysFromCivil d.year d.month d.day ∧
        Reference.EdgeTx.daysFromCivil d.year d.month d.day =
          Miniseed2.daysFromCivil d.year d.month d.day) ∧
      (∀ n : ℤ, Northbound.civilFromDays n = Pipeline.civilFromDays n) ∧
      (∀ d : Date,
        Northbound.civilFromDays (Miniseed2.daysFromCivil d.year d.month d.day) = civil d) ∧
      (∀ n : ℤ, ∃ d : Date, Northbound.civilFromDays n = civil d ∧
        Miniseed2.daysFromCivil d.year d.month d.day = n) ∧
      (StrictMono fun d : Date => Miniseed2.daysFromCivil d.year d.month d.day) ∧
      (∀ (n n' : ℤ) (d d' : Date), Northbound.civilFromDays n = civil d →
        Northbound.civilFromDays n' = civil d' → (n < n' ↔ d < d')) ∧
      (∀ t : Int64, 0 ≤ (Northbound.civilFromDays (t.toInt / 1000 / 86400)).1 →
        (Northbound.civilFromDays (t.toInt / 1000 / 86400)).1 ≤ 9999 →
        UsvJson.iso8601UtcToEpochMicros (String.ofList (Northbound.iso8601UtcFromEpochMs t)) =
          some (t.toInt * 1000)) ∧
      ∀ (t t' : Miniseed2.BTime) (offset offset' : ℕ) (us us' : ℤ),
        Miniseed2.btimeUnixUs t offset = .ok us → Miniseed2.btimeUnixUs t' offset' = .ok us' →
        (t.fields < t'.fields ↔ us < us') := by
  refine ⟨fun d => ⟨?_, ?_⟩, fun n => ?_, fun d => ?_, fun n => ⟨ofDayNumber n, ?_, ?_⟩, ?_,
    fun n n' d d' h h' => ?_, fun t h0 h1 => ?_, fun t t' offset offset' us us' h h' => ?_⟩
  · rw [UsvJson.daysFromCivil_eq, Miniseed2.daysFromCivil_eq]
  · rw [Reference.EdgeTx.daysFromCivil_eq, Miniseed2.daysFromCivil_eq]
  · rw [Northbound.civilFromDays_eq, Pipeline.civilFromDays_eq]
  · rw [Northbound.civilFromDays_eq_civil_iff, Miniseed2.daysFromCivil_eq]
  · exact Northbound.civilFromDays_eq n
  · rw [Miniseed2.daysFromCivil_eq, dayNumber_ofDayNumber]
  · simpa only [Miniseed2.daysFromCivil_eq] using Date.dayNumber_strictMono
  · rw [Northbound.civilFromDays_eq_civil_iff] at h h'
    rw [← h, ← h', Date.dayNumber_strictMono.lt_iff_lt]
  · exact UsvJson.iso8601UtcToEpochMicros_iso8601 h0 h1
  · exact Miniseed2.btimeUnixUs_lt_iff h h'

/-- The last millisecond before 1970 is written and parsed, and two header times around a leap
day. -/
theorem calendars_agree_example :
    UsvJson.iso8601UtcToEpochMicros (String.ofList (Northbound.iso8601UtcFromEpochMs (-1))) =
        some (-1000) ∧
      ((⟨2024, 60, 23, 59, 59, 9999⟩ : Miniseed2.BTime).fields <
          (⟨2024, 61, 0, 0, 0, 0⟩ : Miniseed2.BTime).fields ↔
        (1709251199999900 : ℤ) < 1709251200000000) ∧
      ((0 : ℤ) < 1 ↔ ofDayNumber 0 < ofDayNumber 1) :=
  ⟨calendars_agree.2.2.2.2.2.2.1 (-1) (by decide +kernel) (by decide +kernel),
    calendars_agree.2.2.2.2.2.2.2 _ _ 0 0 _ _ (by decide +kernel) (by decide +kernel),
    calendars_agree.2.2.2.2.2.1 0 1 _ _ (by decide +kernel) (by decide +kernel)⟩

end Musubi
