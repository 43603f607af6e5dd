/-
# The times that are documented

`adapter-usv-json/src/lib.rs`: the form that `iso8601_utc_to_epoch_micros` documents, and the
instant that it names.  The parser takes all of them, and computes that instant; and it takes
more: a number with a sign in place of a digit, a point without digits, a zone out of range, and a
time with anything behind it (`TimeText.Slip`).  Where a text has none of these, the parser is
exact.

The documented form is written down once more, from the documentation (`Documented`), with the
date as a date of the calendar and the instant as the number of its day, so nothing of the parser
is in it.  What the parser takes is known as a form of texts (`TimeForm`), and the two forms are
compared part by part: a field of four characters that parses is four digits or has a sign, a zone
that parses is one of a day or is not.

That a text with a slip is not also a documented time in another reading follows from the form
being unambiguous, which is what makes the condition exact and not only sufficient.
-/
import Musubi.UsvJson.TimeForm

namespace Musubi.UsvJson

open Lib

/-! ## 1. The documented form -/

/-- The number that digits write. -/
def natural (t : List Char) : ℕ := Nat.ofDigitChars 10 t 0

/-- A letter, or a sign with an hour and a minute of a day. -/
def ZoneText.Documented : ZoneText → Prop
  | utc letter => letter = 'Z' ∨ letter = 'z'
  | offset sign hour _ minute => (sign = '+' ∨ sign = '-') ∧ IsDigits 2 hour ∧
    IsDigits 2 minute ∧ natural hour ≤ 23 ∧ natural minute ≤ 59

/-- Seconds ahead of universal time. -/
def ZoneText.ahead : ZoneText → ℤ
  | utc _ => 0
  | offset sign hour _ minute =>
    (if sign = '+' then 1 else -1) * (natural hour * 3600 + natural minute * 60)

/-- The whole milliseconds of a fraction of a second. -/
def wholeMillis : Option (List Char) → ℕ
  | none => 0
  | some ds => natural ds * 1000 / 10 ^ ds.length

namespace TimeText

/-- **The documented form**, with the date that is named.  A second of 60 is allowed, as the
documentation does. -/
structure Documented (p : TimeText) (d : Calendar.Date) : Prop where
  year : IsDigits 4 p.year
  month : IsDigits 2 p.month
  day : IsDigits 2 p.day
  date : d.year = natural p.year ∧ d.month = natural p.month ∧ d.day = natural p.day
  separator : p.separator = 'T' ∨ p.separator = 't'
  hour : IsDigits 2 p.hour ∧ natural p.hour ≤ 23
  minute : IsDigits 2 p.minute ∧ natural p.minute ≤ 59
  second : IsDigits 2 p.second ∧ natural p.second ≤ 60
  fraction : ∀ ds ∈ p.fraction, ds ≠ [] ∧ ∀ c ∈ ds, c.isDigit = true
  zone : p.zone.Documented

/-- The instant in microseconds, at whole milliseconds. -/
def instant (p : TimeText) (d : Calendar.Date) : ℤ :=
  ((d.dayNumber * 86400 + natural p.hour * 3600 + natural p.minute * 60 + natural p.second -
    p.zone.ahead) * 1000 + wholeMillis p.fraction) * 1000

end TimeText

/-- A text that is a time as it is documented, at that instant.  The parts of the text and the
date are unique, but nothing here depends on it. -/
def IsTime (s : String) (t : ℤ) : Prop :=
  ∃ p d, s.toList = TimeText.text p ∧ p.Documented d ∧ t = p.instant d

/-! ## 2. What is documented is accepted -/

theorem num_eq {n : ℕ} {t : List Char} (h : IsDigits n t) (hpos : 0 < n) (hsmall : n ≤ 18) :
    num t = natural t := h.num_eq hpos hsmall

/-- Three digits or zeros are the whole milliseconds; the code takes three places and ignores the
rest. -/
theorem fractionMillis_eq {f : Option (List Char)}
    (h : ∀ ds ∈ f, ∀ c ∈ ds, c.isDigit = true) : fractionMillis f = wholeMillis f := by
  cases f with
  | none => rfl
  | some ds =>
    have hds := h ds rfl
    have hdigits : IsDigits 3 (ds.take 3 ++ List.replicate (3 - (ds.take 3).length) '0') :=
      isDigits_take_zeros hds
    rw [fractionMillis, num_eq hdigits (by decide) (by decide), wholeMillis]
    congr 1
    rw [natural, Nat.ofDigitChars_append, Nat.ofDigitChars_replicate_zero]
    rcases Nat.le_total ds.length 3 with hshort | hlong
    · have hpow : 1000 = 10 ^ (3 - ds.length) * 10 ^ ds.length := by
        rw [← Nat.pow_add, Nat.sub_add_cancel hshort]
      rw [List.take_of_length_le hshort, natural, hpow, ← Nat.mul_assoc,
        Nat.mul_div_cancel _ (Nat.pow_pos (by decide)), Nat.mul_comm]
    · have hlength : (ds.take 3).length = 3 := by
        rw [List.length_take]
        omega
      have hsplit : natural ds = 10 ^ (ds.drop 3).length * natural (ds.take 3) +
          natural (ds.drop 3) := by
        rw [natural, ← List.take_append_drop 3 ds, Nat.ofDigitChars_append,
          Nat.ofDigitChars_eq_ofDigitChars_zero, List.take_append_drop]
        rfl
      have hrest : natural (ds.drop 3) < 10 ^ (ds.drop 3).length :=
        ofDigitChars_lt fun c hc => hds c (List.mem_of_mem_drop hc)
      have hpow : 10 ^ ds.length = 10 ^ (ds.drop 3).length * 1000 := by
        rw [List.length_drop, show 1000 = 10 ^ 3 from rfl, ← Nat.pow_add, Nat.sub_add_cancel hlong]
      rw [hlength, hpow, Nat.mul_div_mul_right _ _ (by decide), hsplit, Nat.add_comm,
        Nat.add_mul_div_left _ _ (Nat.pow_pos (by decide)), Nat.div_eq_of_lt hrest]
      simp [natural]

theorem ZoneText.Documented.read {z : ZoneText} (h : z.Documented) :
    z.Read ∧ z.seconds = z.ahead := by
  cases z with
  | utc letter => exact ⟨h, rfl⟩
  | offset sign hour colon minute =>
    obtain ⟨hsign, hhour, hminute, -, -⟩ := h
    refine ⟨⟨hsign, hhour.isField (by decide) (by decide),
      hminute.isField (by decide) (by decide)⟩, ?_⟩
    rw [ZoneText.seconds, ZoneText.ahead, num_eq hhour (by decide) (by decide),
      num_eq hminute (by decide) (by decide)]

theorem daysInMonth_of_month (year : ℤ) {month : ℤ} (h : 1 ≤ month ∧ month ≤ 12) :
    daysInMonth year month = Calendar.daysInMonth year month := by
  have hfirst : 1 ≤ Calendar.daysInMonth year month := by
    unfold Calendar.daysInMonth
    split
    · split <;> omega
    · split <;> omega
  exact daysInMonth_eq ⟨year, month, 1, h, le_rfl, hfirst⟩

namespace TimeText

variable {p : TimeText} {d : Calendar.Date}

theorem Documented.read (h : p.Documented d) : p.Read := by
  obtain ⟨hyear, hmonth, hday⟩ := h.date
  have hmonthMem := d.month_mem
  have hdayMem := d.day_mem
  rw [hday, ← daysInMonth_eq, hyear, hmonth] at hdayMem
  rw [hmonth] at hmonthMem
  have hfield {n : ℕ} {t : List Char} (ht : IsDigits n t) (hpos : 0 < n) (hsmall : n ≤ 18) :
      IsField n t := ht.isField hpos hsmall
  refine ⟨hfield h.year (by decide) (by decide), hfield h.month (by decide) (by decide),
    hfield h.day (by decide) (by decide), h.separator, hfield h.hour.1 (by decide) (by decide),
    hfield h.minute.1 (by decide) (by decide), hfield h.second.1 (by decide) (by decide), ?_, ?_,
    ?_, ?_, ?_, fun ds hds => (h.fraction ds hds).2, h.zone.read.1⟩
  · rwa [num_eq h.month (by decide) (by decide)]
  · have hle := h.hour.2
    rw [num_eq h.hour.1 (by decide) (by decide)]
    omega
  · have hle := h.minute.2
    rw [num_eq h.minute.1 (by decide) (by decide)]
    omega
  · have hle := h.second.2
    rw [num_eq h.second.1 (by decide) (by decide)]
    omega
  · rwa [num_eq h.day (by decide) (by decide), num_eq h.year (by decide) (by decide),
      num_eq h.month (by decide) (by decide)]

/-- **The computed microseconds** are those of the instant.  Of a fraction the first three digits
count. -/
theorem Documented.micros_eq (h : p.Documented d) : p.micros = p.instant d := by
  obtain ⟨hyear, hmonth, hday⟩ := h.date
  have hdays : daysFromCivil (num p.year) (num p.month).toNat (num p.day).toNat = d.dayNumber := by
    rw [num_eq h.year (by decide) (by decide), num_eq h.month (by decide) (by decide),
      num_eq h.day (by decide) (by decide), ← hyear, ← hmonth, ← hday, daysFromCivil_eq]
  rw [micros, instant, hdays, h.zone.read.2,
    fractionMillis_eq fun ds hds => (h.fraction ds hds).2,
    num_eq h.hour.1 (by decide) (by decide), num_eq h.minute.1 (by decide) (by decide),
    num_eq h.second.1 (by decide) (by decide)]
  ring

/-! ## 3. What is accepted besides -/

/-- All numbers of a zone. -/
def zoneNumbers : ZoneText → List (List Char)
  | .utc _ => []
  | .offset _ hour _ minute => [hour, minute]

def numbers (p : TimeText) : List (List Char) :=
  [p.year, p.month, p.day, p.hour, p.minute, p.second] ++ zoneNumbers p.zone

/-- A zone whose hour or minute is none of a day.  The parser multiplies and adds them as they
are. -/
def FarZone : ZoneText → Prop
  | .utc _ => False
  | .offset _ hour _ minute => 23 < num hour ∨ 59 < num minute

/-- **What the parser takes besides**: a number with a sign, a point without digits, a zone out of
range, or a rest behind the zone. -/
def Slip (p : TimeText) (rest : List Char) : Prop :=
  (∃ t ∈ p.numbers, ∃ c ∈ t, c = '+' ∨ c = '-') ∨ p.fraction = some [] ∨ FarZone p.zone ∨
    rest ≠ []

end TimeText

/-- A field without a sign has digits only. -/
theorem IsField.isDigits {n : ℕ} {t : List Char} (h : IsField n t)
    (hsign : ¬ ∃ c ∈ t, c = '+' ∨ c = '-') : IsDigits n t := by
  refine ⟨h.1, ?_⟩
  obtain ⟨ds, -, hall, rfl | rfl | rfl⟩ := digits_of_parseI64 h.2
  · exact hall
  · exact absurd ⟨'-', List.mem_cons_self, .inr rfl⟩ hsign
  · exact absurd ⟨'+', List.mem_cons_self, .inl rfl⟩ hsign

theorem IsDigits.no_sign {n : ℕ} {t : List Char} (h : IsDigits n t) :
    ¬ ∃ c ∈ t, c = '+' ∨ c = '-' := by
  rintro ⟨c, hc, hsign⟩
  have hdigit := h.2 c hc
  rcases hsign with rfl | rfl <;> exact absurd hdigit (by decide)

namespace TimeText

variable {p : TimeText} {d : Calendar.Date}

/-- What is documented is no slip. -/
theorem Documented.not_slip (h : p.Documented d) : ¬ p.Slip [] := by
  rintro (⟨t, ht, hsign⟩ | hempty | hfar | hrest)
  · rcases List.mem_append.mp ht with ht | ht
    · simp only [List.mem_cons, List.not_mem_nil, or_false] at ht
      rcases ht with rfl | rfl | rfl | rfl | rfl | rfl
      · exact h.year.no_sign hsign
      · exact h.month.no_sign hsign
      · exact h.day.no_sign hsign
      · exact h.hour.1.no_sign hsign
      · exact h.minute.1.no_sign hsign
      · exact h.second.1.no_sign hsign
    · have hzone := h.zone
      cases hz : p.zone with
      | utc letter =>
        rw [hz] at ht
        cases ht
      | offset sign hour colon minute =>
        rw [hz] at ht hzone
        simp only [zoneNumbers, List.mem_cons, List.not_mem_nil, or_false] at ht
        rcases ht with rfl | rfl
        · exact hzone.2.1.no_sign hsign
        · exact hzone.2.2.1.no_sign hsign
  · exact (h.fraction [] hempty).1 rfl
  · have hzone := h.zone
    cases hz : p.zone with
    | utc letter =>
      rw [hz] at hfar
      exact hfar
    | offset sign hour colon minute =>
      rw [hz] at hfar hzone
      obtain ⟨-, hhour, hminute, hle, hle'⟩ := hzone
      rcases hfar with hfar | hfar
      · rw [num_eq hhour (by decide) (by decide)] at hfar
        omega
      · rw [num_eq hminute (by decide) (by decide)] at hfar
        omega
  · exact hrest rfl

/-- **What is read and is no slip is documented.** -/
theorem Read.documented (h : p.Read) (hslip : ¬ p.Slip []) : ∃ d, p.Documented d := by
  rw [Slip, not_or, not_or, not_or] at hslip
  obtain ⟨hsigns, hempty, hfar, -⟩ := hslip
  have hdigits {n : ℕ} {t : List Char} (ht : t ∈ p.numbers) (hfield : IsField n t) :
      IsDigits n t := hfield.isDigits fun hsign => hsigns ⟨t, ht, hsign⟩
  have hyear := hdigits (by simp [numbers]) h.year
  have hmonth := hdigits (by simp [numbers]) h.month
  have hday := hdigits (by simp [numbers]) h.day
  have hhour := hdigits (by simp [numbers]) h.hour
  have hminute := hdigits (by simp [numbers]) h.minute
  have hsecond := hdigits (by simp [numbers]) h.second
  have hmonthMem := h.month_mem
  have hdayMem := h.day_mem
  have hhourMem := h.hour_mem
  have hminuteMem := h.minute_mem
  have hsecondMem := h.second_mem
  rw [num_eq hmonth (by decide) (by decide)] at hmonthMem
  rw [num_eq hday (by decide) (by decide), num_eq hyear (by decide) (by decide),
    num_eq hmonth (by decide) (by decide), daysInMonth_of_month _ hmonthMem] at hdayMem
  rw [num_eq hhour (by decide) (by decide)] at hhourMem
  rw [num_eq hminute (by decide) (by decide)] at hminuteMem
  rw [num_eq hsecond (by decide) (by decide)] at hsecondMem
  refine ⟨⟨natural p.year, natural p.month, natural p.day, hmonthMem, hdayMem⟩, hyear, hmonth,
    hday, ⟨rfl, rfl, rfl⟩, h.separator, ⟨hhour, by omega⟩, ⟨hminute, by omega⟩,
    ⟨hsecond, by omega⟩, fun ds hds => ⟨?_, h.fraction ds hds⟩, ?_⟩
  · rintro rfl
    exact hempty hds
  · have hzone := h.zone
    cases hz : p.zone with
    | utc letter =>
      rw [hz] at hzone
      exact hzone
    | offset sign hour colon minute =>
      rw [hz] at hzone hfar
      obtain ⟨hsign, hhourField, hminuteField⟩ := hzone
      have hzoneHour := hdigits (by simp [numbers, hz, zoneNumbers]) hhourField
      have hzoneMinute := hdigits (by simp [numbers, hz, zoneNumbers]) hminuteField
      rw [FarZone, not_or, num_eq hzoneHour (by decide) (by decide),
        num_eq hzoneMinute (by decide) (by decide)] at hfar
      exact ⟨hsign, hzoneHour, hzoneMinute, by omega, by omega⟩

end TimeText

/-! ## 4. Exactness -/

/-- **A text that is read with a slip**, in one of the four ways.  Since a text is read in one
way, none of its other readings could be without one. -/
def Slips (s : String) : Prop :=
  ∃ p rest, s.toList = TimeText.text p ++ rest ∧ p.Read ∧ p.Slip rest

/-- A text with a slip is accepted, and is no time: it does not have the documented form, or a
zone out of its range. -/
theorem Slips.accepted {s : String} (h : Slips s) :
    (∃ t, iso8601UtcToEpochMicros s = some t) ∧ ∀ t, ¬ IsTime s t := by
  obtain ⟨p, rest, htext, hread, hslip⟩ := h
  refine ⟨⟨p.micros, iso8601_eq_some_iff.mpr ⟨p, rest, htext, hread, rfl⟩⟩, ?_⟩
  rintro t ⟨p', d, htext', hdocumented, -⟩
  have heq : p'.text ++ [] = p.text ++ rest := by rw [List.append_nil, ← htext', htext]
  obtain ⟨rfl, rfl⟩ := hdocumented.read.unique hread heq
  exact hdocumented.not_slip hslip

/-- **The parser of times is exact where nothing slips**: it takes just the documented times, each
as its instant, exactly when the text is not read with a sign in place of a digit, with a point
without digits, with a zone out of range or with a rest.  The text is any string.  On the left is
an equivalence for all instants, so it says both that a documented time is parsed as what it names
and that nothing else is parsed. -/
theorem iso8601_exact_iff (s : String) :
    (∀ t, iso8601UtcToEpochMicros s = some t ↔ IsTime s t) ↔ ¬ Slips s := by
  constructor
  · intro h hslips
    obtain ⟨⟨t, ht⟩, hnone⟩ := hslips.accepted
    exact hnone t ((h t).mp ht)
  · intro hnone t
    rw [iso8601_eq_some_iff]
    constructor
    · rintro ⟨p, rest, htext, hread, rfl⟩
      have hslip : ¬ p.Slip rest := fun hslip => hnone ⟨p, rest, htext, hread, hslip⟩
      obtain rfl : rest = [] := by
        by_contra hne
        exact hslip (.inr (.inr (.inr hne)))
      obtain ⟨d, hd⟩ := hread.documented hslip
      exact ⟨p, d, by rw [htext, List.append_nil], hd, hd.micros_eq⟩
    · rintro ⟨p, d, htext, hd, rfl⟩
      exact ⟨p, [], by rw [htext, List.append_nil], hd.read, hd.micros_eq.symm⟩

/-- A time with a letter behind it is accepted, and is none. -/
theorem trailing_text_accepted :
    iso8601UtcToEpochMicros "2023-01-01T00:00:00Zx" = some 1672531200000000 ∧
      ∀ t, ¬ IsTime "2023-01-01T00:00:00Zx" t := by
  have hread : TimeText.Read ⟨"2023".toList, "01".toList, "01".toList, 'T', "00".toList,
      "00".toList, "00".toList, none, .utc 'Z'⟩ :=
    ⟨⟨rfl, by decide⟩, ⟨rfl, by decide⟩, ⟨rfl, by decide⟩, .inl rfl, ⟨rfl, by decide⟩,
      ⟨rfl, by decide⟩, ⟨rfl, by decide⟩, by decide, by decide, by decide, by decide, by decide,
      by simp, .inl rfl⟩
  have hslips : Slips "2023-01-01T00:00:00Zx" :=
    ⟨_, ['x'], by decide, hread, .inr (.inr (.inr (List.cons_ne_nil _ _)))⟩
  exact ⟨by decide +kernel, hslips.accepted.2⟩

end Musubi.UsvJson
