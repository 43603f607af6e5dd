/-
# Times of the reference pipeline

`reference-pipeline/src/timefmt.rs`: a time in milliseconds as a calendar time in UTC.  The
divisions are Euclidean, so times before 1970 need no case of their own: the day is rounded down
and the milliseconds within it are never negative.

The serializers have a conversion of their own, written differently; that the two agree on every
day is a part of `calendars_agree`.  Here it only matters that the text is made of characters
which no format has to quote (`isPlain_isoUtcMs`), because the rows of a report carry it between
commas and in lines.
-/
import Musubi.Northbound.Format

namespace Musubi.Pipeline

open Northbound

/-- Days since 1970-01-01 as year, month and day. -/
def civilFromDays (z : ℤ) : ℤ × ℕ × ℕ :=
  let z := z + 719468
  let era := z / 146097
  let doe := z % 146097
  let yoe := (doe - doe / 1460 + doe / 36524 - doe / 146096) / 365
  let y := yoe + era * 400
  let doy := doe - (365 * yoe + yoe / 4 - yoe / 100)
  let mp := (5 * doy + 2) / 153
  let d := doy - (153 * mp + 2) / 5 + 1
  let m := if mp < 10 then mp + 3 else mp - 9
  (if m ≤ 2 then y + 1 else y, m.toNat, d.toNat)

/-- Date, time of day and milliseconds. -/
def split (unixMs : Int64) : (ℤ × ℕ × ℕ) × (ℕ × ℕ × ℕ) × ℕ :=
  let secs := unixMs.toInt / 1000
  let ms := (unixMs.toInt % 1000).toNat
  let sod := (secs % 86400).toNat
  (civilFromDays (secs / 86400), (sod / 3600, sod % 3600 / 60, sod % 60), ms)

def isoUtcMs (unixMs : Int64) : String :=
  let (date, hms, ms) := split unixMs
  String.ofList (zeroPadInt 4 date.1 ++ '-' :: (zeroPad 2 date.2.1 ++ '-' ::
    (zeroPad 2 date.2.2 ++ 'T' :: (zeroPad 2 hms.1 ++ ':' :: (zeroPad 2 hms.2.1 ++ ':' ::
      (zeroPad 2 hms.2.2 ++ '.' :: (zeroPad 3 ms ++ ['Z'])))))))

theorem isPlain_isoUtcMs (unixMs : Int64) : (isoUtcMs unixMs).toList.all isPlain = true := by
  unfold isoUtcMs
  dsimp only
  rw [String.toList_ofList]
  simp only [List.all_append, List.all_cons, isPlain_zeroPad, isPlain_zeroPadInt, Bool.and_true,
    Bool.true_and, List.all_nil]
  rfl

/-- Before the epoch, and the scenario of the reference data. -/
example : isoUtcMs (-1) = "1969-12-31T23:59:59.999Z" ∧
    isoUtcMs 1788166800000 = "2026-08-31T09:00:00.000Z" := by decide +kernel

end Musubi.Pipeline
