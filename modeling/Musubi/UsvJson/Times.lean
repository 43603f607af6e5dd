/-
# Times of surface vessels

`adapter-usv-json/src/lib.rs`: an ISO 8601 time with its zone, in microseconds since 1970.  The
source works on the bytes of the text: a slice that is not a text by itself is refused there, and
here the byte that makes it so is not a digit.  A time of four digits for the year is far from the
ends of an `i64`, so times are integers.

The number of the day is computed with the months counted from March, in the way that the other
adapters do it too; that it is the day of the calendar is a part of `calendars_agree`.
-/
import Musubi.Core.Canonical
import Musubi.Lib.ParseInt

namespace Musubi.UsvJson

open Lib Musubi.Core

/-! ## 1. Days -/

def daysInMonth (year month : ℤ) : ℤ :=
  if month ∈ [1, 3, 5, 7, 8, 10, 12] then 31
  else if month ∈ [4, 6, 9, 11] then 30
  else if month = 2 then
    if (year % 4 = 0 ∧ year % 100 ≠ 0) ∨ year % 400 = 0 then 29 else 28
  else 0

/-- Days from 1970-01-01 in the proleptic Gregorian calendar; quotients are rounded towards
zero. -/
def daysFromCivil (y : ℤ) (m d : ℕ) : ℤ :=
  let y := if m ≤ 2 then y - 1 else y
  let era := (if 0 ≤ y then y else y - 399).tdiv 400
  let yoe := y - era * 400
  let m : ℤ := m
  let d : ℤ := d
  let doy := (153 * (if m > 2 then m - 3 else m + 9) + 2).tdiv 5 + d - 1
  let doe := yoe * 365 + yoe.tdiv 4 - yoe.tdiv 100 + doy
  era * 146097 + doe - 719468

/-! ## 2. The parser -/

/-- The bytes from `start` to `stop`, as they are parsed. -/
def slice (bytes : List UInt8) (start stop : ℕ) : List Char :=
  ((bytes.drop start).take (stop - start)).map fun b => Char.ofNat b.toNat

/-- `s.get(start..stop)?.parse().ok()?` -/
def number (bytes : List UInt8) (start stop : ℕ) : Option ℤ :=
  if stop ≤ bytes.length then (parseI64 (slice bytes start stop)).map Int64.toInt else none

/-- The first three digits behind the point, in milliseconds. -/
def fraction (digits : List Char) : Option ℤ :=
  let msStr := digits.take 3
  (parseI64 (msStr ++ List.replicate (3 - msStr.length) '0')).map Int64.toInt

/-- The milliseconds, and where the zone stands. -/
def millisAt (bytes : List UInt8) (idx : ℕ) : Option (ℤ × ℕ) :=
  if bytes[idx]? = some 0x2E then
    let digits := ((bytes.drop (idx + 1)).map fun b => Char.ofNat b.toNat).takeWhile Char.isDigit
    (fraction digits).map fun millis => (millis, idx + 1 + digits.length)
  else some (0, idx)

/-- The offset of the zone in seconds; without a zone a time says nothing. -/
def zoneAt (bytes : List UInt8) (idx : ℕ) : Option ℤ := do
  let c ← bytes[idx]?
  if c = 0x5A ∨ c = 0x7A then return 0
  else if c = 0x2B ∨ c = 0x2D then do
    let sign := if c = 0x2B then 1 else -1
    let oh ← number bytes (idx + 1) (idx + 3)
    let om ← if bytes[idx + 3]? = some 0x3A then number bytes (idx + 4) (idx + 6)
      else number bytes (idx + 3) (idx + 5)
    return sign * (oh * 3600 + om * 60)
  else none

def iso8601BytesToEpochMicros (bytes : List UInt8) : Option ℤ := do
  if bytes.length < 20 then none
  else
    let year ← number bytes 0 4
    if bytes[4]? ≠ some 0x2D then none
    else
      let month ← number bytes 5 7
      if bytes[7]? ≠ some 0x2D then none
      else
        let day ← number bytes 8 10
        if bytes[10]? ≠ some 0x54 ∧ bytes[10]? ≠ some 0x74 then none
        else
          let hour ← number bytes 11 13
          if bytes[13]? ≠ some 0x3A then none
          else
            let minute ← number bytes 14 16
            if bytes[16]? ≠ some 0x3A then none
            else
              let second ← number bytes 17 19
              if ¬ (1 ≤ month ∧ month ≤ 12) ∨ ¬ (0 ≤ hour ∧ hour ≤ 23) ∨
                  ¬ (0 ≤ minute ∧ minute ≤ 59) ∨ ¬ (0 ≤ second ∧ second ≤ 60) then none
              else if ¬ (1 ≤ day ∧ day ≤ daysInMonth year month) then none
              else
                let (millis, idx) ← millisAt bytes 19
                let tzOffsetSecs ← zoneAt bytes idx
                let days := daysFromCivil year month.toNat day.toNat
                let secsUtc :=
                  days * 86400 + hour * 3600 + minute * 60 + second - tzOffsetSecs
                return secsUtc * 1000000 + millis * 1000

def iso8601UtcToEpochMicros (s : String) : Option ℤ := iso8601BytesToEpochMicros (utf8 s)

/-- A zone, and a day that its month does not have. -/
example : iso8601UtcToEpochMicros "1970-01-01T01:00:00.5+01:00" = some 500000 ∧
    iso8601UtcToEpochMicros "2023-02-29T00:00:00Z" = none := by decide +kernel

end Musubi.UsvJson
