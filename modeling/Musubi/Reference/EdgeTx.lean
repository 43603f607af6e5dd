/-
# Handset logs

`reference-readers/src/edgetx.rs`: a CSV recording of a handset.  The header names the columns,
among them the clock that the profile declares; every line after it is one observation, with all
its columns, at a time that is not before the line above.

A time is a date and a time of day in two columns, converted by a calendar of the reader's own, or
a counter of ticks since boot in one.  Cells are read as numbers where they are numbers and stay
texts where they are not; a row that is blank, or has another number of cells than the header, is
an error.
-/
import Musubi.FloatText
import Musubi.Lib.Lines
import Musubi.Lib.ParseInt
import Musubi.Lib.Utf8
import Musubi.Northbound.WirePolicy
import Musubi.Reference.Reader

namespace Musubi.Reference.EdgeTx

open Lib Musubi.Core Northbound.WirePolicy

/-! ## 1. Cells -/

/-- Where the first cell of a line ends.  A quoted one has one pair of quotes around it and none
within it. -/
def cellEnd (rest : List Char) : Option ℕ :=
  match rest with
  | '"' :: text => do
    let stop := (← text.idxOf? '"') + 2
    if stop < rest.length ∧ rest[stop]? ≠ some ',' then none else some stop
  | _ =>
    let stop := (rest.idxOf? ',').getD rest.length
    if '"' ∈ rest.take stop then none else some stop

/-- A quoted comma does not end a cell, and quotes stand at its ends alone. -/
example : cellEnd ['"', ',', '"', ',', 'a'] = some 3 ∧ cellEnd ['a', '"', ','] = none := by decide

def rowCells (rest : List Char) : Option (List (List Char)) :=
  match cellEnd rest with
  | none => none
  | some stop =>
    if rest.length ≤ stop then some [rest.take stop]
    else (rowCells (rest.drop (stop + 1))).map (rest.take stop :: ·)
termination_by rest.length
decreasing_by
  rw [List.length_drop]
  omega

/-- What stands between quotes. -/
def unquote : List Char → Option (List Char)
  | '"' :: text => if text.getLast? = some '"' then some text.dropLast else none
  | _ => none

/-- An integer that no `i64` holds stays the text that it is. -/
def parseValue (s : List Char) : FieldValue :=
  match unquote s with
  | some text => .text (String.ofList text)
  | none =>
    let trimmed := trim s
    if trimmed.isEmpty then .blank
    else match parseI64 trimmed with
      | some i => .i64 i
      | none => match F64.parse (String.ofList trimmed) with
        | some f =>
          if f.isFinite ∧ (trimmed.dropWhile fun c => c = '-' ∨ c = '+').all Char.isDigit then
            .text (String.ofList s)
          else .f64 f
        | none => .text (String.ofList s)

def isZero : FieldValue → Bool
  | .i64 i => i = 0
  | .f64 f => f.eq (.ofRat 0)
  | .text _ => false
  | .blank => false

/-! ## 2. Times -/

/-- The days from 1970-01-01 to a day of the calendar. -/
def daysFromCivil (y m d : ℤ) : ℤ :=
  let y := if m ≤ 2 then y - 1 else y
  let era := y / 400
  let yoe := y % 400
  let mp := (m + 9) % 12
  let doy := (153 * mp + 2) / 5 + d - 1
  let doe := yoe * 365 + yoe / 4 - yoe / 100 + doy
  era * 146097 + doe - 719468

def parseInt (s : List Char) : Option ℤ := (parseI64 s).map Int64.toInt

def parseDate (date : List Char) : Option (ℤ × ℤ × ℤ) :=
  match date.splitOn '-' with
  | [y, m, day] => do
    let y ← parseInt y
    let m ← parseInt m
    let day ← parseInt day
    let leap := y % 4 = 0 ∧ (y % 100 ≠ 0 ∨ y % 400 = 0)
    let lastDay := if m = 2 then (if leap then 29 else 28)
      else if m ∈ [4, 6, 9, 11] then 30
      else 31
    if (1 ≤ y ∧ y ≤ 9999) ∧ (1 ≤ m ∧ m ≤ 12) ∧ 1 ≤ day ∧ day ≤ lastDay then some (y, m, day)
    else none
  | _ => none

/-- The second of a day, and the milliseconds behind it. -/
def parseTime (time : List Char) : Option (ℤ × ℤ) :=
  match time.splitOn ':' with
  | [h, mi, sec] => do
    let h ← parseInt h
    let mi ← parseInt mi
    let (s, frac) := match sec.idxOf? '.' with
      | some dot => (sec.take dot, sec.drop (dot + 1))
      | none => (sec, ['0'])
    let s ← parseInt s
    if (0 ≤ h ∧ h < 24) ∧ (0 ≤ mi ∧ mi < 60) ∧ (0 ≤ s ∧ s < 60) ∧
        frac ≠ [] ∧ frac.length ≤ 9 ∧ frac.all Char.isDigit then do
      let ms ← parseInt ((frac ++ ['0', '0', '0']).take 3)
      return (h * 3600 + mi * 60 + s, ms)
    else none
  | _ => none

def parseDateTime (date time : List Char) : Option Int64 :=
  if date.all (fun c => c.isDigit ∨ c = '-') ∧
      time.all (fun c => c.isDigit ∨ c = ':' ∨ c = '.') then do
    let (y, m, day) ← parseDate date
    let (second, ms) ← parseTime time
    return .ofInt ((daysFromCivil y m day * 86400 + second) * 1000 + ms)
  else none

/-- Ten-millisecond ticks in milliseconds. -/
def ticksMs (ticks : UInt64) : Option Int64 :=
  let ms := ticks.toNat * 10
  if ms < 2 ^ 64 ∧ ms < 2 ^ 63 then some (.ofNat ms) else none

/-! ## 3. The header -/

inductive TimeCol
  | rtc (date time : ℕ)
  | tmr10ms (index : ℕ)
deriving DecidableEq

def malformed {α : Type} (offset : ℕ) (what : String) : Except ReadError α :=
  .error (.malformed offset what)

def columns (header : List Char) : List String :=
  (header.splitOn ',').map fun c => String.ofList (trim c)

def col (cols : List String) (name : String) : Option ℕ := cols.idxOf? name

def timeCol (time : String) (cols : List String) : Except ReadError TimeCol :=
  match time with
  | "Date,Time" =>
    match col cols "Date", col cols "Time" with
    | some date, some time => .ok (.rtc date time)
    | _, _ => malformed 0 "profile requires Date,Time columns"
  | "tmr10ms" | "Time" =>
    match col cols time with
    | some index => .ok (.tmr10ms index)
    | none => malformed 0 "profile requires tmr10ms column"
  | "Date,Time|tmr10ms" | "Date,Time|Time|tmr10ms" =>
    match col cols "Date", col cols "Time", col cols "tmr10ms" with
    | some date, some time, none => .ok (.rtc date time)
    | none, some index, none =>
      if time = "Date,Time|Time|tmr10ms" then .ok (.tmr10ms index)
      else malformed 0
        "profile requires exactly one complete time alternative: Date,Time or tmr10ms"
    | none, none, some index => .ok (.tmr10ms index)
    | some _, some _, some _ => malformed 0
      ("profile time alternatives are ambiguous: both Date,Time and tmr10ms columns are " ++
        "present")
    | _, _, _ => malformed 0
      "profile requires exactly one complete time alternative: Date,Time or tmr10ms"
  | other => .error (.profile ("unsupported explicit handset clock mapping: " ++ other))

/-- What a reader keeps of the header. -/
structure Layout where
  cols : List String
  timeCol : TimeCol
deriving DecidableEq

def declaredColumns (fields : FieldMapping) : List String :=
  fields.link ++ fields.battery ++ fields.gps ++ fields.status ++ fields.health

def readHeader (profile : FamilyProfile) (header : List Char) : Except ReadError Layout := do
  let cols := columns header
  if (∃ c ∈ cols, c = "" ∨ '"' ∈ c.toList) ∨ ¬ cols.Nodup then
    malformed 0 "duplicate or empty handset column"
  else do
    let time ← timeCol profile.fields.time cols
    if (declaredColumns profile.fields).filterMap (col cols) = [] then
      .error (.profile "no declared handset sensor found")
    else return ⟨cols, time⟩

/-! ## 4. Rows -/

/-- The cells of a row, of which the declared numbers are not quoted. -/
def checkedCells (profile : FamilyProfile) (cols : List String) (ln : ℕ) (line : List Char) :
    Except ReadError (List (List Char)) :=
  match rowCells line with
  | none => malformed ln "ambiguous handset text quoting"
  | some cells =>
    if cells.length ≠ cols.length ∨ (trim line).isEmpty then
      malformed ln "blank or ragged handset row"
    else if ((profile.fields.link ++ profile.fields.battery).filterMap (col cols)).any
        (fun index => (cells.getD index []).head? = some '"') then
      malformed ln "quoted text cannot replace a selected numeric link/battery value"
    else .ok cells

/-- The time of a row, and whether it counts from boot. -/
def rowTime (time : TimeCol) (ln : ℕ) (cells : List (List Char)) :
    Except ReadError (Int64 × Bool) :=
  match time with
  | .rtc di ti =>
    let date := cells.getD di []
    let time := cells.getD ti []
    match parseDateTime date time with
    | some tMs => .ok (tMs, false)
    | none => malformed ln
      ("bad Date,Time '" ++ String.ofList date ++ "," ++ String.ofList time ++ "'")
  | .tmr10ms i =>
    match (parseU64 (trim (cells.getD i []))).bind ticksMs with
    | some tMs => .ok (tMs, true)
    | none => malformed ln "bad or out-of-range tmr10ms"

variable (sha256 : List UInt8 → Digest)

/-- The observation of a row: stale when every link value is zero and no position is reported. -/
def rowObservation (profile : FamilyProfile) (cols : List String) (ln : ℕ)
    (cells : List (List Char)) (time : Int64 × Bool) : Except ReadError Observation :=
  let value (i : ℕ) := parseValue (cells.getD i [])
  let fields := cols.zipIdx.map fun (name, i) => (name, value i)
  let nonfinite : FieldValue → Bool
    | .f64 f => !f.isFinite
    | _ => false
  if fields.any fun field => nonfinite field.2 then malformed ln "nonfinite handset value"
  else
    let linkCols := profile.fields.link.filterMap (col cols)
    let gpsCols := profile.fields.gps.filterMap (col cols)
    let linkAllZero := !linkCols.isEmpty && linkCols.all fun i => isZero (value i)
    let gpsBlank := gpsCols.all fun i => value i == .blank || isZero (value i)
    let basis : ClockBasis := if time.2 then .bootRelative else .unknown
    .ok { observation sha256 profile time.1 .linkStats fields (linkAllZero && gpsBlank) with
      clockBasis := basis
      timeConfidence := defaultTimeConfidence basis
      wallMs := none }

structure RowState where
  previous : Option Int64 := none
  out : List Observation := []

def readRow (profile : FamilyProfile) (layout : Layout) (state : RowState)
    (row : List Char × ℕ) : Except ReadError RowState := do
  let cells ← checkedCells profile layout.cols row.2 row.1
  let time ← rowTime layout.timeCol row.2 cells
  if state.previous.any (time.1 < ·) then
    malformed row.2 "decreasing handset clock; split sessions explicitly"
  else do
    let o ← rowObservation sha256 profile layout.cols row.2 cells time
    return ⟨some time.1, state.out ++ [o]⟩

/-! ## 5. `read` -/

def formatId : String := "edgetx_csv"

def maxBytes : ℕ := 16 * 1024 * 1024

def read (profile : FamilyProfile) (bytes : List UInt8) : Except ReadError (List Observation) :=
  if profile.format ≠ formatId then
    .error (.profile "handset reader requires its own format")
  else if maxBytes < bytes.length ∨ 0 ∈ bytes then
    malformed 0 "unsupported handset CSV representation or size"
  else do
    let text ← (fromUtf8 bytes).mapError fun e => .malformed e.validUpTo "not utf-8"
    match lines text.toList with
    | [] => malformed 0 "empty csv"
    | header :: rows => do
      let layout ← readHeader profile header
      let state ← (rows.zipIdx 1).foldlM (readRow sha256 profile layout) {}
      if state.out.isEmpty then malformed 0 "no handset records" else return state.out

end Musubi.Reference.EdgeTx
