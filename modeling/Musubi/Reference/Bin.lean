/-
# DataFlash logs

`reference-readers/src/bin.rs`: a log that describes itself.  A FMT record says how long the
records of a type are and which fields they have, and what it says holds until the next FMT record
of the type.  UNIT, MULT and FMTU records say in what units the fields of a type are reported.  A
record with a field `TimeUS` is an observation, any other is kept as it is.

A format whose fields do not add up to its length is refused where it is read, so what stands in
the table of formats is consistent, and a `Fmt` carries that with it.  The letters of a format are
the wire types of its fields, and a letter fixes how many bytes a field takes and what value is
made of them.

Every slice of the source is a checked operation here, so a read beyond the end would be a panic.
The reader is a scan in the sense of `Lib.Scan`: a state, one record at a time, and a length by
which the record moves the reader on.
-/
import Musubi.Lib.CheckedInt
import Musubi.Lib.Scan
import Musubi.Lib.Utf8
import Musubi.Reference.Reader
import Musubi.Reference.Scalars

namespace Musubi.Reference.Bin

open Lib Lib.Checked Musubi.Core

/-! ## 1. Formats -/

def headBytes : List UInt8 := [0xA3, 0x95]

def fmtMsgid : UInt8 := 128

def fmtLen : ℕ := 89

def charLen (c : UInt8) : Option ℕ :=
  match letter c with
  | 'a' => some 64
  | 'b' | 'B' | 'M' => some 1
  | 'h' | 'H' | 'c' | 'C' => some 2
  | 'i' | 'I' | 'f' | 'e' | 'E' | 'L' => some 4
  | 'd' | 'q' | 'Q' => some 8
  | 'n' => some 4
  | 'N' => some 16
  | 'Z' => some 64
  | _ => none

/-- The bytes of all values of a record. -/
def declaredLen (format : List UInt8) : Option ℕ := (format.mapM charLen).map List.sum

structure Fmt where
  name : String
  len : ℕ
  format : List UInt8
  labels : List String
  labelled : labels.length = format.length
  distinct : labels.Nodup
  /-- The head of a record has three bytes. -/
  declared : (declaredLen format).map (· + 3) = some len
deriving DecidableEq

def cstr (b : List UInt8) : String := fromUtf8Lossy (b.takeWhile (· ≠ 0))

def isAscii (s : String) : Bool := s.toList.all fun c => c.toNat < 128

/-- The type that a FMT record describes, and its format. -/
def readFmt (off : ℕ) (rest : List UInt8) : Checked ReadError (UInt8 × Fmt) := do
  let ty ← index rest 3
  let lenByte ← index rest 4
  let len := lenByte.toNat
  let nameBytes ← slice rest 5 9
  let formatBytes ← slice rest 9 25
  let labelBytes ← slice rest 25 89
  let name := cstr nameBytes
  let format := utf8 (cstr formatBytes)
  let labels := ((cstr labelBytes).toList.splitOn ',').map String.ofList
  if hclear : name = "" ∨ ¬ isAscii name ∨ labels.length ≠ format.length ∨
      (∃ label ∈ labels, label = "" ∨ ¬ isAscii label) ∨ ¬ labels.Nodup then
    fail (.malformed off "ambiguous FMT name or labels")
  else if hlen : (declaredLen format).map (· + 3) = some len then
    return (ty, {
      name, len, format, labels
      labelled := by
        simp only [not_or, not_not] at hclear
        exact hclear.2.2.1
      distinct := by
        simp only [not_or, not_not] at hclear
        exact hclear.2.2.2.2
      declared := hlen })
  else
    fail (.malformed off ("FMT " ++ name ++ ": format '" ++ fromUtf8Lossy format
      ++ "' does not match length " ++ len.repr))

/-- A format with one byte for its value. -/
example : (readFmt 0 ([0xA3, 0x95, 128, 129, 4] ++ utf8 "TEST" ++ utf8 "B" ++
    List.replicate 15 0 ++ utf8 "Value" ++ List.replicate 59 0)).toOption.map
      (fun r => (r.1, r.2.name, r.2.len, r.2.labels)) = some (129, "TEST", 4, ["Value"]) := by
  decide +kernel

/-! ## 2. Values -/

def decodeValue (c : UInt8) (b : List UInt8) : Checked ReadError FieldValue :=
  match letter c with
  | 'b' => do return .fromI8 (← word 1 b)
  | 'B' | 'M' => do return .fromUnsigned (← word 1 b)
  | 'h' | 'c' => do return .fromI16 (← word 2 b)
  | 'H' | 'C' => do return .fromUnsigned (← word 2 b)
  | 'i' | 'e' | 'L' => do return .fromI32 (← word 4 b)
  | 'I' | 'E' => do return .fromUnsigned (← word 4 b)
  | 'f' => do return .float32Bits (← word 4 b)
  | 'd' => do return .float64Bits (← word 8 b)
  | 'q' | 'Q' => do return .from64 (← word 8 b)
  | 'n' | 'N' | 'Z' => return .text (cstr b)
  | 'a' => return .text ("int16[" ++ (b.length / 2).repr ++ "]")
  | _ => return .blank

/-- The fields of an array: its values of two bytes, one after the other. -/
def arrayFields (key : String) (b : List UInt8) : Fields :=
  (List.range (b.length / 2)).map fun i =>
    (key ++ "[" ++ i.repr ++ "]", .fromI16 (ofLeBytes ((b.drop (2 * i)).take 2)))

/-- An unsigned integer has a signed value, and a text is one. -/
def checkValue (off : ℕ) (c : UInt8) (b : List UInt8) : Checked ReadError Unit :=
  if letter c = 'Q' then do
    let v ← word 8 b
    if 2 ^ 63 - 1 < v then fail (.malformed off "DataFlash Q exceeds signed common range")
    else return ()
  else if letter c ∈ ['n', 'N', 'Z'] ∧ (fromUtf8 (b.takeWhile (· ≠ 0))).toOption = none then
    fail (.malformed off "invalid DataFlash text encoding")
  else return ()

/-- The fields of one value, given by its letter and its bytes. -/
def valueFields (off : ℕ) (c : UInt8) (key : String) (b : List UInt8) :
    Checked ReadError Fields :=
  if letter c = 'a' then return arrayFields key b
  else do
    checkValue off c b
    let value ← decodeValue c b
    return [(key, value)]

/-- One value behind those that have been decoded, and where the next one starts. -/
def decodeField (off : ℕ) (f : Fmt) (payload : List UInt8) (decoded : Fields × ℕ)
    (field : UInt8 × ℕ) : Checked ReadError (Fields × ℕ) := do
  let (c, i) := field
  let (fields, p) := decoded
  let n := (charLen c).getD 0
  let label := f.labels.getD i ("f" ++ i.repr)
  let b ← slice payload p (p + n)
  let added ← valueFields off c (f.name ++ "." ++ label) b
  return (fields ++ added, p + n)

def decodeFields (off : ℕ) (f : Fmt) (payload : List UInt8) : Checked ReadError Fields := do
  let (fields, _) ← f.format.zipIdx.foldlM (decodeField off f payload) ([], 0)
  return fields

/-! ## 3. Reported units -/

/-- The tables by unit, by multiplier and by type of records. -/
structure ReportedUnits where
  labels : UInt8 → Option String
  multipliers : UInt8 → Option FieldValue
  bindings : UInt8 → Option (List UInt8 × List UInt8)

def ReportedUnits.new : ReportedUnits := ⟨fun _ => none, fun _ => none, fun _ => none⟩

/-- The format and the labels that the records about units have. -/
def metadata (name : String) : Option (List UInt8 × String) :=
  if name = "UNIT" then some (utf8 "QbZ", "TimeUS,Id,Label")
  else if name = "MULT" then some (utf8 "Qbd", "TimeUS,Id,Mult")
  else if name = "FMTU" then some (utf8 "QBNN", "TimeUS,FmtType,UnitIds,MultIds")
  else none

def invalidBinding (off : ℕ) : ReadError :=
  .malformed off "invalid UNIT/MULT/FMTU metadata binding"

/-- An entry of one of the tables. -/
def tableIndex : FieldValue → Option UInt8
  | .i64 n => if 0 ≤ n.toInt ∧ n.toInt < 256 then some (.ofNat n.toInt.toNat) else none
  | _ => none

/-- What a record about units changes in the tables. -/
def ReportedUnits.learn (units : ReportedUnits) (f : Fmt) (fmts : UInt8 → Option Fmt)
    (fields : Fields) (off : ℕ) : Checked ReadError ReportedUnits := do
  let (_, id) ← index fields 1
  match tableIndex id with
  | none => fail (invalidBinding off)
  | some target =>
    if f.name = "UNIT" then do
      let (_, label) ← index fields 2
      match label with
      | .text label => return { units with labels := Function.update units.labels target label }
      | _ => fail (invalidBinding off)
    else if f.name = "MULT" then do
      let (_, factor) ← index fields 2
      return { units with multipliers := Function.update units.multipliers target factor }
    else do
      let (_, unitIds) ← index fields 2
      let (_, multIds) ← index fields 3
      match unitIds, multIds, fmts target with
      | .text unitIds, .text multIds, some targetFmt =>
        if ¬ isAscii unitIds ∨ ¬ isAscii multIds ∨
            (utf8 unitIds).length ≠ targetFmt.format.length ∨
            (utf8 multIds).length ≠ targetFmt.format.length then
          fail (invalidBinding off)
        else return { units with
          bindings := Function.update units.bindings target (some (utf8 unitIds, utf8 multIds)) }
      | _, _, _ => fail (invalidBinding off)

/-- The unit that a unit id stands for, of those that are qualified. -/
def expectedLabel (unitId : UInt8) : Option String :=
  match letter unitId with
  | 'A' => some "A"
  | 'v' => some "V"
  | 'm' => some "m"
  | 's' => some "s"
  | 'E' => some "rad/s"
  | 'o' => some "m/s/s"
  | _ => none

/-- What is reported next to a value. -/
structure Reported where
  derived : FieldValue := .blank
  unit : FieldValue := .blank
  multiplier : FieldValue := .blank
  status : String

/-- A number that an `f64` holds exactly. -/
def exactNumber : FieldValue → Option F64
  | .i64 n => if n.toInt.natAbs ≤ 2 ^ 53 then some (.ofInt n.toInt) else none
  | .f64 v => if v.isFinite then some v else none
  | _ => none

def scaled (raw : FieldValue) (factor : F64) : FieldValue × String :=
  match exactNumber raw with
  | none => (.blank, "VALUE_NONFINITE_OR_PRECISION_UNQUALIFIED")
  | some value =>
    let scaled := value.mul factor
    if scaled.eq (.ofRat 0) ∧ ¬ value.eq (.ofRat 0) then (.blank, "DERIVED_UNDERFLOW")
    else if scaled.isFinite then (.f64 scaled, "REPORTED_RAW_TIMES_MULT_NO_FORMAT_SCALING")
    else (.blank, "DERIVED_OVERFLOW")

def ReportedUnits.report (units : ReportedUnits) (raw : FieldValue) (unitId multId : UInt8) :
    Reported :=
  let unit := ((units.labels unitId).map FieldValue.text).getD .blank
  let multiplier := (units.multipliers multId).getD .blank
  if (expectedLabel unitId).isSome ∧ units.labels unitId = expectedLabel unitId then
    match multiplier with
    | .f64 factor =>
      if letter multId ∉ ['-', '?'] ∧ factor.isFinite ∧ (F64.ofRat 0).lt factor then
        let (derived, status) := scaled raw factor
        { derived, unit, multiplier, status }
      else { unit, multiplier, status := "MULTIPLIER_UNQUALIFIED" }
    | _ => { unit, multiplier, status := "MULTIPLIER_UNQUALIFIED" }
  else { unit, multiplier, status := "UNIT_UNQUALIFIED" }

/-- What is reported next to the `i`-th value of a record. -/
def ReportedUnits.reportAt (units : ReportedUnits) (id : UInt8) (raw : FieldValue) (i : ℕ) :
    Checked ReadError Reported :=
  match units.bindings id with
  | none => return { status := "FMTU_NOT_AVAILABLE" }
  | some (unitIds, multIds) => do
    let unitId ← index unitIds i
    let multId ← index multIds i
    return units.report raw unitId multId

/-- The fields behind those of the record that report one of its values in units. -/
def ReportedUnits.reportField (units : ReportedUnits) (id : UInt8) (f : Fmt) (fields : Fields)
    (field : (String × UInt8) × ℕ) : Checked ReadError Fields := do
  let ((label, format), i) := field
  if label = "TimeUS" ∨ letter format ∈ ['a', 'n', 'N', 'Z', 'M'] then return fields
  else do
    let key := f.name ++ "." ++ label
    let (_, raw) ← unwrap (fields.find? fun entry => entry.1 = key)
    let reported ← units.reportAt id raw i
    return fields ++ [
      (key ++ ".reported_unit_value", reported.derived),
      (key ++ ".reported_unit", reported.unit),
      (key ++ ".reported_multiplier", reported.multiplier),
      (key ++ ".reported_unit_disposition", .text reported.status)]

def ReportedUnits.apply (units : ReportedUnits) (id : UInt8) (f : Fmt)
    (fmts : UInt8 → Option Fmt) (fields : Fields) (off : ℕ) :
    Checked ReadError (ReportedUnits × Fields) :=
  match metadata f.name with
  | some (format, labels) =>
    if f.format ≠ format ∨ ",".intercalate f.labels ≠ labels then fail (invalidBinding off)
    else do
      let units ← units.learn f fmts fields off
      return (units, fields)
  | none => do
    let fields ← (f.labels.zip f.format).zipIdx.foldlM (units.reportField id f) fields
    return (units, fields)

/-! ## 4. Records -/

structure UntimedRecord where
  offset : ℕ
  fields : Fields
  bytes : List UInt8

/-- What a record is read as. -/
inductive Entry
  | format (ty : UInt8) (f : Fmt)
  | observed (o : Observation)
  | untimed (u : UntimedRecord)

/-- What the records so far have said. -/
structure LogState where
  fmts : UInt8 → Option Fmt
  units : ReportedUnits

def LogState.new : LogState := ⟨fun _ => none, .new⟩

/-- A new format of a type: what was bound to the old one is gone. -/
def LogState.declare (s : LogState) (ty : UInt8) (f : Fmt) : LogState where
  fmts := Function.update s.fmts ty (some f)
  units := { s.units with bindings := Function.update s.units.bindings ty none }

def LogState.reportUnits (s : LogState) (reportedUnits : Bool) (off : ℕ) (msgid : UInt8) (f : Fmt)
    (fields : Fields) : Checked ReadError (ReportedUnits × Fields) :=
  if reportedUnits then s.units.apply msgid f s.fmts fields off else return (s.units, fields)

/-- GPS weeks and milliseconds, in microseconds since 1970. -/
def gpsToUnixUs (gwk : UInt16) (gms : UInt32) : Checked ReadError ℤ := do
  let days ← i64 (gwk.toNat * 7)
  let seconds ← i64 (days * 86400)
  let weeks ← i64 (seconds * 1000)
  let ms ← i64 (weeks + gms.toNat)
  let ms ← i64 (ms + 315964800 * 1000)
  let ms ← i64 (ms - 18 * 1000)
  i64 (ms * 1000)

/-- The channel that records of a name speak of. -/
def channelFor (name : String) : ChannelId :=
  if name ∈ ["GPS", "GPA", "GPS2", "UBX1", "UBX2", "XKF1", "XKF2", "XKF3", "XKF4", "XKF5", "XKFS",
      "NKF1", "NKF2", "NKF3", "NKF4", "NKF5"] then .gpsEkf
  else if name ∈ ["RCIN", "RCI2"] then .rc
  else if name ∈ ["RSSI", "RAD"] then .linkStats
  else if name ∈ ["MODE", "ERR", "EV", "MSG", "ARM", "BAT", "POWR", "PM", "MAV"] then .event
  else .onboard

/-- The time of a fix, of a GPS record that has one. -/
def gpsAnchor (name : String) (fields : Fields) : Checked ReadError (Option Int64) :=
  if name = "GPS" then
    match integer fields "GPS.Status", integer fields "GPS.GMS", integer fields "GPS.GWk" with
    | some st, some gms, some gwk =>
      if 3 ≤ st ∧ (0 < gwk ∨ 0 < gms) then do
        let us ← gpsToUnixUs gwk.toUInt64.toUInt16 gms.toUInt64.toUInt32
        return some (.ofInt us)
      else return none
    | _, _, _ => return none
  else return none

variable (sha256 : List UInt8 → Digest) (profile : FamilyProfile)

def timedObservation (name : String) (timeUs : Int64) (fields : Fields) :
    Checked ReadError Observation := do
  let anchorUnixUs ← gpsAnchor name fields
  return { observation sha256 profile (timeUs / 1000) (channelFor name) fields false with
    tBootUs := some (max timeUs 0).toUInt64
    clockBasis := .bootRelative
    wallMs := none
    timeConfidence := defaultTimeConfidence .bootRelative
    anchorUnixUs }

/-- A record of a type with a format. -/
def readData (reportedUnits : Bool) (s : LogState) (off : ℕ) (msgid : UInt8) (f : Fmt)
    (rest : List UInt8) : Checked ReadError (Entry × ReportedUnits) := do
  let payload ← slice rest 3 f.len
  let fields ← decodeFields off f payload
  let (units, fields) ← s.reportUnits reportedUnits off msgid f fields
  if ¬ (fields.map Prod.fst).Nodup then
    fail (.malformed off "expanded DataFlash field collision")
  else
    match f.labels.findIdx? (· = "TimeUS") with
    | none => do
      let bytes ← slice rest 0 f.len
      return (.untimed ⟨off, fields, bytes⟩, units)
    | some timeIndex => do
      let c ← index f.format timeIndex
      if letter c ≠ 'Q' then
        fail (.malformed off "TimeUS must be unsigned64 microseconds")
      else do
        let timeUs ← unwrap (integer fields (f.name ++ ".TimeUS"))
        let o ← timedObservation sha256 profile f.name timeUs fields
        return (.observed o, units)

/-- One record: what it is, its length, and what is known behind it. -/
def readRecord (reportedUnits : Bool) (s : LogState) (rest : List UInt8) (off : ℕ) :
    Checked ReadError (Entry × ℕ × LogState) :=
  if rest.length < 3 then fail (.malformed off "truncated record head")
  else do
    let first ← slice rest 0 2
    if first ≠ headBytes then do
      let a ← index rest 0
      let b ← index rest 1
      fail (.malformed off ("bad head bytes " ++ (hexLower [a]).map Char.toUpper ++ " "
        ++ (hexLower [b]).map Char.toUpper))
    else do
      let msgid ← index rest 2
      if msgid = fmtMsgid then
        if rest.length < fmtLen then fail (.malformed off "truncated FMT")
        else do
          let (ty, f) ← readFmt off rest
          return (.format ty f, fmtLen, s.declare ty f)
      else
        match s.fmts msgid with
        | none => fail (.malformed off ("msgid " ++ msgid.toNat.repr ++ " before its FMT"))
        | some f =>
          if rest.length < f.len then
            fail (.malformed off ("truncated " ++ f.name ++ " record"))
          else do
            let (entry, units) ← readData sha256 profile reportedUnits s off msgid f rest
            return (entry, f.len, { s with units })

/-- The records of a log, each with what is known before it as the state. -/
def records (reportedUnits : Bool) : Scanner ReadError LogState Entry UInt8 where
  more rest := !rest.isEmpty
  step := readRecord sha256 profile reportedUnits

/-! ## 5. The reader -/

structure ReadReport where
  observations : List Observation := []
  untimedRecords : List UntimedRecord := []
  dataRecords : ℕ := 0

def ReadReport.add (report : ReadReport) : Entry → ReadReport
  | .format _ _ => report
  | .observed o => { report with
    observations := report.observations ++ [o]
    dataRecords := report.dataRecords + 1 }
  | .untimed u => { report with
    untimedRecords := report.untimedRecords ++ [u]
    dataRecords := report.dataRecords + 1 }

def readReportImpl (input : Slice) (reportedUnits : Bool) : Checked ReadError ReadReport :=
  if profile.format ≠ "ardupilot_dataflash_bin" then
    fail (.profile "expected DataFlash profile")
  else do
    let (_, _, report) ← ((records sha256 profile reportedUnits).feed
      fun report r => pure (report.add r.item)).scan input.bytes 0 (.new, {})
    return report

def readReport (input : Slice) : Checked ReadError ReadReport :=
  readReportImpl sha256 profile input false

def readReportWithUnits (input : Slice) : Checked ReadError ReadReport :=
  readReportImpl sha256 profile input true

/-- The reading for those who do not ask for untimed records. -/
def read (input : Slice) : Checked ReadError (List Observation) := do
  let report ← readReport sha256 profile input
  if report.untimedRecords.length ≠ 0 then
    fail (.unsupportedFormat "DataFlash has untimed records; use read_report to retain them")
  else return report.observations

end Musubi.Reference.Bin
