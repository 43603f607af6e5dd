/-
# Telemetry of surface vessels

`adapter-usv-json/src/lib.rs`, `UsvNormalizer::normalize`: a frame of JSON becomes a sealed
position or an error.  The JSON library is a parameter: it returns the fields of a frame or the
text of its error.  Of an unknown field only the name is read.

Names of unknown fields and the name of an application go into the notes of the mark, and the text
of the library into an error, all as they are; `Conformance.TextAdapters` says when that is within
the contract.
-/
import Musubi.Adapter.Spi
import Musubi.FloatDisplay
import Musubi.UsvJson.Times

namespace Musubi.UsvJson

open Lib Musubi.Core Adapter Northbound.WirePolicy

/-! ## 1. Frames -/

def adapterSlug : String := "usv-telemetry-json/v1"

def maxJsonPayloadBytes : ℕ := 16 * 1024

def maxJsonNestingDepth : ℕ := 32

def maxStrFieldBytes : ℕ := 256

def timeConfIso8601Utc : F32 := .ofRat (85 / 100)

def timeConfEpochSec : F32 := .ofRat (75 / 100)

def timeConfAbsent : F32 := .ofRat (2 / 10)

def microsPerSec : ℤ := 1000000

inductive TimestampField
  | text (s : String)
  | epoch (v : F64)
deriving DecidableEq

/-- `extra` has the names of the unknown fields, in their order. -/
structure UsvTelemetryFrame where
  vehicleId : Option String := none
  lat : Option F64 := none
  lon : Option F64 := none
  timestamp : Option TimestampField := none
  headingDeg : Option F32 := none
  sogKnots : Option F32 := none
  altM : Option F64 := none
  depthM : Option F32 := none
  gnssFix : Option Int64 := none
  mode : Option String := none
  batteryPct : Option Int64 := none
  sourceApp : Option String := none
  extra : List String := []
deriving DecidableEq

/-! ## 2. Times -/

structure TimeInterpretation where
  observedAt : Option Int64
  timeConfidence : F32
  note : QualityNote

def epochInterpretation (epochSec : F64) : TimeInterpretation :=
  ⟨some (epochSec.mul (.ofInt microsPerSec)).asI64, timeConfEpochSec,
    .neutral "timestamp-format:epoch-sec"⟩

/-- A time that is not there or cannot be read. -/
def noTime : TimeInterpretation :=
  ⟨none, timeConfAbsent, .neutral "timestamp:absent-or-malformed"⟩

def interpretTimestamp (ts : Option TimestampField) : TimeInterpretation :=
  match ts with
  | some (.text s) =>
    match iso8601UtcToEpochMicros s with
    | some micros =>
      ⟨some (.ofInt micros), timeConfIso8601Utc, .neutral "timestamp-format:iso8601-utc"⟩
    | none =>
      match (F64.parse (.ofList (trim s.toList))).filter F64.isFinite with
      | some epoch => epochInterpretation epoch
      | none => noTime
  | some (.epoch epoch) => if epoch.isFinite then epochInterpretation epoch else noTime
  | none => noTime

/-! ## 3. What is refused -/

/-- `invalid` of this crate, which has its own slug. -/
def refused (sourceId reasonCode detail : String) : NormalizeError :=
  invalid sourceId adapterSlug reasonCode detail

def quarantined {α : Type} (sourceId : String) (x : Except TextReject α) :
    Except NormalizeError α := x.mapError (quarantineError sourceId adapterSlug)

/-- The identifier, where there is one that is not blank. -/
def identityOf (frame : UsvTelemetryFrame) : Option String :=
  (frame.vehicleId.map fun s => String.ofList (trim s.toList)).filter (· ≠ "")

def required {α : Type} (sourceId name : String) (field : Option α) : Except NormalizeError α :=
  match field with
  | some v => .ok v
  | none => .error (refused sourceId "required-field-missing" ("missing-field:" ++ name))

def inRange (bound : ℚ) (v : F64) : Bool :=
  v.isFinite && F64.within (.ofRat (-bound)) (.ofRat bound) v

def checkRange (sourceId name : String) (bound : ℚ) (v : F64) : Except NormalizeError Unit :=
  if !inRange bound v then
    .error (refused sourceId "position-out-of-range" (name ++ "-out-of-range:" ++ v.toText))
  else .ok ()

def checkFix (sourceId : String) (gnssFix : Option Int64) : Except NormalizeError Unit :=
  if gnssFix = some 0 then .error (refused sourceId "gnss-fix-invalid" "gnss_fix:0") else .ok ()

/-! ## 4. Positions -/

/-- The note of a field that is there. -/
def noteOf {α : Type} (name : String) (display : α → String) (field : Option α) :
    List QualityNote :=
  (field.map fun v => .neutral (name ++ ":" ++ display v)).toList

def notesOf (frame : UsvTelemetryFrame) : List QualityNote :=
  [match frame.gnssFix with
    | some fix => .neutral ("gnss_fix:" ++ toString fix)
    | none => .neutral "gnss_fix:absent-assumed-1",
    if frame.altM.isSome then .neutral "alt-ref:MSL-assumed"
    else .degraded "alt_m field absent" "field-missing:alt",
    match frame.headingDeg with
    | some hd => .neutral ("heading_deg:" ++ hd.toText)
    | none => .degraded "heading_deg field absent" "field-missing:heading"] ++
  noteOf "sog_knots" F32.toText frame.sogKnots ++
  noteOf "depth_m" F32.toText frame.depthM ++
  noteOf "battery_pct" toString frame.batteryPct ++
  noteOf "source-app" id frame.sourceApp ++
  (frame.extra.map fun key => .neutral ("unknown-field:" ++ key)) ++
  [(interpretTimestamp frame.timestamp).note, .neutral "confidence:adapter-assigned"]

def qualityOf (sourceId : String) (frame : UsvTelemetryFrame) : ObservationQuality where
  sourceId := sourceId
  adapterSlug := adapterSlug
  timeConfidence := (interpretTimestamp frame.timestamp).timeConfidence
  notes := notesOf frame

/-- The vessel under the name of its source. -/
def platformId (raw : RawObservation) (vehicleId : String) : String :=
  raw.sourceId ++ "/" ++ vehicleId

/-- The envelope of a position before it is sealed. -/
def envelopeOf (raw : RawObservation) (frame : UsvTelemetryFrame) (vehicleId : String)
    (lat lon : F64) : EvidenceEnvelope where
  observation := .platformState
    { platformId := platformId raw vehicleId
      position := some { latDeg := lat, lonDeg := lon, altM := frame.altM }
      mode := frame.mode
      timestamps :=
        { observedAt := (interpretTimestamp frame.timestamp).observedAt
          receivedAt := raw.receivedAt
          timeConfidence := (interpretTimestamp frame.timestamp).timeConfidence }
      platformDomain := .surface }
  claim :=
    { claimId := platformId raw vehicleId ++ ":usv-telemetry-json"
      confidence := .ofRat (6 / 10)
      mark := deriveMark (qualityOf raw.sourceId frame)
      confidenceBasis := some .adapterAssigned }
  classification := none
  signature := none
  contentDigest := none
  signerId := none
  signedAt := none
  revocationProof := none
  trustAnnotations := none

/-! ## 5. `normalize` -/

/-- The checks of the bytes, before they are parsed. -/
def checkBytes (payload : List UInt8) : Except TextReject Unit := do
  payloadSize payload maxJsonPayloadBytes
  jsonNesting payload maxJsonNestingDepth

/-- What a frame is asked for: its identifier and its position. -/
def checkFrame (sourceId : String) (frame : UsvTelemetryFrame) :
    Except NormalizeError (String × F64 × F64) := do
  let vehicleId ← required sourceId "vehicle_id" (identityOf frame)
  quarantined sourceId (quarantineStrField "vehicle_id" vehicleId maxStrFieldBytes)
  let lat ← required sourceId "lat" frame.lat
  let lon ← required sourceId "lon" frame.lon
  checkRange sourceId "lat" 90 lat
  checkRange sourceId "lon" 180 lon
  checkFix sourceId frame.gnssFix
  match frame.mode with
  | some mode => quarantined sourceId (quarantineStrField "mode" mode maxStrFieldBytes)
  | none => .ok ()
  return (vehicleId, lat, lon)

variable (fromSlice : List UInt8 → Except String UsvTelemetryFrame)
  (sha256 : List UInt8 → Digest)

/-- `UsvNormalizer::normalize`.  The notes are made between the checks, and fail none. -/
def normalize (raw : RawObservation) : Except NormalizeError EvidenceEnvelope := do
  quarantined raw.sourceId (checkBytes raw.payload)
  let frame ← (fromSlice raw.payload).mapError fun e =>
    refused raw.sourceId "json-malformed" ("json-error:" ++ e)
  let (vehicleId, lat, lon) ← checkFrame raw.sourceId frame
  return sealDigest sha256 (envelopeOf raw frame vehicleId lat lon)

/-- A fix of another quality is no reason to refuse a frame, a blank identifier is. -/
example : (checkFrame "tap"
      { vehicleId := some " usv-1 ", lat := some (.ofRat 35), lon := some (.ofRat 139),
        gnssFix := some 4 }).toOption = some ("usv-1", .ofRat 35, .ofRat 139) ∧
    checkFrame "tap" { vehicleId := some " " } =
      .error (refused "tap" "required-field-missing" "missing-field:vehicle_id") := by
  decide +kernel

end Musubi.UsvJson
