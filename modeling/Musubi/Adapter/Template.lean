/-
# The adapter template

`adapter-spi/src/template.rs`: a line of text with up to five columns becomes a sealed position or
an error.  It is the example that new adapters are copied from, so its steps stand in the order in
which an adapter is to take them: size, text, columns, numbers, range, time, seal.

A column that cannot be read is quoted in the error, with `{:?}`; the table of the characters that
this prints as they stand is a parameter.  A time that is missing or cannot be read is no error.
The envelope then has no observation time, and a note that says so.
-/
import Musubi.Adapter.Spi
import Musubi.Core.Canonical
import Musubi.FloatDisplay
import Musubi.Lib.DebugText

namespace Musubi.Adapter.Template

open Lib Musubi.Core Northbound.WirePolicy

/-! ## 1. The wire -/

def adapterSlug : String := "my-device-text/v1"

def maxWireLineBytes : ℕ := 1024

def timeConfEpochSec : F32 := .ofRat (75 / 100)

def timeConfAbsent : F32 := .ofRat (2 / 10)

def microsPerSec : ℤ := 1000000

def absentToken : String := "-"

structure RawObs where
  lat : F64
  lon : F64
  altM : Option F64
  headingDeg : Option F64
  tsEpochS : Option F64
deriving DecidableEq

structure ParseErr where
  code : String
  detail : String
deriving DecidableEq, Repr

/-- The columns: what white space and commas leave. -/
def columnsOf (wire : String) : List String :=
  ((wire.toList.splitOnP fun c => isWhitespace c || c = ',').map String.ofList).filter (· ≠ "")

variable (printed : Char → Bool)

def parseRequired (tok name : String) : Except ParseErr F64 :=
  match F64.parse tok with
  | none => .error ⟨"field-unparseable", name ++ "=" ++ debugText printed tok⟩
  | some v =>
    if v.isFinite then .ok v
    else .error ⟨"field-unparseable", name ++ "-not-finite:" ++ debugText printed tok⟩

def parseOptional (tok : Option String) (name : String) : Except ParseErr (Option F64) :=
  match tok with
  | none => .ok none
  | some tok =>
    if tok = absentToken then .ok none
    else match F64.parse tok with
      | none => .error ⟨"field-unparseable", name ++ "=" ++ debugText printed tok⟩
      | some v =>
        if v.isFinite then .ok (some v)
        else .error ⟨"field-unparseable", name ++ "-not-finite:" ++ debugText printed tok⟩

def parseMyDevice (wire : String) : Except ParseErr RawObs :=
  match columnsOf wire with
  | latTok :: lonTok :: optional => do
    let lat ← parseRequired printed latTok "lat"
    let lon ← parseRequired printed lonTok "lon"
    let altM ← parseOptional printed optional[0]? "alt"
    let headingDeg ← parseOptional printed optional[1]? "heading"
    let tsEpochS ← parseOptional printed optional[2]? "ts"
    return { lat, lon, altM, headingDeg, tsEpochS }
  | few =>
    .error ⟨"wire-malformed", "expected at least 2 fields (lat lon), got " ++ few.length.repr⟩

/-! ## 2. Positions -/

/-- The time, how far it is trusted, and a note about it. -/
def interpretTimestamp (tsEpochS : Option F64) : Option Int64 × F32 × QualityNote :=
  match tsEpochS.filter F64.isFinite with
  | some epoch => (some (epoch.mul (.ofInt microsPerSec)).asI64, timeConfEpochSec,
      .neutral "timestamp-format:epoch-sec")
  | none => (none, timeConfAbsent, .neutral "timestamp:absent")

def notesOf (obs : RawObs) : List QualityNote :=
  [if obs.altM.isSome then .neutral "alt-ref:MSL-assumed"
    else .degraded "alt field absent" "field-missing:alt",
    match obs.headingDeg with
    | some hd => .neutral ("heading_deg:" ++ hd.toText)
    | none => .degraded "heading field absent" "field-missing:heading",
    (interpretTimestamp obs.tsEpochS).2.2,
    .neutral "confidence:adapter-assigned"]

def qualityOf (sourceId : String) (obs : RawObs) : ObservationQuality where
  sourceId := sourceId
  adapterSlug := adapterSlug
  timeConfidence := (interpretTimestamp obs.tsEpochS).2.1
  notes := notesOf obs

/-- The envelope of a position before it is sealed. -/
def envelopeOf (raw : RawObservation) (obs : RawObs) : EvidenceEnvelope where
  observation := .platformState
    { platformId := raw.sourceId
      position := some { latDeg := obs.lat, lonDeg := obs.lon, altM := obs.altM }
      mode := none
      timestamps :=
        { observedAt := (interpretTimestamp obs.tsEpochS).1
          receivedAt := raw.receivedAt
          timeConfidence := (interpretTimestamp obs.tsEpochS).2.1 }
      platformDomain := .unknown }
  claim :=
    { claimId := raw.sourceId ++ ":my-device-text"
      confidence := .ofRat (6 / 10)
      mark := deriveMark (qualityOf raw.sourceId obs)
      confidenceBasis := some .adapterAssigned }
  classification := none
  signature := none
  contentDigest := none
  signerId := none
  signedAt := none
  revocationProof := none
  trustAnnotations := none

/-- A latitude or a longitude off the globe is refused. -/
def checkRange (sourceId name : String) (bound : ℚ) (v : F64) : Except NormalizeError Unit :=
  if !F64.within (.ofRat (-bound)) (.ofRat bound) v then
    .error (invalid sourceId adapterSlug "position-out-of-range"
      (name ++ "-out-of-range:" ++ v.toText))
  else .ok ()

def parseLine (raw : RawObservation) : Except NormalizeError RawObs := do
  (payloadSize raw.payload maxWireLineBytes).mapError (quarantineError raw.sourceId adapterSlug)
  let text ← (fromUtf8 raw.payload).mapError fun e =>
    invalid raw.sourceId adapterSlug "wire-malformed" ("not-utf8:" ++ e.display)
  (parseMyDevice printed text).mapError fun e =>
    invalid raw.sourceId adapterSlug e.code ("parse:" ++ e.detail)

variable (sha256 : List UInt8 → Digest)

/-- `MyDeviceNormalizer::normalize`. -/
def normalize (raw : RawObservation) : Except NormalizeError EvidenceEnvelope := do
  let obs ← parseLine printed raw
  checkRange raw.sourceId "lat" 90 obs.lat
  checkRange raw.sourceId "lon" 180 obs.lon
  return sealDigest sha256 (envelopeOf raw obs)

/-- Commas separate as well, a dash is no number, and a third column that is neither is quoted. -/
example : columnsOf "35.5,, 139.25\t-" = ["35.5", "139.25", "-"] ∧
    parseMyDevice (fun _ => true) "35.5 139.25 - 7" =
      .ok ⟨.ofRat (71 / 2), .ofRat (557 / 4), none, some (.ofRat 7), none⟩ ∧
    parseMyDevice (fun _ => true) "35.5 139.25 high" =
      .error ⟨"field-unparseable", "alt=\"high\""⟩ := by decide +kernel

end Musubi.Adapter.Template
