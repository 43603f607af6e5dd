/-
# CSV sinks

`reference-fanout/src/csvsink.rs`: a sink with a column for every part of the mark, which takes
the other columns from the step, and a sink with columns for the position only.

The second one cannot carry the mark, and the fan-out withholds from it what a sink must not show
without its mark; the two sinks are the two cases of that decision.  Cells are quoted by the
writer of the library where a comma, a quote or a line break asks for it.
-/
import Musubi.Fanout.Step
import Musubi.Lib.Csv
import Musubi.Northbound.CotPublisher
import Musubi.Pipeline.Timefmt

namespace Musubi.Fanout

open Lib Northbound Pipeline

/-! ## 1. Cells -/

def dialectCsv : String := "generic-csv"

def dialectLegacy : String := "legacy-position-csv"

def digestPrefix : String := "sha256:"

/-- Quoted only when it has to be. -/
def cell (s : String) : String :=
  if s.toList.any (· ∈ [',', '"', '\n', '\r']) then
    "\"" ++ String.ofList (s.toList.flatMap fun c => if c = '"' then ['"', '"'] else [c]) ++ "\""
  else s

def cellQuotes (s : List Char) : Bool := s.any (· ∈ [',', '"', '\n', '\r'])

/-- Without an exponent, and empty when it is not a number. -/
def num (v : F64) : String :=
  if !v.isFinite then ""
  else
    let t := trimZeros (fixedPoint binary64 7 v.bits.toNat)
    String.ofList (if t.getLast? = some '.' then t ++ ['0'] else t)

/-- `{:.2}` of an `f32`. -/
def twoDecimals (v : F32) : String :=
  if v.isFinite then String.ofList (fixedPoint binary32 2 v.bits.toNat)
  else if v.isNan then "NaN"
  else if binary32.signBit ≤ v.bits.toNat then "-inf" else "inf"

/-- `mark_label` of the exports. -/
def markLabel : MarkStatus → String
  | .ok => "ok"
  | .degraded => "degraded"
  | .invalid => "invalid"
  | .orderUnknown => "order_unknown"
  | .withheld => "withheld"
  | .staleRevocation => "stale_revocation"
  | .selfAssertedTime => "self_asserted_time"
  | .bufferSaturated => "buffer_saturated"

def digestCell (step : DemoStep) : String :=
  let d := step.digest8
  if d = "-" then d else digestPrefix ++ d

/-- A line of a file. -/
def csvLine (cells : List String) : List UInt8 := textBytes (join "," cells ++ "\n").toList

/-! ## 2. The sinks -/

/-- The position that both sinks ask for. -/
def csvPosition (dialect columns : String) (envelope : EvidenceEnvelope) :
    Except PublishError (PlatformState × Position) :=
  match envelope.observation with
  | .hostStateObservation _ =>
    .error ⟨dialect, "unsupported host-state observation in " ++ columns ++ " CSV"⟩
  | .platformState ps =>
    match ps.position with
    | none => .error ⟨dialect, "missing position (lat/lon columns are required)"⟩
    | some pos => .ok (ps, pos)

/-- `Display` of an `i64`. -/
def decimalInt (v : Int64) : String := toString v.toInt

def eventCsvPublish (step : DemoStep) (envelope : EvidenceEnvelope) :
    Except PublishError (List UInt8) := do
  let (_, pos) ← csvPosition dialectCsv "position" envelope
  let mark := envelope.claim.mark
  return csvLine
    [step.seq.repr, step.kind.asStr, cell step.assetId, cell step.markerId,
      isoUtcMs step.atWallMs, decimalInt step.atWallMs, num pos.latDeg, num pos.lonDeg,
      (pos.altM.map num).getD "", markLabel mark.status, cell mark.reasonCode,
      twoDecimals envelope.claim.confidence,
      String.ofList (fmtBasis envelope.claim.confidenceBasis), cell (join "|" mark.provenance),
      digestCell step, cell step.headline]

/-- The mark has columns of its own: nothing is annotated. -/
def eventCsvPublisher (step : DemoStep) : NorthboundPublisher where
  dialect := dialectCsv
  capability := ⟨true, true, false⟩
  publish := eventCsvPublish step

def legacyPositionCsvPublish (envelope : EvidenceEnvelope) :
    Except PublishError (List UInt8) := do
  let (ps, pos) ← csvPosition dialectLegacy "legacy position" envelope
  return csvLine
    [cell ps.platformId, isoUtcMs (effectiveTimeMs ps.timestamps), num pos.latDeg,
      num pos.lonDeg]

def legacyPositionCsvPublisher : NorthboundPublisher where
  dialect := dialectLegacy
  capability := .positionOnly
  publish := legacyPositionCsvPublish

end Musubi.Fanout
