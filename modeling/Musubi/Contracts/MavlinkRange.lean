/-
# Distances from MAVLink frames

`field-contracts/src/mavlink_range.rs`: one unsigned `DISTANCE_SENSOR` frame becomes an
observation.  The crate shares nothing with the other readers of MAVLink: it takes the frame apart
by its own offsets, and it computes the checksum in a loop of its own, on 16-bit words.

That this loop computes the checksum of the others is a result of `Writers.Mavlink`; here it is
written down as it stands.  A payload may have lost its trailing zeros on the way, and gets them
back before its fields are read.
-/
import Musubi.Contracts.Records
import Musubi.Lib.Checked

namespace Musubi.Contracts

open Lib Lib.Checked Musubi.Core Northbound.WirePolicy

/-! ## 1. The checksum -/

def distanceCrcStep (crc : UInt16) (byte : UInt8) : UInt16 :=
  let tmp := byte.toUInt16 ^^^ (crc &&& 0xFF)
  let tmp := tmp ^^^ ((tmp <<< 4) &&& 0xFF)
  (crc >>> 8) ^^^ (tmp <<< 8) ^^^ (tmp <<< 3) ^^^ (tmp >>> 4)

def distanceCrc (bytes : List UInt8) (crc : UInt16) : UInt16 := bytes.foldl distanceCrcStep crc

/-- What the definition of `DISTANCE_SENSOR` adds to the bytes that are checked. -/
def distanceCrcExtra : UInt8 := 85

def checkDistanceCrc (frame : List UInt8) (len : ℕ) : Checked String Unit := do
  let covered ← slice frame 1 (10 + len)
  let low ← index frame (10 + len)
  let high ← index frame (11 + len)
  if distanceCrc (covered ++ [distanceCrcExtra]) 0xFFFF ≠ UInt16.ofNat (ofLeBytes [low, high]) then
    fail "DISTANCE_SENSOR CRC mismatch"
  else return ()

/-! ## 2. The observation -/

/-- A number of two bytes of the payload. -/
def payloadU16 (payload : List UInt8) (off : ℕ) : UInt16 :=
  .ofNat (ofLeBytes [payload.getD off 0, payload.getD (off + 1) 0])

/-- Declared order. -/
def QualityFlagV1.le (a b : QualityFlagV1) : Prop := a.ctorIdx ≤ b.ctorIdx

instance : DecidableRel QualityFlagV1.le := fun _ _ => inferInstanceAs (Decidable (_ ≤ _))

variable (sha256 : List UInt8 → Digest)

/-- The observation of a payload, which has zeros up to its full length. -/
def distanceObservation (frame : List UInt8) (sourceId : String) (sysid compid : UInt8)
    (payload : List UInt8) : Checked String ObservationExtensionV1 :=
  let minimum := payloadU16 payload 4
  let maximum := payloadU16 payload 6
  let current := payloadU16 payload 8
  let signalQuality := payload.getD 38 0
  if maximum < minimum ∨ maximum = 0 ∨ 100 < signalQuality then
    fail "invalid range bounds or signal quality"
  else
    let measured := signalQuality ≠ 1
    let outside := measured ∧ (current < minimum ∨ maximum < current)
    let status := if ¬ measured then .bad else if signalQuality = 0 then .unknown else .suspect
    let flags := [QualityFlagV1.calibrationUnknown] ++ if outside then [.outOfDeclaredRange] else []
    let observation : ObservationExtensionV1 := {
      schemaVersion := "1"
      namespace_ := "mavlink"
      semanticId := "distance_sensor.current_distance"
      semanticVersion := "1"
      eventTimeNs := .ofNat (ofLeBytes (payload.take 4) * 1000000)
      clockBasis := .bootRelative
      source := {
        sourceId := sourceId ++ "/sys-" ++ sysid.toNat.repr ++ "/comp-" ++ compid.toNat.repr
        sensorLocation := "rangefinder-" ++ (payload.getD 11 0).toNat.repr ++ "/orientation-" ++
          (payload.getD 12 0).toNat.repr ++ "/type-" ++ (payload.getD 10 0).toNat.repr }
      observationKind := .raw
      valueKind := .u64
      value := if measured then some (.u64 current.toUInt64) else none
      missing := if measured then none else some .sensorUnavailable
      unit := some "cm"
      resolution := some (.ofRat 1)
      validRange := some { minimum := .ofInt minimum.toNat, maximum := .ofInt maximum.toNat }
      quality := {
        status := if outside then .suspect else status
        score := none
        flags := flags.insertionSort QualityFlagV1.le }
      rawArtifacts := [{
        digest := .sha256 sha256 frame
        mediaType := "application/vnd.mavlink"
        role := .rawInput }]
      transformer := none }
    match observation.validate with
    | .ok () => return observation
    | .error e => fail e.display

/-- The observation of a frame whose checksum is right. -/
def distanceOfFrame (frame : List UInt8) (sourceId : String) (len : ℕ) :
    Checked String ObservationExtensionV1 := do
  let received ← slice frame 10 (10 + len)
  let payload ← copyFront (List.replicate 39 0) received
  let sysid ← index frame 5
  let compid ← index frame 6
  distanceObservation sha256 frame sourceId sysid compid payload

def decodeMavlinkDistance (frame : List UInt8) (sourceId : String) :
    Checked String (Option ObservationExtensionV1) :=
  if trim sourceId.toList = [] then fail "source_id is required"
  else if frame.length < 12 then fail "expected unsigned MAVLink2 frame with supported flags"
  else do
    let magic ← index frame 0
    let incompatFlags ← index frame 2
    let len ← index frame 1
    let msgid ← slice frame 7 10
    if magic ≠ 0xFD ∨ incompatFlags ≠ 0 then
      fail "expected unsigned MAVLink2 frame with supported flags"
    else if len = 0 ∨ frame.length ≠ len.toNat + 12 then
      fail "ambiguous or truncated MAVLink2 frame length"
    else if msgid ≠ [132, 0, 0] then return none
    else if 39 < len.toNat then fail "DISTANCE_SENSOR payload exceeds 39 bytes"
    else do
      checkDistanceCrc frame len.toNat
      let observation ← distanceOfFrame sha256 frame sourceId len.toNat
      return some observation

end Musubi.Contracts
