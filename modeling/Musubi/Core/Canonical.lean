/-
# Canonical bytes, the content digest and its check

`lib.rs`: the `push_*` helpers, `canonical_bytes`, `seal_digest` and `verify_digest`.  A `Vec<u8>`
under construction is the list of the bytes pushed so far, and every helper takes the buffer and
returns it longer, as in the source.

The format has no separators.  An option begins with a byte that says whether there is a value, a
string, a list and a map begin with their length in four bytes, a variant begins with its tag, and
a number has its width; integers are little-endian.  A float is written by its bits, but for a
NaN, of which there are many and which is written as one of them.  A length beyond what four bytes
hold is written as the largest that they do hold (`u32Saturating`), and this is where the format
can fail to tell two contents apart.

SHA-256 is the `sha2` crate's and enters as the parameter `sha256`; the examples take the one of
`Lib.Sha256`.
-/
import Musubi.Lib.Bytes
import Musubi.Lib.Sha256
import Musubi.Types

namespace Musubi.Core

open Lib

/-! ## 1. Scalars -/

def markStatusTag : MarkStatus → UInt8
  | .ok => 0x00
  | .degraded => 0x01
  | .invalid => 0x02
  | .orderUnknown => 0x03
  | .withheld => 0x04
  | .staleRevocation => 0x05
  | .selfAssertedTime => 0x06
  | .bufferSaturated => 0x07

/-- Every NaN folds to one bit pattern; every other value is its own bits. -/
def f64CanonBits (v : F64) : UInt64 := if v.isNan then 0x7FF8000000000000 else v.bits

def f32CanonBits (v : F32) : UInt32 := if v.isNan then 0x7FC00000 else v.bits

/-- `u32::try_from(len).unwrap_or(u32::MAX)`. -/
def u32Saturating (len : ℕ) : ℕ := if len < 2 ^ 32 then len else 2 ^ 32 - 1

/-- `buf.extend_from_slice(&v.to_le_bytes())` for the integer types the format uses. -/
def extendU32 (buf : List UInt8) (v : UInt32) : List UInt8 := buf ++ leBytes 4 v.toNat

def extendU64 (buf : List UInt8) (v : UInt64) : List UInt8 := buf ++ leBytes 8 v.toNat

def extendI64 (buf : List UInt8) (v : Int64) : List UInt8 := extendU64 buf v.toUInt64

def extendF64 (buf : List UInt8) (v : F64) : List UInt8 := extendU64 buf (f64CanonBits v)

def extendF32 (buf : List UInt8) (v : F32) : List UInt8 := extendU32 buf (f32CanonBits v)

/-- The length prefix of a string, a list or a map. -/
def extendLen (buf : List UInt8) (len : ℕ) : List UInt8 := buf ++ leBytes 4 (u32Saturating len)

/-- `as_bytes`. -/
def utf8 (s : String) : List UInt8 := s.toByteArray.data.toList

def pushStr (buf : List UInt8) (s : String) : List UInt8 :=
  extendLen buf (utf8 s).length ++ utf8 s

/-! ## 2. Options

The six presence-tagged helpers are one helper at six payloads. -/

/-- `0x00` for `None`, `0x01` and the payload for `Some`. -/
def pushOpt {α : Type} (push : List UInt8 → α → List UInt8) (buf : List UInt8) :
    Option α → List UInt8
  | none => buf ++ [0x00]
  | some x => push (buf ++ [0x01]) x

def pushOptI64 : List UInt8 → Option Int64 → List UInt8 := pushOpt extendI64

def pushOptF64 : List UInt8 → Option F64 → List UInt8 := pushOpt extendF64

def pushOptStr : List UInt8 → Option String → List UInt8 := pushOpt pushStr

def pushOptU64 : List UInt8 → Option UInt64 → List UInt8 := pushOpt extendU64

def pushOptU32 : List UInt8 → Option UInt32 → List UInt8 := pushOpt extendU32

def pushOptBool : List UInt8 → Option Bool → List UInt8 :=
  pushOpt fun buf b => buf ++ [if b then 0x01 else 0x00]

/-! ## 3. Observations -/

def pushPosition (buf : List UInt8) (p : Position) : List UInt8 :=
  let buf := extendF64 buf p.latDeg
  let buf := extendF64 buf p.lonDeg
  pushOptF64 buf p.altM

def pushTimestamps (buf : List UInt8) (t : Timestamps) : List UInt8 :=
  let buf := pushOptI64 buf t.observedAt
  let buf := extendI64 buf t.receivedAt
  extendF32 buf t.timeConfidence

def platformDomainTag : PlatformDomain → UInt8
  | .air => 0x00
  | .surface => 0x01
  | .ground => 0x02
  | .unknown => 0x03
  | .subsurface => 0x04

def pushPlatformDomain (buf : List UInt8) (domain : PlatformDomain) : List UInt8 :=
  buf ++ [platformDomainTag domain]

def pushHostCounter (buf : List UInt8) (counter : HostStateCounter) : List UInt8 :=
  let buf := extendU64 buf counter.raw
  pushOptU64 buf counter.delta

/-- A count, then the entries in key order, each as its key and its value. -/
def pushEntries {α : Type} (push : List UInt8 → α → List UInt8) (buf : List UInt8)
    (m : BTreeMap String α) : List UInt8 :=
  m.entries.foldl (fun buf e => push (pushStr buf e.1) e.2) (extendLen buf m.entries.length)

def pushHostCounters : List UInt8 → BTreeMap String HostStateCounter → List UInt8 :=
  pushEntries pushHostCounter

def pushHostNetworkInterface (buf : List UInt8) (interface : HostStateNetworkInterface) :
    List UInt8 :=
  let buf := pushOptU32 buf interface.ifindex
  let buf := pushOptStr buf interface.operstate
  let buf := pushOptBool buf interface.carrier
  let buf := pushOptU32 buf interface.mtu
  pushHostCounters buf interface.counters

def pushHostStateObservation (buf : List UInt8) (observation : HostStateObservation) :
    List UInt8 :=
  let buf := pushStr buf observation.sourceContractId
  let buf := pushStr buf observation.hostId
  let buf := extendU64 buf observation.sequence
  let buf := pushTimestamps buf observation.timestamps
  let buf := pushOptStr buf observation.host.os.id
  let buf := pushOptStr buf observation.host.os.versionId
  let buf := pushOptStr buf observation.host.kernelRelease
  let buf := pushOptStr buf observation.host.model
  let buf := pushOptF64 buf observation.host.uptimeSeconds
  let buf := pushOptF64 buf observation.host.load.oneMin
  let buf := pushOptF64 buf observation.host.load.fiveMin
  let buf := pushOptF64 buf observation.host.load.fifteenMin
  let buf := pushOptU64 buf observation.host.memoryKib.memTotal
  let buf := pushOptU64 buf observation.host.memoryKib.memAvailable
  let buf := pushOptU64 buf observation.host.memoryKib.swapTotal
  let buf := pushOptU64 buf observation.host.memoryKib.swapFree
  let buf := pushHostCounters buf observation.host.cpuTotalTicks
  pushEntries pushHostNetworkInterface buf observation.network

def pushPlatformState (buf : List UInt8) (ps : PlatformState) : List UInt8 :=
  let buf := pushStr buf ps.platformId
  let buf := pushOpt pushPosition buf ps.position
  let buf := pushOptStr buf ps.mode
  let buf := pushTimestamps buf ps.timestamps
  pushPlatformDomain buf ps.platformDomain

/-- A variant tag, then the variant. -/
def pushComObject (buf : List UInt8) : ComObject → List UInt8
  | .platformState ps => pushPlatformState (buf ++ [0x00]) ps
  | .hostStateObservation observation => pushHostStateObservation (buf ++ [0x01]) observation

/-! ## 4. Claims and envelopes -/

def pushConfidenceBasis (buf : List UInt8) : ConfidenceBasis → List UInt8
  | .adapterAssigned => buf ++ [0x00]
  | .measured calibrationId => pushOptStr (buf ++ [0x01]) calibrationId

def pushOptConfidenceBasis : List UInt8 → Option ConfidenceBasis → List UInt8 :=
  pushOpt pushConfidenceBasis

def pushClaim (buf : List UInt8) (c : Claim) : List UInt8 :=
  let buf := pushStr buf c.claimId
  let buf := extendF32 buf c.confidence
  let buf := buf ++ [markStatusTag c.mark.status]
  let buf := pushStr buf c.mark.reasonCode
  let buf := c.mark.provenance.foldl pushStr (extendLen buf c.mark.provenance.length)
  pushOptConfidenceBasis buf c.confidenceBasis

/-- The canonical form covers the observation, the claim and the classification, in this
order.  The digest itself and the reserved signature fields are not visited. -/
def canonicalBytes (envelope : EvidenceEnvelope) : List UInt8 :=
  let buf := pushComObject [] envelope.observation
  let buf := pushClaim buf envelope.claim
  pushOptStr buf envelope.classification

/-! ## 5. Sealing and checking -/

variable (sha256 : List UInt8 → Digest)

def sealDigest (envelope : EvidenceEnvelope) : EvidenceEnvelope :=
  { envelope with contentDigest := some (sha256 (canonicalBytes envelope)) }

def verifyDigest (envelope : EvidenceEnvelope) : Mark :=
  let provenance := ["claim:" ++ envelope.claim.claimId, "check:content-digest-recompute"]
  match envelope.contentDigest with
  | none =>
    { status := .invalid, reasonCode := "digest-absent", provenance := provenance }
  | some stored =>
    if sha256 (canonicalBytes envelope) = stored then
      { status := .ok, reasonCode := "digest-verified", provenance := provenance }
    else
      { status := .invalid, reasonCode := "meta-tamper-detected", provenance := provenance }

/-! ## 6. The pinned sample -/

/-- The envelope whose digest the repository pins. -/
def goldenSample : EvidenceEnvelope :=
  { observation := .platformState
      { platformId := "musubi-usv-001"
        position := some
          { latDeg := ⟨0x3F0A36E2EB1C432D⟩
            lonDeg := ⟨0x4061788C49BA5E35⟩
            altM := some ⟨0x4025000000000000⟩ }
        mode := none
        timestamps := { observedAt := none, receivedAt := 0, timeConfidence := ⟨0x3E4CCCCD⟩ }
        platformDomain := .unknown }
    claim :=
      { claimId := "c-1"
        confidence := ⟨0x3F19999A⟩
        mark := { status := .ok, reasonCode := "normalized", provenance := ["source:x"] }
        confidenceBasis := some .adapterAssigned }
    classification := none
    signature := none
    contentDigest := none
    signerId := none
    signedAt := none
    revocationProof := none
    trustAnnotations := none }

/-- The digest the repository pins for the sample. -/
example : ((sealDigest Sha256.hash goldenSample).contentDigest.map Vector.toList) =
    some (beBytes 32 0x6ee7578020e523cbee00105dd0b459237af7eecdb2645e2279fd5e4b7f137227) := by
  decide +kernel

end Musubi.Core
