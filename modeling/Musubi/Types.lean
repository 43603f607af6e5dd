/-
# The common object model and the evidence envelope

The data of `musubi-types`: observations, marks, claims and the envelope that binds them.  Nothing
here acts on anything; the crates above read and fill these fields.

`F64` and `F32` are the BIT PATTERNS of their IEEE 754 encodings, and equality on them is bit
equality.  The canonical form of an envelope writes these bits, so two envelopes that differ in
the sign of a zero or in the payload of a NaN are different contents; where a crate compares
NUMBERS, it uses the operations of `Floats`.  Integers have the widths of the source.

An envelope has fields that are reserved, the signature and what follows it.  They are data like
the others and stay out of the canonical form (`Core.Canonical`).
-/
import Mathlib.Data.String.Basic
import Musubi.Lib.BTreeMap

namespace Musubi

open Lib (BTreeMap)

/-! ## 1. Floating point as bits -/

/-- An `f64`, as the 64 bits of its IEEE 754 encoding. -/
structure F64 where
  bits : UInt64
deriving DecidableEq, Repr

/-- An `f32`, as the 32 bits of its IEEE 754 encoding. -/
structure F32 where
  bits : UInt32
deriving DecidableEq, Repr

/-- `is_nan`: the exponent is all ones and the fraction is not zero. -/
def F64.isNan (v : F64) : Bool := 0x7FF0000000000000 < (v.bits &&& 0x7FFFFFFFFFFFFFFF)

/-- `is_nan`, single precision. -/
def F32.isNan (v : F32) : Bool := 0x7F800000 < (v.bits &&& 0x7FFFFFFF)

/-! ## 2. Observations (`com.rs`) -/

/-- Observation time (epoch microseconds, may be absent) and reception time (epoch
milliseconds), with the confidence in the former. -/
structure Timestamps where
  observedAt : Option Int64
  receivedAt : Int64
  timeConfidence : F32
deriving DecidableEq

structure Position where
  latDeg : F64
  lonDeg : F64
  altM : Option F64
deriving DecidableEq

inductive PlatformDomain
  | air
  | surface
  | ground
  | subsurface
  | unknown
deriving DecidableEq, Repr

structure PlatformState where
  platformId : String
  position : Option Position
  mode : Option String
  timestamps : Timestamps
  platformDomain : PlatformDomain
deriving DecidableEq

structure HostStateCounter where
  raw : UInt64
  delta : Option UInt64
deriving DecidableEq

structure HostStateOsIdentity where
  id : Option String
  versionId : Option String
deriving DecidableEq

structure HostStateLoad where
  oneMin : Option F64
  fiveMin : Option F64
  fifteenMin : Option F64
deriving DecidableEq

structure HostStateMemory where
  memTotal : Option UInt64
  memAvailable : Option UInt64
  swapTotal : Option UInt64
  swapFree : Option UInt64
deriving DecidableEq

structure HostStateHost where
  os : HostStateOsIdentity
  kernelRelease : Option String
  model : Option String
  uptimeSeconds : Option F64
  load : HostStateLoad
  memoryKib : HostStateMemory
  cpuTotalTicks : BTreeMap String HostStateCounter
deriving DecidableEq

structure HostStateNetworkInterface where
  ifindex : Option UInt32
  operstate : Option String
  carrier : Option Bool
  mtu : Option UInt32
  counters : BTreeMap String HostStateCounter
deriving DecidableEq

structure HostStateObservation where
  sourceContractId : String
  hostId : String
  sequence : UInt64
  timestamps : Timestamps
  host : HostStateHost
  network : BTreeMap String HostStateNetworkInterface
deriving DecidableEq

/-! ## 3. Marks and envelopes (`mark.rs`, `evidence.rs`) -/

inductive MarkStatus
  | ok
  | degraded
  | invalid
  | orderUnknown
  | withheld
  | staleRevocation
  | selfAssertedTime
  | bufferSaturated
deriving DecidableEq, Repr

structure Mark where
  status : MarkStatus
  reasonCode : String
  provenance : List String
deriving DecidableEq, Repr

inductive ConfidenceBasis
  | adapterAssigned
  | measured (calibrationId : Option String)
deriving DecidableEq, Repr

structure Claim where
  claimId : String
  confidence : F32
  mark : Mark
  confidenceBasis : Option ConfidenceBasis
deriving DecidableEq

inductive ComObject
  | platformState (ps : PlatformState)
  | hostStateObservation (observation : HostStateObservation)
deriving DecidableEq

/-- A 32-byte digest. -/
abbrev Digest := Vector UInt8 32

/-- An observation bound to the claim about it, with the digest and the reserved fields the
canonical form leaves out (`signature` and everything after `contentDigest`). -/
structure EvidenceEnvelope where
  observation : ComObject
  claim : Claim
  classification : Option String
  signature : Option (List UInt8)
  contentDigest : Option Digest
  signerId : Option String
  signedAt : Option Int64
  revocationProof : Option (List UInt8)
  trustAnnotations : Option (List UInt8)
deriving DecidableEq

end Musubi
