/-
# Northbound publishers

`northbound/src/lib.rs`: what a publisher declares about itself, what its one operation returns,
and the short texts a mark is summarised by.  A publisher is whatever implements the trait, so its
`publish` is an arbitrary function of the envelope.

A capability says which parts of a mark a dialect carries.  That a sink does what it declares is
not something the fan-out can see; it decides by the declaration alone.
-/
import Musubi.Types

namespace Musubi.Northbound

structure PublishError where
  dialect : String
  reason : String
deriving DecidableEq, Repr

structure DialectCapability where
  carriesPosition : Bool
  carriesMarkStatus : Bool
  markViaNativeAnnotation : Bool
deriving DecidableEq, Repr

/-- A sink that carries the position and nothing of the mark. -/
def DialectCapability.positionOnly : DialectCapability where
  carriesPosition := true
  carriesMarkStatus := false
  markViaNativeAnnotation := false

/-- The trait `NorthboundPublisher`. -/
structure NorthboundPublisher where
  dialect : String
  capability : DialectCapability
  publish : EvidenceEnvelope → Except PublishError (List UInt8)

def markStatusLabel : MarkStatus → String
  | .ok => "OK"
  | .degraded => "DEGRADED"
  | .invalid => "INVALID"
  | .orderUnknown => "ORDER_UNKNOWN"
  | .withheld => "WITHHELD"
  | .staleRevocation => "STALE_REVOCATION"
  | .selfAssertedTime => "SELF_ASSERTED_TIME"
  | .bufferSaturated => "BUFFER_SATURATED"

def markSummary (mark : Mark) : String :=
  if mark.reasonCode.isEmpty then markStatusLabel mark.status
  else markStatusLabel mark.status ++ ":" ++ mark.reasonCode

end Musubi.Northbound
