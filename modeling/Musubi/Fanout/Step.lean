/-
# Steps of a fan-out

`reference-fanout/src/lib.rs`: one marker to be shown, with the sealed envelope that every sink
gets and the fields that are not part of it.

An observation that is repeated for the freshness of a display is a step like a marker.  The three
kinds are shown in a fixed order where times agree, which is why the kind is part of the key that
the steps are sorted by.
-/
import Musubi.Lib.Text
import Musubi.Reference.Types

namespace Musubi.Fanout

open Lib Reference

/-- In the order in which steps of one asset and time are shown. -/
inductive StepKind
  | observation
  | absence
  | cause
deriving DecidableEq, Repr

def StepKind.asStr : StepKind → String
  | .observation => "observation"
  | .absence => "absence"
  | .cause => "cause"

structure DemoStep where
  seq : ℕ
  kind : StepKind
  assetId : String
  family : Family
  atWallMs : Int64
  observedAtWallMs : Int64
  expectedCadenceMs : Int64
  selfAssertedTime : Bool
  markerId : String
  lineageGroupId : String
  distinctRenderSlot : ℕ
  headline : String
  envelope : EvidenceEnvelope
deriving DecidableEq

/-- The first four bytes of a digest. -/
def hex8 (digest : Digest) : String := hexLower (digest.toList.take 4)

def DemoStep.digest8 (step : DemoStep) : String := (step.envelope.contentDigest.map hex8).getD "-"

end Musubi.Fanout
