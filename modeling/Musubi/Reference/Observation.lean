/-
# Observations

`reference-readers/src/lib.rs`: what a reader makes of one record of a log.  An observation has a
time and the clock that the time is of, a channel, the fields of the record with their values, and
the readings of the boot counter and of the host as far as the record tells them.

Two digests are taken of its fields.  `observationDigest` is of the whole: the time, the channel,
and the name and value of every field.  `valueDigest` leaves out the fields that are times or
counters, so that the detector of absences can tell a channel that only repeats its values.  The
bytes that go into the first are a definition of their own here, since what the digests identify
is a statement about those bytes (`Musubi.Reference.Digests`).
-/
import Musubi.Core.Canonical
import Musubi.Floats
import Musubi.Reference.Types

namespace Musubi.Reference

open Lib Musubi.Core

/-! ## 1. Records -/

inductive FieldValue
  | i64 (v : Int64)
  | f64 (v : F64)
  | text (v : String)
  | blank
deriving DecidableEq

abbrev Fields := List (String × FieldValue)

structure Observation where
  tMs : Int64
  clockBasis : ClockBasis
  timeConfidence : F32
  sourceRole : SourceRole
  channel : ChannelId
  fields : Fields
  stale : Bool
  digest : Digest
  tBootUs : Option UInt64
  anchorUnixUs : Option Int64
  wallMs : Option Int64
deriving DecidableEq

def defaultTimeConfidence : ClockBasis → F32
  | .gpsLocked => .ofRat (9 / 10)
  | .rtcSetOnce => .ofRat (6 / 10)
  | .bootRelativeOffsetEstimated => .ofRat (55 / 100)
  | .gpsSuspect => .ofRat (3 / 10)
  | .hostReceived => .ofRat (2 / 10)
  | .bootRelative => .ofRat (2 / 10)
  | .unknown => .ofRat 0

/-! ## 2. Digests -/

variable (sha256 : List UInt8 → Digest)

def fieldValueBytes : FieldValue → List UInt8
  | .i64 v => leBytes 8 v.toUInt64.toNat
  | .f64 v => leBytes 8 v.bits.toNat
  | .text v => utf8 v
  | .blank => utf8 "<blank>"

/-- What the digest of an observation hashes. -/
def observationBytes (tMs : Int64) (channel : ChannelId) (fields : Fields) : List UInt8 :=
  leBytes 8 tMs.toUInt64.toNat ++ utf8 channel.asStr ++
    fields.flatMap fun field => utf8 field.1 ++ utf8 "=" ++ fieldValueBytes field.2 ++ utf8 ";"

def observationDigest (tMs : Int64) (channel : ChannelId) (fields : Fields) : Digest :=
  sha256 (observationBytes tMs channel fields)

def timeLikeNames : List String :=
  ["TimeUS", "TimeMS", "timestamp", "timestamp_last_signal", "time_boot_ms", "time_usec",
    "time_unix_usec", "time", "loopIteration", "tmr10ms", "Date", "Time", "SMS", "GMS"]

def isTimeLikeField (name : String) : Bool :=
  if name ∈ ["MAVLINK.packet_sequence", "MAVLINK.host_received_us", "MAVLINK.raw_frame_hex"] then
    true
  else
    let n := (name.toList.splitOn '.').getLastD name.toList
    decide (n ∈ timeLikeNames.map String.toList)

def valueDigest (fields : Fields) : Digest :=
  observationDigest sha256 0 .onboard (fields.filter fun field => !isTimeLikeField field.1)

end Musubi.Reference
