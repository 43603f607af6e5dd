/-
# Decoded GPS records in chunks

`reference-readers/src/mavlog_stream.rs`: frames that line feeds end, from chunks of any sizes.
Of an unfinished frame the first `maxFrameBytes` are retained and all are counted; a frame becomes
an event when its line feed comes, or when the stream is finished.  A frame that was too long is
an event too, with its length and no record.

Every counter is checked before it is raised, and a call that fails leaves the stream finished:
the calls after it are refused.  What a call hands to its callback is the list of its events here,
and a call returns that list with the stream after it and with its failure, so that the events
that were handed out before the failure are not lost from the model.

A run is the list of the calls of a caller, pushes and finishes in any order (`Op`, `Run.step`).
That the chunks do not matter, and what the counters say, is proved over all runs in
`Musubi.Reference.MavlogFrames`.
-/
import Musubi.Lib.CheckedInt
import Musubi.Northbound.WirePolicy
import Musubi.Reference.MavlogJson

namespace Musubi.Reference.Mavlog

open Lib Musubi.Core

/-! ## 1. Streams and events -/

/-- The bytes retained of a frame, without its line feed. -/
def maxFrameBytes : ℕ := 65536

structure StreamCounts where
  bytesReceived : ℕ := 0
  frames : ℕ := 0
  observations : ℕ := 0
  unsupportedFrames : ℕ := 0
  invalidFrames : ℕ := 0
  oversizedFrames : ℕ := 0
  incompleteFrames : ℕ := 0
deriving DecidableEq, Repr

inductive FrameResult
  | observation (o : Observation)
  | unsupported (what : String)
  | invalid (what : String)
  | oversized
  | incompleteEof
deriving DecidableEq

structure StreamEvent where
  sourceId : String
  arrivalUnixMs : Option Int64
  frameIndex : ℕ
  sourceBytes : List UInt8
  sourceBytesTruncated : Bool
  frameBytes : ℕ
  terminatedByLf : Bool
  platformDomain : PlatformDomain
  result : FrameResult
  counts : StreamCounts
deriving DecidableEq

structure GpsJsonlStream where
  profile : FamilyProfile
  sourceId : String
  buffer : List UInt8 := []
  frameBytes : ℕ := 0
  arrivalUnixMs : Option Int64 := none
  counts : StreamCounts := {}
  finished : Bool := false
deriving DecidableEq

def streamError (what : String) : ReadError := .malformed 0 what

/-- `value + delta` where a `u64` holds it. -/
def add (value delta : ℕ) : Except ReadError ℕ :=
  match checkedU64 (value + delta) with
  | some sum => .ok sum
  | none => .error (streamError "stream counter overflow")

def declaredUnits : List (String × String) :=
  [("TimeUS", "us"), ("GPS.Lat", "deg"), ("GPS.Lng", "deg"), ("GPS.Alt", "m")]

def GpsJsonlStream.new (profile : FamilyProfile) (sourceId : String) :
    Except ReadError GpsJsonlStream :=
  if sourceId.isEmpty ∨ 128 < sourceId.utf8ByteSize ∨
      Northbound.WirePolicy.trim sourceId.toList ≠ sourceId.toList then
    .error (.profile "source ID must be 1..128 bytes, trimmed")
  else if profile.format ≠ formatId ∨ profile.fields.time ≠ "TimeUS" then
    .error (.profile "expected decoded DataFlash TimeUS profile")
  else
    match declaredUnits.find? fun (field, unit) => profile.fieldUnits.get? field ≠ some unit with
    | some (field, unit) =>
      .error (.profile ("expected declared " ++ field ++ " unit " ++ unit))
    | none => .ok { profile, sourceId }

/-! ## 2. One frame -/

variable (serde : SerdeJson) (sha256 : List UInt8 → Digest)

/-- What a frame's bytes are decoded to, before which a carriage return is taken from its end. -/
def decodeFrame (profile : FamilyProfile) (buffer : List UInt8) : FrameResult :=
  let bytes := if buffer.getLast? = some 0x0D then buffer.dropLast else buffer
  match parseUniqueJson serde bytes with
  | none => .invalid "invalid JSON or duplicate object key"
  | some record =>
    let name := (((record.get "meta").bind JsonValue.asObject).bind (·.lookup "type")).bind
      JsonValue.asStr
    match name.filter (· ≠ "") with
    | none => .invalid "missing message type"
    | some name =>
      match (record.get "data").bind JsonValue.asObject with
      | none => .invalid "missing data object"
      | some data =>
        if name ≠ "GPS" then .unsupported "only decoded GPS records are supported"
        else if (data.lookup "TimeUS").isNone then
          .unsupported "explicit producer TimeUS required"
        else
          match (readReport serde sha256 profile bytes).map (·.observations) with
          | .ok [o] => .observation o
          | _ => .invalid "invalid decoded GPS record or producer counter"

/-- The counter of a result, one higher. -/
def countResult (counts : StreamCounts) : FrameResult → Except ReadError StreamCounts
  | .observation _ => return { counts with observations := ← add counts.observations 1 }
  | .unsupported _ => return { counts with unsupportedFrames := ← add counts.unsupportedFrames 1 }
  | .invalid _ => return { counts with invalidFrames := ← add counts.invalidFrames 1 }
  | .oversized => return { counts with oversizedFrames := ← add counts.oversizedFrames 1 }
  | .incompleteEof => return { counts with incompleteFrames := ← add counts.incompleteFrames 1 }

def GpsJsonlStream.emitFrame (s : GpsJsonlStream) (terminatedByLf : Bool) :
    Except ReadError (GpsJsonlStream × StreamEvent) := do
  let result :=
    if !terminatedByLf then .incompleteEof
    else if maxFrameBytes < s.frameBytes then .oversized
    else decodeFrame serde sha256 s.profile s.buffer
  let counts := { s.counts with frames := ← add s.counts.frames 1 }
  let counts ← countResult counts result
  return ({ s with counts, buffer := [], frameBytes := 0, arrivalUnixMs := none }, {
    sourceId := s.sourceId
    arrivalUnixMs := s.arrivalUnixMs
    frameIndex := counts.frames
    sourceBytes := s.buffer
    sourceBytesTruncated := maxFrameBytes < s.frameBytes
    frameBytes := s.frameBytes
    terminatedByLf
    platformDomain := .unknown
    result
    counts })

/-! ## 3. Calls -/

/-- A call on a stream: the stream afterwards, the events, and whether it failed. -/
structure Call where
  stream : GpsJsonlStream
  events : List StreamEvent
  result : Except ReadError Unit

/-- The frames of the bytes that remain of a chunk. -/
def GpsJsonlStream.pushFrames (arrivalUnixMs : Option Int64) (s : GpsJsonlStream)
    (remaining : List UInt8) : Call :=
  if remaining = [] then ⟨s, [], .ok ()⟩
  else
    let stop := remaining.idxOf? 0x0A
    let segment := remaining.take (stop.getD remaining.length)
    match add s.frameBytes segment.length with
    | .error e => ⟨s, [], .error e⟩
    | .ok frameBytes =>
      let retained := min segment.length (maxFrameBytes - s.buffer.length)
      let s := { s with
        frameBytes
        buffer := s.buffer ++ segment.take retained
        arrivalUnixMs }
      match stop with
      | none => ⟨s, [], .ok ()⟩
      | some stop =>
        match s.emitFrame serde sha256 true with
        | .error e => ⟨s, [], .error e⟩
        | .ok (s, event) =>
          let rest := pushFrames arrivalUnixMs s (remaining.drop (stop + 1))
          { rest with events := event :: rest.events }
termination_by remaining.length
decreasing_by
  have hpos := List.length_pos_of_ne_nil ‹remaining ≠ []›
  rw [List.length_drop]
  omega

def GpsJsonlStream.pushInner (s : GpsJsonlStream) (bytes : List UInt8)
    (arrivalUnixMs : Option Int64) : Call :=
  match add s.counts.bytesReceived bytes.length with
  | .error e => ⟨s, [], .error e⟩
  | .ok bytesReceived =>
    pushFrames serde sha256 arrivalUnixMs { s with counts := { s.counts with bytesReceived } } bytes

def GpsJsonlStream.push (s : GpsJsonlStream) (bytes : List UInt8)
    (arrivalUnixMs : Option Int64) : Call :=
  if s.finished then ⟨s, [], .error (streamError "stream already finished")⟩
  else
    let call := s.pushInner serde sha256 bytes arrivalUnixMs
    match call.result with
    | .ok () => call
    | .error _ => { call with stream := { call.stream with finished := true } }

def GpsJsonlStream.finish (s : GpsJsonlStream) : Call :=
  if s.finished then ⟨s, [], .error (streamError "stream already finished")⟩
  else
    let s := { s with finished := true }
    if 0 < s.frameBytes then
      match s.emitFrame serde sha256 false with
      | .error e => ⟨s, [], .error e⟩
      | .ok (s, event) => ⟨s, [event], .ok ()⟩
    else ⟨s, [], .ok ()⟩

/-! ## 4. Runs -/

/-- What a caller does with a stream. -/
inductive Op
  | push (bytes : List UInt8) (arrivalUnixMs : Option Int64)
  | finish

def GpsJsonlStream.call (s : GpsJsonlStream) : Op → Call
  | .push bytes arrivalUnixMs => s.push serde sha256 bytes arrivalUnixMs
  | .finish => s.finish serde sha256

/-- The stream after some calls, all events, and the result of every call.  A caller may go on
calling a stream that has failed. -/
structure Run where
  stream : GpsJsonlStream
  events : List StreamEvent := []
  results : List (Op × Except ReadError Unit) := []

def Run.step (run : Run) (op : Op) : Run :=
  let call := run.stream.call serde sha256 op
  ⟨call.stream, run.events ++ call.events, run.results ++ [(op, call.result)]⟩

def GpsJsonlStream.run (s : GpsJsonlStream) (ops : List Op) : Run :=
  ops.foldl (Run.step serde sha256) { stream := s }

end Musubi.Reference.Mavlog
