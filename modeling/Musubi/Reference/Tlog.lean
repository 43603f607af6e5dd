/-
# TLOG recordings

`reference-readers/src/tlog.rs`: a recording is a sequence of records, each a word of eight bytes,
most significant first, that the recorder writes, and a MAVLink frame of version 1 or 2.  The word
is a time in microseconds; one recorder writes a link tag over its two low bits.  The reader
validates each frame, says how its counter goes on from the one before it under the same sender
and tag, and emits an observation for it, or for the records of one declared sender.

A frame is valid when its length, its flags and its checksum are; the checksum needs a byte that
the definition of the message gives, and of a message that the tables do not have it cannot be
verified, which the row then says.  The last counter under each sender and tag is the state of the
reader (`Sequences`).

The crate carries its own copy of the header parser of `adapter-mavlink`; the checks of a frame
fail with an offset and a text, and so does the loop (`Malformed`).
-/
import Musubi.Lib.Scan
import Musubi.Mavlink.Frame
import Musubi.Reference.Reader
import Musubi.Reference.TlogDecode

namespace Musubi.Reference.Tlog

open Lib Lib.Checked Musubi.Core Mavlink

/-! ## 1. Tables -/

def mavlink1Magic : UInt8 := 0xFE

/-- The file that defines the layout of a message. -/
inductive DefiningDialect
  | minimal
  | standard
  | common
  | arduPilotMega
deriving DecidableEq, Repr

def DefiningDialect.file : DefiningDialect → String
  | .minimal => "minimal.xml"
  | .standard => "standard.xml"
  | .common => "common.xml"
  | .arduPilotMega => "ardupilotmega.xml"

def DefiningDialect.inheritedFromCommonChain : DefiningDialect → Bool
  | .minimal | .standard | .common => true
  | .arduPilotMega => false

def DefiningDialect.scope (dialect : DefiningDialect) : String :=
  if dialect.inheritedFromCommonChain then
    "COMMON_INCLUDE_CHAIN_DEFINITION_INHERITED_UNCHANGED_BY_EVERY_DIALECT_THAT_INCLUDES_IT"
  else "VENDOR_DIALECT_DEFINITION_NOT_PRESENT_IN_THE_COMMON_INCLUDE_CHAIN"

def dialectDefinitionPin : String := "mavlink/mavlink@3203f89c510337c0088244735c6a5056c52b5a28"

def dialectUnqualified : String := "UNQUALIFIED_MSGID_NOT_IN_THE_PINNED_TABLE_NO_DIALECT_CLAIMED"

def definingDialect (msgid : UInt32) : Option DefiningDialect :=
  match msgid.toNat with
  | 0 => some .minimal
  | 33 | 148 => some .standard
  | 1 | 2 | 20 | 22 | 24 | 26 | 29 | 30 | 32 | 42 | 46 | 62 | 65 | 109 | 116 | 129 | 132
  | 137 | 143 | 147 | 253 | 262 | 270 => some .common
  | 193 => some .arduPilotMega
  | _ => none

def crcExtra (msgid : UInt32) : Option UInt8 :=
  match msgid.toNat with
  | 0 => some 50
  | 1 => some 124
  | 2 => some 137
  | 20 => some 214
  | 22 => some 220
  | 24 => some 24
  | 26 => some 170
  | 29 => some 115
  | 30 => some 39
  | 32 => some 185
  | 33 => some 104
  | 42 => some 28
  | 46 => some 11
  | 62 => some 183
  | 65 => some 118
  | 109 => some 185
  | 116 => some 76
  | 129 => some 46
  | 132 => some 85
  | 137 => some 195
  | 143 => some 131
  | 147 => some 154
  | 148 => some 178
  | 193 => some 71
  | 253 => some 83
  | 262 => some 12
  | 270 => some 59
  | _ => none

def mavlink1Length (msgid : UInt32) : Option ℕ :=
  match msgid.toNat with
  | 0 => some 9
  | 1 => some 31
  | 2 => some 12
  | 20 => some 20
  | 22 => some 25
  | 24 => some 30
  | 26 | 116 | 129 => some 22
  | 29 | 137 | 143 => some 14
  | 30 | 32 => some 28
  | 33 => some 28
  | 42 | 46 => some 2
  | 62 => some 26
  | 65 => some 42
  | 109 => some 9
  | 132 => some 14
  | 147 => some 36
  | 148 => some 60
  | 193 => some 22
  | 253 => some 51
  | _ => none

def crcX25 (bytes : List UInt8) (init : UInt16) : UInt16 :=
  bytes.foldl (fun crc b =>
    let tmp := b ^^^ (crc &&& 0xFF).toUInt8
    let tmp := tmp ^^^ (tmp <<< 4)
    (crc >>> 8) ^^^ (tmp.toUInt16 <<< 8) ^^^ (tmp.toUInt16 <<< 3) ^^^ (tmp.toUInt16 >>> 4)) init

/-- The check value of the algorithm. -/
example : crcX25 (utf8 "123456789") 0xFFFF = 0x6F91 := by decide +kernel

/-! ## 2. Frames -/

structure Malformed where
  offset : ℕ
  what : String
deriving DecidableEq, Repr

def Malformed.error (m : Malformed) : ReadError := .malformed m.offset m.what

structure FrameHeader where
  hdrLen : ℕ
  payloadLen : ℕ
  msgid : UInt32
  signed : Bool
deriving DecidableEq, Repr

/-- Header, payload, checksum and signature. -/
def FrameHeader.total (h : FrameHeader) : ℕ :=
  h.hdrLen + h.payloadLen + 2 + if h.signed then 13 else 0

def readHeader (off : ℕ) (fr : List UInt8) : Checked Malformed FrameHeader := do
  let magic ← index fr 0
  if magic = mavlink2Magic then do
    let h ← mapErr (fun e => ⟨off + 8, e.debug⟩) (parseMavlink2Header fr)
    if h.incompatFlags &&& ~~~1 ≠ 0 then
      fail ⟨off + 8, "unsupported MAVLink incompatibility flag"⟩
    else return ⟨10, h.len.toNat, h.msgid, h.incompatFlags &&& 0x01 ≠ 0⟩
  else if magic = mavlink1Magic then do
    let len ← index fr 1
    let msgid ← index fr 5
    return ⟨6, len.toNat, msgid.toUInt32, false⟩
  else
    fail ⟨off + 8, "unexpected STX 0x" ++ (hexLower [magic]).map Char.toUpper⟩

/-- `{crc:#06x}`. -/
def hexWord (crc : UInt16) : String := "0x" ++ hexLower (beBytes 2 crc.toNat)

/-- The checksum of a message that has a seed. -/
def checkCrc (off : ℕ) (fr : List UInt8) (h : FrameHeader) : Checked Malformed Unit :=
  match crcExtra h.msgid with
  | none => return ()
  | some extra => do
    let covered ← slice fr 1 (h.hdrLen + h.payloadLen)
    let crc := crcX25 [extra] (crcX25 covered 0xFFFF)
    let low ← index fr (h.hdrLen + h.payloadLen)
    let high ← index fr (h.hdrLen + h.payloadLen + 1)
    let got := UInt16.ofNat (ofLeBytes [low, high])
    if crc ≠ got then
      fail ⟨off + 8, "CRC mismatch on msgid " ++ h.msgid.toNat.repr ++ ": expected "
        ++ hexWord crc ++ ", got " ++ hexWord got⟩
    else return ()

/-- A number that is not finite among `count` of them. -/
def someNonfinite (p : List UInt8) (off count : ℕ) : Bool :=
  (List.range count).any fun i => !(f32At p (off + i * 4)).isFinite

def negative (v : F64) : Bool := v.lt (.ofRat 0)

/-- What is wrong with a payload, as the first check that finds something says. -/
def payloadFault (off : ℕ) (msgid : UInt32) (p : List UInt8) : Option Malformed :=
  if (msgid = 20 ∨ msgid = 22) ∧
      (p.length = 0 ∨ (if msgid = 20 then 20 else 25) < p.length ∨
        ((bytesAt 16 p (if msgid = 20 then 4 else 8)).takeWhile (· ≠ 0)).any (128 ≤ ·)) then
    some ⟨off + 8, "invalid parameter report length or non-ASCII identifier"⟩
  else if msgid = 62 ∧ (26 < p.length ∨ someNonfinite p 0 5) then
    some ⟨off, "invalid NAV_CONTROLLER_OUTPUT length or nonfinite quantity"⟩
  else if msgid = 270 ∧
      (20 < p.length ∨ !(f32At p 0).isFinite ∨ negative (f32At p 0)) then
    some ⟨off + 8, "invalid video stream status length or framerate"⟩
  else if msgid = 262 ∧
      (23 < p.length ∨ !(f32At p 4).isFinite ∨ !(f32At p 12).isFinite ∨
        negative (f32At p 4)) then
    some ⟨off + 8, "invalid camera report length or quantity"⟩
  else if (msgid = 26 ∨ msgid = 116 ∨ msgid = 129) ∧
      (24 < p.length ∨ i16At p 22 < -27315) then
    some ⟨off + 8, "invalid scaled IMU temperature or length"⟩
  else if (msgid = 29 ∨ msgid = 137 ∨ msgid = 143) ∧
      (16 < p.length ∨ !(f32At p 4).isFinite ∨ !(f32At p 8).isFinite ∨
        negative (f32At p 4) ∨ i16At p 12 < -27315 ∨ i16At p 14 < -27315) then
    some ⟨off + 8, "invalid pressure report quantity or length"⟩
  else if (msgid = 42 ∧ 18 < p.length) ∨ (msgid = 46 ∧ 2 < p.length) then
    some ⟨off + 8, "overlong mission report payload"⟩
  else if msgid = 132 ∧
      (39 < p.length ∨ u16At p 6 < u16At p 4 ∨ 100 < u8At p 38 ∨ someNonfinite p 14 6 ∨
        negative (f32At p 14) ∨ negative (f32At p 18)) then
    some ⟨off + 8, "invalid DISTANCE_SENSOR length/range/quality/quantity"⟩
  else if msgid = 148 ∧ 78 < p.length then
    some ⟨off + 8, "overlong AUTOPILOT_VERSION payload"⟩
  else if msgid = 147 ∧
      (54 < p.length ∨ i32At p 0 < -1 ∨ i32At p 4 < -1 ∨ i32At p 36 < 0 ∨
        i16At p 8 < -27315 ∨ ¬ (-1 ≤ i8At p 35 ∧ i8At p 35 ≤ 100)) then
    some ⟨off + 8, "invalid BATTERY_STATUS range or length"⟩
  else if (msgid = 30 ∨ msgid = 32) ∧ (28 < p.length ∨ someNonfinite p 4 6) then
    some ⟨off + 8, "invalid motion payload length or nonfinite quantity"⟩
  else if msgid = 1 ∧
      (43 < p.length ∨ 1000 < u16At p 12 ∨ ¬ (-1 ≤ i8At p 30 ∧ i8At p 30 ≤ 100) ∨
        10000 < u16At p 18) then
    some ⟨off + 8, "invalid SYS_STATUS percent range"⟩
  else if (msgid = 2 ∨ msgid = 24) ∧ 2 ^ 63 - 1 < (u64At p 0).toNat then
    some ⟨off + 8, "source microseconds exceed common signed clock range"⟩
  else none

/-- A record whose frame is valid. -/
structure Framed where
  recordedWord : UInt64
  header : FrameHeader
  /-- Of version 2, by its first byte. -/
  wireV2 : Bool
  payload : List UInt8
  sequence : UInt8
  systemId : UInt8
  componentId : UInt8
  raw : List UInt8
deriving DecidableEq

def readFrame (off : ℕ) (rest : List UInt8) : Checked Malformed Framed :=
  if rest.length < 8 + 6 then fail ⟨off, "truncated tlog record"⟩
  else do
    let recordedWord := UInt64.ofNat (ofBeBytes (bytesAt 8 rest 0))
    let fr ← slice rest 8 rest.length
    let h ← readHeader off fr
    let magic ← index fr 0
    if fr.length < h.total then fail ⟨off + 8, "frame exceeds file"⟩
    else if magic = mavlink1Magic ∧ (mavlink1Length h.msgid).any (· ≠ h.payloadLen) then
      fail ⟨off + 8, "MAVLink1 payload has wrong fixed length"⟩
    else do
      checkCrc off fr h
      let payload ← slice fr h.hdrLen (h.hdrLen + h.payloadLen)
      match payloadFault off h.msgid payload with
      | some fault => fail fault
      | none => do
        let identityOffset := if h.hdrLen = 10 then 4 else 2
        let sequence ← index fr identityOffset
        let systemId ← index fr (identityOffset + 1)
        let componentId ← index fr (identityOffset + 2)
        let raw ← slice fr 0 h.total
        return {
          recordedWord, header := h, wireV2 := magic ≠ mavlink1Magic, payload, sequence, systemId
          componentId, raw }

/-! ## 3. Counters -/

def isMavproxy (profile : FamilyProfile) : Bool := profile.fields.time = "mavproxy_recorded_us"

/-- The word is the time of the recorder, not that of a receipt. -/
def isRecorded (profile : FamilyProfile) : Bool :=
  profile.fields.time = "host_recorded_us" || isMavproxy profile

structure SourceKey where
  systemId : UInt8
  componentId : UInt8
  linkTag : UInt8
deriving DecidableEq, Repr

def linkTag (word : UInt64) : UInt8 := (word &&& 3).toUInt8

def Framed.sourceKey (mavproxy : Bool) (x : Framed) : SourceKey :=
  ⟨x.systemId, x.componentId, if mavproxy then linkTag x.recordedWord else 0⟩

/-- The last counter under a key, and where its record starts. -/
abbrev Sequences := SourceKey → Option (UInt8 × ℕ)

/-- A frame whose counter counts: its checksum was verified and its sender has an address. -/
def Framed.qualified (x : Framed) : Bool :=
  (crcExtra x.header.msgid).isSome && x.systemId ≠ 0 && x.componentId ≠ 0

def Framed.nextSequences (mavproxy : Bool) (x : Framed) (off : ℕ) (sequences : Sequences) :
    Sequences :=
  Function.update sequences (x.sourceKey mavproxy)
    (if x.qualified then some (x.sequence, off) else none)

/-- The counter before it that a frame is compared with. -/
def Framed.previous (mavproxy : Bool) (x : Framed) (sequences : Sequences) :
    Option (UInt8 × ℕ) :=
  if x.qualified then sequences (x.sourceKey mavproxy) else none

def stepRelation (step : UInt8) : String :=
  if step = 0 then "SAME_COUNTER" else if step = 1 then "NEXT_MOD256"
  else "DISCONTINUITY_AMBIGUOUS"

def Framed.relation (x : Framed) : Option (UInt8 × ℕ) → String
  | some (previous, _) => stepRelation (x.sequence - previous)
  | none => if x.qualified then "FIRST" else "UNQUALIFIED_HEADER"

/-! ## 4. Records -/

def u8Field (name : String) (v : UInt8) : String × FieldValue := f name (.ofNat v.toNat)

/-- What the reader says about the counters. -/
def Framed.sequenceFields (x : Framed) (previous : Option (UInt8 × ℕ)) : Fields :=
  (match previous with
  | some (sequence, offset) => [
    u8Field "MAVLINK.previous_packet_sequence" sequence,
    u8Field "MAVLINK.recorded_sequence_step_mod256" (x.sequence - sequence),
    text "MAVLINK.previous_record_offset_bytes" offset.repr]
  | none => []) ++ [text "MAVLINK.recorded_sequence_relation" (x.relation previous)]

/-- The time of the record: without the link tag where there is one. -/
def Framed.hostUs (mavproxy : Bool) (x : Framed) : UInt64 :=
  if mavproxy then x.recordedWord &&& ~~~3 else x.recordedWord

/-- What the reader says about the frame. -/
def Framed.frameFields (profile : FamilyProfile) (x : Framed) : Fields :=
  let dialect := definingDialect x.header.msgid
  [f "MAVLINK.wire_version" (if x.header.hdrLen = 10 then 2 else 1),
    u8Field "MAVLINK.packet_sequence" x.sequence,
    u8Field "MAVLINK.system_id" x.systemId,
    u8Field "MAVLINK.component_id" x.componentId,
    f "MAVLINK.message_id" (.ofNat x.header.msgid.toNat),
    text (if isRecorded profile then "MAVLINK.host_recorded_us" else "MAVLINK.host_received_us")
      (x.hostUs (isMavproxy profile)).toNat.repr,
    f "MAVLINK.crc_verified" (flag (crcExtra x.header.msgid).isSome),
    text "MAVLINK.defining_dialect" ((dialect.map DefiningDialect.file).getD dialectUnqualified),
    text "MAVLINK.defining_dialect_pin"
      (if dialect.isSome then dialectDefinitionPin else dialectUnqualified),
    text "MAVLINK.defining_dialect_scope"
      ((dialect.map DefiningDialect.scope).getD dialectUnqualified),
    text "MAVLINK.signature" (if x.header.signed then "present_unverified" else "absent"),
    text "MAVLINK.raw_frame_hex" (hexLower x.raw)] ++
  (if isMavproxy profile then [
    text "MAVLINK.mavproxy_recorded_word" x.recordedWord.toNat.repr,
    u8Field "MAVLINK.mavproxy_link_tag" (linkTag x.recordedWord),
    f "MAVLINK.recorded_clock_quantum_us" 4]
  else []) ++
  (if isRecorded profile then [
    text "MAVLINK.direction"
      (if isMavproxy profile then "NOT_INFERRED_FROM_AMBIGUOUS_LINK_TAG"
      else "UNKNOWN_NOT_ENCODED_IN_RECORD")]
  else [])

/-- The records of a recording, each with the counters before it as the state. -/
def records (profile : FamilyProfile) : Scanner Malformed Sequences Framed UInt8 where
  more rest := !rest.isEmpty
  step sequences rest off := do
    let x ← readFrame off rest
    return (x, 8 + x.header.total, x.nextSequences (isMavproxy profile) off sequences)

/-! ## 5. The reader -/

variable (sha256 : List UInt8 → Digest)

/-- `i64::try_from(n).unwrap_or(i64::MAX)`. -/
def i64OrMax (n : ℕ) : Int64 := if n < 2 ^ 63 then .ofNat n else .maxValue

/-- The observation of a record, with what a selection adds to its fields. -/
def row (profile : FamilyProfile) (reportedRcChannels : Bool) (r : Scanned Sequences Framed)
    (added : Fields) : Observation :=
  let x := r.item
  let mavproxy := isMavproxy profile
  let d := decodeWith reportedRcChannels x.wireV2 x.header.msgid x.payload
  let fields := d.fields ++ x.sequenceFields (x.previous mavproxy r.before) ++
    x.frameFields profile ++ added
  let o := observation sha256 profile (i64OrMax ((x.hostUs mavproxy).toNat / 1000)) d.channel
    fields d.stale
  { o with
    tBootUs := d.tBootUs
    anchorUnixUs := if isRecorded profile then none else d.anchorUnixUs }

structure Emitted where
  out : List Observation
  unselectedRecords : ℕ

def selectionField (want : SenderSelection) : String × FieldValue :=
  text "MAVLINK.declared_sender_selection" ("SELECTED_DECLARED_SENDER_"
    ++ want.systemId.toNat.repr ++ "_" ++ want.componentId.toNat.repr
    ++ "_REPORTED_NOT_AUTHENTICATED_THIS_READ_IS_A_SUBSET_OF_THE_RECORDING")

def emit (profile : FamilyProfile) (reportedRcChannels : Bool) (e : Emitted)
    (r : Scanned Sequences Framed) : Checked Malformed Emitted :=
  let x := r.item
  match profile.declaredSender with
  | none => return { e with out := e.out ++ [row sha256 profile reportedRcChannels r []] }
  | some want =>
    if x.systemId = 0 ∨ x.componentId = 0 then
      fail ⟨r.start + 8,
        "record reports no addressable sender while one sender is selected"⟩
    else if x.systemId ≠ want.systemId ∨ x.componentId ≠ want.componentId then
      return { e with unselectedRecords := e.unselectedRecords + 1 }
    else
      return { e with
        out := e.out ++ [row sha256 profile reportedRcChannels r [selectionField want]] }

/-- What the first selected row says about the whole recording. -/
def countFields (selected unselected : ℕ) : Fields :=
  [f "MAVLINK.selected_sender_records" (i64OrMax selected),
    f "MAVLINK.unselected_sender_records" (i64OrMax unselected),
    text "MAVLINK.selected_sender_record_scope"
      ("WHOLE_RECORDING_COUNTS_ON_THE_FIRST_SELECTED_ROW_EVERY_VALIDATED_RECORD_INCLUDING_"
        ++ "UNKNOWN_MESSAGE_TYPES_COUNTED_ONCE_THIS_READ_IS_A_SUBSET_OF_THE_RECORDING")]

/-- More fields, and the digest over all of them. -/
def extend (o : Observation) (added : Fields) : Observation :=
  { o with
    fields := o.fields ++ added
    digest := observationDigest sha256 o.tMs o.channel (o.fields ++ added) }

def finish (profile : FamilyProfile) (e : Emitted) : Checked ReadError (List Observation) :=
  match profile.declaredSender with
  | none => return e.out
  | some want =>
    match e.out with
    | [] =>
      -- a selection that matches nothing is a wrong declaration, not an empty recording
      fail (.profile ("selected sender " ++ want.systemId.toNat.repr ++ "/"
        ++ want.componentId.toNat.repr ++ " reports no record in this recording ("
        ++ e.unselectedRecords.repr ++ " records report other senders)"))
    | first :: rest =>
      return extend sha256 first (countFields e.out.length e.unselectedRecords) :: rest

/-- The profiles that the reader takes: the format, and the clock that the word is, which for the
recorder with link tags is unknown and otherwise that of the receiving host. -/
def Accepts (profile : FamilyProfile) : Prop :=
  profile.format = "mavlink_tlog" ∧
    profile.defaultClockBasis = if isRecorded profile then .unknown else .hostReceived

instance (profile : FamilyProfile) : Decidable (Accepts profile) :=
  inferInstanceAs (Decidable (_ ∧ _))

def readInternal (profile : FamilyProfile) (input : Slice) (reportedRcChannels : Bool) :
    Checked ReadError (List Observation) :=
  if ¬ Accepts profile then
    fail (.profile "TLOG requires host_received, or explicit recorded clock with unknown basis")
  else do
    let (_, _, e) ← mapErr Malformed.error
      (((records profile).feed (emit sha256 profile reportedRcChannels)).scan input.bytes 0
        (fun _ => none, ⟨[], 0⟩))
    finish sha256 profile e

def read (profile : FamilyProfile) (input : Slice) : Checked ReadError (List Observation) :=
  readInternal sha256 profile input false

def readWithReportedRcChannels (profile : FamilyProfile) (input : Slice) :
    Checked ReadError (List Observation) :=
  readInternal sha256 profile input true
end Musubi.Reference.Tlog
