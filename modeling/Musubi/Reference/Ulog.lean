/-
# ULog recordings

`reference-readers/src/ulog.rs`: a recording is a header and messages, each with its size and a
letter for what it is.  Formats describe types, which may be nested; a subscription binds an id to
a type and to one instance of a sensor; data come under the id.  One instance is selected: data of
it become observations, all other data are kept as they are.

A message is read in a state that holds the formats, what each id is bound to, and the last time
under each id.  What is made of it for the report is a loop of its own (`ReadReport.add`).

Nested types are flattened when data of their type are read, with bounds on the number of fields
and on the levels, since a type may name itself; where a bound is reached, or a type is not known,
the data are kept as they are.  The padding at the end of a type may have been left out.
-/
import Musubi.Lib.ParseInt
import Musubi.Lib.Scan
import Musubi.Lib.Utf8
import Musubi.Northbound.WirePolicy
import Musubi.Reference.Cause
import Musubi.Reference.MavlogJson
import Musubi.Reference.Scalars

namespace Musubi.Reference.Ulog

open Lib Lib.Checked Musubi.Core

/-! ## 1. Formats -/

def magic : List UInt8 := [0x55, 0x4C, 0x6F, 0x67, 0x01, 0x12, 0x35]

def textField (b : List UInt8) (off : ℕ) : Checked ReadError String :=
  match fromUtf8 b with
  | .ok text => .ok text
  | .error _ => fail (.malformed off "invalid UTF-8 in ULog text; refusing replacement")

structure Field where
  ty : String
  name : String
  count : ℕ
  topLevel : Bool
deriving DecidableEq, Repr

/-- A type by its name, with its fields. -/
structure Format where
  name : String
  fields : List Field
deriving DecidableEq, Repr

def typeLen (ty : String) : Option ℕ :=
  match ty with
  | "int8_t" | "uint8_t" | "bool" | "char" => some 1
  | "int16_t" | "uint16_t" => some 2
  | "int32_t" | "uint32_t" | "float" => some 4
  | "int64_t" | "uint64_t" | "double" => some 8
  | _ => none

/-- `str::split_once`. -/
def splitOnce (sep : Char) (s : List Char) : Option (List Char × List Char) :=
  if sep ∈ s then some (s.takeWhile (· ≠ sep), (s.dropWhile (· ≠ sep)).drop 1) else none

/-- `trim_end_matches`. -/
def trimEndMatches (c : Char) (s : List Char) : List Char :=
  (s.reverse.dropWhile (· = c)).reverse

def parseField (item : List Char) : Option Field := do
  let (ty, name) ← splitOnce ' ' (Northbound.WirePolicy.trim item)
  match splitOnce '[' ty with
  | some (t, n) => do
    let count ← parseU64 (trimEndMatches ']' n)
    return ⟨.ofList t, .ofList name, count.toNat, true⟩
  | none => return ⟨.ofList ty, .ofList name, 1, true⟩

def parseFormat (definition : String) : Option Format := do
  let (name, rest) ← splitOnce ':' definition.toList
  let fields ← ((rest.splitOn ';').filter fun item => !item.isEmpty).mapM parseField
  return ⟨.ofList name, fields⟩

def findFormat (formats : List Format) (name : String) : Option Format :=
  formats.find? fun f => f.name = name

/-- The fields so far, and how many more there may be. -/
structure Flattened where
  remaining : ℕ
  out : List Field

/-- The fields of a type with those of its nested types, which may be so many levels deep. -/
def expand (formats : List Format) :
    ℕ → Bool → List Field → String → Flattened → Option Flattened
  | 0, _, _, _, _ => none
  | levels + 1, topLevel, fields, lead, acc =>
    fields.foldlM (fun acc field =>
      if field.count = 0 ∨ 4096 < field.count then none
      else
        let name := lead ++ field.name
        if (typeLen field.ty).isSome then
          let cost := if field.ty = "char" then 1 else field.count
          if cost ≤ acc.remaining then
            some ⟨acc.remaining - cost, acc.out ++ [{ field with name, topLevel }]⟩
          else none
        else
          (findFormat formats field.ty).bind fun nested =>
            (List.range field.count).foldlM (fun acc index =>
              let child :=
                if field.count = 1 then name ++ "." else name ++ "[" ++ index.repr ++ "]."
              expand formats levels false nested.fields child acc) acc) acc

/-- The fields of a type, at most 4096 on at most nine levels. -/
def flattenFields (fields : List Field) (formats : List Format) : Option (List Field) :=
  (expand formats 9 true fields "" ⟨4096, []⟩).map Flattened.out

/-! ## 2. Values -/

def decodeScalar (ty : String) (b : List UInt8) : Checked ReadError FieldValue :=
  match ty with
  | "int8_t" => do return .fromI8 (← word 1 b)
  | "uint8_t" | "bool" => do return .fromUnsigned (← word 1 b)
  | "int16_t" => do return .fromI16 (← word 2 b)
  | "uint16_t" => do return .fromUnsigned (← word 2 b)
  | "int32_t" => do return .fromI32 (← word 4 b)
  | "uint32_t" => do return .fromUnsigned (← word 4 b)
  | "float" => do return .float32Bits (← word 4 b)
  | "int64_t" | "uint64_t" => do return .from64 (← word 8 b)
  | "double" => do return .float64Bits (← word 8 b)
  | _ => return .blank

/-- An unsigned integer has a signed value, and a truth value is zero or one. -/
def checkScalar (off : ℕ) (ty : String) (b : List UInt8) : Checked ReadError Unit :=
  if ty = "uint64_t" then do
    let v ← word 8 b
    if 2 ^ 63 - 1 < v then
      fail (.malformed off "ULog uint64 exceeds common signed integer range")
    else return ()
  else if ty = "bool" then do
    let v ← index b 0
    if 1 < v then fail (.malformed off "ULog bool must be zero or one") else return ()
  else return ()

/-- One scalar of a field, behind the values so far. -/
def decodeElement (off : ℕ) (topic : String) (f : Field) (n : ℕ) (body : List UInt8)
    (decoded : Fields × ℕ) (i : ℕ) : Checked ReadError (Fields × ℕ) := do
  let (values, pos) := decoded
  if body.length < pos + n then fail (.malformed off "truncated ULog scalar field")
  else do
    let b ← slice body pos (pos + n)
    checkScalar off f.ty b
    let value ← decodeScalar f.ty b
    let key := if f.count = 1 then topic ++ "." ++ f.name
      else topic ++ "." ++ f.name ++ "[" ++ i.repr ++ "]"
    return (values ++ [(key, value)], pos + n)

/-- The last part of the name begins so. -/
def isPadding (name : String) : Bool :=
  "_padding".toList.isPrefixOf ((name.toList.splitOn '.').getLastD [])

/-- One field behind the values so far; the `last` one is at the end of the type. -/
def decodeField (off : ℕ) (topic : String) (last : ℕ) (body : List UInt8)
    (decoded : Option (Fields × ℕ)) (field : Field × ℕ) :
    Checked ReadError (Option (Fields × ℕ)) :=
  let (f, i) := field
  match decoded, typeLen f.ty with
  | some (values, pos), some n =>
    if isPadding f.name then
      -- the padding at the end of a record may be left out
      if f.topLevel ∧ i + 1 = last ∧ pos = body.length then return some (values, pos)
      else if body.length < pos + n * f.count then
        fail (.malformed off "truncated ULog padding field")
      else return some (values, pos + n * f.count)
    else if f.ty = "char" then
      if body.length < pos + f.count then fail (.malformed off "truncated ULog char field")
      else do
        let b ← slice body pos (pos + f.count)
        let text ← textField b off
        return some (values ++ [(topic ++ "." ++ f.name, .text text)], pos + f.count)
    else do
      let decoded ← (List.range f.count).foldlM (decodeElement off topic f n body) (values, pos)
      return some decoded
  | _, _ => return none

/-- The values of a record and where they end, unless the type of one is unknown. -/
def decodeFields (off : ℕ) (topic : String) (fields : List Field) (body : List UInt8) :
    Checked ReadError (Option (Fields × ℕ)) :=
  fields.zipIdx.foldlM (decodeField off topic fields.length body) (some ([], 0))

/-! ## 3. Messages -/

structure UnsupportedRecord where
  offset : ℕ
  reason : String
  bytes : List UInt8
deriving DecidableEq, Repr

/-- Data that were decoded: under which id, with which type, and to what. -/
structure DataRecord where
  msgId : UInt16
  binding : Format
  fields : List Field
  values : Fields
  tUs : Int64

inductive Message
  | flagBits
  | format (f : Option Format)
  | subscribe (multiId : UInt8) (msgId : UInt16) (name : String)
  | remove (msgId : UInt16)
  | unsupported (u : UnsupportedRecord)
  | decoded (d : DataRecord)
  | logged (level : UInt8) (tUs : UInt64) (text : String)
  | dropout (durationMs : ℕ)
  | other (ty : UInt8)

/-- What the messages so far have said: the formats, the type that each id is bound to, and the
last time under each id. -/
structure Session where
  formats : List Format
  subs : UInt16 → Option Format
  lastTimestamp : UInt16 → Option Int64

def Session.new : Session := ⟨[], fun _ => none, fun _ => none⟩

/-- A subscription binds its id if it is one of the selected instance to a known type; otherwise
the id is not bound, and not to what it was bound to before either. -/
def Session.subscribe (s : Session) (selectedMultiId multiId : UInt8) (msgId : UInt16)
    (name : String) : Session :=
  { s with
    subs := Function.update s.subs msgId
      (if multiId = selectedMultiId then findFormat s.formats name else none)
    lastTimestamp := Function.update s.lastTimestamp msgId none }

def Session.remove (s : Session) (msgId : UInt16) : Session :=
  { s with
    subs := Function.update s.subs msgId none
    lastTimestamp := Function.update s.lastTimestamp msgId none }

/-- Data came under the id at a time. -/
def Session.observe (s : Session) (msgId : UInt16) (tUs : Int64) : Session :=
  { s with lastTimestamp := Function.update s.lastTimestamp msgId (some tUs) }

def readFlagBits (s : Session) (off : ℕ) (p : List UInt8) :
    Checked ReadError (Message × Session) :=
  if p.length < 40 then fail (.malformed off "short flag-bits message")
  else do
    let flags ← slice p 8 16
    let appended ← slice p 16 40
    if (flags.any (· ≠ 0)) ∨ (appended.any (· ≠ 0)) then
      fail (.unsupportedFormat "ULog incompatibility flags or appended segments")
    else return (.flagBits, s)

def readFormat (s : Session) (off : ℕ) (p : List UInt8) : Checked ReadError (Message × Session) :=
  do
  let definition ← textField p off
  match parseFormat definition with
  | some f => return (.format (some f), { s with formats := s.formats ++ [f] })
  | none => return (.format none, s)

def readSubscription (selectedMultiId : UInt8) (s : Session) (off : ℕ) (p : List UInt8) :
    Checked ReadError (Message × Session) :=
  if p.length < 3 then fail (.malformed off "short A message")
  else do
    let multiId ← index p 0
    let idBytes ← slice p 1 3
    let msgId := UInt16.ofNat (ofLeBytes idBytes)
    let nameBytes ← slice p 3 p.length
    let name ← textField nameBytes off
    return (.subscribe multiId msgId name, s.subscribe selectedMultiId multiId msgId name)

def readRemoval (s : Session) (off : ℕ) (p : List UInt8) :
    Checked ReadError (Message × Session) :=
  if p.length ≠ 2 then fail (.malformed off "invalid remove-subscription message")
  else do
    let id ← word 2 p
    let msgId := UInt16.ofNat id
    return (.remove msgId, s.remove msgId)

/-- The time of the values, when the type has one and it is not before the last one. -/
def recordTime (off : ℕ) (topic : String) (fields : List Field) (values : Fields)
    (last : Option Int64) : Checked ReadError Int64 :=
  if (fields.filter fun f => f.name = "timestamp").length ≠ 1 ∨
      ¬ ∃ f ∈ fields, f.name = "timestamp" ∧ f.ty = "uint64_t" ∧ f.count = 1 then
    fail (.malformed off "ULog data requires one uint64 timestamp")
  else
    match integer values (topic ++ ".timestamp") with
    | none => fail (.malformed off "missing ULog timestamp value")
    | some tUs =>
      if last.any (tUs < ·) then fail (.malformed off "decreasing subscription timestamp")
      else return tUs

/-- Data, of a message whose bytes are `raw`. -/
def readData (s : Session) (off : ℕ) (p raw : List UInt8) :
    Checked ReadError (Message × Session) :=
  let unsupported (reason : String) : Message × Session := (.unsupported ⟨off, reason, raw⟩, s)
  if p.length < 2 then fail (.malformed off "short D message")
  else do
    let id ← word 2 p
    let msgId := UInt16.ofNat id
    match s.subs msgId with
    | none => return unsupported "unresolved or unselected-instance subscription"
    | some binding =>
      match flattenFields binding.fields s.formats with
      | none => return unsupported "unknown, cyclic or oversized nested definition"
      | some fields => do
        let body ← slice p 2 p.length
        let decoded ← decodeFields off binding.name fields body
        match decoded with
        | none => return unsupported "nested or unknown field type"
        | some (values, pos) =>
          if pos ≠ body.length ∨ ¬ (values.map Prod.fst).Nodup then
            fail (.malformed off "ULog field collision or trailing data")
          else do
            let tUs ← recordTime off binding.name fields values (s.lastTimestamp msgId)
            return (.decoded ⟨msgId, binding, fields, values, tUs⟩,
              s.observe msgId tUs)

def readLogged (s : Session) (off : ℕ) (p : List UInt8) : Checked ReadError (Message × Session) :=
  if p.length < 9 then fail (.malformed off "short L message")
  else do
    let level ← index p 0
    let timeBytes ← slice p 1 9
    let textBytes ← slice p 9 p.length
    let text ← textField textBytes off
    return (.logged level (.ofNat (ofLeBytes timeBytes)) text, s)

def readDropout (s : Session) (off : ℕ) (p : List UInt8) :
    Checked ReadError (Message × Session) :=
  if p.length ≠ 2 then fail (.malformed off "ULog dropout requires exactly two bytes")
  else do
    let durationMs ← word 2 p
    return (.dropout durationMs, s)

def readBody (selectedMultiId : UInt8) (s : Session) (off : ℕ) (ty : UInt8)
    (p raw : List UInt8) : Checked ReadError (Message × Session) :=
  match letter ty with
  | 'B' => readFlagBits s off p
  | 'F' => readFormat s off p
  | 'A' => readSubscription selectedMultiId s off p
  | 'R' => readRemoval s off p
  | 'D' => readData s off p raw
  | 'L' => readLogged s off p
  | 'O' => readDropout s off p
  | _ => return (.other ty, s)

/-- One message: what it is, its length, and what is known behind it. -/
def readMessage (selectedMultiId : UInt8) (s : Session) (rest : List UInt8) (off : ℕ) :
    Checked ReadError (Message × ℕ × Session) := do
  let size ← word 2 rest
  let ty ← index rest 2
  if rest.length < 3 + size then
    fail (.malformed off ("message '" ++ String.singleton (letter ty) ++ "' exceeds file"))
  else do
    let p ← slice rest 3 (3 + size)
    let raw ← slice rest 0 (3 + size)
    let (message, s') ← readBody selectedMultiId s off ty p raw
    return (message, 3 + size, s')

/-- The messages of a recording, each with what is known before it as the state. -/
def messages (selectedMultiId : UInt8) : Scanner ReadError Session Message UInt8 where
  more rest := decide (3 ≤ rest.length)
  step := readMessage selectedMultiId

/-! ## 4. The reader -/

structure ReadReport where
  selectedMultiId : UInt8
  observations : List Observation := []
  unsupportedRecords : List UnsupportedRecord := []
  dataRecords : ℕ := 0
  decodedDataRecords : ℕ := 0

def channelFor (topic : String) : ChannelId :=
  if topic ∈ ["sensor_gps", "vehicle_gps_position", "estimator_status",
      "estimator_status_flags"] then .gpsEkf
  else if topic = "input_rc" then .rc
  else if topic = "telemetry_status" then .linkStats
  else if topic ∈ ["vehicle_status", "failsafe_flags", "battery_status"] then .event
  else .onboard

section Report

variable (sha256 : List UInt8 → Digest) (profile : FamilyProfile)

/-- The first value under a key, as a number. -/
def DataRecord.get (d : DataRecord) (key : String) : Option F64 :=
  ((d.values.find? fun entry => entry.1 = d.binding.name ++ "." ++ key).map Prod.snd).bind
    FieldValue.asF64

/-- The remote control has lost its link. -/
def DataRecord.stale (d : DataRecord) : Bool :=
  d.binding.name = "input_rc" &&
    ((d.get "rc_lost").any (fun v => (F64.ofRat 0).lt v) ||
      (d.get "link_quality").any fun v => v.le (.ofRat 0))

def DataRecord.anchor (d : DataRecord) : Option Int64 :=
  if d.binding.name = "sensor_gps" then
    (integer d.values "sensor_gps.time_utc_usec").filter (946684800000000 < ·)
  else none

def isLinkField (key : String) : Bool :=
  key.endsWith ".rssi" || key.endsWith ".rssi_dbm" || key.endsWith ".link_quality"

/-- The observations of a data record: the one of its topic, and for the remote control one of
the link. -/
def DataRecord.observations (d : DataRecord) : List Observation :=
  let tBootUs := some (max d.tUs 0).toUInt64
  let o := observation sha256 profile (d.tUs / 1000) (channelFor d.binding.name) d.values d.stale
  let own : Observation := { o with tBootUs, anchorUnixUs := d.anchor }
  if d.binding.name = "input_rc" then
    let link := d.values.filter fun entry => isLinkField entry.1
    [own, { observation sha256 profile (d.tUs / 1000) .linkStats link d.stale with tBootUs }]
  else [own]

def loggedObservation (level : UInt8) (tUs : UInt64) (text : String) : Observation :=
  { observation sha256 profile (tUs / 1000).toInt64 .event
      [("log.level", .i64 (.ofNat level.toNat)), ("log.message", .text text)] false with
    tBootUs := some tUs }

/-- A dropout has no time of its own and takes the last one. -/
def dropoutObservation (last : Option Observation) (durationMs : ℕ) : Observation :=
  observation sha256 profile ((last.map Observation.tMs).getD 0) .onboard
    [("dropout.duration_ms", .i64 (.ofNat durationMs))] true

def ReadReport.add (report : ReadReport) : Message → ReadReport
  | .unsupported u => { report with
    unsupportedRecords := report.unsupportedRecords ++ [u]
    dataRecords := report.dataRecords + 1 }
  | .decoded d => { report with
    observations := report.observations ++ d.observations sha256 profile
    dataRecords := report.dataRecords + 1
    decodedDataRecords := report.decodedDataRecords + 1 }
  | .logged level tUs text => { report with
    observations := report.observations ++ [loggedObservation sha256 profile level tUs text] }
  | .dropout durationMs => { report with
    observations := report.observations ++
      [dropoutObservation sha256 profile report.observations.getLast? durationMs] }
  | _ => report

def readInstanceReport (input : Slice) (selectedMultiId : UInt8) :
    Checked ReadError ReadReport :=
  if profile.format ≠ "px4_ulog" then fail (.profile "expected px4_ulog profile")
  else if input.bytes.length < 16 ∨ input.bytes.take 7 ≠ magic then
    fail (.malformed 0 "not a ULog file (bad magic)")
  else do
    let version ← index input.bytes 7
    if version ≠ 1 then fail (.unsupportedFormat "ULog version other than 1")
    else do
      let (off, _, report) ← ((messages selectedMultiId).feed
        fun report r => pure (report.add sha256 profile r.item)).scan input.bytes 16
          (.new, { selectedMultiId })
      if off ≠ input.bytes.length then
        fail (.malformed off "truncated ULog message header")
      else return report

def readReport (input : Slice) : Checked ReadError ReadReport :=
  readInstanceReport sha256 profile input 0

/-- The reading for those who do not ask for unsupported records. -/
def read (input : Slice) : Checked ReadError (List Observation) := do
  let report ← readReport sha256 profile input
  if report.unsupportedRecords.length ≠ 0 then
    fail (.unsupportedFormat
      "ULog contains unsupported records; use read_report or a qualified exporter")
  else return report.observations

end Report

end Musubi.Reference.Ulog
