/-
# Decoded DataFlash records

`jsonl-log/src/lib.rs`: one JSON object a line, with `meta.type` and a `data` object, and integer
counters for times.  A line that is no such object, or whose counter is no such integer, fails the
whole log with the number of the line.

`reference-readers/src/mavlog_json.rs`: the observations of the timed records, with all their
fields, and what the firmware says of itself in its text messages, from which the family is
checked and the domain of the platform is told.

The JSON library is a parameter: the grammar and the numbers are its own.  A value comes from it
with all the keys that the text has, in their order, and `parseUniqueJson` is the code's own check
that no object has a key twice; so that check is modelled and not assumed.  What is asked of the
library is asked where a result needs it, as a hypothesis with a name.
-/
import Musubi.FloatArith
import Musubi.Lib.BTreeMap
import Musubi.Lib.Lines
import Musubi.Lib.Utf8
import Musubi.Reference.Bin
import Mathlib.Data.String.Basic

namespace Musubi.Reference.Mavlog

open Lib Musubi.Core

/-! ## 1. Values -/

inductive JsonNumber
  | posInt (n : UInt64)
  | negInt (n : Int64)
  | float (v : F64)
deriving DecidableEq

def JsonNumber.asU64 : JsonNumber → Option UInt64
  | .posInt n => some n
  | _ => none

def JsonNumber.asI64 : JsonNumber → Option Int64
  | .posInt n => if n.toNat < 2 ^ 63 then some n.toInt64 else none
  | .negInt n => some n
  | .float _ => none

def JsonNumber.asF64 : JsonNumber → F64
  | .posInt n => .ofInt n.toNat
  | .negInt n => .ofInt n.toInt
  | .float v => v

/-- A JSON value; the fields of an object are in the order in which they are iterated. -/
inductive JsonValue
  | null
  | bool (b : Bool)
  | number (n : JsonNumber)
  | string (s : String)
  | array (items : List JsonValue)
  | object (fields : List (String × JsonValue))

namespace JsonValue

def asObject : JsonValue → Option (List (String × JsonValue))
  | object fields => some fields
  | _ => none

def asStr : JsonValue → Option String
  | string s => some s
  | _ => none

def asU64 : JsonValue → Option UInt64
  | number n => n.asU64
  | _ => none

def asF64 : JsonValue → Option F64
  | number n => some n.asF64
  | _ => none

/-- What an object has under a key. -/
def get (v : JsonValue) (key : String) : Option JsonValue := v.asObject.bind (·.lookup key)

mutual

/-- A value without duplicate keys and non-finite numbers, its objects as ordered maps. -/
def unique : JsonValue → Option JsonValue
  | null => some null
  | bool b => some (bool b)
  | number (.float v) => if v.isFinite then some (number (.float v)) else none
  | number n => some (number n)
  | string s => some (string s)
  | array items => (uniqueItems items).map array
  | object fields => (uniqueFields [] fields).map object

def uniqueItems : List JsonValue → Option (List JsonValue)
  | [] => some []
  | item :: items => do
    let item ← unique item
    let items ← uniqueItems items
    return item :: items

/-- The map of the fields so far and those that follow. -/
def uniqueFields (map : List (String × JsonValue)) :
    List (String × JsonValue) → Option (List (String × JsonValue))
  | [] => some map
  | (key, value) :: fields => do
    let value ← unique value
    if map.any (·.1 = key) then none
    else uniqueFields (BTreeMap.insertEntry key value map) fields

end

/-- A key that comes twice, at any depth. -/
example : (unique (object [("b", null), ("a", bool true)])).isSome ∧
    (unique (array [object [("a", null), ("a", null)]])).isNone := by decide

end JsonValue

/-- The JSON library: what it reads from bytes and from a text, and how it writes a value. -/
structure SerdeJson where
  fromSlice : List UInt8 → Option JsonValue
  fromStr : String → Option JsonValue
  display : JsonValue → String

variable (serde : SerdeJson)

def parseUniqueJson (bytes : List UInt8) : Option JsonValue :=
  (serde.fromSlice bytes).bind JsonValue.unique

/-! ## 2. Records on lines -/

structure ParseError where
  line : ℕ
  reason : String
deriving DecidableEq, Repr

structure TimedRecord where
  recordIndex : ℕ
  bootUs : UInt64
deriving DecidableEq

structure DecodedLog where
  records : List JsonValue := []
  timedRecords : List TimedRecord := []
  untimedRecords : ℕ := 0

variable {ε : Type}

/-- The type and the data of a record. -/
def recordParts (error : String → ε) (record : JsonValue) :
    Except ε (String × List (String × JsonValue)) :=
  match (record.get "meta").bind JsonValue.asObject with
  | none => .error (error "missing meta object")
  | some fields =>
    match ((fields.lookup "type").bind JsonValue.asStr).filter (· ≠ "") with
    | none => .error (error "missing message type")
    | some name =>
      match (record.get "data").bind JsonValue.asObject with
      | none => .error (error "missing data object")
      | some data => .ok (name, data)

/-- The time of a record in microseconds, from either counter. -/
def recordTime (error : String → ε) (data : List (String × JsonValue)) :
    Except ε (Option UInt64) := do
  let us ← match data.lookup "TimeUS" with
    | none => pure none
    | some v => match v.asU64 with
      | some t => pure (some t)
      | none => .error (error "TimeUS must be an unsigned integer")
  let ms ← match data.lookup "TimeMS" with
    | none => pure none
    | some v => match v.asU64 with
      | some t =>
        if t.toNat * 1000 < 2 ^ 64 then pure (some (t * 1000))
        else .error (error "TimeMS must fit microseconds")
      | none => .error (error "TimeMS must fit microseconds")
  if us.isSome ∧ ms.isSome ∧ us ≠ ms then .error (error "conflicting time fields")
  else return us <|> ms

def parseLine (log : DecodedLog) (line : List Char × ℕ) : Except ParseError DecodedLog := do
  let error (reason : String) : ParseError := ⟨line.2 + 1, reason⟩
  match (serde.fromStr (String.ofList line.1)).bind JsonValue.unique with
  | none => .error (error "invalid JSON or duplicate object key")
  | some record => do
    let (_, data) ← recordParts error record
    let time ← recordTime error data
    let records := log.records ++ [record]
    match time with
    | some bootUs => return { log with
        records
        timedRecords := log.timedRecords ++ [⟨line.2, bootUs⟩] }
    | none => return { log with records, untimedRecords := log.untimedRecords + 1 }

def parse (bytes : List UInt8) : Except ParseError DecodedLog :=
  match fromUtf8 bytes with
  | .error _ => .error ⟨0, "invalid UTF-8"⟩
  | .ok text => do
    let log ← (lines text.toList).zipIdx.foldlM (parseLine serde) {}
    if log.timedRecords = [] then .error ⟨0, "no timed records"⟩ else return log

/-! ## 3. `read_report` -/

structure ReadReport where
  observations : List Observation := []
  records : List JsonValue := []
  untimedRecords : ℕ := 0
  platformDomain : PlatformDomain := .unknown
  firmwareIdentity : Option String := none

def formatId : String := "pymavlink_dataflash_jsonl"

def startsWith (s lead : String) : Bool := lead.toList.isPrefixOf s.toList

def fieldValue (v : JsonValue) : FieldValue :=
  match v with
  | .number n =>
    match n.asI64 with
    | some i => .i64 i
    | none => if n.asU64.isSome then .text (serde.display v) else .f64 n.asF64
  | .string s => .text s
  | .null => .blank
  | other => .text (serde.display other)

/-- The family that a firmware message names. -/
def messageFamily (message : String) : Option Family :=
  if startsWith message "ArduPlane " then some .fixedWing
  else if startsWith message "ArduRover " ∨ startsWith message "Rover " then some .ugv
  else none

/-- The report so far, and what the records have said of the vehicle. -/
structure ReportState where
  report : ReadReport := {}
  identityFamily : Option Family := none
  roverFrame : Option F64 := none

variable (sha256 : List UInt8 → Digest) (profile : FamilyProfile)

def recordIdentity (lineNo : ℕ) (name : String) (data : List (String × JsonValue))
    (state : ReportState) : Except ReadError ReportState :=
  match (if name = "MSG" then (data.lookup "Message").bind JsonValue.asStr else none) with
  | none => .ok state
  | some message =>
    match messageFamily message with
    | none => .ok state
    | some family =>
      if state.identityFamily.any (· ≠ family) ∨ family ≠ profile.family then
        .error (.malformed lineNo "firmware identity contradicts profile or previous identity")
      else .ok { state with
        identityFamily := some family
        report := { state.report with firmwareIdentity := some message } }

def recordFrame (lineNo : ℕ) (name : String) (data : List (String × JsonValue))
    (state : ReportState) : Except ReadError ReportState :=
  if profile.family = .ugv ∧ name = "PARM" ∧
      (data.lookup "Name").bind JsonValue.asStr = some "FRAME_CLASS" then
    match (data.lookup "Value").bind JsonValue.asF64 with
    | none => .error (.malformed lineNo "invalid FRAME_CLASS")
    | some frame =>
      if state.roverFrame.any fun old => !old.eq frame then
        .error (.malformed lineNo "conflicting FRAME_CLASS")
      else .ok { state with roverFrame := some frame }
  else .ok state

/-- A timed record's observation, on the clock of its boot alone. -/
def recordObservation (lineNo : ℕ) (name : String) (data : List (String × JsonValue))
    (tUs : UInt64) : Except ReadError Observation :=
  if tUs.toNat / 1000 < 2 ^ 63 then
    let fields := data.map fun (key, v) => (name ++ "." ++ key, fieldValue serde v)
    .ok { observation sha256 profile (.ofNat (tUs.toNat / 1000)) (Bin.channelFor name) fields
        false with
      tBootUs := some tUs
      clockBasis := .bootRelative
      wallMs := none
      anchorUnixUs := none
      timeConfidence := defaultTimeConfidence .bootRelative }
  else .error (.malformed lineNo "time overflow")

def readRecord (times : List TimedRecord) (state : ReportState) (item : JsonValue × ℕ) :
    Except ReadError ReportState := do
  let (record, index) := item
  let lineNo := index + 1
  let (name, data) ← recordParts (.malformed lineNo) record
  let state ← recordIdentity profile lineNo name data state
  let state ← recordFrame profile lineNo name data state
  let sensorLocalMs :=
    (data.lookup "TimeUS").isNone && (startsWith name "ACC" || startsWith name "GYR")
  let records := state.report.records ++ [record]
  match (times.find? (·.recordIndex = index)).filter fun _ => !sensorLocalMs with
  | some t => do
    let o ← recordObservation serde sha256 profile lineNo name data t.bootUs
    return { state with report := { state.report with
      records
      observations := state.report.observations ++ [o] } }
  | none => return { state with report := { state.report with
      records
      untimedRecords := state.report.untimedRecords + 1 } }

def ReportState.platformDomain (state : ReportState) : PlatformDomain :=
  match state.identityFamily, state.roverFrame with
  | some .fixedWing, _ => .air
  | some .ugv, some frame =>
    if frame.eq (.ofRat 1) then .ground else if frame.eq (.ofRat 2) then .surface else .unknown
  | _, _ => .unknown

def readReport (bytes : List UInt8) : Except ReadError ReadReport :=
  if profile.format ≠ formatId then
    .error (.profile "expected pymavlink_dataflash_jsonl profile")
  else do
    let decoded ← (parse serde bytes).mapError fun e => .malformed e.line e.reason
    let state ← decoded.records.zipIdx.foldlM
      (readRecord serde sha256 profile decoded.timedRecords) {}
    if state.report.records = [] ∨ state.report.observations = [] then
      .error (.malformed 0 "no timed DataFlash observations")
    else return { state.report with platformDomain := state.platformDomain }

end Musubi.Reference.Mavlog
