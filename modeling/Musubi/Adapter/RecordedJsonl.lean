/-
# Recorded positions

`adapter-spi/src/recorded_jsonl.rs`: a profile that a person has written says which fields of a
decoded log are a position, and every timed record of its type becomes an envelope or an error of
its own.  A profile is one JSON object; it is put between two pieces of a record, so that the
reader of records can read it.

Nothing in a profile is guessed.  A key that is not declared is refused, and so is a token that is
too long, a label with a character outside of ASCII, a unit that is not known.  A record is mapped
from the fields that the profile names and from no others; a number that is missing or is not
finite rejects the record, and the report says which one and why.

`ingest` reads the whole log and `normalize` one line of it.  Both end in `normalizeRecord`, and
what the loop around it does with times and indices is the subject of `Adapter.IngestAccounting`.
-/
import Musubi.Adapter.Spi
import Musubi.Core.Canonical
import Musubi.Reference.MavlogJson

namespace Musubi.Adapter.RecordedJsonl

open Lib Musubi.Core Reference.Mavlog

/-! ## 1. Bounds -/

def adapterSlug : String := "recorded-jsonl/v1"

def maxInputBytes : ℕ := 16 * 1024 * 1024

def maxRecordBytes : ℕ := 64 * 1024

def maxProfileBytes : ℕ := 4096

def maxDepth : ℕ := 32

def failure (source reason : String) : NormalizeError := invalid source adapterSlug reason reason

def bounded (bytes : List UInt8) (max : ℕ) (source : String) : Except NormalizeError Unit :=
  (do payloadSize bytes max
      jsonNesting bytes maxDepth : Except TextReject Unit).mapError
    (quarantineError source adapterSlug)

def token (value source : String) : Except NormalizeError Unit := do
  (quarantineStrField "identifier" value 256).mapError (quarantineError source adapterSlug)
  if value.isEmpty ∨ ';' ∈ value.toList then .error (failure source "invalid-identifier")
  else .ok ()

/-! ## 2. Profiles -/

structure Mapping where
  messageType : String
  latitudeField : String
  longitudeField : String
  altitudeField : String
  domain : PlatformDomain
  fix : Option (String × UInt64)
  sourceChannelPath : Option (List String)
deriving DecidableEq

abbrev Fields := List (String × JsonValue)

def profileSource : String := "mapping-profile"

def profileKeys : List String :=
  ["message_type", "latitude_field", "longitude_field", "altitude_field", "domain", "fix_field",
    "min_fix", "position_units", "source_channel_path"]

/-- A field of the profile that is a token. -/
def field (obj : Fields) (name : String) : Except NormalizeError String :=
  match (obj.lookup name).bind JsonValue.asStr with
  | none => .error (failure profileSource "invalid-profile")
  | some value => do
    token value profileSource
    return value

def domainOf (obj : Fields) : Except NormalizeError PlatformDomain :=
  match obj.lookup "domain" with
  | none => .ok .unknown
  | some value => match value.asStr with
    | some "unknown" => .ok .unknown
    | some "air" => .ok .air
    | some "surface" => .ok .surface
    | some "ground" => .ok .ground
    | _ => .error (failure profileSource "invalid-domain")

def fixOf (obj : Fields) : Except NormalizeError (Option (String × UInt64)) :=
  match obj.lookup "fix_field", obj.lookup "min_fix" with
  | none, none => .ok none
  | some _, some min => do
    let name ← field obj "fix_field"
    match min.asU64 with
    | some min => return some (name, min)
    | none => .error (failure profileSource "invalid-fix-policy")
  | _, _ => .error (failure profileSource "invalid-fix-policy")

/-- A key of the path to the channel. -/
def pathKey (part : JsonValue) : Except NormalizeError String :=
  match part.asStr with
  | none => .error (failure profileSource "invalid-channel-path")
  | some key => do
    token key profileSource
    return key

def channelPathOf (obj : Fields) : Except NormalizeError (Option (List String)) :=
  match obj.lookup "source_channel_path" with
  | none => .ok none
  | some (.array parts) =>
    if 1 ≤ parts.length ∧ parts.length ≤ 8 then (parts.mapM pathKey).map some
    else .error (failure profileSource "invalid-channel-path")
  | some _ => .error (failure profileSource "invalid-channel-path")

/-- The mapping that the fields of a profile declare. -/
def mappingOf (obj : Fields) : Except NormalizeError Mapping := do
  if obj.any fun entry => entry.1 ∉ profileKeys then
    .error (failure profileSource "unknown-profile-key")
  else
    let units ← field obj "position_units"
    if units ≠ "deg-m-msl" then .error (failure profileSource "unsupported-units")
    else
      let domain ← domainOf obj
      let fix ← fixOf obj
      let sourceChannelPath ← channelPathOf obj
      let messageType ← field obj "message_type"
      let latitudeField ← field obj "latitude_field"
      let longitudeField ← field obj "longitude_field"
      let altitudeField ← field obj "altitude_field"
      return { messageType, latitudeField, longitudeField, altitudeField, domain, fix,
               sourceChannelPath }

/-! ## 3. The wrapper -/

/-- What stands in front of the profile in its record; what stands behind it is a brace. -/
def wrapperFront : List Char :=
  r#"{"meta":{"type":"profile"},"data":{"TimeUS":0},"profile":"#.toList

/-- Whether a byte is in a string, and behind a backslash in one. -/
structure Quoting where
  quoted : Bool := false
  escaped : Bool := false
deriving DecidableEq

/-- One byte: `"` is `0x22`, the backslash `0x5C`, and line breaks outside of strings become
spaces. -/
def unbreakByte (q : Quoting) (b : UInt8) : Quoting × UInt8 :=
  if q.quoted then
    if q.escaped then ({ q with escaped := false }, b)
    else if b = 0x5C then ({ q with escaped := true }, b)
    else if b = 0x22 then ({ q with quoted := false }, b)
    else (q, b)
  else if b = 0x22 then ({ q with quoted := true }, b)
  else if b = 0x0A ∨ b = 0x0D then (q, 0x20)
  else (q, b)

def unbreak (q : Quoting) : List UInt8 → List UInt8
  | [] => []
  | b :: bytes => (unbreakByte q b).2 :: unbreak (unbreakByte q b).1 bytes

def wrap (bytes : List UInt8) : List UInt8 :=
  unbreak {} (wrapperFront.map (fun c => .ofNat c.toNat) ++ bytes ++ [0x7D])

variable (serde : SerdeJson)

/-- The fields of the profile in the one record that is read. -/
def profileOf (log : DecodedLog) : Option Fields :=
  match log.records with
  | [.object fields] =>
    if fields.length = 3 then (fields.lookup "profile").bind JsonValue.asObject else none
  | _ => none

def Mapping.parse (bytes : List UInt8) : Except NormalizeError Mapping := do
  bounded bytes maxProfileBytes profileSource
  match Reference.Mavlog.parse serde (wrap bytes) with
  | .error _ => .error (failure profileSource "invalid-profile")
  | .ok log => match profileOf log with
    | none => .error (failure profileSource "invalid-profile")
    | some obj => mappingOf obj

/-! ## 4. Records -/

/-- `record["meta"]["type"]`. -/
def typeOf (record : JsonValue) : Option String :=
  ((record.get "meta").bind (·.get "type")).bind JsonValue.asStr

/-- A number of the data of a record. -/
def number (record : JsonValue) (source name : String) : Except NormalizeError F64 :=
  match (((record.get "data").bind (·.get name)).bind JsonValue.asF64).filter F64.isFinite with
  | some v => .ok v
  | none => .error (failure source "invalid-position-field")

def checkFix (m : Mapping) (record : JsonValue) (source : String) : Except NormalizeError Unit :=
  match m.fix with
  | none => .ok ()
  | some (name, min) =>
    match ((record.get "data").bind (·.get name)).bind JsonValue.asU64 with
    | none => .error (failure source "invalid-fix-field")
    | some fix => if fix < min then .error (failure source "insufficient-fix") else .ok ()

/-- The bytes of a label are ASCII, so they are its characters. -/
def isLabel (label : String) : Bool :=
  0 < label.toList.length ∧ label.toList.length ≤ 64 ∧
    label.toList.all fun c => c.isAlphanum || c ∈ ['_', '-', '.']

/-- What a record has at a path of keys. -/
def select : List String → JsonValue → Option JsonValue
  | [], v => some v
  | key :: path, v => (v.get key).bind (select path)

def channelNotes (m : Mapping) (record : JsonValue) (source : String) :
    Except NormalizeError (List QualityNote) :=
  match m.sourceChannelPath with
  | none => .ok []
  | some path =>
    match ((select path record).bind JsonValue.asStr).filter isLabel with
    | none => .error (failure source "invalid-source-channel")
    | some label => .ok [.neutral ("recorded-channel:" ++ label),
        .neutral "channel-identity:source-asserted"]

def positionNotes : List QualityNote :=
  [.neutral "position-units:deg-m-msl-declared", .neutral "timestamp:boot-counter-not-epoch",
    .neutral "confidence:adapter-assigned", .neutral "source-sidecar:not-sealed"]

/-- The envelope of a position before it is sealed. -/
def envelopeOf (m : Mapping) (source : String) (receivedAt : Int64) (lat lon alt : F64)
    (notes : List QualityNote) : EvidenceEnvelope where
  observation := .platformState
    { platformId := source
      position := some { latDeg := lat, lonDeg := lon, altM := some alt }
      mode := none
      timestamps := { observedAt := none, receivedAt, timeConfidence := .ofRat 0 }
      platformDomain := m.domain }
  claim :=
    { claimId := source ++ ":recorded-jsonl"
      confidence := .ofRat 0
      confidenceBasis := some .adapterAssigned
      mark := deriveMark
        { sourceId := source, adapterSlug, timeConfidence := .ofRat 0, notes } }
  classification := none
  signature := none
  contentDigest := none
  signerId := none
  signedAt := none
  revocationProof := none
  trustAnnotations := none

/-- The source and the time of reception, whatever the record. -/
def checkContext (source : String) (receivedAt : Int64) : Except NormalizeError Unit := do
  token source "invalid-source"
  if receivedAt ≤ 0 then .error (failure source "invalid-received-at") else .ok ()

variable (sha256 : List UInt8 → Digest)

def normalizeRecord (m : Mapping) (record : JsonValue) (source : String) (receivedAt : Int64) :
    Except NormalizeError EvidenceEnvelope := do
  checkContext source receivedAt
  if typeOf record ≠ some m.messageType then .error (failure source "unselected-record")
  else
    let lat ← number record source m.latitudeField
    let lon ← number record source m.longitudeField
    let alt ← number record source m.altitudeField
    if !F64.within (.ofRat (-90)) (.ofRat 90) lat || !F64.within (.ofRat (-180)) (.ofRat 180) lon
    then .error (failure source "position-out-of-range")
    else
      checkFix m record source
      let channel ← channelNotes m record source
      return sealDigest sha256
        (envelopeOf m source receivedAt lat lon alt (positionNotes ++ channel))

/-- `RecordedJsonlNormalizer::normalize`: one observation with one record. -/
def normalize (m : Mapping) (raw : RawObservation) : Except NormalizeError EvidenceEnvelope := do
  bounded raw.payload maxRecordBytes raw.sourceId
  checkContext raw.sourceId raw.receivedAt
  match Reference.Mavlog.parse serde raw.payload with
  | .error _ => .error (failure raw.sourceId "invalid-record")
  | .ok log => match log.records with
    | [record] => normalizeRecord sha256 m record raw.sourceId raw.receivedAt
    | _ => .error (failure raw.sourceId "expected-one-record")

/-! ## 5. Whole logs -/

structure MappedRecord where
  recordIndex : ℕ
  bootUs : UInt64
  envelope : EvidenceEnvelope

structure RejectedRecord where
  recordIndex : ℕ
  error : NormalizeError

structure IngestReport where
  reader : DecodedLog
  mapped : List MappedRecord
  rejected : List RejectedRecord
  untimedIndices : List ℕ
  unmappedIndices : List ℕ

/-- The report so far, and the timed records that are to come. -/
structure Ingesting where
  report : IngestReport
  times : List TimedRecord

def ingestRecord (m : Mapping) (source : String) (receivedAt : Int64) (s : Ingesting)
    (item : JsonValue × ℕ) : Ingesting :=
  let (record, index) := item
  let report := s.report
  match s.times.head?.filter (·.recordIndex = index) with
  | none => { s with report := { report with untimedIndices := report.untimedIndices ++ [index] } }
  | some timed =>
    let times := s.times.tail
    if typeOf record ≠ some m.messageType then
      ⟨{ report with unmappedIndices := report.unmappedIndices ++ [index] }, times⟩
    else match normalizeRecord sha256 m record source receivedAt with
      | .ok envelope =>
        ⟨{ report with mapped := report.mapped ++ [⟨index, timed.bootUs, envelope⟩] }, times⟩
      | .error error =>
        ⟨{ report with rejected := report.rejected ++ [⟨index, error⟩] }, times⟩

def ingestLog (m : Mapping) (source : String) (receivedAt : Int64) (reader : DecodedLog) :
    IngestReport :=
  (reader.records.zipIdx.foldl (ingestRecord sha256 m source receivedAt)
    ⟨⟨reader, [], [], [], []⟩, reader.timedRecords⟩).report

def ingest (bytes : List UInt8) (m : Mapping) (source : String) (receivedAt : Int64) :
    Except NormalizeError IngestReport := do
  bounded bytes maxInputBytes source
  checkContext source receivedAt
  (bytes.splitOn 0x0A).forM fun line => bounded line maxRecordBytes source
  match Reference.Mavlog.parse serde bytes with
  | .error _ => .error (failure source "invalid-jsonl")
  | .ok reader =>
    let report := ingestLog sha256 m source receivedAt reader
    if report.mapped.isEmpty ∧ report.rejected.isEmpty then
      .error (failure source "no-selected-timed-records")
    else .ok report

end Musubi.Adapter.RecordedJsonl
