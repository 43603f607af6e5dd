/-
# Reading host-state lines

What a line of host-state evidence says to a reader of JSON: one value, in which no object has two
fields of one name, and from which every field of the observation and of the claim comes back.  A
number that is not finite is left out.

The reader is that of the library: the grammar of JSON, which reads a text as at most one value,
with objects as lists of fields.  The two publishers write the same observation under different
names, so reading the observation is one function and one round trip, and the two lines differ in
the record around it.

Texts are arbitrary.  Control characters and quotes in the name of a host or of a component are
escaped by the code's own escaper, and reading the escapes gives the text back; floats come back
from their decimal texts bit by bit, with infinities and NaN as the exceptions that `carried`
states.
-/
import Musubi.Northbound.HostState

namespace Musubi.Northbound.HostState

open Lib JsonText Musubi.Core

/-! ## 1. Well-formed values -/

theorem wellFormed_f64Value (value : F64) : (f64Value value).WellFormed := by
  unfold f64Value
  split
  · next hfinite => exact wellFormed_number (F64.isNumber_display hfinite)
  · exact wellFormed_null

theorem wellFormed_f32Value (value : F32) : (f32Value value).WellFormed := by
  unfold f32Value
  split
  · next hfinite => exact wellFormed_number (F32.isNumber_display hfinite)
  · exact wellFormed_null

theorem wellFormed_u64Value (value : UInt64) : (u64Value value).WellFormed :=
  wellFormed_natural value.toNat

theorem wellFormed_u32Value (value : UInt32) : (u32Value value).WellFormed :=
  wellFormed_natural value.toNat

theorem wellFormed_i64Value (value : Int64) : (i64Value value).WellFormed :=
  wellFormed_integer value.toInt

/-- A map has every key once. -/
theorem wellFormed_mapValue {α : Type} {write : α → Value} (h : ∀ x, (write x).WellFormed)
    (m : BTreeMap String α) : (mapValue write m).WellFormed := by
  refine wellFormed_record ?_ ?_
  · have hkeys : (m.entries.map fun x => (x.1, write x.2)).map Prod.fst =
        m.entries.map Prod.fst := by
      rw [List.map_map]
      rfl
    rw [hkeys]
    exact List.pairwise_map.mpr (m.sorted.imp ne_of_lt)
  · exact List.forall_mem_map.mpr fun x _ => h x.2

theorem wellFormed_counterValue (counter : HostStateCounter) :
    (counterValue counter).WellFormed := by
  refine wellFormed_record (by simp) ?_
  simp only [List.forall_mem_cons]
  exact ⟨wellFormed_u64Value _, wellFormed_optional wellFormed_u64Value _, fun _ h => nomatch h⟩

theorem wellFormed_interfaceValue (interface : HostStateNetworkInterface) :
    (interfaceValue interface).WellFormed := by
  refine wellFormed_record (by simp) ?_
  simp only [List.forall_mem_cons]
  exact ⟨wellFormed_optional wellFormed_u32Value _, wellFormed_optional wellFormed_text _,
    wellFormed_optional wellFormed_bool _, wellFormed_optional wellFormed_u32Value _,
    wellFormed_mapValue wellFormed_counterValue _, fun _ h => nomatch h⟩

theorem wellFormed_markValue (mark : Mark) : (markValue mark).WellFormed := by
  refine wellFormed_record (by simp) ?_
  simp only [List.forall_mem_cons]
  refine ⟨wellFormed_text _, wellFormed_text _, wellFormed_list ?_, fun _ h => nomatch h⟩
  exact List.forall_mem_map.mpr fun s _ => wellFormed_text s

theorem wellFormed_timestampsValue (timestamps : Timestamps) :
    (timestampsValue timestamps).WellFormed := by
  refine wellFormed_record (by simp) ?_
  simp only [List.forall_mem_cons]
  exact ⟨wellFormed_optional wellFormed_i64Value _, wellFormed_i64Value _, wellFormed_f32Value _,
    fun _ h => nomatch h⟩

theorem wellFormed_hostValue (host : HostStateHost) : (hostValue host).WellFormed := by
  have htext := wellFormed_optional wellFormed_text
  have hf64 := wellFormed_optional wellFormed_f64Value
  have hu64 := wellFormed_optional wellFormed_u64Value
  refine wellFormed_record (by simp) ?_
  simp only [List.forall_mem_cons]
  refine ⟨wellFormed_record (by simp) ?_, htext _, htext _, hf64 _,
    wellFormed_record (by simp) ?_, wellFormed_record (by simp) ?_,
    wellFormed_mapValue wellFormed_counterValue _, fun _ h => nomatch h⟩
  · simp only [List.forall_mem_cons]
    exact ⟨htext _, htext _, fun _ h => nomatch h⟩
  · simp only [List.forall_mem_cons]
    exact ⟨hf64 _, hf64 _, hf64 _, fun _ h => nomatch h⟩
  · simp only [List.forall_mem_cons]
    exact ⟨hu64 _, hu64 _, hu64 _, hu64 _, fun _ h => nomatch h⟩

theorem wellFormed_observationValue (observation : HostStateObservation) :
    (observationValue observation).WellFormed := by
  refine wellFormed_record (by simp) ?_
  simp only [List.forall_mem_cons]
  exact ⟨wellFormed_text _, wellFormed_text _, wellFormed_text _, wellFormed_u64Value _,
    wellFormed_timestampsValue _, wellFormed_hostValue _,
    wellFormed_mapValue wellFormed_interfaceValue _, fun _ h => nomatch h⟩

theorem wellFormed_evidenceValue (observation : HostStateObservation) (claim : Claim)
    (classification : Option String) (digest : String) :
    (evidenceValue observation claim classification digest).WellFormed := by
  refine wellFormed_record (by simp) ?_
  simp only [List.forall_mem_cons]
  refine ⟨wellFormed_text _, wellFormed_observationValue _, wellFormed_record (by simp) ?_,
    wellFormed_optional wellFormed_text _, wellFormed_text _, fun _ h => nomatch h⟩
  simp only [List.forall_mem_cons]
  exact ⟨wellFormed_text _, wellFormed_f32Value _, wellFormed_markValue _, fun _ h => nomatch h⟩

theorem wellFormed_maintenanceValue (observation : HostStateObservation) (claim : Claim)
    (digest : String) : (maintenanceValue observation claim digest).WellFormed := by
  refine wellFormed_record (by simp) ?_
  simp only [List.forall_mem_cons]
  exact ⟨wellFormed_text _, wellFormed_text _, wellFormed_text _, wellFormed_observationValue _,
    wellFormed_markValue _, wellFormed_f32Value _, fun _ h => nomatch h⟩

/-! ## 2. What is read -/

def asF64 : Value → Option F64
  | .number t => F64.parse (String.ofList t)
  | _ => none

def asF32 : Value → Option F32
  | .number t => F32.parse (String.ofList t)
  | _ => none

/-- A map; its keys are in order. -/
def asMap {α : Type} (read : Value → Option α) (v : Value) : Option (BTreeMap String α) :=
  (v.entries read).bind fun entries =>
    if h : entries.Pairwise (fun a b => a.1 < b.1) then some ⟨entries, h⟩ else none

def asMarkStatus (v : Value) : Option MarkStatus :=
  v.asText.bind fun label =>
    [.ok, .degraded, .invalid, .orderUnknown, .withheld, .staleRevocation, .selfAssertedTime,
      .bufferSaturated].find? fun status => markStatusLabel status = label

def asDigest (v : Value) : Option Digest :=
  v.asText.bind fun s => (unhex s.toList).bind fun bytes =>
    if h : bytes.length = 32 then some ⟨bytes.toArray, by simp [h]⟩ else none

def readCounter (v : Value) : Option HostStateCounter := do
  let raw ← (← v.field "raw").asU64
  let delta ← (← v.field "delta").nullable Value.asU64
  pure ⟨raw, delta⟩

def readInterface (v : Value) : Option HostStateNetworkInterface := do
  let ifindex ← (← v.field "ifindex").nullable Value.asU32
  let operstate ← (← v.field "operstate").nullable Value.asText
  let carrier ← (← v.field "carrier").nullable Value.asBool
  let mtu ← (← v.field "mtu").nullable Value.asU32
  let counters ← asMap readCounter (← v.field "counters")
  pure ⟨ifindex, operstate, carrier, mtu, counters⟩

def readMark (v : Value) : Option Mark := do
  let status ← asMarkStatus (← v.field "status")
  let reasonCode ← (← v.field "reason_code").asText
  let provenance ← (← v.field "provenance").elements Value.asText
  pure ⟨status, reasonCode, provenance⟩

def readLoad (v : Value) : Option HostStateLoad := do
  let oneMin ← (← v.field "one_min").nullable asF64
  let fiveMin ← (← v.field "five_min").nullable asF64
  let fifteenMin ← (← v.field "fifteen_min").nullable asF64
  pure ⟨oneMin, fiveMin, fifteenMin⟩

def readMemory (v : Value) : Option HostStateMemory := do
  let memTotal ← (← v.field "mem_total").nullable Value.asU64
  let memAvailable ← (← v.field "mem_available").nullable Value.asU64
  let swapTotal ← (← v.field "swap_total").nullable Value.asU64
  let swapFree ← (← v.field "swap_free").nullable Value.asU64
  pure ⟨memTotal, memAvailable, swapTotal, swapFree⟩

def readOs (v : Value) : Option HostStateOsIdentity := do
  let id ← (← v.field "id").nullable Value.asText
  let versionId ← (← v.field "version_id").nullable Value.asText
  pure ⟨id, versionId⟩

def readHost (v : Value) : Option HostStateHost := do
  let os ← readOs (← v.field "os")
  let kernelRelease ← (← v.field "kernel_release").nullable Value.asText
  let model ← (← v.field "model").nullable Value.asText
  let uptimeSeconds ← (← v.field "uptime_seconds").nullable asF64
  let load ← readLoad (← v.field "load")
  let memoryKib ← readMemory (← v.field "memory_kib")
  let cpuTotalTicks ← asMap readCounter (← v.field "cpu_total_ticks")
  pure ⟨os, kernelRelease, model, uptimeSeconds, load, memoryKib, cpuTotalTicks⟩

/-- What a line says of an observation. -/
structure ObservationFields where
  kind : String
  sourceContractId : String
  hostId : String
  sequence : UInt64
  observedAt : Option Int64
  receivedAt : Int64
  timeConfidence : Option F32
  host : HostStateHost
  network : BTreeMap String HostStateNetworkInterface

def readObservation (v : Value) : Option ObservationFields := do
  let kind ← (← v.field "kind").asText
  let sourceContractId ← (← v.field "source_contract_id").asText
  let hostId ← (← v.field "host_id").asText
  let sequence ← (← v.field "sequence").asU64
  let timestamps ← v.field "timestamps"
  let observedAt ← (← timestamps.field "observed_at").nullable Value.asI64
  let receivedAt ← (← timestamps.field "received_at").asI64
  let timeConfidence ← (← timestamps.field "time_confidence").nullable asF32
  let host ← readHost (← v.field "host")
  let network ← asMap readInterface (← v.field "network")
  pure ⟨kind, sourceContractId, hostId, sequence, observedAt, receivedAt, timeConfidence, host,
    network⟩

structure EvidenceFields where
  schema : String
  observation : ObservationFields
  claimId : String
  confidence : Option F32
  mark : Mark
  classification : Option String
  contentDigest : Digest

def readEvidence (v : Value) : Option EvidenceFields := do
  let schema ← (← v.field "schema").asText
  let observation ← readObservation (← v.field "observation")
  let claim ← v.field "claim"
  let claimId ← (← claim.field "claim_id").asText
  let confidence ← (← claim.field "confidence").nullable asF32
  let mark ← readMark (← claim.field "mark")
  let classification ← (← v.field "classification").nullable Value.asText
  let contentDigest ← asDigest (← v.field "content_digest")
  pure ⟨schema, observation, claimId, confidence, mark, classification, contentDigest⟩

structure MaintenanceFields where
  schema : String
  evidenceId : String
  contentDigest : Digest
  hostState : ObservationFields
  mark : Mark
  confidence : Option F32

def readMaintenance (v : Value) : Option MaintenanceFields := do
  let schema ← (← v.field "schema").asText
  let evidenceId ← (← v.field "evidence_id").asText
  let contentDigest ← asDigest (← v.field "content_digest")
  let hostState ← readObservation (← v.field "host_state")
  let mark ← readMark (← v.field "mark")
  let confidence ← (← v.field "confidence").nullable asF32
  pure ⟨schema, evidenceId, contentDigest, hostState, mark, confidence⟩

/-! ## 3. What is carried -/

/-- The number, unless it is not finite. -/
def carriedF64 (value : Option F64) : Option F64 := value.filter F64.isFinite

def carriedF32 (value : F32) : Option F32 := if value.isFinite then some value else none

def carriedHost (host : HostStateHost) : HostStateHost :=
  { host with
    uptimeSeconds := carriedF64 host.uptimeSeconds
    load :=
      { oneMin := carriedF64 host.load.oneMin
        fiveMin := carriedF64 host.load.fiveMin
        fifteenMin := carriedF64 host.load.fifteenMin } }

def carried (observation : HostStateObservation) : ObservationFields where
  kind := "host_state_observation"
  sourceContractId := observation.sourceContractId
  hostId := observation.hostId
  sequence := observation.sequence
  observedAt := observation.timestamps.observedAt
  receivedAt := observation.timestamps.receivedAt
  timeConfidence := carriedF32 observation.timestamps.timeConfidence
  host := carriedHost observation.host
  network := observation.network

/-! ## 4. Reading undoes writing -/

@[simp] theorem nullable_u64 (x : Option UInt64) :
    (optional u64Value x).nullable Value.asU64 = some x :=
  nullable_optional asU64_natural fun _ h => nomatch h

@[simp] theorem nullable_u32 (x : Option UInt32) :
    (optional u32Value x).nullable Value.asU32 = some x :=
  nullable_optional asU32_natural fun _ h => nomatch h

@[simp] theorem nullable_i64 (x : Option Int64) :
    (optional i64Value x).nullable Value.asI64 = some x :=
  nullable_optional asI64_integer fun _ h => nomatch h

@[simp] theorem nullable_text (x : Option String) :
    (optional text x).nullable Value.asText = some x :=
  nullable_optional asText_text fun _ h => nomatch h

@[simp] theorem nullable_bool (x : Option Bool) :
    (optional .bool x).nullable Value.asBool = some x :=
  nullable_optional asBool_bool fun _ h => nomatch h

@[simp] theorem nullable_f64 (x : Option F64) :
    (optional f64Value x).nullable asF64 = some (carriedF64 x) := by
  cases x with
  | none => rfl
  | some value =>
    by_cases hfinite : value.isFinite = true
    · have hread : (Value.number value.display).nullable asF64 = some (some value) := by
        change (F64.parse (String.ofList value.display)).map some = _
        rw [F64.parse_display hfinite, Option.map_some]
      rw [JsonText.optional, f64Value, if_pos hfinite, hread, carriedF64,
        Option.filter_some_pos hfinite]
    · rw [JsonText.optional, f64Value, if_neg hfinite, carriedF64,
        Option.filter_some_neg (Bool.eq_false_of_not_eq_true hfinite)]
      rfl

@[simp] theorem nullable_f32 (value : F32) :
    (f32Value value).nullable asF32 = some (carriedF32 value) := by
  by_cases hfinite : value.isFinite = true
  · have hread : (Value.number value.display).nullable asF32 = some (some value) := by
      change (F32.parse (String.ofList value.display)).map some = _
      rw [F32.parse_display hfinite, Option.map_some]
    rw [f32Value, if_pos hfinite, hread, carriedF32, if_pos hfinite]
  · rw [f32Value, if_neg hfinite, carriedF32, if_neg hfinite]
    rfl

@[simp] theorem asU64_u64Value (value : UInt64) : (u64Value value).asU64 = some value :=
  asU64_natural value

@[simp] theorem asI64_i64Value (value : Int64) : (i64Value value).asI64 = some value :=
  asI64_integer value

theorem asMap_mapValue {α : Type} {read : Value → Option α} {write : α → Value}
    (h : ∀ x, read (write x) = some x) (m : BTreeMap String α) :
    asMap read (mapValue write m) = some m := by
  rw [asMap, mapValue, entries_record fun x _ => h x.2, Option.bind_some, dif_pos m.sorted]

@[simp] theorem readCounter_counterValue (counter : HostStateCounter) :
    readCounter (counterValue counter) = some counter := by
  simp [readCounter, counterValue, List.lookup_cons]

@[simp] theorem asMap_counters (m : BTreeMap String HostStateCounter) :
    asMap readCounter (mapValue counterValue m) = some m :=
  asMap_mapValue readCounter_counterValue m

@[simp] theorem readInterface_interfaceValue (interface : HostStateNetworkInterface) :
    readInterface (interfaceValue interface) = some interface := by
  simp [readInterface, interfaceValue, List.lookup_cons]

@[simp] theorem asMap_network (m : BTreeMap String HostStateNetworkInterface) :
    asMap readInterface (mapValue interfaceValue m) = some m :=
  asMap_mapValue readInterface_interfaceValue m

@[simp] theorem asMarkStatus_label (status : MarkStatus) :
    asMarkStatus (text (markStatusLabel status)) = some status := by
  rw [asMarkStatus, asText_text, Option.bind_some]
  cases status <;> decide

@[simp] theorem readMark_markValue (mark : Mark) : readMark (markValue mark) = some mark := by
  have hprovenance : (list (mark.provenance.map text)).elements Value.asText =
      some mark.provenance := elements_list fun s _ => asText_text s
  simp [readMark, markValue, List.lookup_cons, hprovenance]

@[simp] theorem asDigest_hexLower (d : Digest) : asDigest (text (hexLower d.toList)) = some d := by
  rw [asDigest, asText_text, Option.bind_some, unhex_hexLower, Option.bind_some,
    dif_pos d.length_toList]
  rfl

@[simp] theorem readHost_hostValue (host : HostStateHost) :
    readHost (hostValue host) = some (carriedHost host) := by
  simp [readHost, hostValue, List.lookup_cons, readOs, readLoad, readMemory, carriedHost]

@[simp] theorem readObservation_observationValue (observation : HostStateObservation) :
    readObservation (observationValue observation) = some (carried observation) := by
  simp [readObservation, observationValue, timestampsValue, List.lookup_cons, carried]

theorem readEvidence_evidenceValue (observation : HostStateObservation) (claim : Claim)
    (classification : Option String) (d : Digest) :
    readEvidence (evidenceValue observation claim classification (hexLower d.toList)) =
      some ⟨"musubi.evidence.ndjson/v1", carried observation, claim.claimId,
        carriedF32 claim.confidence, claim.mark, classification, d⟩ := by
  simp [readEvidence, evidenceValue, List.lookup_cons]

theorem readMaintenance_maintenanceValue (observation : HostStateObservation) (claim : Claim)
    (d : Digest) :
    readMaintenance (maintenanceValue observation claim (hexLower d.toList)) =
      some ⟨"musubi.maintenance.host-state.ndjson/v1", claim.claimId, d, carried observation,
        claim.mark, carriedF32 claim.confidence⟩ := by
  simp [readMaintenance, maintenanceValue, List.lookup_cons]

/-! ## 5. Lines -/

/-- One line of JSON with the value: nothing else is a value of it, and names are told apart. -/
structure IsLineOf (output : List UInt8) (v : Value) : Prop where
  line : ∃ text : Text, output = utf8 (String.ofList text) ++ [10] ∧
    10 ∉ utf8 (String.ofList text) ∧ ∀ v', IsText text v' ↔ v' = v
  unique : v.UniqueKeys

theorem isLineOf_compact {v : Value} (h : v.WellFormed) :
    IsLineOf (intoBytes (v.compact ++ ['\n'])) v where
  line := by
    refine ⟨v.compact, ?_, ?_, fun v' => ⟨fun h' => ?_, ?_⟩⟩
    · rw [intoBytes, utf8, utf8, toByteArray_toList, toByteArray_toList]
      simp only [String.toList_ofList, List.flatMap_append]
      rfl
    · intro hmem
      have hnewline := (mem_toByteArray (c := '\n') (by decide) _).mp hmem
      rw [String.toList_ofList] at hnewline
      exact absurd (printable_compact v h.lexical '\n' hnewline) (by decide)
    · exact h'.unique (isText_compact h.lexical)
    · rintro rfl
      exact isText_compact h.lexical
  unique := h.unique

/-- **Each host-state publisher writes one line, and the line gives back what went into it.** The
two hypotheses are what publishing asks for: that the evidence is about a host state and has a
digest.  `IsLineOf` says that the output is the text of one value and a line feed, that no other
value has this text, and that no object in it has a name twice; the records behind it list every
field that is read back, so a field that a publisher left out, or wrote under another's name,
would have to be missing there. -/
theorem host_state_lines (envelope : EvidenceEnvelope) (observation : HostStateObservation)
    (d : Digest) (hobservation : envelope.observation = .hostStateObservation observation)
    (hdigest : envelope.contentDigest = some d) :
    (∃ output v, evidenceNdjsonPublisher.publish envelope = .ok output ∧ IsLineOf output v ∧
      readEvidence v = some
        { schema := "musubi.evidence.ndjson/v1"
          observation := carried observation
          claimId := envelope.claim.claimId
          confidence := carriedF32 envelope.claim.confidence
          mark := envelope.claim.mark
          classification := envelope.classification
          contentDigest := d }) ∧
    ∃ output v, maintenanceHostStateNdjsonPublisher.publish envelope = .ok output ∧
      IsLineOf output v ∧
      readMaintenance v = some
        { schema := "musubi.maintenance.host-state.ndjson/v1"
          evidenceId := envelope.claim.claimId
          contentDigest := d
          hostState := carried observation
          mark := envelope.claim.mark
          confidence := carriedF32 envelope.claim.confidence } := by
  have hhost (dialect : String) : hostState envelope dialect = .ok observation := by
    rw [hostState, hobservation]
  refine ⟨⟨intoBytes (evidenceLine observation envelope.claim envelope.classification
      (hexLower d.toList)), _, ?_, ?_, readEvidence_evidenceValue ..⟩,
    ⟨intoBytes (maintenanceLine observation envelope.claim (hexLower d.toList)), _, ?_, ?_,
      readMaintenance_maintenanceValue ..⟩⟩
  · change EvidenceNdjsonPublisher.publish envelope = _
    rw [EvidenceNdjsonPublisher.publish, hhost, digest_eq hdigest]
    rfl
  · rw [evidenceLine_eq]
    exact isLineOf_compact (wellFormed_evidenceValue ..)
  · change MaintenanceHostStateNdjsonPublisher.publish envelope = _
    rw [MaintenanceHostStateNdjsonPublisher.publish, hhost, digest_eq hdigest]
    rfl
  · rw [maintenanceLine_eq]
    exact isLineOf_compact (wellFormed_maintenanceValue ..)

/-- A host that reports a name with a quote and a control character, a load that is not a number,
and one interface. -/
def quotedHost : HostStateObservation where
  sourceContractId := "host-state/v1"
  hostId := "a\"b\x01\\"
  sequence := 18446744073709551615
  timestamps := ⟨none, -1, ⟨0x3f800000⟩⟩
  host :=
    { os := ⟨some "linux", none⟩
      kernelRelease := none
      model := none
      uptimeSeconds := some ⟨0x3ff8000000000000⟩
      load := ⟨some ⟨0x7ff8000000000000⟩, none, none⟩
      memoryKib := ⟨some 1024, none, none, none⟩
      cpuTotalTicks := ⟨[("user", ⟨3, none⟩)], by simp⟩ }
  network := ⟨[("eth0", ⟨some 2, some "up", some true, none, ⟨[], .nil⟩⟩)], by simp⟩

def quotedEnvelope : EvidenceEnvelope where
  observation := .hostStateObservation quotedHost
  claim := ⟨"claim-1", ⟨0x7f800000⟩, ⟨.degraded, "line\nbreak", ["a", "\t"]⟩, none⟩
  classification := none
  signature := none
  contentDigest := some (Vector.replicate 32 0xab)
  signerId := none
  signedAt := none
  revocationProof := none
  trustAnnotations := none

theorem quotedEnvelope_lines :
    (∃ output v, evidenceNdjsonPublisher.publish quotedEnvelope = .ok output ∧
      IsLineOf output v ∧
      readEvidence v = some
        { schema := "musubi.evidence.ndjson/v1"
          observation := carried quotedHost
          claimId := "claim-1"
          confidence := none
          mark := ⟨.degraded, "line\nbreak", ["a", "\t"]⟩
          classification := none
          contentDigest := Vector.replicate 32 0xab }) ∧
    ∃ output v, maintenanceHostStateNdjsonPublisher.publish quotedEnvelope = .ok output ∧
      IsLineOf output v ∧
      readMaintenance v = some
        { schema := "musubi.maintenance.host-state.ndjson/v1"
          evidenceId := "claim-1"
          contentDigest := Vector.replicate 32 0xab
          hostState := carried quotedHost
          mark := ⟨.degraded, "line\nbreak", ["a", "\t"]⟩
          confidence := none } :=
  host_state_lines quotedEnvelope quotedHost (Vector.replicate 32 0xab) rfl rfl

end Musubi.Northbound.HostState
