/-
# Host-state lines

`northbound/src/host_state_json.rs`: two publishers that write the evidence of a host state as one
line of JSON, text after text, with an escaper of their own.  The value that a line is the compact
text of stands beside each function that writes a part of the line.

The source has no value: it pushes braces, names and commas.  A forgotten comma after an optional
field, or one too many, would be an error of the text alone.  So every function that pushes has a
counterpart that makes a value, and section 5 proves that what is pushed is the compact text of
that value, function by function, ending with the two lines.  From there on a line is a JSON value
and `HostStateRead` asks what it says.
-/
import Musubi.FloatDisplay
import Musubi.Core.Canonical
import Musubi.Lib.JsonCompact
import Musubi.Lib.Utf8
import Musubi.Northbound.Publisher
import Musubi.Northbound.WirePolicy

namespace Musubi.Northbound.HostState

open Lib JsonText Musubi.Core

/-! ## 1. Single values -/

def push (output : Text) (c : Char) : Text := output ++ [c]

def pushStr (output : Text) (s : String) : Text := output ++ s.toList

def hexDigit (value : UInt8) : Char :=
  if value ≤ 9 then Char.ofNat (48 + value).toNat else Char.ofNat (97 + value - 10).toNat

/-- One round of the loop of `push_string`. -/
def pushCharacter (output : Text) (character : Char) : Text :=
  match character with
  | '"' => pushStr output "\\\""
  | '\\' => pushStr output "\\\\"
  | '\x08' => pushStr output "\\b"
  | '\x0c' => pushStr output "\\f"
  | '\n' => pushStr output "\\n"
  | '\r' => pushStr output "\\r"
  | '\t' => pushStr output "\\t"
  | value =>
    if value ≤ '\x1f' then
      let byte := UInt8.ofNat value.toNat
      push (push (pushStr output "\\u00") (hexDigit (byte >>> 4))) (hexDigit (byte &&& 0x0f))
    else push output value

def pushString (output : Text) (value : String) : Text :=
  push (value.toList.foldl pushCharacter (push output '"')) '"'

/-- `push_option_*`: each is this, with its own way to write what there is. -/
def pushOption {α : Type} (pushSome : Text → α → Text) (output : Text) : Option α → Text
  | some value => pushSome output value
  | none => pushStr output "null"

def pushOptionString : Text → Option String → Text := pushOption pushString

def pushOptionI64 : Text → Option Int64 → Text :=
  pushOption fun output value => pushStr output (toString value)

def pushOptionU64 : Text → Option UInt64 → Text :=
  pushOption fun output value => pushStr output value.toNat.repr

def pushOptionU32 : Text → Option UInt32 → Text :=
  pushOption fun output value => pushStr output value.toNat.repr

def pushOptionBool : Text → Option Bool → Text :=
  pushOption fun output value => pushStr output (if value then "true" else "false")

def pushF64 (output : Text) (value : F64) : Text :=
  if value.isFinite then output ++ value.display else pushStr output "null"

def pushF32 (output : Text) (value : F32) : Text :=
  if value.isFinite then output ++ value.display else pushStr output "null"

def pushOptionF64 : Text → Option F64 → Text := pushOption pushF64

/-! ## 2. Parts of a line -/

/-- A loop that puts a comma in front of every part but the first. -/
def pushParts {α : Type} (pushPart : Text → α → Text) (output : Text) (parts : List α) : Text :=
  parts.zipIdx.foldl
    (fun output x => pushPart (if 0 < x.2 then push output ',' else output) x.1) output

def pushCounter (output : Text) (x : String × HostStateCounter) : Text :=
  let output := pushString output x.1
  let output := pushStr output r#":{"raw":"#
  let output := pushStr output x.2.raw.toNat.repr
  let output := pushStr output ",\"delta\":"
  let output := pushOptionU64 output x.2.delta
  push output '}'

def pushCounters (output : Text) (counters : BTreeMap String HostStateCounter) : Text :=
  push (pushParts pushCounter (push output '{') counters.entries) '}'

def pushInterface (output : Text) (x : String × HostStateNetworkInterface) : Text :=
  let output := pushString output x.1
  let output := pushStr output r#":{"ifindex":"#
  let output := pushOptionU32 output x.2.ifindex
  let output := pushStr output ",\"operstate\":"
  let output := pushOptionString output x.2.operstate
  let output := pushStr output ",\"carrier\":"
  let output := pushOptionBool output x.2.carrier
  let output := pushStr output ",\"mtu\":"
  let output := pushOptionU32 output x.2.mtu
  let output := pushStr output ",\"counters\":"
  let output := pushCounters output x.2.counters
  push output '}'

def pushNetwork (output : Text) (network : BTreeMap String HostStateNetworkInterface) : Text :=
  push (pushParts pushInterface (push output '{') network.entries) '}'

def pushMark (output : Text) (mark : Mark) : Text :=
  let output := pushStr output r#"{"status":"#
  let output := pushString output (markStatusLabel mark.status)
  let output := pushStr output ",\"reason_code\":"
  let output := pushString output mark.reasonCode
  let output := pushStr output ",\"provenance\":["
  let output := pushParts pushString output mark.provenance
  pushStr output r"]}"

def pushObservation (output : Text) (observation : HostStateObservation) : Text :=
  let output := pushStr output
    r#"{"kind":"host_state_observation","source_contract_id":"#
  let output := pushString output observation.sourceContractId
  let output := pushStr output ",\"host_id\":"
  let output := pushString output observation.hostId
  let output := pushStr output ",\"sequence\":"
  let output := pushStr output observation.sequence.toNat.repr
  let output := pushStr output r#","timestamps":{"observed_at":"#
  let output := pushOptionI64 output observation.timestamps.observedAt
  let output := pushStr output ",\"received_at\":"
  let output := pushStr output (toString observation.timestamps.receivedAt)
  let output := pushStr output ",\"time_confidence\":"
  let output := pushF32 output observation.timestamps.timeConfidence
  let output := pushStr output r#"},"host":{"os":{"id":"#
  let output := pushOptionString output observation.host.os.id
  let output := pushStr output ",\"version_id\":"
  let output := pushOptionString output observation.host.os.versionId
  let output := pushStr output r#"},"kernel_release":"#
  let output := pushOptionString output observation.host.kernelRelease
  let output := pushStr output ",\"model\":"
  let output := pushOptionString output observation.host.model
  let output := pushStr output ",\"uptime_seconds\":"
  let output := pushOptionF64 output observation.host.uptimeSeconds
  let output := pushStr output r#","load":{"one_min":"#
  let output := pushOptionF64 output observation.host.load.oneMin
  let output := pushStr output ",\"five_min\":"
  let output := pushOptionF64 output observation.host.load.fiveMin
  let output := pushStr output ",\"fifteen_min\":"
  let output := pushOptionF64 output observation.host.load.fifteenMin
  let output := pushStr output r#"},"memory_kib":{"mem_total":"#
  let output := pushOptionU64 output observation.host.memoryKib.memTotal
  let output := pushStr output ",\"mem_available\":"
  let output := pushOptionU64 output observation.host.memoryKib.memAvailable
  let output := pushStr output ",\"swap_total\":"
  let output := pushOptionU64 output observation.host.memoryKib.swapTotal
  let output := pushStr output ",\"swap_free\":"
  let output := pushOptionU64 output observation.host.memoryKib.swapFree
  let output := pushStr output r#"},"cpu_total_ticks":"#
  let output := pushCounters output observation.host.cpuTotalTicks
  let output := pushStr output r#"},"network":"#
  let output := pushNetwork output observation.network
  push output '}'

/-! ## 3. Publishers -/

def nativeMarkCapability : DialectCapability where
  carriesPosition := false
  carriesMarkStatus := true
  markViaNativeAnnotation := false

def hostState (envelope : EvidenceEnvelope) (dialect : String) :
    Except PublishError HostStateObservation :=
  match envelope.observation with
  | .hostStateObservation observation => .ok observation
  | .platformState _ => .error ⟨dialect, "unsupported non-host observation"⟩

/-- One round of the loop of `digest`. -/
def pushByte (encoded : Text) (byte : UInt8) : Text :=
  push (push encoded (hexDigit (byte >>> 4))) (hexDigit (byte &&& 0x0f))

def digest (envelope : EvidenceEnvelope) (dialect : String) : Except PublishError String :=
  match envelope.contentDigest with
  | some digest =>
    .ok (String.ofList (digest.toList.foldl pushByte []))
  | none => .error ⟨dialect, "unsealed host-state evidence"⟩

def intoBytes (output : Text) : List UInt8 := utf8 (String.ofList output)

def evidenceLine (observation : HostStateObservation) (claim : Claim)
    (classification : Option String) (digest : String) : Text :=
  let output := pushStr [] r#"{"schema":"musubi.evidence.ndjson/v1","observation":"#
  let output := pushObservation output observation
  let output := pushStr output r#","claim":{"claim_id":"#
  let output := pushString output claim.claimId
  let output := pushStr output ",\"confidence\":"
  let output := pushF32 output claim.confidence
  let output := pushStr output ",\"mark\":"
  let output := pushMark output claim.mark
  let output := pushStr output r#"},"classification":"#
  let output := pushOptionString output classification
  let output := pushStr output ",\"content_digest\":"
  let output := pushString output digest
  pushStr output "\x7d\n"

def EvidenceNdjsonPublisher.publish (envelope : EvidenceEnvelope) :
    Except PublishError (List UInt8) := do
  let observation ← hostState envelope "evidence-ndjson"
  let digest ← digest envelope "evidence-ndjson"
  pure (intoBytes (evidenceLine observation envelope.claim envelope.classification digest))

def evidenceNdjsonPublisher : NorthboundPublisher where
  dialect := "evidence-ndjson"
  capability := nativeMarkCapability
  publish := EvidenceNdjsonPublisher.publish

def maintenanceLine (observation : HostStateObservation) (claim : Claim) (digest : String) : Text :=
  let output := pushStr []
    r#"{"schema":"musubi.maintenance.host-state.ndjson/v1","evidence_id":"#
  let output := pushString output claim.claimId
  let output := pushStr output ",\"content_digest\":"
  let output := pushString output digest
  let output := pushStr output ",\"host_state\":"
  let output := pushObservation output observation
  let output := pushStr output ",\"mark\":"
  let output := pushMark output claim.mark
  let output := pushStr output ",\"confidence\":"
  let output := pushF32 output claim.confidence
  pushStr output "\x7d\n"

def MaintenanceHostStateNdjsonPublisher.publish (envelope : EvidenceEnvelope) :
    Except PublishError (List UInt8) := do
  let observation ← hostState envelope "maintenance-host-state-ndjson"
  let digest ← digest envelope "maintenance-host-state-ndjson"
  pure (intoBytes (maintenanceLine observation envelope.claim digest))

def maintenanceHostStateNdjsonPublisher : NorthboundPublisher where
  dialect := "maintenance-host-state-ndjson"
  capability := nativeMarkCapability
  publish := MaintenanceHostStateNdjsonPublisher.publish

/-! ## 4. The value of a line -/

def f64Value (value : F64) : Value := if value.isFinite then .number value.display else .null

def f32Value (value : F32) : Value := if value.isFinite then .number value.display else .null

def u64Value (value : UInt64) : Value := natural value.toNat

def u32Value (value : UInt32) : Value := natural value.toNat

def i64Value (value : Int64) : Value := integer value.toInt

/-- The entries of a map, each under its key. -/
def mapValue {α : Type} (write : α → Value) (m : BTreeMap String α) : Value :=
  record (m.entries.map fun x => (x.1, write x.2))

def counterValue (counter : HostStateCounter) : Value :=
  record [("raw", u64Value counter.raw), ("delta", optional u64Value counter.delta)]

def interfaceValue (interface : HostStateNetworkInterface) : Value :=
  record [
    ("ifindex", optional u32Value interface.ifindex),
    ("operstate", optional text interface.operstate),
    ("carrier", optional .bool interface.carrier),
    ("mtu", optional u32Value interface.mtu),
    ("counters", mapValue counterValue interface.counters)]

def markValue (mark : Mark) : Value :=
  record [
    ("status", text (markStatusLabel mark.status)),
    ("reason_code", text mark.reasonCode),
    ("provenance", list (mark.provenance.map text))]

def timestampsValue (timestamps : Timestamps) : Value :=
  record [
    ("observed_at", optional i64Value timestamps.observedAt),
    ("received_at", i64Value timestamps.receivedAt),
    ("time_confidence", f32Value timestamps.timeConfidence)]

def hostValue (host : HostStateHost) : Value :=
  record [
    ("os", record [
      ("id", optional text host.os.id),
      ("version_id", optional text host.os.versionId)]),
    ("kernel_release", optional text host.kernelRelease),
    ("model", optional text host.model),
    ("uptime_seconds", optional f64Value host.uptimeSeconds),
    ("load", record [
      ("one_min", optional f64Value host.load.oneMin),
      ("five_min", optional f64Value host.load.fiveMin),
      ("fifteen_min", optional f64Value host.load.fifteenMin)]),
    ("memory_kib", record [
      ("mem_total", optional u64Value host.memoryKib.memTotal),
      ("mem_available", optional u64Value host.memoryKib.memAvailable),
      ("swap_total", optional u64Value host.memoryKib.swapTotal),
      ("swap_free", optional u64Value host.memoryKib.swapFree)]),
    ("cpu_total_ticks", mapValue counterValue host.cpuTotalTicks)]

def observationValue (observation : HostStateObservation) : Value :=
  record [
    ("kind", text "host_state_observation"),
    ("source_contract_id", text observation.sourceContractId),
    ("host_id", text observation.hostId),
    ("sequence", u64Value observation.sequence),
    ("timestamps", timestampsValue observation.timestamps),
    ("host", hostValue observation.host),
    ("network", mapValue interfaceValue observation.network)]

def evidenceValue (observation : HostStateObservation) (claim : Claim)
    (classification : Option String) (digest : String) : Value :=
  record [
    ("schema", text "musubi.evidence.ndjson/v1"),
    ("observation", observationValue observation),
    ("claim", record [
      ("claim_id", text claim.claimId),
      ("confidence", f32Value claim.confidence),
      ("mark", markValue claim.mark)]),
    ("classification", optional text classification),
    ("content_digest", text digest)]

def maintenanceValue (observation : HostStateObservation) (claim : Claim) (digest : String) :
    Value :=
  record [
    ("schema", text "musubi.maintenance.host-state.ndjson/v1"),
    ("evidence_id", text claim.claimId),
    ("content_digest", text digest),
    ("host_state", observationValue observation),
    ("mark", markValue claim.mark),
    ("confidence", f32Value claim.confidence)]

/-! ## 5. What is pushed is the text of the value -/

section

variable (output : Text)

theorem hexDigit_eq {value : UInt8} (h : value.toNat < 16) :
    hexDigit value = Nat.digitChar value.toNat := by
  have hall : ∀ n < 16, hexDigit (UInt8.ofNat n) = Nat.digitChar n := by decide
  have := hall value.toNat h
  rwa [UInt8.ofNat_toNat] at this

theorem hexDigit_high (byte : UInt8) : hexDigit (byte >>> 4) = Nat.digitChar (byte.toNat / 16) := by
  have hlt := byte.toNat_lt
  have hhigh : (byte >>> 4).toNat = byte.toNat / 16 := by
    simp [UInt8.toNat_shiftRight, Nat.shiftRight_eq_div_pow]
  rw [hexDigit_eq (by omega), hhigh]

theorem hexDigit_low (byte : UInt8) :
    hexDigit (byte &&& 0x0f) = Nat.digitChar (byte.toNat % 16) := by
  have hlow : (byte &&& 0x0f).toNat = byte.toNat % 16 := by
    rw [UInt8.toNat_and]
    exact Nat.and_two_pow_sub_one_eq_mod byte.toNat 4
  rw [hexDigit_eq (by omega), hlow]

/-- The escaper is the one of the library. -/
theorem pushCharacter_eq (character : Char) :
    pushCharacter output character = output ++ Json.escapeChar character := by
  unfold pushCharacter
  split
  · rfl
  · rfl
  · rfl
  · rfl
  · rfl
  · rfl
  · rfl
  · next _ h1 h2 h3 h4 h5 h6 h7 =>
    have hlookup : Json.shortEscapes.lookup character = none := by
      rw [List.lookup_eq_none_iff]
      simp only [Json.shortEscapes, List.forall_mem_cons, bne_iff_ne]
      exact ⟨h1, h2, h3, h7, h5, h4, h6, List.forall_mem_nil _⟩
    have hcontrol : character ≤ '\x1f' ↔ character.toNat < 0x20 := by
      rw [Char.le_def, UInt32.le_iff_toNat_le]
      exact Nat.lt_succ_iff.symm
    rw [Json.escapeChar, hlookup]
    dsimp only
    split
    · next hle =>
      have hlt := hcontrol.mp hle
      have hbyte : (UInt8.ofNat character.toNat).toNat = character.toNat :=
        toNat_ofNat_byte (by omega)
      rw [if_pos hlt, hexDigit_high, hexDigit_low, hbyte]
      simp [push, pushStr]
    · next hgt => rw [if_neg fun hlt => hgt (hcontrol.mpr hlt), push]

@[simp] theorem pushString_eq (value : String) :
    pushString output value = output ++ (text value).compact := by
  have hfold : ∀ (cs : List Char) (output : Text),
      cs.foldl pushCharacter output = output ++ cs.flatMap Json.escapeChar := by
    intro cs
    induction cs with
    | nil => intro output; simp
    | cons c cs ih => intro output; simp [ih, pushCharacter_eq]
  rw [pushString, hfold]
  simp [push, text, Value.compact, escape]

theorem pushOption_eq {α : Type} {pushSome : Text → α → Text} {write : α → Value}
    (h : ∀ output x, pushSome output x = output ++ (write x).compact) (value : Option α) :
    pushOption pushSome output value = output ++ (optional write value).compact := by
  cases value with
  | none => rfl
  | some x => exact h output x

@[simp] theorem pushOptionString_eq (value : Option String) :
    pushOptionString output value = output ++ (optional text value).compact :=
  pushOption_eq output pushString_eq value

@[simp] theorem pushOptionI64_eq (value : Option Int64) :
    pushOptionI64 output value = output ++ (optional i64Value value).compact := by
  unfold pushOptionI64
  refine pushOption_eq output ?_ value
  exact fun _ _ => rfl

@[simp] theorem pushOptionU64_eq (value : Option UInt64) :
    pushOptionU64 output value = output ++ (optional u64Value value).compact := by
  unfold pushOptionU64
  refine pushOption_eq output ?_ value
  exact fun _ _ => rfl

@[simp] theorem pushOptionU32_eq (value : Option UInt32) :
    pushOptionU32 output value = output ++ (optional u32Value value).compact := by
  unfold pushOptionU32
  refine pushOption_eq output ?_ value
  exact fun _ _ => rfl

@[simp] theorem pushOptionBool_eq (value : Option Bool) :
    pushOptionBool output value = output ++ (optional .bool value).compact :=
  pushOption_eq output (fun _ b => by cases b <;> rfl) value

@[simp] theorem pushF64_eq (value : F64) :
    pushF64 output value = output ++ (f64Value value).compact := by
  unfold pushF64 f64Value
  split <;> rfl

@[simp] theorem pushF32_eq (value : F32) :
    pushF32 output value = output ++ (f32Value value).compact := by
  unfold pushF32 f32Value
  split <;> rfl

@[simp] theorem pushOptionF64_eq (value : Option F64) :
    pushOptionF64 output value = output ++ (optional f64Value value).compact :=
  pushOption_eq output pushF64_eq value

/-- The parts with commas between them. -/
theorem pushParts_eq {α : Type} {pushPart : Text → α → Text} {part : α → Text}
    (h : ∀ output x, pushPart output x = output ++ part x) (parts : List α) :
    pushParts pushPart output parts = output ++ [','].intercalate (parts.map part) := by
  have hrest : ∀ (parts : List α) (n : ℕ) (output : Text),
      (parts.zipIdx (n + 1)).foldl
        (fun output x => pushPart (if 0 < x.2 then push output ',' else output) x.1) output =
        output ++ parts.flatMap fun x => ',' :: part x := by
    intro parts
    induction parts with
    | nil => intro n output; simp
    | cons x parts ih =>
      intro n output
      rw [List.zipIdx_cons, List.foldl_cons, ih, h]
      simp [push]
  cases parts with
  | nil => simp [pushParts]
  | cons x parts =>
    have hjoin : ∀ (x : α) (parts : List α), [','].intercalate ((x :: parts).map part) =
        part x ++ parts.flatMap fun x => ',' :: part x := by
      intro x parts
      induction parts generalizing x with
      | nil => simp
      | cons y parts ih =>
        rw [List.map_cons, List.map_cons, List.intercalate_cons_cons, ← List.map_cons, ih]
        simp
    rw [pushParts, List.zipIdx_cons, List.foldl_cons, hrest, hjoin, h]
    simp

/-- A name without escapes. -/
def isPlainName (k : String) : Bool := k.toList.all fun c => Json.escapeChar c == [c]

theorem escape_plain {k : String} (h : isPlainName k = true) : escape k = k.toList := by
  have hescape : ∀ cs : List Char, (cs.all fun c => Json.escapeChar c == [c]) = true →
      cs.flatMap Json.escapeChar = cs := by
    intro cs hcs
    induction cs with
    | nil => rfl
    | cons c cs ih =>
      rw [List.all_cons, Bool.and_eq_true, beq_iff_eq] at hcs
      rw [List.flatMap_cons, hcs.1, ih hcs.2, List.singleton_append]
  exact hescape k.toList h

theorem compactMember_plain {k : String} (h : isPlainName k = true) (v : Value) :
    compactMember (k, v) = '"' :: (k.toList ++ '"' :: ':' :: v.compact) := by
  rw [compactMember, escape_plain h]
  simp

theorem compact_text_plain {k : String} (h : isPlainName k = true) :
    (text k).compact = '"' :: (k.toList ++ ['"']) := by
  rw [text, escape_plain h]
  simp [Value.compact]

theorem compactMember_eq (k : String) (v : Value) :
    compactMember (k, v) = (text k).compact ++ ':' :: v.compact := by
  simp [compactMember, text, Value.compact]

theorem pushCounter_eq (x : String × HostStateCounter) :
    pushCounter output x = output ++ compactMember (x.1, counterValue x.2) := by
  rw [compactMember_eq, counterValue, compact_record]
  simp (disch := decide) only [pushCounter, pushString_eq, pushOptionU64_eq, push, pushStr,
    List.map_cons, List.map_nil, compactMember_plain, List.intercalate_cons_cons,
    List.intercalate_singleton, List.append_assoc, List.cons_append, List.nil_append,
    String.reduceToList]
  rfl

/-- The loop over a map. -/
theorem pushEntries_eq {α : Type} {pushEntry : Text → String × α → Text} {write : α → Value}
    (h : ∀ output x, pushEntry output x = output ++ compactMember (x.1, write x.2))
    (m : BTreeMap String α) :
    push (pushParts pushEntry (push output '{') m.entries) '}' =
      output ++ (mapValue write m).compact := by
  rw [pushParts_eq _ h, mapValue, compact_record, List.map_map]
  simp only [push, List.append_assoc, List.cons_append]
  rfl

@[simp] theorem pushCounters_eq (counters : BTreeMap String HostStateCounter) :
    pushCounters output counters = output ++ (mapValue counterValue counters).compact :=
  pushEntries_eq output pushCounter_eq counters

theorem pushInterface_eq (x : String × HostStateNetworkInterface) :
    pushInterface output x = output ++ compactMember (x.1, interfaceValue x.2) := by
  rw [compactMember_eq, interfaceValue, compact_record]
  simp (disch := decide) [pushInterface, push, pushStr, compactMember_plain]

@[simp] theorem pushNetwork_eq (network : BTreeMap String HostStateNetworkInterface) :
    pushNetwork output network = output ++ (mapValue interfaceValue network).compact :=
  pushEntries_eq output pushInterface_eq network

@[simp] theorem pushMark_eq (mark : Mark) :
    pushMark output mark = output ++ (markValue mark).compact := by
  have hparts (output : Text) : pushParts pushString output mark.provenance =
      output ++ [','].intercalate (mark.provenance.map (Value.compact ∘ text)) :=
    pushParts_eq output pushString_eq mark.provenance
  rw [markValue, compact_record]
  simp (disch := decide) [pushMark, pushStr, compactMember_plain, hparts, list, Value.compact,
    compactItems_eq]

set_option maxRecDepth 4000 in
@[simp] theorem pushObservation_eq (observation : HostStateObservation) :
    pushObservation output observation = output ++ (observationValue observation).compact := by
  rw [observationValue, compact_record]
  simp (disch := decide) only [pushObservation, push, pushStr, compactMember_plain, timestampsValue,
    hostValue, compact_record, pushString_eq, pushOptionString_eq, pushOptionI64_eq,
    pushOptionU64_eq, pushF32_eq, pushOptionF64_eq, pushCounters_eq, pushNetwork_eq, List.map_cons,
    List.map_nil, List.intercalate_cons_cons,
    List.intercalate_singleton, List.append_assoc, List.cons_append, List.nil_append,
    String.reduceToList]
  rfl

end

/-! ## 6. Lines -/

theorem evidenceLine_eq (observation : HostStateObservation) (claim : Claim)
    (classification : Option String) (digest : String) :
    evidenceLine observation claim classification digest =
      (evidenceValue observation claim classification digest).compact ++ ['\n'] := by
  rw [evidenceValue, compact_record]
  simp (disch := decide) [evidenceLine, pushStr, compactMember_plain, compact_text_plain,
    compact_record]

theorem maintenanceLine_eq (observation : HostStateObservation) (claim : Claim) (digest : String) :
    maintenanceLine observation claim digest =
      (maintenanceValue observation claim digest).compact ++ ['\n'] := by
  rw [maintenanceValue, compact_record]
  simp (disch := decide) [maintenanceLine, pushStr, compactMember_plain, compact_text_plain]

/-- The digest is written in lower-case hexadecimal. -/
theorem digest_eq {envelope : EvidenceEnvelope} {d : Digest} (h : envelope.contentDigest = some d)
    (dialect : String) : digest envelope dialect = .ok (hexLower d.toList) := by
  have hfold : ∀ (bytes : List UInt8) (encoded : Text),
      bytes.foldl pushByte encoded = encoded ++ bytes.flatMap hexPair := by
    intro bytes
    induction bytes with
    | nil => intro encoded; simp
    | cons byte bytes ih =>
      intro encoded
      rw [List.foldl_cons, ih, pushByte, hexDigit_high, hexDigit_low]
      simp [push, hexPair]
  simp only [digest, h, hfold, List.nil_append, hexLower]

end Musubi.Northbound.HostState
