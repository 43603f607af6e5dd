/-
# The MAVLink normalizer

`normalize_frame` turns one frame into an envelope, sets it aside unmapped with its bytes kept, or
rejects it; the narrow `normalize` folds the second into an error.  Which of these happens is a
function of the bytes alone (`frameClass`), and the module shows that the code computes it, for
every payload and without an index out of range.

The checks of the code come in an order, and an earlier one hides a later: a frame that is too
long for any message is quarantined before its header is looked at, one with a bad header is
malformed whatever its length, and the exact length is asked only of what is long enough to be
read.  `frameClass` has the classes in that order.  `OfClass` says of a class what the result is,
down to the text of the mark; so one lemma that follows the code (`normalizeFrame_ofClass`) is
followed by case analysis on the class alone.

The main result says of each outcome when it happens, with the other classes written out, so that
it can be read without `frameClass`.
-/
import Musubi.Core.Canonical
import Musubi.Mavlink.Frame

namespace Musubi.Mavlink

open Lib Lib.Checked Musubi.Core

/-! ## 1. Outcomes and errors -/

structure UnmappedFrame where
  sourceId : String
  msgid : UInt32
  sysid : UInt8
  compid : UInt8
  raw : List UInt8
  mark : Mark
deriving DecidableEq, Repr

inductive MavlinkOutcome
  | normalized (envelope : EvidenceEnvelope)
  | unmapped (frame : UnmappedFrame)
deriving DecidableEq

def adapterSlug : String := "mavlink/global_position_int"

def quarantineError (raw : RawObservation) (reject : QuarantineReject) : NormalizeError where
  sourceId := raw.sourceId
  mark :=
    { status := .invalid
      reasonCode := quarantineReasonCode
      provenance := ["source:" ++ raw.sourceId, "adapter:" ++ adapterSlug,
        "quarantine:" ++ reject.display] }

def malformed (raw : RawObservation) (e : DecodeError) : NormalizeError where
  sourceId := raw.sourceId
  mark :=
    { status := .invalid
      reasonCode := "map-unknown"
      provenance := ["source:" ++ raw.sourceId, "mavlink-decode-error:" ++ e.debug] }

/-- `mavlink-ident:sys..-comp..`. -/
def identNote (header : Mavlink2Header) : String :=
  "mavlink-ident:sys" ++ header.sysid.toNat.repr ++ "-comp" ++ header.compid.toNat.repr

def unmappedFrame (raw : RawObservation) (header : Mavlink2Header) : UnmappedFrame where
  sourceId := raw.sourceId
  msgid := header.msgid
  sysid := header.sysid
  compid := header.compid
  raw := raw.payload
  mark :=
    { status := .degraded
      reasonCode := "unmapped-msgid"
      provenance := ["source:" ++ raw.sourceId, "adapter:" ++ adapterSlug, identNote header,
        "unmapped-msgid:" ++ header.msgid.toNat.repr,
        "raw-frame-hex:" ++ hexLower raw.payload] }

/-! ## 2. The envelope of a position -/

/-- `f64::from(v) / 1e7`. -/
def degE7ToDeg (v : Int32) : F64 := .ofRat (v.toInt / 10000000)

/-- `f64::from(v) / 1000.0`. -/
def mmToM (v : Int32) : F64 := .ofRat (v.toInt / 1000)

def hdgUnknown : UInt16 := 0xFFFF

/-- `0.6`. -/
def adapterAssignedConfidence : F32 := .ofRat (6 / 10)

def confidenceOriginNote : String := "confidence:adapter-assigned"

/-- `0.2`. -/
def gpiTimeConfidence : F32 := .ofRat (2 / 10)

structure MavlinkNormalizer where
  platformDomain : PlatformDomain

def MavlinkNormalizer.new : MavlinkNormalizer := ⟨.air⟩

/-- The quality facts of a position message. -/
def positionNotes (header : Mavlink2Header) (msg : GlobalPositionInt) : List QualityNote :=
  [.neutral "alt-ref:MSL-uncorrected", .neutral "time-boot-ms-not-absolute",
    .neutral confidenceOriginNote, .neutral (identNote header)] ++
  (if header.len.toNat < globalPositionIntLen then
    [.neutral ("payload-truncation-restored:len=" ++ header.len.toNat.repr)] else []) ++
  (if msg.hdg = hdgUnknown then [.degraded "hdg=unknown" "field-missing:hdg"] else [])

def positionQuality (raw : RawObservation) (header : Mavlink2Header) (msg : GlobalPositionInt) :
    ObservationQuality where
  sourceId := raw.sourceId
  adapterSlug := adapterSlug
  timeConfidence := gpiTimeConfidence
  notes := positionNotes header msg

/-- `{source_id}/sys{sysid}`. -/
def platformId (raw : RawObservation) (header : Mavlink2Header) : String :=
  raw.sourceId ++ "/sys" ++ header.sysid.toNat.repr

/-- The envelope before it is sealed. -/
def positionEnvelope (n : MavlinkNormalizer) (raw : RawObservation) (header : Mavlink2Header)
    (msg : GlobalPositionInt) : EvidenceEnvelope where
  observation := .platformState
    { platformId := platformId raw header
      position := some
        { latDeg := degE7ToDeg msg.lat
          lonDeg := degE7ToDeg msg.lon
          altM := some (mmToM msg.alt) }
      mode := none
      timestamps :=
        { observedAt := none
          receivedAt := raw.receivedAt
          timeConfidence := gpiTimeConfidence }
      platformDomain := n.platformDomain }
  claim :=
    { claimId := platformId raw header ++ ":global_position_int"
      confidence := adapterAssignedConfidence
      mark := deriveMark (positionQuality raw header msg)
      confidenceBasis := some .adapterAssigned }
  classification := none
  signature := none
  contentDigest := none
  signerId := none
  signedAt := none
  revocationProof := none
  trustAnnotations := none

/-! ## 3. Normalizing -/

variable (sha256 : List UInt8 → Digest)

def normalizeFrame (n : MavlinkNormalizer) (raw : RawObservation) :
    Checked NormalizeError MavlinkOutcome := do
  mapErr (quarantineError raw) (quarantinePayloadSize raw.payload mavlink2MaxFrameBytes)
  let header ← mapErr (malformed raw) (parseMavlink2Header raw.payload)
  if header.msgid ≠ msgidGlobalPositionInt then
    let _ ← mapErr (malformed raw) (payloadSlice raw.payload header)
    mapErr (quarantineError raw) (rejectFrameLengthAmbiguity raw.payload.length header)
    return .unmapped (unmappedFrame raw header)
  else
    let msg ← mapErr (malformed raw) (decodeGlobalPositionIntPayload raw.payload header)
    mapErr (quarantineError raw) (rejectFrameLengthAmbiguity raw.payload.length header)
    return .normalized (sealDigest sha256 (positionEnvelope n raw header msg))

def normalize (n : MavlinkNormalizer) (raw : RawObservation) :
    Checked NormalizeError EvidenceEnvelope := do
  match ← normalizeFrame sha256 n raw with
  | .normalized envelope => return envelope
  | .unmapped frame => fail { sourceId := frame.sourceId, mark := frame.mark }

/-! ## 4. The class of a frame -/

inductive FrameClass
  | normalized
  | unmapped
  | quarantined
  | malformed
deriving DecidableEq, Repr

/-- A position message has between 1 and 28 payload bytes; other messages are not looked at. -/
def LenInRange (frame : List UInt8) : Prop :=
  wireMsgid frame = 33 → 1 ≤ declaredLen frame ∧ declaredLen frame ≤ 28

instance (frame : List UInt8) : Decidable (LenInRange frame) :=
  inferInstanceAs (Decidable (_ → _))

/-- What becomes of a frame, from its bytes. -/
def frameClass (frame : List UInt8) : FrameClass :=
  if 280 < frame.length then .quarantined
  else if HasHeader frame ∧ LenInRange frame ∧ minimumLength frame ≤ frame.length then
    if frame.length = expectedLength frame then
      if wireMsgid frame = 33 then .normalized else .unmapped
    else .quarantined
  else .malformed

/-- The result is of the class, with what it holds: the sealed envelope of the message, the frame
that was kept, or the error with its mark. -/
def OfClass (n : MavlinkNormalizer) (raw : RawObservation)
    (r : Checked NormalizeError MavlinkOutcome) : FrameClass → Prop
  | .normalized => ∃ msg,
      decodeGlobalPositionIntPayload raw.payload (headerOf raw.payload) = .ok msg ∧
      r = .ok (.normalized
        (sealDigest sha256 (positionEnvelope n raw (headerOf raw.payload) msg)))
  | .unmapped => r = .ok (.unmapped (unmappedFrame raw (headerOf raw.payload)))
  | .quarantined => ∃ reject, r = fail (quarantineError raw reject)
  | .malformed => ∃ e, r = fail (malformed raw e)

/-- The exact length check, as a check of the whole frame. -/
theorem rejectFrameLengthAmbiguity_headerOf (frame : List UInt8) :
    if frame.length = expectedLength frame then
      rejectFrameLengthAmbiguity frame.length (headerOf frame) = .ok ()
    else ∃ reject, rejectFrameLengthAmbiguity frame.length (headerOf frame) = fail reject := by
  have hexp : headerLen + (headerOf frame).len.toNat + crcLen + (headerOf frame).signatureBytes =
      expectedLength frame := by
    rw [signatureBytes_headerOf]
    rfl
  unfold rejectFrameLengthAmbiguity
  dsimp only
  rw [hexp]
  split
  · rfl
  · exact ⟨.frameLengthMismatch (expectedLength frame) frame.length, rfl⟩

variable {sha256}

/-- What happens after the header has been read, when the message is not a position. -/
theorem normalizeFrame_unmapped (n : MavlinkNormalizer) (raw : RawObservation)
    (hsize : ¬ 280 < raw.payload.length) (hheader : HasHeader raw.payload)
    (hid : wireMsgid raw.payload ≠ 33) :
    OfClass sha256 n raw (normalizeFrame sha256 n raw)
      (if minimumLength raw.payload ≤ raw.payload.length then
        if raw.payload.length = expectedLength raw.payload then .unmapped else .quarantined
      else .malformed) := by
  have hquarantine : quarantinePayloadSize raw.payload mavlink2MaxFrameBytes = .ok () :=
    if_neg hsize
  have hmsgid : (headerOf raw.payload).msgid ≠ msgidGlobalPositionInt :=
    fun h => hid (msgid_headerOf.mp h)
  have hslice := @payloadSlice_headerOf raw.payload
  have hlength := rejectFrameLengthAmbiguity_headerOf raw.payload
  unfold normalizeFrame
  rw [hquarantine, mapErr_ok, ok_bind, parseMavlink2Header_ok hheader, mapErr_ok, ok_bind,
    if_pos hmsgid]
  by_cases hmin : raw.payload.length < minimumLength raw.payload
  · rw [if_pos hmin] at hslice
    obtain ⟨e, he⟩ := hslice
    rw [he, mapErr_fail, fail_bind, if_neg (not_le.mpr hmin)]
    exact ⟨e, rfl⟩
  · rw [if_neg hmin] at hslice
    obtain ⟨p, hp, -⟩ := hslice
    rw [hp, mapErr_ok, ok_bind, if_pos (not_lt.mp hmin)]
    by_cases hexact : raw.payload.length = expectedLength raw.payload
    · rw [if_pos hexact] at hlength ⊢
      rw [hlength]
      rfl
    · rw [if_neg hexact] at hlength ⊢
      obtain ⟨reject, hreject⟩ := hlength
      rw [hreject, mapErr_fail, fail_bind]
      exact ⟨reject, rfl⟩

/-- What happens after the header has been read, when it is. -/
theorem normalizeFrame_position (n : MavlinkNormalizer) (raw : RawObservation)
    (hsize : ¬ 280 < raw.payload.length) (hheader : HasHeader raw.payload)
    (hid : wireMsgid raw.payload = 33) :
    OfClass sha256 n raw (normalizeFrame sha256 n raw)
      (if (1 ≤ declaredLen raw.payload ∧ declaredLen raw.payload ≤ 28) ∧
          minimumLength raw.payload ≤ raw.payload.length then
        if raw.payload.length = expectedLength raw.payload then .normalized else .quarantined
      else .malformed) := by
  have hquarantine : quarantinePayloadSize raw.payload mavlink2MaxFrameBytes = .ok () :=
    if_neg hsize
  have hmsgid : ¬ (headerOf raw.payload).msgid ≠ msgidGlobalPositionInt :=
    not_not.mpr (msgid_headerOf.mpr hid)
  have hdecode := @decodePayload_headerOf raw.payload
  have hlength := rejectFrameLengthAmbiguity_headerOf raw.payload
  unfold normalizeFrame
  rw [hquarantine, mapErr_ok, ok_bind, parseMavlink2Header_ok hheader, mapErr_ok, ok_bind,
    if_neg hmsgid]
  by_cases hrange : (1 ≤ declaredLen raw.payload ∧ declaredLen raw.payload ≤ 28) ∧
      minimumLength raw.payload ≤ raw.payload.length
  · rw [if_pos hrange] at hdecode ⊢
    obtain ⟨msg, hmsg⟩ := hdecode
    rw [hmsg, mapErr_ok, ok_bind]
    by_cases hexact : raw.payload.length = expectedLength raw.payload
    · rw [if_pos hexact] at hlength ⊢
      rw [hlength]
      exact ⟨msg, hmsg, rfl⟩
    · rw [if_neg hexact] at hlength ⊢
      obtain ⟨reject, hreject⟩ := hlength
      rw [hreject, mapErr_fail, fail_bind]
      exact ⟨reject, rfl⟩
  · rw [if_neg hrange] at hdecode ⊢
    obtain ⟨e, he⟩ := hdecode
    rw [he, mapErr_fail, fail_bind]
    exact ⟨e, rfl⟩

/-- **Every payload is classified as its bytes say**, and no index is out of range.  This is the
only place where the checks of the code are gone through. -/
theorem normalizeFrame_ofClass (n : MavlinkNormalizer) (raw : RawObservation) :
    OfClass sha256 n raw (normalizeFrame sha256 n raw) (frameClass raw.payload) := by
  unfold frameClass
  by_cases hsize : 280 < raw.payload.length
  · have hquarantine : quarantinePayloadSize raw.payload mavlink2MaxFrameBytes =
        fail (.payloadOversize mavlink2MaxFrameBytes raw.payload.length) := if_pos hsize
    rw [if_pos hsize, normalizeFrame, hquarantine]
    exact ⟨_, rfl⟩
  rw [if_neg hsize]
  by_cases hheader : HasHeader raw.payload
  · by_cases hid : wireMsgid raw.payload = 33
    · have h := @normalizeFrame_position sha256 n raw hsize hheader hid
      simpa only [hheader, LenInRange, hid, true_and, forall_const, if_true] using h
    · have h := @normalizeFrame_unmapped sha256 n raw hsize hheader hid
      simpa only [hheader, LenInRange, hid, true_and, false_imp_iff, if_false] using h
  · have hquarantine : quarantinePayloadSize raw.payload mavlink2MaxFrameBytes = .ok () :=
      if_neg hsize
    obtain ⟨e, he⟩ := parseMavlink2Header_fail hheader
    rw [if_neg (fun h => hheader h.1), normalizeFrame, hquarantine, mapErr_ok, ok_bind, he]
    exact ⟨e, rfl⟩

/-! ## 5. The classes one by one -/

/-- The checksum is what the two length checks differ by. -/
theorem expectedLength_eq (frame : List UInt8) :
    expectedLength frame = minimumLength frame + 2 := by
  unfold expectedLength minimumLength
  omega

theorem frameClass_normalized {frame : List UInt8} : frameClass frame = .normalized ↔
    frame.length ≤ 280 ∧ HasHeader frame ∧ wireMsgid frame = 33 ∧ 1 ≤ declaredLen frame ∧
      declaredLen frame ≤ 28 ∧ frame.length = expectedLength frame := by
  have hlen := expectedLength_eq frame
  unfold frameClass LenInRange
  constructor
  · intro h
    split_ifs at h with h1 h2 h3 h4
    exact ⟨not_lt.mp h1, h2.1, h4, (h2.2.1 h4).1, (h2.2.1 h4).2, h3⟩
  · rintro ⟨h1, h2, h3, h4, h5, h6⟩
    rw [if_neg (not_lt.mpr h1), if_pos ⟨h2, fun _ => ⟨h4, h5⟩, by omega⟩, if_pos h6, if_pos h3]

theorem frameClass_unmapped {frame : List UInt8} : frameClass frame = .unmapped ↔
    frame.length ≤ 280 ∧ HasHeader frame ∧ wireMsgid frame ≠ 33 ∧
      frame.length = expectedLength frame := by
  have hlen := expectedLength_eq frame
  unfold frameClass LenInRange
  constructor
  · intro h
    split_ifs at h with h1 h2 h3 h4
    exact ⟨not_lt.mp h1, h2.1, h4, h3⟩
  · rintro ⟨h1, h2, h3, h4⟩
    rw [if_neg (not_lt.mpr h1), if_pos ⟨h2, fun h => absurd h h3, by omega⟩, if_pos h4, if_neg h3]

theorem frameClass_quarantined {frame : List UInt8} : frameClass frame = .quarantined ↔
    280 < frame.length ∨ HasHeader frame ∧ LenInRange frame ∧
      minimumLength frame ≤ frame.length ∧ frame.length ≠ expectedLength frame := by
  unfold frameClass
  constructor
  · intro h
    split_ifs at h with h1 h2 h3 h4
    · exact Or.inl h1
    · exact Or.inr ⟨h2.1, h2.2.1, h2.2.2, h3⟩
  · rintro (h1 | ⟨h1, h2, h3, h4⟩)
    · rw [if_pos h1]
    · by_cases hsize : 280 < frame.length
      · rw [if_pos hsize]
      · rw [if_neg hsize, if_pos ⟨h1, h2, h3⟩, if_neg h4]

/-- The class can be told from the result. -/
theorem OfClass.iff {n : MavlinkNormalizer} {raw : RawObservation}
    {r : Checked NormalizeError MavlinkOutcome} {c : FrameClass} (h : OfClass sha256 n raw r c) :
    ((∃ envelope, r = .ok (.normalized envelope)) ↔ c = .normalized) ∧
    ((∃ kept, r = .ok (.unmapped kept)) ↔ c = .unmapped) ∧
    ((∃ e, r = fail e ∧ e.mark.reasonCode = "quarantine-rejected") ↔ c = .quarantined) ∧
    ((∃ e, r = fail e ∧ e.mark.reasonCode = "map-unknown") ↔ c = .malformed) := by
  have hcodes : "quarantine-rejected" ≠ "map-unknown" := by decide
  cases c with
  | normalized =>
    obtain ⟨msg, -, rfl⟩ := h
    simp [fail]
  | unmapped =>
    cases h
    simp [fail]
  | quarantined =>
    obtain ⟨reject, rfl⟩ := h
    simp [fail, quarantineError, quarantineReasonCode, hcodes]
  | malformed =>
    obtain ⟨e, rfl⟩ := h
    simp [fail, malformed, hcodes.symm]

/-- **The classification is exact.** A frame is normalized when it is a position message with 1 to
28 payload bytes and has exactly the length its header implies; it is kept unmapped, byte for byte
and readable from its mark, when it is any other message of exactly that length; it is quarantined
when it is too large, or long enough but not of that length; and everything else is malformed.
The payload is any list of bytes, from any source and for any settings of the normalizer; nothing
is assumed of the checksum, which is not looked at, and there is no fourth outcome. -/
theorem normalizeFrame_exact (sha256 : List UInt8 → Digest) (n : MavlinkNormalizer)
    (raw : RawObservation) :
    let frame := raw.payload
    let r := normalizeFrame sha256 n raw
    let isNormalized := frame.length ≤ 280 ∧ HasHeader frame ∧ wireMsgid frame = 33 ∧
      1 ≤ declaredLen frame ∧ declaredLen frame ≤ 28 ∧ frame.length = expectedLength frame
    let isUnmapped := frame.length ≤ 280 ∧ HasHeader frame ∧ wireMsgid frame ≠ 33 ∧
      frame.length = expectedLength frame
    let isQuarantined := 280 < frame.length ∨
      HasHeader frame ∧ (wireMsgid frame = 33 → 1 ≤ declaredLen frame ∧ declaredLen frame ≤ 28) ∧
        minimumLength frame ≤ frame.length ∧ frame.length ≠ expectedLength frame
    ((∃ envelope, r = .ok (.normalized envelope)) ↔ isNormalized) ∧
    ((∃ kept, r = .ok (.unmapped kept)) ↔ isUnmapped) ∧
    (∀ kept, r = .ok (.unmapped kept) → kept.raw = frame ∧
      ∃ hex, "raw-frame-hex:" ++ hex ∈ kept.mark.provenance ∧ unhex hex.toList = some frame) ∧
    ((∃ e, r = fail e ∧ e.mark.reasonCode = "quarantine-rejected") ↔ isQuarantined) ∧
    ((∃ e, r = fail e ∧ e.mark.reasonCode = "map-unknown") ↔
      ¬ (isNormalized ∨ isUnmapped ∨ isQuarantined)) ∧
    ((∃ outcome, r = .ok outcome) ∨ ∃ e, r = fail e) := by
  intro frame r isNormalized isUnmapped isQuarantined
  have hclass : OfClass sha256 n raw r (frameClass frame) := normalizeFrame_ofClass n raw
  have hN : frameClass frame = .normalized ↔ isNormalized := frameClass_normalized
  have hU : frameClass frame = .unmapped ↔ isUnmapped := frameClass_unmapped
  have hQ : frameClass frame = .quarantined ↔ isQuarantined := frameClass_quarantined
  obtain ⟨h1, h2, h3, h4⟩ := hclass.iff
  refine ⟨h1.trans hN, h2.trans hU, ?_, h3.trans hQ, h4.trans ?_, ?_⟩
  · intro kept hkept
    rw [h2.mp ⟨kept, hkept⟩] at hclass
    have heq : kept = unmappedFrame raw (headerOf frame) := by
      have hboth := hkept.symm.trans hclass
      cases hboth
      rfl
    subst heq
    exact ⟨rfl, hexLower frame, by simp [unmappedFrame, frame], unhex_hexLower frame⟩
  · rw [← hN, ← hU, ← hQ]
    cases frameClass frame <;> simp
  · cases hc : frameClass frame with
    | normalized =>
      rw [hc] at hclass
      obtain ⟨msg, -, hr⟩ := hclass
      exact Or.inl ⟨_, hr⟩
    | unmapped =>
      rw [hc] at hclass
      exact Or.inl ⟨_, hclass⟩
    | quarantined =>
      rw [hc] at hclass
      obtain ⟨reject, hr⟩ := hclass
      exact Or.inr ⟨_, hr⟩
    | malformed =>
      rw [hc] at hclass
      obtain ⟨e, hr⟩ := hclass
      exact Or.inr ⟨_, hr⟩

end Musubi.Mavlink
