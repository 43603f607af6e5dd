/-
# The MAVLink adapter under the harness

Every check of the harness, for every frame.  Two of them can find something.  A frame of an
unmapped message leaves `normalize` as an error marked DEGRADED, on purpose, and the harness wants
every error INVALID.  And a position off the globe is passed on as it was received.

The first is a design: the harness says in its table that an error carries INVALID and no other
mark, and a test of the adapter says that the error of an unmapped frame is DEGRADED, since the
frame is well formed and is kept.  The second is not checked by the adapter at all, whose fields
are 32 bits wide and can hold 214 degrees; what is proved of it here is that nothing but the range
is violated, and not even that when the degrees received are on the globe.

The frames are all byte strings.  They fall into the classes of `Mavlink.Normalizer`
(`FrameClass`), and for each class section 3 goes through what `normalize` returns.  An envelope
passes every check but the range by its construction (`checkEnvelope_position`): its mark is one
of two, its texts are built of numbers and of the name of the source, and its digest is the one
that was just made.
-/
import Musubi.Conformance.Harness
import Musubi.Mavlink.Normalizer

namespace Musubi.Conformance

open Lib Lib.Checked Musubi.Core Mavlink

variable {sha256 : List UInt8 → Digest} {n : MavlinkNormalizer} {raw : RawObservation}
  {header : Mavlink2Header} {msg : GlobalPositionInt}

/-! ## 1. The marks -/

theorem sepFree_debug (e : DecodeError) : SepFree e.debug := by
  cases e with
  | notMavlink2 magic =>
    exact sepFree_append.mpr ⟨sepFree_append.mpr ⟨by decide, sepFree_repr _⟩,
      by decide⟩
  | tooShort have' need =>
    exact sepFree_append.mpr ⟨sepFree_append.mpr ⟨sepFree_append.mpr ⟨sepFree_append.mpr
      ⟨by decide, sepFree_repr _⟩, by decide⟩, sepFree_repr _⟩, by decide⟩
  | unexpectedMsgId msgid =>
    exact sepFree_append.mpr ⟨sepFree_append.mpr ⟨by decide, sepFree_repr _⟩,
      by decide⟩
  | badPayloadLen len =>
    exact sepFree_append.mpr ⟨sepFree_append.mpr ⟨by decide, sepFree_repr _⟩,
      by decide⟩

theorem sepFree_identNote (header : Mavlink2Header) : SepFree (identNote header) :=
  sepFree_append.mpr ⟨sepFree_append.mpr ⟨sepFree_append.mpr
    ⟨by decide, sepFree_repr _⟩, by decide⟩, sepFree_repr _⟩

theorem sepFree_source (hid : SepFree raw.sourceId) : SepFree ("source:" ++ raw.sourceId) :=
  sepFree_append.mpr ⟨by decide, hid⟩

theorem sepFree_adapter : SepFree ("adapter:" ++ adapterSlug) := by decide

/-- The mark of a malformed frame passes, whatever the decoder's error was: the texts of those
errors are the adapter's own, and none has a separator. -/
theorem checkError_malformed (hid : SepFree raw.sourceId) (e : DecodeError)
    {case : ConformanceCase} (hcase : case.raw = raw) :
    checkError (malformed raw e) case = [] := by
  have hitems : ∀ item ∈ ["source:" ++ raw.sourceId, "mavlink-decode-error:" ++ e.debug],
      SepFree item := by
    intro item hitem
    rcases List.mem_pair.mp hitem with rfl | rfl
    · exact sepFree_source hid
    · exact sepFree_append.mpr ⟨by decide, sepFree_debug e⟩
  have hgrammar : checkMarkGrammar "map-unknown" _ case = [] :=
    checkMarkGrammar_eq_nil (by decide) (by decide) (List.cons_ne_nil _ _) hitems case
  have hsource : (malformed raw e).sourceId = case.raw.sourceId := by rw [hcase, malformed]
  exact checkError_eq_nil_iff.mpr ⟨rfl, hsource, hgrammar⟩

/-- The mark of a quarantined frame passes for the same reason; the numbers that a refusal quotes
are digits. -/
theorem checkError_quarantined (hid : SepFree raw.sourceId) (reject : QuarantineReject)
    {case : ConformanceCase} (hcase : case.raw = raw) :
    checkError (quarantineError raw reject) case = [] := by
  have hitems : ∀ item ∈ ["source:" ++ raw.sourceId, "adapter:" ++ adapterSlug,
      "quarantine:" ++ reject.display], SepFree item := by
    intro item hitem
    simp only [List.mem_cons, List.not_mem_nil, or_false] at hitem
    rcases hitem with rfl | rfl | rfl
    · exact sepFree_source hid
    · exact sepFree_adapter
    · exact sepFree_append.mpr ⟨by decide, reject.sepFree_display⟩
  have hgrammar : checkMarkGrammar quarantineReasonCode _ case = [] :=
    checkMarkGrammar_eq_nil (by decide) (by decide) (List.cons_ne_nil _ _) hitems case
  have hsource : (quarantineError raw reject).sourceId = case.raw.sourceId := by
    rw [hcase, quarantineError]
  exact checkError_eq_nil_iff.mpr ⟨rfl, hsource, hgrammar⟩

/-- The mark of an unmapped frame passes but for its status: an error must be INVALID, and this
one is DEGRADED by design.  That is the one finding, and there is no other. -/
theorem checkError_unmapped (hid : SepFree raw.sourceId) {case : ConformanceCase}
    (hcase : case.raw = raw) :
    checkError ⟨(unmappedFrame raw header).sourceId, (unmappedFrame raw header).mark⟩ case =
      [⟨case.name, "C-ERR-INVALID", .rejectionStatus .degraded⟩] := by
  have hitems : ∀ item ∈ ["source:" ++ raw.sourceId, "adapter:" ++ adapterSlug, identNote header,
      "unmapped-msgid:" ++ header.msgid.toNat.repr,
      "raw-frame-hex:" ++ hexLower raw.payload], SepFree item := by
    intro item hitem
    simp only [List.mem_cons, List.not_mem_nil, or_false] at hitem
    rcases hitem with rfl | rfl | rfl | rfl | rfl
    · exact sepFree_source hid
    · exact sepFree_adapter
    · exact sepFree_identNote header
    · exact sepFree_append.mpr ⟨by decide, sepFree_repr _⟩
    · exact sepFree_append.mpr ⟨by decide, sepFree_hexLower _⟩
  have hgrammar : checkMarkGrammar "unmapped-msgid" _ case = [] :=
    checkMarkGrammar_eq_nil (by decide) (by decide) (List.cons_ne_nil _ _) hitems case
  have hsource : (unmappedFrame raw header).sourceId = case.raw.sourceId := by
    rw [hcase, unmappedFrame]
  have hstatus : MarkStatus.degraded ≠ MarkStatus.invalid := by decide
  exact (@checkError_eq ⟨(unmappedFrame raw header).sourceId, (unmappedFrame raw header).mark⟩
    case hsource hgrammar).trans (if_pos hstatus)

/-! ## 2. The envelope of a position -/

theorem sepFree_positionNotes (header : Mavlink2Header) (msg : GlobalPositionInt) :
    ∀ note ∈ positionNotes header msg, SepFree note.provenance ∧ SepFree note.reasonCode := by
  intro note hnote
  simp only [positionNotes, List.mem_append, List.mem_cons, List.not_mem_nil, or_false] at hnote
  have hempty : SepFree "" := by decide
  rcases hnote with ((rfl | rfl | rfl | rfl) | hnote) | hnote
  · exact ⟨by decide, hempty⟩
  · exact ⟨by decide, hempty⟩
  · exact ⟨by decide, hempty⟩
  · exact ⟨sepFree_identNote header, hempty⟩
  · split at hnote
    · rw [List.mem_singleton] at hnote
      subst hnote
      exact ⟨sepFree_append.mpr ⟨by decide, sepFree_repr _⟩, hempty⟩
    · cases hnote
  · split at hnote
    · rw [List.mem_singleton] at hnote
      subst hnote
      exact ⟨by decide, by decide⟩
    · cases hnote

/-- The time of a position message is always suspect: the adapter's confidence in it is a constant
below the threshold, so the mark is DEGRADED whatever the frame says. -/
theorem status_positionQuality :
    (deriveMark (positionQuality raw header msg)).status = .degraded := by
  have hsuspect : gpiTimeConfidence.le timeConfidenceDegradedThreshold = true := by
    decide +kernel
  obtain ⟨hok, hdegraded, -⟩ := deriveMark_rest (positionQuality raw header msg)
  refine hdegraded fun h => ?_
  have hnever : gpiTimeConfidence.le timeConfidenceDegradedThreshold = false :=
    (listedReasons_eq_nil_iff.mp (hok.mp h)).1
  exact Bool.false_ne_true (hnever.symm.trans hsuspect)

/-- The mark derived for a position has texts that hold no separator. -/
theorem checkMarkGrammar_positionQuality (hid : SepFree raw.sourceId) (case : ConformanceCase) :
    checkMarkGrammar (deriveMark (positionQuality raw header msg)).reasonCode
      (deriveMark (positionQuality raw header msg)).provenance case = [] := by
  have hslug : SepFree adapterSlug := by decide
  have hnotes := sepFree_positionNotes header msg
  exact (@checkMarkGrammar_deriveMark_iff (positionQuality raw header msg) case hid hslug
    fun note hnote => (hnotes note hnote).2).mpr fun note hnote => (hnotes note hnote).1

/-- Degrees from a count of ten-millionths stay within the bounds that the count keeps. -/
theorem degE7ToDeg_within {v : Int32} {bound : ℚ} (h : |(v.toInt : ℚ)| ≤ bound * 10000000) :
    F64.within (.ofRat (-bound)) (.ofRat bound) (degE7ToDeg v) = true := by
  obtain ⟨hlo, hhi⟩ := abs_le.mp h
  refine F64.within_ofRat ?_ ?_
  · rw [le_div_iff₀ (by norm_num)]
    linarith
  · rw [div_le_iff₀ (by norm_num)]
    exact hhi

theorem abs_toInt_le (v : Int32) : |(v.toInt : ℚ)| ≤ 2 ^ 31 := by
  have hlo := v.le_toInt
  have hhi := v.toInt_lt
  have h : |v.toInt| ≤ 2 ^ 31 := abs_le.mpr ⟨by omega, by omega⟩
  exact_mod_cast h

/-- A quotient of an `i32` is finite: division by one or more does not make it larger, and the
largest of them is far below the range of a double. -/
theorem isFinite_ofRat_div (v : Int32) {d : ℚ} (hd : 1 ≤ d) :
    (F64.ofRat (v.toInt / d)).isFinite = true := by
  refine @F64.isFinite_ofRat _ (2 ^ 31) ?_ (by decide +kernel)
  rw [abs_div, abs_of_pos (zero_lt_one.trans_le hd)]
  exact (div_le_self (abs_nonneg _) hd).trans (abs_toInt_le v)

/-- The position of a message. -/
def positionOf (msg : GlobalPositionInt) : Position where
  latDeg := degE7ToDeg msg.lat
  lonDeg := degE7ToDeg msg.lon
  altM := some (mmToM msg.alt)

/-- A message with its latitude and longitude on the globe passes the range check. -/
theorem positionInRange_positionOf (hlat : |(msg.lat.toInt : ℚ)| ≤ 90 * 10000000)
    (hlon : |(msg.lon.toInt : ℚ)| ≤ 180 * 10000000) : positionInRange (positionOf msg) = true := by
  have h1 : (degE7ToDeg msg.lat).isFinite = true := isFinite_ofRat_div msg.lat (by norm_num)
  have h2 : (degE7ToDeg msg.lon).isFinite = true := isFinite_ofRat_div msg.lon (by norm_num)
  have h3 : (mmToM msg.alt).isFinite = true := isFinite_ofRat_div msg.alt (by norm_num)
  simp only [positionInRange, positionOf, h1, h2, h3, degE7ToDeg_within hlat,
    degE7ToDeg_within hlon, Bool.and_true, Option.all_some]

/-- The identifiers are never blank: both hold a slash. -/
theorem isBlank_platformId (raw : RawObservation) (header : Mavlink2Header) (t : String) :
    isBlank (platformId raw header ++ t) = false := by
  refine isBlank_eq_false (c := '/') ?_ (by decide)
  unfold platformId
  rw [String.toList_append, String.toList_append, String.toList_append]
  refine List.mem_append_left _ (List.mem_append_left _ (List.mem_append_right _ ?_))
  decide

/-- **An envelope can only be off the globe.**  Every other check passes. -/
theorem checkEnvelope_position (hid : SepFree raw.sourceId) {case : ConformanceCase}
    (hcase : case.raw = raw) :
    checkEnvelope sha256 (sealDigest sha256 (positionEnvelope n raw header msg)) case =
      pushIf (¬ positionInRange (positionOf msg)) case "C-POSITION-RANGE"
        (.positionOutside (positionOf msg).latDeg (positionOf msg).lonDeg
          (positionOf msg).altM) := by
  have hstatus := @status_positionQuality raw header msg
  have hgrammar := @checkMarkGrammar_positionQuality raw header msg hid case
  have hmark : (sealDigest sha256 (positionEnvelope n raw header msg)).claim.mark =
      deriveMark (positionQuality raw header msg) := rfl
  have hblank : isBlank (platformId raw header) = false := by
    have h := isBlank_platformId raw header ""
    rwa [String.append_empty] at h
  have hobservation : checkObservation case
      (sealDigest sha256 (positionEnvelope n raw header msg)).observation =
      pushIf (¬ positionInRange (positionOf msg)) case "C-POSITION-RANGE"
        (.positionOutside (positionOf msg).latDeg (positionOf msg).lonDeg
          (positionOf msg).altM) := by
    change pushIf (isBlank (platformId raw header) = true) case _ _ ++ pushIf _ case _ _ ++
      pushIf (raw.receivedAt ≠ case.raw.receivedAt) case _ _ ++
      pushIf (¬ inUnit gpiTimeConfidence = true) case _ _ = _
    have hreceived : ¬ raw.receivedAt ≠ case.raw.receivedAt := by
      rw [hcase]
      exact not_not.mpr rfl
    have hunit : ¬ ¬ inUnit gpiTimeConfidence = true := not_not.mpr (by decide +kernel)
    rw [hblank, pushIf_neg Bool.false_ne_true, pushIf_neg hreceived, pushIf_neg hunit,
      List.nil_append, List.append_nil, List.append_nil]
    rfl
  have hclaim : isBlank (sealDigest sha256 (positionEnvelope n raw header msg)).claim.claimId =
      false := isBlank_platformId raw header ":global_position_int"
  have hunit : inUnit adapterAssignedConfidence = true := by decide +kernel
  have hconfidence : inUnit
      (sealDigest sha256 (positionEnvelope n raw header msg)).claim.confidence = true := hunit
  rw [checkEnvelope, checkSealed_sealDigest, hmark, hgrammar, hobservation, hstatus,
    pushIf_neg (by decide), hclaim, pushIf_neg Bool.false_ne_true, hconfidence,
    pushIf_neg (not_not.mpr rfl), List.nil_append, List.nil_append, List.nil_append,
    List.append_nil, List.append_nil]

/-! ## 3. Every frame -/

/-- What `normalize` makes of a frame of the class.  The outcome of an unmapped frame is folded
into an error there, with the mark that says that the frame was kept. -/
def Narrowed (sha256 : List UInt8 → Digest) (n : MavlinkNormalizer) (raw : RawObservation)
    (r : Checked NormalizeError EvidenceEnvelope) : FrameClass → Prop
  | .normalized => ∃ msg,
      decodeGlobalPositionIntPayload raw.payload (headerOf raw.payload) = .ok msg ∧
      r = .ok (sealDigest sha256 (positionEnvelope n raw (headerOf raw.payload) msg))
  | .unmapped =>
      r = fail ⟨(unmappedFrame raw (headerOf raw.payload)).sourceId,
        (unmappedFrame raw (headerOf raw.payload)).mark⟩
  | .quarantined => ∃ reject, r = fail (quarantineError raw reject)
  | .malformed => ∃ e, r = fail (malformed raw e)

theorem normalize_narrowed {c : FrameClass}
    (h : OfClass sha256 n raw (normalizeFrame sha256 n raw) c) :
    Narrowed sha256 n raw (normalize sha256 n raw) c := by
  cases c with
  | normalized =>
    obtain ⟨msg, hmsg, hr⟩ := h
    refine ⟨msg, hmsg, ?_⟩
    rw [Mavlink.normalize, hr]
    rfl
  | unmapped =>
    have hr : normalizeFrame sha256 n raw = _ := h
    rw [Mavlink.normalize, hr]
    rfl
  | quarantined =>
    obtain ⟨reject, hr⟩ := h
    refine ⟨reject, ?_⟩
    rw [Mavlink.normalize, hr]
    rfl
  | malformed =>
    obtain ⟨e, hr⟩ := h
    refine ⟨e, ?_⟩
    rw [Mavlink.normalize, hr]
    rfl

/-- **What the harness finds.** For every frame from a source whose name has no separator: an
envelope violates nothing but the position range, and not that either when the latitude and
longitude received are on the globe; an error violates nothing, unless the frame is a well-formed
one of an unmapped message, which is reported DEGRADED and kept.  The name of the source goes into
the provenance of every mark, so a semicolon in it would be found in all of them. -/
theorem normalize_conforms (sha256 : List UInt8 → Digest) (n : MavlinkNormalizer)
    (raw : RawObservation) (hid : SepFree raw.sourceId) (name : String)
    (expected : ExpectedOutcome) :
    ((∃ env, normalize sha256 n raw = .ok env) ∨ ∃ e, normalize sha256 n raw = fail e) ∧
    (∀ env, normalize sha256 n raw = .ok env →
      (∀ v ∈ checkEnvelope sha256 env ⟨name, raw, expected⟩, v.invariant = "C-POSITION-RANGE") ∧
      ∀ msg, decodeGlobalPositionInt raw.payload = .ok msg →
        |(msg.lat.toInt : ℚ)| ≤ 90 * 10000000 → |(msg.lon.toInt : ℚ)| ≤ 180 * 10000000 →
        checkEnvelope sha256 env ⟨name, raw, expected⟩ = []) ∧
    (∀ e, normalize sha256 n raw = fail e →
      (∀ kept, normalizeFrame sha256 n raw ≠ .ok (.unmapped kept)) →
      checkError e ⟨name, raw, expected⟩ = []) ∧
    (∀ kept, normalizeFrame sha256 n raw = .ok (.unmapped kept) →
      ∃ e, normalize sha256 n raw = fail e ∧ e.mark.status = .degraded ∧
        checkError e ⟨name, raw, expected⟩ =
          [⟨name, "C-ERR-INVALID", .rejectionStatus .degraded⟩]) := by
  have hclass : OfClass sha256 n raw _ _ := normalizeFrame_ofClass n raw
  have hkept : ∀ kept, normalizeFrame sha256 n raw = .ok (.unmapped kept) →
      frameClass raw.payload = .unmapped := fun kept h => hclass.iff.2.1.mp ⟨kept, h⟩
  have hresult := normalize_narrowed hclass
  cases hc : frameClass raw.payload with
  | normalized =>
    rw [hc] at hresult
    obtain ⟨msg, hmsg, hr⟩ := hresult
    obtain ⟨-, hheader, hmsgid, -⟩ := frameClass_normalized.mp hc
    rw [hr]
    refine ⟨Or.inl ⟨_, rfl⟩, ?_, ?_, ?_⟩
    · intro env henv
      cases henv
      rw [checkEnvelope_position hid rfl]
      refine ⟨?_, ?_⟩
      · intro v hv
        unfold pushIf at hv
        split at hv
        · rw [List.mem_singleton] at hv
          rw [hv]
        · cases hv
      · intro msg' hmsg' hlat hlon
        rw [decodeGlobalPositionInt_headerOf hheader hmsgid, hmsg] at hmsg'
        cases hmsg'
        exact pushIf_neg (not_not.mpr (positionInRange_positionOf hlat hlon)) _ _ _
    · intro e he
      cases he
    · intro kept h
      rw [hkept kept h] at hc
      cases hc
  | unmapped =>
    rw [hc] at hresult hclass
    have hr : normalize sha256 n raw = _ := hresult
    rw [hr]
    refine ⟨Or.inr ⟨_, rfl⟩, ?_, ?_, ?_⟩
    · intro env henv
      cases henv
    · intro e _ hne
      exact absurd hclass (hne _)
    · intro kept _
      exact ⟨_, rfl, rfl, checkError_unmapped hid rfl⟩
  | quarantined =>
    rw [hc] at hresult
    obtain ⟨reject, hr⟩ := hresult
    rw [hr]
    refine ⟨Or.inr ⟨_, rfl⟩, ?_, ?_, ?_⟩
    · intro env henv
      cases henv
    · intro e he _
      cases he
      exact checkError_quarantined hid reject rfl
    · intro kept h
      rw [hkept kept h] at hc
      cases hc
  | malformed =>
    rw [hc] at hresult
    obtain ⟨e, hr⟩ := hresult
    rw [hr]
    refine ⟨Or.inr ⟨_, rfl⟩, ?_, ?_, ?_⟩
    · intro env henv
      cases henv
    · intro e' he _
      cases he
      exact checkError_malformed hid e rfl
    · intro kept h
      rw [hkept kept h] at hc
      cases hc

/-! ## 4. Two frames that do not conform -/

/-- A `HEARTBEAT`. -/
def heartbeat : RawObservation :=
  ⟨"tap", [0xFD, 9, 0, 0, 0, 1, 1, 0, 0, 0, 0, 0, 0, 0, 2, 3, 81, 4, 3, 0, 0], 1⟩

/-- A position with the latitude 200 degrees, the trailing zero bytes cut off. -/
def offTheGlobe : RawObservation :=
  ⟨"tap", [0xFD, 8, 0, 0, 0, 1, 1, 33, 0, 0, 0, 0, 0, 0, 0, 0x94, 0x35, 0x77, 0, 0], 1⟩

/-- What the decoder reads in it. -/
def offTheGlobeMessage : GlobalPositionInt where
  timeBootMs := 0
  lat := 2000000000
  lon := 0
  alt := 0
  relativeAlt := 0
  vx := 0
  vy := 0
  vz := 0
  hdg := 0

/-- The heartbeat leaves as an error that is not INVALID, and the position as an envelope that
is off the globe. -/
theorem nonconforming_frames :
    (∃ e, normalize Sha256.hash .new heartbeat = fail e ∧
      checkError e ⟨"heartbeat", heartbeat, .rejects⟩ ≠ []) ∧
    ∃ env, normalize Sha256.hash .new offTheGlobe = .ok env ∧
      checkEnvelope Sha256.hash env ⟨"position", offTheGlobe, .normalizes⟩ ≠ [] := by
  have hmsg : decodeGlobalPositionIntPayload offTheGlobe.payload (headerOf offTheGlobe.payload) =
      .ok offTheGlobeMessage := by decide
  have hclass : frameClass offTheGlobe.payload = .normalized := by decide
  have hnarrowed := @normalize_narrowed Sha256.hash .new offTheGlobe _
    (normalizeFrame_ofClass .new offTheGlobe)
  rw [hclass] at hnarrowed
  obtain ⟨msg, hmsg', hr⟩ := hnarrowed
  rw [hmsg] at hmsg'
  cases hmsg'
  have hrange : ¬ positionInRange (positionOf offTheGlobeMessage) = true := by decide +kernel
  have herror := @checkError_unmapped heartbeat (headerOf heartbeat.payload) (by decide)
    ⟨"heartbeat", heartbeat, .rejects⟩ rfl
  have henvelope := @checkEnvelope_position Sha256.hash .new offTheGlobe
    (headerOf offTheGlobe.payload) offTheGlobeMessage (by decide)
    ⟨"position", offTheGlobe, .normalizes⟩ rfl
  refine ⟨⟨_, rfl, fun h => ?_⟩, _, hr, fun h => ?_⟩
  · exact List.cons_ne_nil _ _ (herror.symm.trans h)
  · rw [h, pushIf, if_pos hrange] at henvelope
    exact List.cons_ne_nil _ _ henvelope.symm

/-- The heartbeat is reported DEGRADED, which is its only violation, and of the position off the
globe the harness finds the range and nothing else. -/
theorem heartbeat_conforms :
    (∃ e, normalize Sha256.hash .new heartbeat = fail e ∧ e.mark.status = .degraded ∧
      checkError e ⟨"heartbeat", heartbeat, .rejects⟩ =
        [⟨"heartbeat", "C-ERR-INVALID", .rejectionStatus .degraded⟩]) ∧
    ∃ env, normalize Sha256.hash .new offTheGlobe = .ok env ∧
      ∀ v ∈ checkEnvelope Sha256.hash env ⟨"position", offTheGlobe, .normalizes⟩,
        v.invariant = "C-POSITION-RANGE" := by
  have hunmapped : frameClass heartbeat.payload = .unmapped := by decide
  have hclass : OfClass Sha256.hash .new heartbeat _ _ := normalizeFrame_ofClass .new heartbeat
  obtain ⟨kept, hkept⟩ := hclass.iff.2.1.mpr hunmapped
  have hnormalized : frameClass offTheGlobe.payload = .normalized := by decide
  have hnarrowed := @normalize_narrowed Sha256.hash .new offTheGlobe _
    (normalizeFrame_ofClass .new offTheGlobe)
  rw [hnormalized] at hnarrowed
  obtain ⟨msg, -, hr⟩ := hnarrowed
  exact ⟨(normalize_conforms Sha256.hash .new heartbeat (by decide) "heartbeat" .rejects).2.2.2
      kept hkept, _, hr,
    ((normalize_conforms Sha256.hash .new offTheGlobe (by decide) "position" .normalizes).2.1
      _ hr).1⟩

end Musubi.Conformance
