/-
# The CoT publisher

`northbound/src/lib.rs`, `CotPublisher::publish`, with the texts in which a violation of the
egress policy is reported.  An event is printed tag after tag, with the strings of the envelope
escaped; then its bytes go through the policy, which reads them again from nothing.

An envelope that is no state of a platform, has no position, or whose digest is not that of its
contents is refused before anything is printed.  Times are added as signed 64-bit integers that
wrap around, as a release build adds them; where they do not wrap is the subject of `Times`.
-/
import Musubi.Northbound.CotPolicy
import Musubi.Northbound.Format

namespace Musubi.Northbound

open Lib Xml WirePolicy

/-! ## 1. Texts of violations -/

/-- What is reported of a foreign text: without `;` and without what may not be on the wire. -/
def sanitizeReason (s : Text) : Text :=
  s.map fun c => if c = ';' ∨ isDisallowedCodepoint c = true then '_' else c

/-- `{codepoint:04X}`. -/
def codepointHex (codepoint : ℕ) : Text :=
  let digits := (Nat.toDigits 16 codepoint).map Char.toUpper
  List.replicate (4 - digits.length) '0' ++ digits

def decimal (n : ℕ) : Text := n.repr.toList

def CotPolicy.CotPolicyViolation.display : CotPolicyViolation → Text
  | .notUtf8 => "not-utf8".toList
  | .eventTooLarge bytes =>
    "event-too-large:".toList ++ decimal bytes ++ ":max=".toList ++ decimal maxEventBytes
  | .noEventElement => "no-event-element".toList
  | .missingAttr attr => "missing-attr:".toList ++ attr.toList
  | .undeclaredType found => "undeclared-type:".toList ++ sanitizeReason found
  | .prohibitedMarkup found => "prohibited-markup:".toList ++ found.toList
  | .undeclaredEntity found => "undeclared-entity:".toList ++ sanitizeReason found
  | .noDetailElement => "no-detail-element".toList
  | .noRemarksElement => "no-remarks-element".toList
  | .undeclaredDetailTag found => "undeclared-detail-tag:".toList ++ sanitizeReason found
  | .detailChildCount found => "detail-child-count:".toList ++ decimal found ++ ":expected=1".toList
  | .remarksFieldCount found =>
    "remarks-field-count:".toList ++ decimal found ++ ":expected=4".toList
  | .remarksPrefix index found =>
    "remarks-prefix:".toList ++ decimal index ++ ":".toList ++ sanitizeReason found
  | .undeclaredBasis found => "undeclared-basis:".toList ++ sanitizeReason found
  | .malformedConfidence found => "malformed-confidence:".toList ++ sanitizeReason found
  | .disallowedCodepoint field codepoint =>
    "disallowed-codepoint:".toList ++ field.toList ++ ":U+".toList ++ codepointHex codepoint
  | .fieldTooLong field chars max =>
    "field-too-long:".toList ++ field.toList ++ ":".toList ++ decimal chars ++ ":max=".toList ++
      decimal max
  | .emptyField field => "empty-field:".toList ++ field.toList

/-! ## 2. Parts of an event -/

/-- `9_999_999.0`. -/
def ceLeUnknown : F64 := .ofRat 9999999

structure StaleTtlConfig where
  platformStateSecs : Int64
deriving DecidableEq

def StaleTtlConfig.recommended : StaleTtlConfig := ⟨15⟩

def StaleTtlConfig.secsFor (ttl : StaleTtlConfig) : ComObject → Int64
  | .platformState _ => ttl.platformStateSecs
  | .hostStateObservation _ => ttl.platformStateSecs

def cotBattleDimension : PlatformDomain → Option Text
  | .air => some "A".toList
  | .surface => some "S".toList
  | .ground => some "G".toList
  | .unknown => none
  | .subsurface => none

def cotType (domain : PlatformDomain) : Text :=
  match cotBattleDimension domain with
  | some dim => "a-u-".toList ++ dim
  | none => "a-u".toList

/-- The remarks before they are escaped. -/
def remarksText (claim : Claim) : Text :=
  "MARK:".toList ++ ((markSummary claim.mark).toList ++ ';' :: ("CONF:".toList ++
    (fmtConf claim.confidence ++ ';' :: ("PROV:".toList ++
      ((join "|" claim.mark.provenance).toList ++ ';' :: ("BASIS:".toList ++
        fmtBasis claim.confidenceBasis))))))

/-- The attributes of the event. -/
def eventAttrs (ttlSecs : Int64) (ps : PlatformState) : List (String × Text) :=
  let tMs := effectiveTimeMs ps.timestamps
  let time := iso8601UtcFromEpochMs tMs
  [("version", "2.0".toList), ("uid", xmlEscapeAttr ps.platformId.toList),
    ("type", cotType ps.platformDomain), ("how", "m-g".toList), ("time", time), ("start", time),
    ("stale", iso8601UtcFromEpochMs (tMs + ttlSecs * 1000))]

def pointAttrs (pos : Position) : List (String × Text) :=
  [("lat", fmtF64 pos.latDeg), ("lon", fmtF64 pos.lonDeg),
    ("hae", fmtF64 (pos.altM.getD ceLeUnknown)), ("ce", fmtF64 ceLeUnknown),
    ("le", fmtF64 ceLeUnknown)]

/-- The event. -/
def cotEvent (ttlSecs : Int64) (ps : PlatformState) (pos : Position) (claim : Claim) : Text :=
  xmlDecl ++ ("\n".toList ++ (startTagText "event" (eventAttrs ttlSecs ps) .open_ ++
    ("\n  ".toList ++ (startTagText "point" (pointAttrs pos) .empty ++
      ("\n  ".toList ++ (startTagText "detail" [] .open_ ++
        ("\n    ".toList ++ (startTagText "remarks" [] .open_ ++
          (xmlEscapeAttr (remarksText claim) ++ (endTagText "remarks" ++
        ("\n  ".toList ++ (endTagText "detail" ++
    ("\n".toList ++ (endTagText "event" ++ "\n".toList))))))))))))))

/-! ## 3. Publishing -/

/-- `into_bytes`. -/
def textBytes (s : Text) : List UInt8 := (String.ofList s).toUTF8.data.toList

def cotError (reason : Text) : PublishError := ⟨"cot", String.ofList reason⟩

def cotPublish (ttl : StaleTtlConfig) (envelope : EvidenceEnvelope) :
    Except PublishError (List UInt8) :=
  match envelope.observation with
  | .hostStateObservation _ =>
    .error (cotError "unsupported host-state observation for positional CoT".toList)
  | .platformState ps =>
    if ps.platformDomain = .subsurface then
      .error (cotError "subsurface domain has no qualified CoT mapping".toList)
    else match ps.position with
      | none => .error (cotError "missing position (lat/lon required by CoT point)".toList)
      | some pos =>
        let xml := cotEvent (ttl.secsFor envelope.observation) ps pos envelope.claim
        match CotPolicy.checkCotEventBytes (String.ofList xml).toUTF8 with
        | .error violation => .error (cotError ("cot-policy:".toList ++ violation.display))
        | .ok () => .ok (textBytes xml)

def cotPublisher (ttl : StaleTtlConfig) : NorthboundPublisher where
  dialect := "cot"
  capability := ⟨true, true, true⟩
  publish := cotPublish ttl

/-- A published event is the event of the platform state, and the policy accepts it. -/
theorem cotPublish_eq_ok {ttl : StaleTtlConfig} {envelope : EvidenceEnvelope} {out : List UInt8}
    (h : cotPublish ttl envelope = .ok out) :
    ∃ ps pos, envelope.observation = .platformState ps ∧ ps.position = some pos ∧
      CotPolicy.checkCotEventBytes
          (String.ofList (cotEvent ttl.platformStateSecs ps pos envelope.claim)).toUTF8 = .ok () ∧
      out = textBytes (cotEvent ttl.platformStateSecs ps pos envelope.claim) := by
  unfold cotPublish at h
  cases hobs : envelope.observation with
  | hostStateObservation observation =>
    rw [hobs] at h
    cases h
  | platformState ps =>
    rw [hobs] at h
    simp only at h
    split at h
    · cases h
    · cases hpos : ps.position with
      | none =>
        rw [hpos] at h
        cases h
      | some pos =>
        rw [hpos] at h
        simp only at h
        split at h
        · cases h
        · rename_i hcheck
          cases h
          exact ⟨ps, pos, rfl, hpos, hcheck, rfl⟩

/-- An event that the policy accepts is published. -/
theorem cotPublish_of_accepted {ttl : StaleTtlConfig} {envelope : EvidenceEnvelope}
    {ps : PlatformState} {pos : Position} (hobs : envelope.observation = .platformState ps)
    (hdomain : ps.platformDomain ≠ .subsurface) (hpos : ps.position = some pos)
    (hcheck : CotPolicy.checkCotEventBytes
      (String.ofList (cotEvent ttl.platformStateSecs ps pos envelope.claim)).toUTF8 = .ok ()) :
    cotPublish ttl envelope =
      .ok (textBytes (cotEvent ttl.platformStateSecs ps pos envelope.claim)) := by
  unfold cotPublish
  simp only [hobs, hpos, if_neg hdomain, StaleTtlConfig.secsFor, hcheck]

end Musubi.Northbound
