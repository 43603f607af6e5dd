/-
# The NVG publisher

`northbound/src/lib.rs`, `NvgPublisher::publish`, with the texts in which a violation of the
egress policy is reported.  The platform stands in two attributes of the point and the mark in
two, once for people and once for machines.

The document has no time to live, so nothing is added to a time here, and the one time that is
written is the time of the observation as a date.
-/
import Musubi.Northbound.CotPublisher
import Musubi.Northbound.NvgPolicy

namespace Musubi.Northbound

open Lib Xml WirePolicy

/-! ## 1. Texts of violations -/

def NvgPolicy.NvgPolicyViolation.display : NvgPolicyViolation → Text
  | .notUtf8 => "not-utf8".toList
  | .documentTooLarge bytes =>
    "document-too-large:".toList ++ decimal bytes ++ ":max=".toList ++ decimal maxDocumentBytes
  | .noNvgElement => "no-nvg-element".toList
  | .noPointElement => "no-point-element".toList
  | .missingAttr attr => "missing-attr:".toList ++ attr.toList
  | .undeclaredNamespace found => "undeclared-namespace:".toList ++ sanitizeReason found
  | .undeclaredVersion found => "undeclared-version:".toList ++ sanitizeReason found
  | .undeclaredSymbol found => "undeclared-symbol:".toList ++ sanitizeReason found
  | .prohibitedMarkup found => "prohibited-markup:".toList ++ found.toList
  | .undeclaredEntity found => "undeclared-entity:".toList ++ sanitizeReason found
  | .escapedFieldContent field found =>
    "escaped-field-content:".toList ++ field.toList ++ ":".toList ++ sanitizeReason found
  | .labelShape found => "label-shape:".toList ++ sanitizeReason found
  | .undeclaredMarkStatus found => "undeclared-mark-status:".toList ++ sanitizeReason found
  | .uriBreaksLabelBoundary found =>
    "uri-breaks-label-boundary:".toList ++ sanitizeReason found
  | .undeclaredPointTag found => "undeclared-point-tag:".toList ++ sanitizeReason found
  | .pointChildCount found => "point-child-count:".toList ++ decimal found ++ ":expected=1".toList
  | .modifiersFieldCount found =>
    "modifiers-field-count:".toList ++ decimal found ++ ":expected=4".toList
  | .modifiersPrefix index found =>
    "modifiers-prefix:".toList ++ decimal index ++ ":".toList ++ sanitizeReason found
  | .undeclaredBasis found => "undeclared-basis:".toList ++ sanitizeReason found
  | .malformedConfidence found => "malformed-confidence:".toList ++ sanitizeReason found
  | .disallowedCodepoint field codepoint =>
    "disallowed-codepoint:".toList ++ field.toList ++ ":U+".toList ++ codepointHex codepoint
  | .fieldTooLong field chars max =>
    "field-too-long:".toList ++ field.toList ++ ":".toList ++ decimal chars ++ ":max=".toList ++
      decimal max
  | .emptyField field => "empty-field:".toList ++ field.toList

/-! ## 2. Parts of a document -/

def app6bBattleDimension : PlatformDomain → Char
  | .air => 'A'
  | .surface => 'S'
  | .ground => 'G'
  | .unknown => '-'
  | .subsurface => '-'

def app6bSymbol (domain : PlatformDomain) : Text :=
  "app6b:S".toList ++ 'U' :: app6bBattleDimension domain :: "P------*****".toList

/-- The label before it is escaped. -/
def labelText (ps : PlatformState) (mark : Mark) : Text :=
  ps.platformId.toList ++ (" [".toList ++ ((markSummary mark).toList ++ "]".toList))

/-- The reason as modifiers show it. -/
def shownReason (reasonCode : String) : Text :=
  if reasonCode.isEmpty then "none".toList else reasonCode.toList

/-- The modifiers before they are escaped. -/
def modifiersText (claim : Claim) : Text :=
  "MARK:".toList ++ ((markStatusLabel claim.mark.status).toList ++ ';' :: ("REASON:".toList ++
    (shownReason claim.mark.reasonCode ++ ';' :: ("CONF:".toList ++
      (fmtConf claim.confidence ++ ';' :: ("BASIS:".toList ++
        fmtBasis claim.confidenceBasis))))))

def zAttr : Option F64 → List (String × Text)
  | some z => if z.isFinite then [("z", fmtF64 z)] else []
  | none => []

def nvgPointAttrs (ps : PlatformState) (pos : Position) (claim : Claim) : List (String × Text) :=
  [("uri", xmlEscapeAttr ps.platformId.toList), ("x", fmtF64 pos.lonDeg),
    ("y", fmtF64 pos.latDeg)] ++ zAttr pos.altM ++
  [("symbol", app6bSymbol ps.platformDomain),
    ("label", xmlEscapeAttr (labelText ps claim.mark)),
    ("modifiers", xmlEscapeAttr (modifiersText claim))]

def nvgAttrs : List (String × Text) :=
  [("xmlns", NvgPolicy.nvgNs), ("version", NvgPolicy.nvgVersion)]

def timeStampAttrs (ps : PlatformState) : List (String × Text) :=
  [("when", iso8601UtcFromEpochMs (effectiveTimeMs ps.timestamps))]

/-- The document. -/
def nvgDocument (ps : PlatformState) (pos : Position) (claim : Claim) : Text :=
  xmlDecl ++ ("\n".toList ++ (startTagText "nvg" nvgAttrs .open_ ++
    ("\n  ".toList ++ (startTagText "point" (nvgPointAttrs ps pos claim) .open_ ++
      ("\n    ".toList ++ (startTagText "TimeStamp" (timeStampAttrs ps) .empty ++
    ("\n  ".toList ++ (endTagText "point" ++
    ("\n".toList ++ (endTagText "nvg" ++ "\n".toList))))))))))

/-! ## 3. Publishing -/

def nvgError (reason : Text) : PublishError := ⟨"nvg", String.ofList reason⟩

def nvgPublish (envelope : EvidenceEnvelope) : Except PublishError (List UInt8) :=
  match envelope.observation with
  | .hostStateObservation _ =>
    .error (nvgError "unsupported host-state observation for positional NVG".toList)
  | .platformState ps =>
    if ps.platformDomain = .subsurface then
      .error (nvgError "subsurface domain has no qualified NVG mapping".toList)
    else match ps.position with
      | none => .error (nvgError "missing position (x/y required by NVG point)".toList)
      | some pos =>
        let xml := nvgDocument ps pos envelope.claim
        match NvgPolicy.checkNvgDocumentBytes (String.ofList xml).toUTF8 with
        | .error violation => .error (nvgError ("nvg-policy:".toList ++ violation.display))
        | .ok () => .ok (textBytes xml)

def nvgPublisher : NorthboundPublisher where
  dialect := "nvg"
  capability := ⟨true, true, true⟩
  publish := nvgPublish

/-- A published document is that of the platform state, and the policy accepts it. -/
theorem nvgPublish_eq_ok {envelope : EvidenceEnvelope} {out : List UInt8}
    (h : nvgPublish envelope = .ok out) :
    ∃ ps pos, envelope.observation = .platformState ps ∧ ps.position = some pos ∧
      NvgPolicy.checkNvgDocumentBytes
          (String.ofList (nvgDocument ps pos envelope.claim)).toUTF8 = .ok () ∧
      out = textBytes (nvgDocument ps pos envelope.claim) := by
  unfold nvgPublish at h
  cases hobs : envelope.observation with
  | hostStateObservation observation =>
    rw [hobs] at h
    cases h
  | platformState ps =>
    rw [hobs] at h
    simp only at h
    split at h
    · cases h
    · cases hpos : ps.position with
      | none =>
        rw [hpos] at h
        cases h
      | some pos =>
        rw [hpos] at h
        simp only at h
        split at h
        · cases h
        · rename_i hcheck
          cases h
          exact ⟨ps, pos, rfl, hpos, hcheck, rfl⟩

/-- A document that the policy accepts is published. -/
theorem nvgPublish_of_accepted {envelope : EvidenceEnvelope} {ps : PlatformState} {pos : Position}
    (hobs : envelope.observation = .platformState ps) (hdomain : ps.platformDomain ≠ .subsurface)
    (hpos : ps.position = some pos)
    (hcheck : NvgPolicy.checkNvgDocumentBytes
      (String.ofList (nvgDocument ps pos envelope.claim)).toUTF8 = .ok ()) :
    nvgPublish envelope = .ok (textBytes (nvgDocument ps pos envelope.claim)) := by
  unfold nvgPublish
  simp only [hobs, hpos, if_neg hdomain, hcheck]

end Musubi.Northbound
