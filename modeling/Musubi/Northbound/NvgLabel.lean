/-
# The brackets of an NVG label

A label is the platform and, in brackets, the summary of the mark.  The policy keeps brackets out
of the platform; the reason code, which stands in the summary, is checked as a field of the
modifiers, where brackets mean nothing.  So a label shows one bracketed text, the summary, exactly
when the reason code holds no bracket.

A map shows the label as text, and what a person reads as the mark is what stands in brackets.
`ShowsOneMark` says that there is one such text, that it is the summary, and that no other bracket
occurs.  All brackets of a label are those around the summary and those of the reason code, since
the status is one of a fixed list and the platform has none (section 2); this makes the condition
exact.
-/
import Musubi.Northbound.NvgFidelity

namespace Musubi.Northbound

open Lib Xml WirePolicy

/-! ## 1. What a map shows -/

/-- The label of the one point of a document, as a reader of XML makes it out. -/
def shownLabel (out : List UInt8) : Option Text := do
  let items ← readXml out
  match attrsOf "point" items with
  | [attrs] =>
    match valuesOf "label" attrs with
    | [label] => some (unescape label)
    | _ => none
  | _ => none

theorem shownLabel_nvgDocument (ps : PlatformState) (pos : Position) (claim : Claim) :
    shownLabel (textBytes (nvgDocument ps pos claim)) = some (labelText ps claim.mark) := by
  have hpoint : attrsOf "point" (nvgItems ps pos claim) =
      [readAttrs (nvgPointAttrs ps pos claim)] := rfl
  have hlabel : valuesOf "label" (readAttrs (nvgPointAttrs ps pos claim)) =
      [xmlEscapeAttr (labelText ps claim.mark)] := by
    rw [valuesOf_nvgPointAttrs (by decide)]
    simp [valuesOf, readAttrs, nvgPointAttrs, zAttr]
  unfold shownLabel
  rw [readXml_textBytes, read_nvgDocument]
  simp only [bind, Option.bind, hpoint, hlabel, unescape_xmlEscapeAttr]

/-- A label with one bracketed text, which is the summary and stands at its end. -/
structure ShowsOneMark (label summary : Text) : Prop where
  opens : label.count '[' = 1
  closes : label.count ']' = 1
  shown : ∃ before, label = before ++ '[' :: (summary ++ [']'])

/-! ## 2. Where brackets can be -/

/-- The policy keeps both brackets out of the platform. -/
theorem boundary_notMem_of_label {label uri : Text} {c : Char}
    (hc : c ∈ NvgPolicy.labelBoundaryChars)
    (h : NvgPolicy.checkLabelGrammar label uri = .ok ()) : c ∉ uri := by
  unfold NvgPolicy.checkLabelGrammar at h
  split at h
  · cases h
  · rename_i hnone
    intro hmem
    exact hnone (List.any_eq_true.mpr ⟨c, hmem, decide_eq_true hc⟩)

/-- What acceptance says about the label. -/
theorem label_of_accepted {xml : Text} (h : NvgPolicy.checkNvgDocument xml = .ok ()) :
    ∃ point uri label, openTag xml "point".toList = some point ∧
      attr point "uri".toList = some uri ∧ NvgPolicy.checkLabelGrammar label uri = .ok () := by
  unfold NvgPolicy.checkNvgDocument at h
  obtain ⟨_, -, h⟩ := bind_eq_ok.mp h
  obtain ⟨_, -, h⟩ := bind_eq_ok.mp h
  obtain ⟨_, -, h⟩ := bind_eq_ok.mp h
  obtain ⟨point, hpoint, h⟩ := bind_eq_ok.mp h
  obtain ⟨uri, huri, h⟩ := bind_eq_ok.mp h
  obtain ⟨_, -, h⟩ := bind_eq_ok.mp h
  obtain ⟨_, -, h⟩ := bind_eq_ok.mp h
  obtain ⟨label, -, h⟩ := bind_eq_ok.mp h
  obtain ⟨_, -, h⟩ := bind_eq_ok.mp h
  obtain ⟨⟨⟩, hlabel, -⟩ := bind_eq_ok.mp h
  exact ⟨point, uri, label, okOr_eq_ok hpoint, okOr_eq_ok huri, hlabel⟩

/-- The platform of an accepted document holds no bracket. -/
theorem boundary_notMem_platformId {ps : PlatformState} {pos : Position} {claim : Claim}
    {c : Char} (hc : c ∈ NvgPolicy.labelBoundaryChars)
    (h : NvgPolicy.checkNvgDocument (nvgDocument ps pos claim) = .ok ()) :
    c ∉ ps.platformId.toList := by
  obtain ⟨point, uri, label, hpoint, huri, hlabel⟩ := label_of_accepted h
  rw [openTag_nvgDocument] at hpoint
  cases hpoint
  rw [attr_uri] at huri
  cases huri
  intro hmem
  have hescaped : escapeChar c = [c] := by
    simp only [NvgPolicy.labelBoundaryChars, List.mem_cons, List.not_mem_nil, or_false] at hc
    rcases hc with rfl | rfl
    · decide
    · decide
  refine boundary_notMem_of_label hc hlabel ?_
  exact List.mem_flatMap.mpr ⟨c, hmem, hescaped ▸ List.mem_singleton_self c⟩

theorem boundary_notMem_markStatusLabel {c : Char} (hc : c ∈ NvgPolicy.labelBoundaryChars)
    (status : MarkStatus) : c ∉ (markStatusLabel status).toList := by
  simp only [NvgPolicy.labelBoundaryChars, List.mem_cons, List.not_mem_nil, or_false] at hc
  rcases hc with rfl | rfl
  all_goals
    cases status
    all_goals decide

/-- The brackets of a summary are those of the reason code. -/
theorem count_markSummary {c : Char} (hc : c ∈ NvgPolicy.labelBoundaryChars) (mark : Mark) :
    (markSummary mark).toList.count c = mark.reasonCode.toList.count c := by
  have hstatus := List.count_eq_zero.mpr (boundary_notMem_markStatusLabel hc mark.status)
  unfold markSummary
  split
  · rename_i hempty
    rw [String.toList_eq_nil_iff.mpr (String.isEmpty_iff.mp hempty), hstatus, List.count_nil]
  · have hcolon : (":".toList).count c = 0 := by
      simp only [NvgPolicy.labelBoundaryChars, List.mem_cons, List.not_mem_nil, or_false] at hc
      rcases hc with rfl | rfl
      · decide
      · decide
    rw [String.toList_append, String.toList_append, List.count_append, List.count_append, hstatus,
      hcolon]
    exact Nat.zero_add _

/-- The brackets of a label: its own, and those of the reason code. -/
theorem count_labelText {ps : PlatformState} {mark : Mark} {c : Char}
    (hc : c ∈ NvgPolicy.labelBoundaryChars) (hplatform : c ∉ ps.platformId.toList) :
    (labelText ps mark).count c = mark.reasonCode.toList.count c + 1 := by
  have hown : (" [".toList).count c + ("]".toList).count c = 1 := by
    simp only [NvgPolicy.labelBoundaryChars, List.mem_cons, List.not_mem_nil, or_false] at hc
    rcases hc with rfl | rfl
    · decide
    · decide
  unfold labelText
  rw [List.count_append, List.count_append, List.count_append, count_markSummary hc,
    List.count_eq_zero.mpr hplatform]
  omega

/-! ## 3. One bracketed text -/

/-- **A published label shows one bracketed text, the summary of the mark, exactly when the reason
code holds no bracket.** The hypothesis is that the document is published; it is what keeps
brackets out of the platform.  Nothing else in the program keeps them out of a reason code. -/
theorem nvgLabel_oneMark_iff (envelope : EvidenceEnvelope) (out : List UInt8)
    (h : nvgPublish envelope = .ok out) :
    ∃ label, shownLabel out = some label ∧
      (ShowsOneMark label (markSummary envelope.claim.mark).toList ↔
        '[' ∉ envelope.claim.mark.reasonCode.toList ∧
          ']' ∉ envelope.claim.mark.reasonCode.toList) := by
  obtain ⟨ps, pos, -, -, hcheck, rfl⟩ := nvgPublish_eq_ok h
  have hdocument := checkNvgDocument_of_bytes hcheck
  have hopens := @count_labelText ps envelope.claim.mark '[' (by decide)
    (boundary_notMem_platformId (by decide) hdocument)
  have hcloses := @count_labelText ps envelope.claim.mark ']' (by decide)
    (boundary_notMem_platformId (by decide) hdocument)
  refine ⟨_, shownLabel_nvgDocument ps pos envelope.claim, ?_⟩
  rw [← List.count_eq_zero, ← List.count_eq_zero]
  constructor
  · rintro ⟨h1, h2, -⟩
    exact ⟨by omega, by omega⟩
  · rintro ⟨h1, h2⟩
    refine ⟨by omega, by omega, ps.platformId.toList ++ [' '], ?_⟩
    unfold labelText
    rw [List.append_assoc]
    rfl

/-- A platform whose name looks like markup, under a reason code without brackets. -/
theorem markup_oneMark : ∃ label, shownLabel (textBytes (nvgDocument markupNvgPlatform
      ⟨⟨0⟩, ⟨0⟩, some ⟨0x7FF8000000000000⟩⟩ markupEnvelope.claim)) = some label ∧
    (ShowsOneMark label (markSummary markupNvgEnvelope.claim.mark).toList ↔
      '[' ∉ markupNvgEnvelope.claim.mark.reasonCode.toList ∧
        ']' ∉ markupNvgEnvelope.claim.mark.reasonCode.toList) :=
  nvgLabel_oneMark_iff markupNvgEnvelope _ markupNvgEnvelope_published

/-- A reason code that closes the bracket early and opens another. -/
def bracketEnvelope : EvidenceEnvelope :=
  { markupEnvelope with
    claim := { markupEnvelope.claim with mark := ⟨.degraded, "late] [FIRE:engage", []⟩ } }

/-- It is published, and its label shows two bracketed texts, neither of them the summary. -/
theorem bracketEnvelope_twoMarks : ∃ out label, nvgPublish bracketEnvelope = .ok out ∧
    shownLabel out = some label ∧ label.count '[' = 2 ∧ label.count ']' = 2 ∧
      "[DEGRADED:late] [FIRE:engage]".toList <:+ label := by
  have hcheck : NvgPolicy.checkNvgDocumentBytes (String.ofList (nvgDocument markupPlatform
      ⟨⟨0⟩, ⟨0⟩, none⟩ bracketEnvelope.claim)).toUTF8 = .ok () :=
    (checkNvgDocumentBytes_toUTF8 (size_toUTF8_le (by decide +kernel))).trans
      (by decide +kernel)
  refine ⟨_, _, nvgPublish_of_accepted rfl (by decide) rfl hcheck,
    shownLabel_nvgDocument _ _ _, by decide, by decide, by decide⟩

end Musubi.Northbound
