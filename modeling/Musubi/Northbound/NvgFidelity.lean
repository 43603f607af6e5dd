/-
# An NVG document carries the envelope

What a reader of XML finds in a published document: one element `point` whose `uri` is the
platform, whose `symbol` is that of its domain, and whose `label` and `modifiers` both carry the
mark.  The policy scans the tag of the point by substrings; what it accepts as modifiers is the
attribute, because anything else that it could meet starts with a space.

The mark is written twice, for two kinds of readers.  In the label it stands in brackets behind
the platform, and the policy keeps brackets out of the platform, so the label reads back
(`readLabel_labelText`).  In the modifiers it is the first of four fields, and the policy counts
the separators; an escaped character in the modifiers is refused, so that a reader that does not
unescape sees the same text.

As with events, nothing is assumed of the strings of the envelope.
-/
import Musubi.Northbound.CotFidelity
import Musubi.Northbound.NvgPublisher

namespace Musubi.Northbound

open Lib Xml WirePolicy

/-! ## 1. What is printed is read -/

theorem isValue_app6bSymbol (domain : PlatformDomain) : IsValue (app6bSymbol domain) := by
  cases domain
  all_goals decide

theorem zAttr_valid (altM : Option F64) : ValidAttrs (zAttr altM) := by
  unfold zAttr
  split
  · split
    · unfold ValidAttrs
      rw [List.forall_mem_singleton]
      exact ⟨show isName "z" = true by decide, isValue_of_isPlain (isPlain_fmtF64 _)⟩
    · exact validAttrs_nil
  · exact validAttrs_nil

theorem validAttrs_append {attrs more : List (String × Text)} (h : ValidAttrs attrs)
    (hmore : ValidAttrs more) : ValidAttrs (attrs ++ more) := by
  intro attr hattr
  rcases List.mem_append.mp hattr with hattr | hattr
  · exact h attr hattr
  · exact hmore attr hattr

theorem nvgPointAttrs_valid (ps : PlatformState) (pos : Position) (claim : Claim) :
    ValidAttrs (nvgPointAttrs ps pos claim) := by
  have hnumber (v : F64) : IsValue (fmtF64 v) := isValue_of_isPlain (isPlain_fmtF64 v)
  refine validAttrs_append (validAttrs_append ?_ (zAttr_valid _)) ?_
  · simp only [ValidAttrs, List.forall_mem_cons]
    refine ⟨⟨?_, isValue_xmlEscapeAttr _⟩, ⟨?_, hnumber _⟩, ⟨?_, hnumber _⟩, List.forall_mem_nil _⟩
    all_goals decide
  · simp only [ValidAttrs, List.forall_mem_cons]
    refine ⟨⟨?_, isValue_app6bSymbol _⟩, ⟨?_, isValue_xmlEscapeAttr _⟩,
      ⟨?_, isValue_xmlEscapeAttr _⟩, List.forall_mem_nil _⟩
    all_goals decide

theorem nvgAttrs_valid : ValidAttrs nvgAttrs := by
  simp only [ValidAttrs, nvgAttrs, List.forall_mem_cons]
  refine ⟨⟨?_, ?_⟩, ⟨?_, ?_⟩, List.forall_mem_nil _⟩
  all_goals decide

theorem timeStampAttrs_valid (ps : PlatformState) : ValidAttrs (timeStampAttrs ps) := by
  simp only [ValidAttrs, timeStampAttrs, List.forall_mem_cons]
  exact ⟨⟨by decide, isValue_of_isPlain (isPlain_iso8601 _)⟩, List.forall_mem_nil _⟩

/-- What a reader reports of a document. -/
def nvgItems (ps : PlatformState) (pos : Position) (claim : Claim) : List Item :=
  [.text [], .instruction CotPolicy.declBody, .text "\n".toList,
    .startTag "nvg".toList (readAttrs nvgAttrs) .open_, .text "\n  ".toList,
    .startTag "point".toList (readAttrs (nvgPointAttrs ps pos claim)) .open_,
    .text "\n    ".toList, .startTag "TimeStamp".toList (readAttrs (timeStampAttrs ps)) .empty,
    .text "\n  ".toList, .endTag "point".toList, .text "\n".toList, .endTag "nvg".toList,
    .text "\n".toList]

/-- **A document is read as it was printed.** -/
theorem read_nvgDocument (ps : PlatformState) (pos : Position) (claim : Claim) :
    Xml.read (nvgDocument ps pos claim) = some (nvgItems ps pos claim) := by
  unfold Xml.read nvgDocument
  rw [Reader.run_append, run_xmlDecl, Reader.run_append, Reader.run_content _ _ (by decide),
    Reader.run_append, Reader.run_startTagText (by decide) nvgAttrs_valid,
    Reader.run_append, Reader.run_content _ _ (by decide),
    Reader.run_append, Reader.run_startTagText (by decide)
      (nvgPointAttrs_valid ps pos claim),
    Reader.run_append, Reader.run_content _ _ (by decide),
    Reader.run_append, Reader.run_startTagText (by decide) (timeStampAttrs_valid ps),
    Reader.run_append, Reader.run_content _ _ (by decide),
    Reader.run_append, Reader.run_endTagText (by decide),
    Reader.run_append, Reader.run_content _ _ (by decide),
    Reader.run_append, Reader.run_endTagText (by decide),
    Reader.run_content _ _ (by decide)]
  rfl

/-! ## 2. What the policy meets -/

/-- What follows the start tag of the point. -/
def pointTail (ps : PlatformState) : Text :=
  "\n    ".toList ++ (startTagText "TimeStamp" (timeStampAttrs ps) .empty ++ ("\n  ".toList ++
    (endTagText "point" ++ ("\n".toList ++ (endTagText "nvg" ++ "\n".toList)))))

/-- Where the policy finds the point. -/
theorem found_point (ps : PlatformState) (pos : Position) (claim : Claim) :
    ∃ before, FoundAfter ('<' :: "point".toList) (nvgDocument ps pos claim) before
      (startTagText "point" (nvgPointAttrs ps pos claim) .open_ ++ pointTail ps) := by
  have hhere : FoundAfter ('<' :: "point".toList)
      (startTagText "point" (nvgPointAttrs ps pos claim) .open_ ++ pointTail ps) [] _ :=
    .here (List.IsPrefix.trans (List.prefix_append _ _) (List.prefix_append _ _))
  have hnvg := (hhere.skip (a := "\n  ".toList) (by decide)).skipStartTag "nvg" .open_
    nvgAttrs_valid (by decide) (by decide) (by decide)
  have hall := (hnvg.skip (a := "\n".toList) (by decide)).skipFront ['?']
    (CotPolicy.declBody ++ ['?', '>']) (by decide) (by decide)
    (by decide)
  have hdecl : '<' :: (['?'] ++ (CotPolicy.declBody ++ ['?', '>'])) = xmlDecl :=
    CotPolicy.xmlDecl_eq.symm
  rw [hdecl] at hall
  exact ⟨_, hall⟩

/-- The start tag of the point, as the policy cuts it out. -/
theorem openTag_nvgDocument (ps : PlatformState) (pos : Position) (claim : Claim) :
    openTag (nvgDocument ps pos claim) "point".toList =
      some (startTagText "point" (nvgPointAttrs ps pos claim) .open_) := by
  obtain ⟨before, hfound⟩ := found_point ps pos claim
  exact openTag_of_found hfound (by decide) (nvgPointAttrs_valid ps pos claim)

/-- The scan of the point for the platform. -/
theorem attr_uri (ps : PlatformState) (pos : Position) (claim : Claim) :
    attr (startTagText "point" (nvgPointAttrs ps pos claim) .open_) "uri".toList =
      some (xmlEscapeAttr ps.platformId.toList) := by
  have hquote := (isValue_xmlEscapeAttr ps.platformId.toList).1
  obtain ⟨more, htext⟩ : ∃ more, startTagText "point" (nvgPointAttrs ps pos claim) .open_ =
      ('<' :: ("point".toList ++ [' '])) ++ ("uri".toList ++ '=' :: '"' ::
        (xmlEscapeAttr ps.platformId.toList ++ '"' :: more)) := by
    unfold startTagText nvgPointAttrs
    simp only [List.cons_append, List.flatMap_cons, attrText, List.append_assoc, List.nil_append]
    exact ⟨_, rfl⟩
  have hkey : "uri".toList = 'u' :: "ri".toList := by decide
  rw [htext, hkey, attr_append_of_notMem (by decide), CotPolicy.attr_here hquote]

/-- The scan for modifiers, where it does not meet a space, meets the modifiers. -/
theorem attr_modifiers {ps : PlatformState} {pos : Position} {claim : Claim} {r : Text}
    (h : attr (startTagText "point" (nvgPointAttrs ps pos claim) .open_) "modifiers".toList =
      some r) (hspace : r.head? ≠ some ' ') : r = xmlEscapeAttr (modifiersText claim) := by
  have hpre : '"' ∉ '<' :: "point".toList := by decide
  have hothers : ∀ key ∈ ["uri", "x", "y", "z", "symbol", "label"],
      ¬ "modifiers".toList <:+ key.toList := by decide
  have hkeys : ∀ a ∈ nvgPointAttrs ps pos claim,
      a.1 ∈ ["uri", "x", "y", "z", "symbol", "label"] ∨
        a = ("modifiers", xmlEscapeAttr (modifiersText claim)) := by
    have hz : ∀ a ∈ zAttr pos.altM, a.1 = "z" := by
      intro a ha
      unfold zAttr at ha
      split at ha
      · split at ha
        · rw [List.mem_singleton.mp ha]
        · cases ha
      · cases ha
    intro a ha
    simp only [nvgPointAttrs, List.mem_append, List.mem_cons, List.not_mem_nil, or_false] at ha
    rcases ha with ((rfl | rfl | rfl) | ha) | rfl | rfl | rfl
    · simp
    · simp
    · simp
    · simp [hz a ha]
    · simp
    · simp
    · exact Or.inr rfl
  rcases attr_attrs (by decide) (nvgPointAttrs_valid ps pos claim) _ hpre h with
    ⟨a, ha, hname, rfl⟩ | hhead
  · rcases hkeys a ha with hkey | rfl
    · exact absurd hname (hothers a.1 hkey)
    · rfl
  · exact absurd hhead hspace

/-! ## 3. What acceptance says -/

theorem okOr_eq_ok {α : Type} {o : Option α} {e : NvgPolicy.NvgPolicyViolation} {a : α}
    (h : NvgPolicy.okOr o e = .ok a) : o = some a := by
  cases o with
  | none => cases h
  | some a' =>
    cases h
    rfl

theorem bracket_notMem_of_label {label uri : Text}
    (h : NvgPolicy.checkLabelGrammar label uri = .ok ()) : '[' ∉ uri := by
  unfold NvgPolicy.checkLabelGrammar at h
  split at h
  · cases h
  · rename_i hnone
    intro hmem
    exact hnone (List.any_eq_true.mpr ⟨'[', hmem, by decide⟩)

/-- **What acceptance says about the point**: the platform holds no bracket, and the modifiers
hold no reference and have four fields. -/
theorem point_of_accepted {xml : Text} (h : NvgPolicy.checkNvgDocument xml = .ok ()) :
    ∃ point uri modifiers, openTag xml "point".toList = some point ∧
      attr point "uri".toList = some uri ∧
      NvgPolicy.checkWireField "uri" uri NvgPolicy.maxUriWireChars = .ok () ∧ '[' ∉ uri ∧
      attr point "modifiers".toList = some modifiers ∧
      NvgPolicy.checkWireField "modifiers" modifiers NvgPolicy.maxModifiersWireChars = .ok () ∧
      modifiers.head? ≠ some ' ' ∧ '&' ∉ modifiers ∧ (modifiers.splitOn ';').length = 4 := by
  unfold NvgPolicy.checkNvgDocument at h
  obtain ⟨_, -, h⟩ := bind_eq_ok.mp h
  obtain ⟨_, -, h⟩ := bind_eq_ok.mp h
  obtain ⟨_, -, h⟩ := bind_eq_ok.mp h
  obtain ⟨point, hpoint, h⟩ := bind_eq_ok.mp h
  obtain ⟨uri, huri, h⟩ := bind_eq_ok.mp h
  obtain ⟨⟨⟩, huriField, h⟩ := bind_eq_ok.mp h
  obtain ⟨_, -, h⟩ := bind_eq_ok.mp h
  obtain ⟨label, -, h⟩ := bind_eq_ok.mp h
  obtain ⟨_, -, h⟩ := bind_eq_ok.mp h
  obtain ⟨⟨⟩, hlabel, h⟩ := bind_eq_ok.mp h
  obtain ⟨modifiers, hmodifiers, h⟩ := bind_eq_ok.mp h
  obtain ⟨⟨⟩, hfield, h⟩ := bind_eq_ok.mp h
  obtain ⟨⟨⟩, hgrammar, -⟩ := bind_eq_ok.mp h
  unfold NvgPolicy.checkModifiersGrammar at hgrammar
  obtain ⟨fields, hfields, -⟩ := bind_eq_ok.mp hgrammar
  obtain ⟨hamp, hcount, hstart⟩ := inspectSemicolonFields_eq_ok (mapError_eq_ok.mp hfields)
  refine ⟨point, uri, modifiers, okOr_eq_ok hpoint, okOr_eq_ok huri, huriField,
    bracket_notMem_of_label hlabel, okOr_eq_ok hmodifiers, hfield, ?_, hamp, hcount⟩
  -- the text starts as its first field does
  obtain ⟨first, fields', hsplit⟩ :=
    List.exists_cons_of_ne_nil (List.splitOn_ne_nil ';' modifiers)
  have hfirst : first <+: modifiers :=
    isPrefix_of_head_splitOn (by rw [hsplit, List.head?_cons])
  have hmark : "MARK:".toList <+: first := by
    refine hstart (first, "MARK:".toList) ?_
    rw [hsplit]
    exact List.mem_cons_self
  obtain ⟨t, ht⟩ := hmark.trans hfirst
  rw [← ht]
  intro hhead
  exact absurd (Option.some.inj hhead) (by decide)

theorem checkNvgDocumentBytes_toUTF8 {s : Text}
    (h : (String.ofList s).toUTF8.size ≤ maxDocumentBytes) :
    NvgPolicy.checkNvgDocumentBytes (String.ofList s).toUTF8 = NvgPolicy.checkNvgDocument s := by
  rw [NvgPolicy.checkNvgDocumentBytes, if_neg (Nat.not_lt.mpr h)]
  simp only [fromUTF8?_toUTF8, String.toList_ofList]

theorem checkNvgDocument_of_bytes {s : Text}
    (h : NvgPolicy.checkNvgDocumentBytes (String.ofList s).toUTF8 = .ok ()) :
    NvgPolicy.checkNvgDocument s = .ok () := by
  by_cases hsize : (String.ofList s).toUTF8.size ≤ maxDocumentBytes
  · rwa [checkNvgDocumentBytes_toUTF8 hsize] at h
  · rw [NvgPolicy.checkNvgDocumentBytes, if_pos (Nat.not_le.mp hsize)] at h
    cases h

/-! ## 4. Labels and modifiers -/

/-- What a reader makes of a label `uri [summary]`: the uri, the status and the reason. -/
def readLabel (s : Text) : Option (Text × Text × Text) := do
  let i ← find [' ', '['] s
  let summary ← NvgPolicy.stripLast ']' (s.drop (i + 2))
  return (s.take i, readSummary summary)

theorem stripLast_append (c : Char) (s : Text) : NvgPolicy.stripLast c (s ++ [c]) = some s := by
  unfold NvgPolicy.stripLast
  rw [if_pos List.getLast?_concat, List.dropLast_concat]

/-- **A label reads back** when the platform holds no bracket: the first bracket is then the one
in front of the mark. -/
theorem readLabel_labelText {ps : PlatformState} (mark : Mark) (h : '[' ∉ ps.platformId.toList) :
    readLabel (labelText ps mark) = some (ps.platformId.toList,
      (markStatusLabel mark.status).toList, mark.reasonCode.toList) := by
  have htext : labelText ps mark = ps.platformId.toList ++
      ' ' :: '[' :: ((markSummary mark).toList ++ [']']) := rfl
  have hpair : ¬ [' ', '['] <:+: ps.platformId.toList := by
    intro hpart
    exact h (hpart.subset (by simp))
  have hdrop : (labelText ps mark).drop (ps.platformId.toList.length + 2) =
      (markSummary mark).toList ++ [']'] := by
    rw [htext, ← List.drop_drop, List.drop_left]
    rfl
  have htake : (labelText ps mark).take ps.platformId.toList.length = ps.platformId.toList := by
    rw [htext, List.take_left]
  have hfind : find [' ', '['] (labelText ps mark) = some ps.platformId.toList.length := by
    rw [htext]
    exact find_append_pair (by decide) hpair
  unfold readLabel
  simp only [hfind, hdrop, htake, stripLast_append, readSummary_markSummary, bind, Option.bind,
    pure]

/-- The four fields of the modifiers. -/
def modifiersFields (claim : Claim) : List Text :=
  ["MARK:".toList ++ (markStatusLabel claim.mark.status).toList,
    "REASON:".toList ++ shownReason claim.mark.reasonCode,
    "CONF:".toList ++ fmtConf claim.confidence, "BASIS:".toList ++ fmtBasis claim.confidenceBasis]

theorem modifiersText_eq (claim : Claim) :
    modifiersText claim = List.intercalate [';'] (modifiersFields claim) := by
  unfold modifiersText modifiersFields
  simp [List.intercalate_cons_cons, List.intercalate_singleton]

/-- What a reader makes of modifiers. -/
structure ReadModifiers where
  status : Text
  reason : Text
  conf : Text
  basis : Text
deriving DecidableEq

def readModifiers (s : Text) : Option ReadModifiers :=
  match s.splitOn ';' with
  | [mark, reason, conf, basis] => do
    let status ← stripPrefix "MARK:".toList mark
    let reason ← stripPrefix "REASON:".toList reason
    let conf ← stripPrefix "CONF:".toList conf
    let basis ← stripPrefix "BASIS:".toList basis
    return ⟨status, reason, conf, basis⟩
  | _ => none

/-- Modifiers with the fields of a claim read as the claim. -/
theorem readModifiers_of_splitOn {s : Text} {claim : Claim}
    (h : s.splitOn ';' = modifiersFields claim) : readModifiers s =
      some { status := (markStatusLabel claim.mark.status).toList
             reason := shownReason claim.mark.reasonCode
             conf := fmtConf claim.confidence
             basis := fmtBasis claim.confidenceBasis } := by
  unfold readModifiers
  rw [h]
  simp only [modifiersFields, stripPrefix_append, bind, Option.bind, pure]

/-- The characters of the summary stand in the modifiers, the colon apart. -/
theorem mem_modifiersText_of_mem_markSummary {claim : Claim} {c : Char}
    (hc : c ∈ (markSummary claim.mark).toList) : c = ':' ∨ c ∈ modifiersText claim := by
  have hlabel : c ∈ (markStatusLabel claim.mark.status).toList → c ∈ modifiersText claim := by
    intro hc
    unfold modifiersText
    exact List.mem_append_right _ (List.mem_append_left _ hc)
  unfold markSummary at hc
  split at hc
  · exact Or.inr (hlabel hc)
  · rename_i hempty
    have hshown : shownReason claim.mark.reasonCode = claim.mark.reasonCode.toList := by
      unfold shownReason
      rw [if_neg hempty]
    rw [String.toList_append, String.toList_append, List.mem_append, List.mem_append] at hc
    rcases hc with (hc | hc) | hc
    · exact Or.inr (hlabel hc)
    · exact Or.inl (List.mem_singleton.mp hc)
    · right
      unfold modifiersText
      rw [hshown]
      refine List.mem_append_right _ (List.mem_append_right _ (List.mem_cons_of_mem _ ?_))
      exact List.mem_append_right _ (List.mem_append_left _ hc)

/-- Where modifiers hold nothing to escape, neither does the summary of the mark. -/
theorem xmlEscapeAttr_markSummary {claim : Claim}
    (h : ∀ c ∈ modifiersText claim, c ∉ ['&', '<', '>', '"']) :
    xmlEscapeAttr (markSummary claim.mark).toList = (markSummary claim.mark).toList := by
  refine xmlEscapeAttr_of_plain ?_
  intro c hc
  rcases mem_modifiersText_of_mem_markSummary hc with rfl | hc
  · decide
  · exact h c hc

/-- What acceptance says of a document that was printed: the platform holds no bracket, and
the modifiers are not changed by escaping and have the fields of the claim, and both have
passed as fields. -/
theorem modifiers_of_accepted_document {ps : PlatformState} {pos : Position} {claim : Claim}
    (h : NvgPolicy.checkNvgDocument (nvgDocument ps pos claim) = .ok ()) :
    '[' ∉ ps.platformId.toList ∧ (∀ c ∈ modifiersText claim, c ∉ ['&', '<', '>', '"']) ∧
      (modifiersText claim).splitOn ';' = modifiersFields claim ∧
      NvgPolicy.checkWireField "uri" (xmlEscapeAttr ps.platformId.toList)
        NvgPolicy.maxUriWireChars = .ok () ∧
      NvgPolicy.checkWireField "modifiers" (xmlEscapeAttr (modifiersText claim))
        NvgPolicy.maxModifiersWireChars = .ok () := by
  obtain ⟨point, uri, modifiers, hpoint, huri, huriField, hbracket, hmodifiers, hfield, hhead,
    hamp, hcount⟩ := point_of_accepted h
  rw [openTag_nvgDocument] at hpoint
  cases hpoint
  rw [attr_uri] at huri
  cases huri
  cases attr_modifiers hmodifiers hhead
  have hplain := notMem_of_amp_notMem hamp
  rw [xmlEscapeAttr_of_plain hplain, modifiersText_eq] at hcount
  refine ⟨?_, hplain, ?_, huriField, hfield⟩
  · intro hmem
    have hescaped : escapeChar '[' = ['['] := by decide
    exact hbracket (List.mem_flatMap.mpr ⟨'[', hmem, hescaped ▸ List.mem_singleton_self _⟩)
  · rw [modifiersText_eq]
    exact splitOn_intercalate_of_length (List.cons_ne_nil _ _) hcount

/-! ## 5. Fidelity -/

/-- What a reader finds in the attributes of the point: the platform, the symbol of its domain,
and the mark twice, in words that agree. -/
structure PointCarries (ps : PlatformState) (claim : Claim) (attrs : List (Text × Text)) :
    Prop where
  uri : ∃ uri, valuesOf "uri" attrs = [uri] ∧ unescape uri = ps.platformId.toList ∧
    valuesOf "label" attrs =
      [uri ++ (" [".toList ++ ((markSummary claim.mark).toList ++ "]".toList))]
  symbol : valuesOf "symbol" attrs = [app6bSymbol ps.platformDomain]
  mark : ∃ label modifiers status reason, valuesOf "label" attrs = [label] ∧
    valuesOf "modifiers" attrs = [modifiers] ∧ unescape modifiers = modifiers ∧
    modifiers.splitOn ';' = modifiersFields claim ∧
    status = (markStatusLabel claim.mark.status).toList ∧
    reason = claim.mark.reasonCode.toList ∧
    readLabel (unescape label) = some (ps.platformId.toList, status, reason) ∧
    readModifiers modifiers =
      some { status := status
             reason := if reason = [] then "none".toList else reason
             conf := fmtConf claim.confidence
             basis := fmtBasis claim.confidenceBasis }

/-- The altitude does not stand among the values of another attribute. -/
theorem valuesOf_nvgPointAttrs {key : String} (hkey : "z".toList ≠ key.toList)
    (ps : PlatformState) (pos : Position) (claim : Claim) :
    valuesOf key (readAttrs (nvgPointAttrs ps pos claim)) =
      valuesOf key (readAttrs (nvgPointAttrs ps ⟨pos.latDeg, pos.lonDeg, none⟩ claim)) := by
  have hz : valuesOf key (readAttrs (zAttr pos.altM)) = [] := by
    unfold zAttr
    split
    · split
      · simp only [valuesOf, readAttrs, List.map_cons, List.map_nil, List.filter_cons,
          List.filter_nil, decide_eq_false hkey, Bool.false_eq_true, if_false]
      · rfl
    · rfl
  have hnone : valuesOf key (readAttrs (zAttr none)) = [] := rfl
  unfold nvgPointAttrs
  unfold valuesOf readAttrs at hz hnone ⊢
  simp only [List.map_append, List.filter_append]
  rw [hz, hnone]

theorem shownReason_eq (reasonCode : String) : shownReason reasonCode =
    if reasonCode.toList = [] then "none".toList else reasonCode.toList := by
  unfold shownReason
  refine if_congr ?_ rfl rfl
  rw [String.toList_eq_nil_iff, String.isEmpty_iff]

/-- **A published document carries the envelope**, whatever its strings are.  That it has been
published is the only hypothesis.  `PointCarries` asks for the platform and the symbol, and for
the mark in the label and in the modifiers, in words that agree with each other and with the
envelope. -/
theorem nvgPublish_fidelity (envelope : EvidenceEnvelope) (out : List UInt8)
    (h : nvgPublish envelope = .ok out) :
    ∃ ps items attrs, envelope.observation = .platformState ps ∧ readXml out = some items ∧
      attrsOf "point" items = [attrs] ∧ PointCarries ps envelope.claim attrs := by
  obtain ⟨ps, pos, hobs, -, hcheck, rfl⟩ := nvgPublish_eq_ok h
  obtain ⟨hbracket, hplain, hfields, -⟩ :=
    modifiers_of_accepted_document (checkNvgDocument_of_bytes hcheck)
  have hmodifiers := xmlEscapeAttr_of_plain hplain
  have hunescape := unescape_xmlEscapeAttr (modifiersText envelope.claim)
  rw [hmodifiers] at hunescape
  have hlabel : xmlEscapeAttr (labelText ps envelope.claim.mark) =
      xmlEscapeAttr ps.platformId.toList ++ (" [".toList ++
        ((markSummary envelope.claim.mark).toList ++ "]".toList)) := by
    unfold labelText
    rw [xmlEscapeAttr_append, xmlEscapeAttr_append, xmlEscapeAttr_append,
      xmlEscapeAttr_markSummary hplain]
    rfl
  refine ⟨ps, _, readAttrs (nvgPointAttrs ps pos envelope.claim), hobs,
    (readXml_textBytes _).trans (read_nvgDocument ps pos _), rfl, ?_⟩
  constructor
  · refine ⟨xmlEscapeAttr ps.platformId.toList, ?_, unescape_xmlEscapeAttr _, ?_⟩
    · rw [valuesOf_nvgPointAttrs (by decide)]
      simp [valuesOf, readAttrs, nvgPointAttrs, zAttr]
    · rw [valuesOf_nvgPointAttrs (by decide), ← hlabel]
      simp [valuesOf, readAttrs, nvgPointAttrs, zAttr]
  · rw [valuesOf_nvgPointAttrs (by decide)]
    simp [valuesOf, readAttrs, nvgPointAttrs, zAttr]
  · refine ⟨xmlEscapeAttr (labelText ps envelope.claim.mark), modifiersText envelope.claim, _, _,
      ?_, ?_, hunescape, hfields, rfl, rfl, ?_, ?_⟩
    · rw [valuesOf_nvgPointAttrs (by decide)]
      simp [valuesOf, readAttrs, nvgPointAttrs, zAttr]
    · rw [valuesOf_nvgPointAttrs (by decide), ← hmodifiers]
      simp [valuesOf, readAttrs, nvgPointAttrs, zAttr]
    · rw [unescape_xmlEscapeAttr]
      exact readLabel_labelText _ hbracket
    · rw [← shownReason_eq]
      exact readModifiers_of_splitOn hfields

/-- The vehicle whose name looks like markup, with an altitude that is not a number. -/
def markupNvgPlatform : PlatformState :=
  { markupPlatform with position := some ⟨⟨0⟩, ⟨0⟩, some ⟨0x7FF8000000000000⟩⟩ }

def markupNvgEnvelope : EvidenceEnvelope :=
  { markupEnvelope with observation := .platformState markupNvgPlatform }

theorem markupNvgEnvelope_published : nvgPublish markupNvgEnvelope =
    .ok (textBytes (nvgDocument markupNvgPlatform ⟨⟨0⟩, ⟨0⟩, some ⟨0x7FF8000000000000⟩⟩
      markupEnvelope.claim)) := by
  have hcheck : NvgPolicy.checkNvgDocumentBytes (String.ofList (nvgDocument markupNvgPlatform
      ⟨⟨0⟩, ⟨0⟩, some ⟨0x7FF8000000000000⟩⟩ markupEnvelope.claim)).toUTF8 = .ok () :=
    (checkNvgDocumentBytes_toUTF8 (size_toUTF8_le (by decide +kernel))).trans
      (by decide +kernel)
  exact nvgPublish_of_accepted rfl (by decide) rfl hcheck

/-- Its document carries it. -/
theorem markupNvgEnvelope_carried : ∃ ps items attrs,
    markupNvgEnvelope.observation = .platformState ps ∧
      readXml (textBytes (nvgDocument markupNvgPlatform
        ⟨⟨0⟩, ⟨0⟩, some ⟨0x7FF8000000000000⟩⟩ markupEnvelope.claim)) = some items ∧
      attrsOf "point" items = [attrs] ∧ PointCarries ps markupNvgEnvelope.claim attrs :=
  nvgPublish_fidelity markupNvgEnvelope _ markupNvgEnvelope_published

end Musubi.Northbound
