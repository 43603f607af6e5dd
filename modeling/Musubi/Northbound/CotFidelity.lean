/-
# A CoT event carries the envelope

What a reader of XML finds in a published event: one element `event` whose `uid` is the platform
and whose `type` is that of its domain, and one element `remarks` whose text has four fields, each
as it was put together.  Strings of the envelope stand in both, escaped; the policy, which looks
for its parts by substrings, meets the same remarks, and refuses them when an escaped or a plain
`;` has moved a field.

Nothing is assumed of the strings.  A platform may be called `"/>` and a reason may hold angle
brackets: escaping takes care of what XML reserves (section 1), and what escaping cannot repair, a
separator in a field of the remarks, is refused at egress.

The two readers are different programs.  `Xml.read` goes over the characters once and reports tags
and texts, and knows nothing of events; the policy finds the inner text of `detail` and then of
`remarks` by their tags.  Section 2 shows that on a printed event both see one string, because
escaped text holds no angle bracket that could be taken for a tag.  What the policy accepts of
that string is then what the reader has: four fields, no reference in them, the first a summary of
the mark.
-/
import Musubi.Northbound.Reading

namespace Musubi.Northbound

open Lib Xml WirePolicy

/-! ## 1. What is printed is read -/

theorem isValue_cotType (domain : PlatformDomain) : IsValue (cotType domain) := by
  cases domain
  all_goals decide

theorem eventAttrs_valid (ttlSecs : Int64) (ps : PlatformState) :
    ValidAttrs (eventAttrs ttlSecs ps) := by
  have htime (t : Int64) : IsValue (iso8601UtcFromEpochMs t) :=
    isValue_of_isPlain (isPlain_iso8601 t)
  simp only [ValidAttrs, eventAttrs, List.forall_mem_cons]
  refine ⟨⟨?_, ?_⟩, ⟨?_, isValue_xmlEscapeAttr _⟩, ⟨?_, isValue_cotType _⟩, ⟨?_, ?_⟩,
    ⟨?_, htime _⟩, ⟨?_, htime _⟩, ⟨?_, htime _⟩, List.forall_mem_nil _⟩
  all_goals decide

theorem pointAttrs_valid (pos : Position) :
    ValidAttrs (pointAttrs pos) := by
  have hnumber (v : F64) : IsValue (fmtF64 v) := isValue_of_isPlain (isPlain_fmtF64 v)
  simp only [ValidAttrs, pointAttrs, List.forall_mem_cons]
  refine ⟨⟨?_, hnumber _⟩, ⟨?_, hnumber _⟩, ⟨?_, hnumber _⟩, ⟨?_, hnumber _⟩, ⟨?_, hnumber _⟩,
    List.forall_mem_nil _⟩
  all_goals decide

/-- What a reader reports of an event. -/
def cotItems (ttlSecs : Int64) (ps : PlatformState) (pos : Position) (claim : Claim) :
    List Item :=
  [.text [], .instruction CotPolicy.declBody, .text "\n".toList,
    .startTag "event".toList (readAttrs (eventAttrs ttlSecs ps)) .open_, .text "\n  ".toList,
    .startTag "point".toList (readAttrs (pointAttrs pos)) .empty, .text "\n  ".toList,
    .startTag "detail".toList [] .open_, .text "\n    ".toList,
    .startTag "remarks".toList [] .open_, .text (xmlEscapeAttr (remarksText claim)),
    .endTag "remarks".toList, .text "\n  ".toList, .endTag "detail".toList, .text "\n".toList,
    .endTag "event".toList, .text "\n".toList]

/-- **An event is read as it was printed**, with every string unescaped to what it was. -/
theorem read_cotEvent (ttlSecs : Int64) (ps : PlatformState) (pos : Position) (claim : Claim) :
    Xml.read (cotEvent ttlSecs ps pos claim) = some (cotItems ttlSecs ps pos claim) := by
  have hremarks := notMem_xmlEscapeAttr (c := '<') (by decide) (remarksText claim)
  unfold Xml.read cotEvent
  rw [Reader.run_append, run_xmlDecl, Reader.run_append, Reader.run_content _ _ (by decide),
    Reader.run_append, Reader.run_startTagText (by decide) (eventAttrs_valid ttlSecs ps),
    Reader.run_append, Reader.run_content _ _ (by decide),
    Reader.run_append, Reader.run_startTagText (by decide) (pointAttrs_valid pos),
    Reader.run_append, Reader.run_content _ _ (by decide),
    Reader.run_append, Reader.run_startTagText (by decide) validAttrs_nil,
    Reader.run_append, Reader.run_content _ _ (by decide),
    Reader.run_append, Reader.run_startTagText (by decide) validAttrs_nil,
    Reader.run_append, Reader.run_content _ _ hremarks,
    Reader.run_append, Reader.run_endTagText (by decide),
    Reader.run_append, Reader.run_content _ _ (by decide),
    Reader.run_append, Reader.run_endTagText (by decide),
    Reader.run_append, Reader.run_content _ _ (by decide),
    Reader.run_append, Reader.run_endTagText (by decide),
    Reader.run_content _ _ (by decide)]
  rfl

/-! ## 2. The policy meets the same remarks -/

/-- What stands in the detail of an event. -/
def detailText (claim : Claim) : Text :=
  "\n    ".toList ++ (startTagText "remarks" [] .open_ ++
    (xmlEscapeAttr (remarksText claim) ++ (endTagText "remarks" ++ "\n  ".toList)))

theorem cotEvent_eq (ttlSecs : Int64) (ps : PlatformState) (pos : Position) (claim : Claim) :
    cotEvent ttlSecs ps pos claim =
      xmlDecl ++ ("\n".toList ++ (startTagText "event" (eventAttrs ttlSecs ps) .open_ ++
        ("\n  ".toList ++ (startTagText "point" (pointAttrs pos) .empty ++
          ("\n  ".toList ++ (startTagText "detail" [] .open_ ++ (detailText claim ++
            (endTagText "detail" ++ ("\n".toList ++ (endTagText "event" ++
              "\n".toList)))))))))) := by
  unfold cotEvent detailText
  simp only [List.append_assoc]

/-- Up to the end tag of the detail there is nothing but its text. -/
theorem found_detailEnd (claim : Claim) (tail : Text) :
    FoundAfter "</detail>".toList (detailText claim ++ (endTagText "detail" ++ tail))
      (detailText claim) (endTagText "detail" ++ tail) := by
  have hneedle : "</detail>".toList = '<' :: "/detail>".toList := by decide
  have hremarks := notMem_xmlEscapeAttr (c := '<') (by decide) (remarksText claim)
  have hend : FoundAfter ('<' :: "/detail>".toList) (endTagText "detail" ++ tail) []
      (endTagText "detail" ++ tail) :=
    .here (by rw [← hneedle]; exact List.prefix_append _ tail)
  have hclose := (hend.skip (a := "\n  ".toList) (by decide)).skipEndTag "remarks"
    (by decide) (by decide) (by decide)
  have hopen := (hclose.skip hremarks).skipStartTag "remarks" .open_ validAttrs_nil
    (by decide) (by decide) (by decide)
  have hall := hopen.skip (a := "\n    ".toList) (by decide)
  rw [hneedle]
  unfold detailText
  simp only [List.append_assoc, List.append_nil] at hall ⊢
  exact hall

/-- The first tag of a detail is the detail of the event. -/
theorem found_detailOpen (ttlSecs : Int64) (ps : PlatformState) (pos : Position)
    (claim : Claim) : ∃ before, FoundAfter "<detail".toList (cotEvent ttlSecs ps pos claim) before
      (startTagText "detail" [] .open_ ++ (detailText claim ++ (endTagText "detail" ++
        ("\n".toList ++ (endTagText "event" ++ "\n".toList))))) := by
  have hneedle : "<detail".toList = '<' :: "detail".toList := by decide
  have hhere : FoundAfter ('<' :: "detail".toList) (startTagText "detail" [] .open_ ++
      (detailText claim ++ (endTagText "detail" ++
        ("\n".toList ++ (endTagText "event" ++ "\n".toList))))) [] _ :=
    .here ⟨'>' :: _, rfl⟩
  have hpoint := (hhere.skip (a := "\n  ".toList) (by decide)).skipStartTag "point"
    .empty (pointAttrs_valid pos) (by decide) (by decide) (by decide)
  have hevent := (hpoint.skip (a := "\n  ".toList) (by decide)).skipStartTag "event"
    .open_ (eventAttrs_valid ttlSecs ps) (by decide) (by decide)
    (by decide)
  have hall := (hevent.skip (a := "\n".toList) (by decide)).skipFront ['?']
    (CotPolicy.declBody ++ ['?', '>']) (by decide) (by decide)
    (by decide)
  have hdecl : '<' :: (['?'] ++ (CotPolicy.declBody ++ ['?', '>'])) = xmlDecl :=
    CotPolicy.xmlDecl_eq.symm
  rw [hdecl] at hall
  rw [hneedle, cotEvent_eq]
  exact ⟨_, hall⟩

/-- The detail that the policy looks into. -/
theorem detailInner_cotEvent (ttlSecs : Int64) (ps : PlatformState) (pos : Position)
    (claim : Claim) :
    CotPolicy.detailInner (cotEvent ttlSecs ps pos claim) = some (detailText claim) := by
  obtain ⟨before, hopen⟩ := found_detailOpen ttlSecs ps pos claim
  have hinner := found_detailEnd claim ("\n".toList ++ (endTagText "event" ++ "\n".toList))
  generalize detailText claim ++ (endTagText "detail" ++
    ("\n".toList ++ (endTagText "event" ++ "\n".toList))) = rest at hopen hinner
  have htag : startTagText "detail" [] .open_ = "<detail".toList ++ ['>'] := by decide
  have hclose : find ['>'] (startTagText "detail" [] .open_ ++ rest) = some 7 := by
    rw [htag, List.append_assoc]
    exact (FoundAfter.skip (.here ⟨rest, rfl⟩) (by decide)).found
  have hrest : (cotEvent ttlSecs ps pos claim).drop (before.length + 7 + 1) = rest := by
    rw [Nat.add_assoc, ← List.drop_drop, hopen.drop]
    rfl
  unfold CotPolicy.detailInner
  simp only [hopen.found, hopen.drop, hclose, hrest, hinner.found, hinner.take, bind,
    Option.bind, pure]

/-- The remarks that the policy looks into. -/
theorem elementText_detailText (claim : Claim) :
    CotPolicy.elementText (detailText claim) "remarks".toList =
      some (xmlEscapeAttr (remarksText claim)) := by
  have hremarks := notMem_xmlEscapeAttr (c := '<') (by decide) (remarksText claim)
  have hclose : FoundAfter ('<' :: '/' :: ("remarks".toList ++ ['>']))
      (xmlEscapeAttr (remarksText claim) ++ (endTagText "remarks" ++ "\n  ".toList)) _ _ :=
    FoundAfter.skip (.here (List.prefix_append _ _)) hremarks
  have hopen : FoundAfter ('<' :: ("remarks".toList ++ ['>'])) (detailText claim) _ _ :=
    FoundAfter.skip (.here (List.prefix_append _ _)) (by decide)
  rw [List.append_nil] at hclose hopen
  have hrest : (detailText claim).drop ("\n    ".toList.length + ("remarks".toList.length + 2)) =
      xmlEscapeAttr (remarksText claim) ++ (endTagText "remarks" ++ "\n  ".toList) := by
    rw [← List.drop_drop, hopen.drop]
    rfl
  unfold CotPolicy.elementText
  simp only [hopen.found, hrest, hclose.found, hclose.take, bind, Option.bind, pure]

/-! ## 3. What acceptance says about the remarks -/

/-- **What acceptance says about the remarks**: they hold no reference, and four fields.  Without
a reference the text as written is the text as read. -/
theorem remarks_of_accepted {xml : Text} (h : CotPolicy.checkCotEvent xml = .ok ()) :
    ∃ detail remarks, CotPolicy.detailInner xml = some detail ∧
      CotPolicy.elementText detail "remarks".toList = some remarks ∧
      CotPolicy.checkWireField "remarks" remarks CotPolicy.maxRemarksWireChars = .ok () ∧
      '&' ∉ remarks ∧ (remarks.splitOn ';').length = 4 := by
  unfold CotPolicy.checkCotEvent at h
  obtain ⟨_, -, h⟩ := bind_eq_ok.mp h
  obtain ⟨_, -, h⟩ := bind_eq_ok.mp h
  obtain ⟨_, -, h⟩ := bind_eq_ok.mp h
  obtain ⟨_, -, h⟩ := bind_eq_ok.mp h
  obtain ⟨_, -, h⟩ := bind_eq_ok.mp h
  obtain ⟨detail, hdetail, h⟩ := bind_eq_ok.mp h
  obtain ⟨_, -, h⟩ := bind_eq_ok.mp h
  obtain ⟨remarks, hremarks, h⟩ := bind_eq_ok.mp h
  obtain ⟨⟨⟩, hfield, h⟩ := bind_eq_ok.mp h
  unfold CotPolicy.checkRemarksGrammar at h
  obtain ⟨fields, hfields, -⟩ := bind_eq_ok.mp h
  have hgrammar := inspectSemicolonFields_eq_ok (mapError_eq_ok.mp hfields)
  exact ⟨detail, remarks, CotPolicy.okOr_eq_ok hdetail, CotPolicy.okOr_eq_ok hremarks, hfield,
    hgrammar.1, hgrammar.2.1⟩

/-! ## 4. What the remarks carry -/

/-- The four fields of the remarks. -/
def remarksFields (claim : Claim) : List Text :=
  ["MARK:".toList ++ (markSummary claim.mark).toList, "CONF:".toList ++ fmtConf claim.confidence,
    "PROV:".toList ++ (join "|" claim.mark.provenance).toList,
    "BASIS:".toList ++ fmtBasis claim.confidenceBasis]

theorem remarksText_eq (claim : Claim) :
    remarksText claim = List.intercalate [';'] (remarksFields claim) := by
  unfold remarksText remarksFields
  simp [List.intercalate_cons_cons, List.intercalate_singleton]

/-- What a reader makes of remarks: four fields with their names, of which the first is a
summary. -/
structure ReadRemarks where
  status : Text
  reason : Text
  conf : Text
  prov : Text
  basis : Text
deriving DecidableEq

def readRemarks (s : Text) : Option ReadRemarks :=
  match s.splitOn ';' with
  | [mark, conf, prov, basis] => do
    let summary ← stripPrefix "MARK:".toList mark
    let conf ← stripPrefix "CONF:".toList conf
    let prov ← stripPrefix "PROV:".toList prov
    let basis ← stripPrefix "BASIS:".toList basis
    let (status, reason) := readSummary summary
    return ⟨status, reason, conf, prov, basis⟩
  | _ => none

/-- Remarks with the fields of a claim read as the claim. -/
theorem readRemarks_of_splitOn {s : Text} {claim : Claim}
    (h : s.splitOn ';' = remarksFields claim) : readRemarks s =
      some { status := (markStatusLabel claim.mark.status).toList
             reason := claim.mark.reasonCode.toList
             conf := fmtConf claim.confidence
             prov := (join "|" claim.mark.provenance).toList
             basis := fmtBasis claim.confidenceBasis } := by
  unfold readRemarks
  rw [h]
  simp only [remarksFields, stripPrefix_append, bind, Option.bind, pure, readSummary_markSummary]

/-- The remarks of an accepted event, as a reader finds them, hold nothing to escape and have
the fields of the claim. -/
theorem remarks_of_accepted_event {ttlSecs : Int64} {ps : PlatformState} {pos : Position}
    {claim : Claim} (h : CotPolicy.checkCotEvent (cotEvent ttlSecs ps pos claim) = .ok ()) :
    (∀ c ∈ remarksText claim, c ∉ ['&', '<', '>', '"']) ∧
      (remarksText claim).splitOn ';' = remarksFields claim ∧
      CotPolicy.checkWireField "remarks" (xmlEscapeAttr (remarksText claim))
        CotPolicy.maxRemarksWireChars = .ok () := by
  obtain ⟨detail, remarks, hdetail, hremarks, hfield, hamp, hcount⟩ := remarks_of_accepted h
  rw [detailInner_cotEvent] at hdetail
  cases hdetail
  rw [elementText_detailText] at hremarks
  cases hremarks
  have hplain := notMem_of_amp_notMem hamp
  rw [xmlEscapeAttr_of_plain hplain] at hcount
  refine ⟨hplain, ?_, hfield⟩
  rw [remarksText_eq] at hcount ⊢
  exact splitOn_intercalate_of_length (List.cons_ne_nil _ _) hcount

/-! ## 5. Fidelity -/

/-- What a reader finds in the items of an event: the platform, the type of its domain, and
the claim. -/
structure EventCarries (ps : PlatformState) (claim : Claim) (items : List Item) : Prop where
  event : ∃ attrs, attrsOf "event" items = [attrs] ∧
    (valuesOf "uid" attrs).map unescape = [ps.platformId.toList] ∧
    valuesOf "type" attrs = [cotType ps.platformDomain]
  remarks : ∃ remarks, textsOf "remarks" items = [remarks] ∧ unescape remarks = remarks ∧
    remarks.splitOn ';' = remarksFields claim ∧
    readRemarks remarks =
      some { status := (markStatusLabel claim.mark.status).toList
             reason := claim.mark.reasonCode.toList
             conf := fmtConf claim.confidence
             prov := (join "|" claim.mark.provenance).toList
             basis := fmtBasis claim.confidenceBasis }

/-- **A published event carries the envelope**, whatever its strings are.  The envelope is any
that is published: being published is the only hypothesis, and it already says that the
observation is a state of a platform with a position.  `readXml` reports the tags and the texts of
any document of this kind, and has not been told what a publisher prints. -/
theorem cotPublish_fidelity (ttl : StaleTtlConfig) (envelope : EvidenceEnvelope)
    (out : List UInt8) (h : cotPublish ttl envelope = .ok out) :
    ∃ ps items, envelope.observation = .platformState ps ∧ readXml out = some items ∧
      EventCarries ps envelope.claim items := by
  obtain ⟨ps, pos, hobs, -, hcheck, rfl⟩ := cotPublish_eq_ok h
  obtain ⟨hplain, hfields, -⟩ :=
    remarks_of_accepted_event (CotPolicy.checkCotEvent_of_bytes hcheck)
  have hescape := xmlEscapeAttr_of_plain hplain
  have hunescape := unescape_xmlEscapeAttr (remarksText envelope.claim)
  rw [hescape] at hunescape
  refine ⟨ps, _, hobs, (readXml_textBytes _).trans (read_cotEvent _ ps pos _), ?_⟩
  constructor
  · refine ⟨readAttrs (eventAttrs ttl.platformStateSecs ps), ?_, ?_, ?_⟩
    · rfl
    · simp [valuesOf, readAttrs, eventAttrs, unescape_xmlEscapeAttr]
    · simp [valuesOf, readAttrs, eventAttrs]
  · refine ⟨remarksText envelope.claim, ?_, hunescape, hfields, readRemarks_of_splitOn hfields⟩
    unfold cotItems
    rw [hescape]
    rfl

/-- A vehicle whose name looks like markup. -/
def markupPlatform : PlatformState where
  platformId := "uav <1> & \"2\""
  position := some ⟨⟨0⟩, ⟨0⟩, none⟩
  mode := none
  timestamps := ⟨none, 0, ⟨0⟩⟩
  platformDomain := .air

def markupEnvelope : EvidenceEnvelope where
  observation := .platformState markupPlatform
  claim :=
    { claimId := "c-1"
      confidence := ⟨0x3F19999A⟩
      mark := ⟨.degraded, "link-loss", ["adapter@1", "late"]⟩
      confidenceBasis := some .adapterAssigned }
  classification := none
  signature := none
  contentDigest := none
  signerId := none
  signedAt := none
  revocationProof := none
  trustAnnotations := none

theorem markupEnvelope_published : cotPublish .recommended markupEnvelope =
    .ok (textBytes (cotEvent 15 markupPlatform ⟨⟨0⟩, ⟨0⟩, none⟩ markupEnvelope.claim)) := by
  have hcheck : CotPolicy.checkCotEventBytes (String.ofList (cotEvent 15 markupPlatform
      ⟨⟨0⟩, ⟨0⟩, none⟩ markupEnvelope.claim)).toUTF8 = .ok () :=
    (CotPolicy.checkCotEventBytes_toUTF8 (size_toUTF8_le (by decide +kernel))).trans
      (by decide +kernel)
  exact cotPublish_of_accepted rfl (by decide) rfl hcheck

/-- Its event carries it. -/
theorem markupEnvelope_carried : ∃ ps items,
    markupEnvelope.observation = .platformState ps ∧
      readXml (textBytes (cotEvent 15 markupPlatform ⟨⟨0⟩, ⟨0⟩, none⟩
        markupEnvelope.claim)) = some items ∧
      EventCarries ps markupEnvelope.claim items :=
  cotPublish_fidelity .recommended markupEnvelope _ markupEnvelope_published

end Musubi.Northbound
