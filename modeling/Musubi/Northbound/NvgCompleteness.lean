/-
# Which legitimate observations are published

The documents of NVG, and with the events of CoT the whole.  The tag of a point has three
attributes after the platform that the policy looks for, so there are three ends of a platform
that it takes for an attribute.

One lemma reads any of these attributes (`attr_point`): in front of it are the platform, a
coordinate, and attributes with values of fixed forms.  If the platform ends with its name and an
equals sign the scan returns what stands before the next quote, which is the beginning of the
coordinate's attribute, and otherwise the value as it was written.

The rest is as for an event: the confidence has two decimals unless it is minus zero, texts are
within their limits (`FitsNvg`), and no reserved character occurs.  A bracket in the platform is
refused by design, because the label puts the mark in brackets; the length condition says that
there is none.
-/
import Musubi.Northbound.Completeness

namespace Musubi.Northbound

open Lib Xml WirePolicy

/-! ## 1. Documents -/

/-- The lengths of a document are within the limits, and its platform holds no bracket, since the
label puts the mark behind it in brackets. -/
structure FitsNvg (ps : PlatformState) (pos : Position) (claim : Claim) : Prop where
  uri : (xmlEscapeAttr ps.platformId.toList).length ≤ NvgPolicy.maxUriWireChars
  label : (xmlEscapeAttr (labelText ps claim.mark)).length ≤ NvgPolicy.maxLabelWireChars
  modifiers : (modifiersText claim).length ≤ NvgPolicy.maxModifiersWireChars
  document : (String.ofList (nvgDocument ps pos claim)).toUTF8.size ≤ maxDocumentBytes
  brackets : ∀ c ∈ NvgPolicy.labelBoundaryChars, c ∉ ps.platformId.toList

/-- After the declaration there is no comment, no section and no instruction. -/
theorem contains_nvgBody {b : Char} (hb : b ∈ ['!', '?']) (ps : PlatformState) (pos : Position)
    (claim : Claim) {body : Text} (hbody : nvgDocument ps pos claim = xmlDecl ++ body) :
    contains ['<', b] body = false := by
  have hstart {name : String} (hname : name ∈ ["nvg", "point", "TimeStamp"]) :
      isName name = true ∧ ¬ [b] <+: name.toList ∧ ¬ name.toList <+: [b] ∧
        ¬ [b] <+: '/' :: name.toList ∧ ¬ '/' :: name.toList <+: [b] := by
    simp only [List.mem_cons, List.not_mem_nil, or_false] at hb hname
    rcases hb with rfl | rfl
    all_goals
      rcases hname with rfl | rfl | rfl
      all_goals decide
  obtain ⟨hnvg, hnvg1, hnvg2, hnvg3, hnvg4⟩ := @hstart "nvg" (by decide)
  obtain ⟨hpoint, hpoint1, hpoint2, hpoint3, hpoint4⟩ := @hstart "point" (by decide)
  obtain ⟨htime, htime1, htime2, -⟩ := @hstart "TimeStamp" (by decide)
  unfold nvgDocument at hbody
  rw [← List.append_cancel_left hbody, contains_append_of_notMem (by decide),
    contains_startTag nvgAttrs_valid hnvg hnvg1 hnvg2, contains_append_of_notMem (by decide),
    contains_startTag (nvgPointAttrs_valid ps pos claim) hpoint hpoint1 hpoint2,
    contains_append_of_notMem (by decide),
    contains_startTag (timeStampAttrs_valid ps) htime htime1 htime2,
    contains_append_of_notMem (by decide), contains_endTag hpoint hpoint3 hpoint4,
    contains_append_of_notMem (by decide), contains_endTag hnvg hnvg3 hnvg4]
  rw [contains_eq_false_iff]
  intro hinside
  exact absurd (hinside.subset List.mem_cons_self) (by decide)

theorem escapedText_nvgDocument (ps : PlatformState) (pos : Position) (claim : Claim) :
    EscapedText (nvgDocument ps pos claim) := by
  have htext {a : Text} (h : '&' ∉ a) : EscapedText a := escapedText_of_notMem h
  have hplain {a : Text} (h : a.all isPlain = true) : EscapedText a :=
    escapedText_of_notMem (notMem_of_all h (by decide))
  have hz : ∀ a ∈ zAttr pos.altM, isName a.1 = true ∧ EscapedText a.2 := by
    intro a ha
    refine ⟨(zAttr_valid pos.altM a ha).1, ?_⟩
    unfold zAttr at ha
    split at ha
    · split at ha
      · rw [List.mem_singleton.mp ha]
        exact hplain (isPlain_fmtF64 _)
      · cases ha
    · cases ha
  have hsymbol : EscapedText (app6bSymbol ps.platformDomain) := by
    refine htext ?_
    cases ps.platformDomain
    all_goals decide
  have hpoint : EscapedText (startTagText "point" (nvgPointAttrs ps pos claim) .open_) := by
    refine escapedText_startTag (by decide) ?_
    unfold nvgPointAttrs
    rw [List.forall_mem_append, List.forall_mem_append]
    simp only [List.forall_mem_cons]
    exact ⟨⟨⟨⟨by decide, escapedText_xmlEscapeAttr _⟩, ⟨by decide, hplain (isPlain_fmtF64 _)⟩,
      ⟨by decide, hplain (isPlain_fmtF64 _)⟩, List.forall_mem_nil _⟩, hz⟩,
      ⟨by decide, hsymbol⟩, ⟨by decide, escapedText_xmlEscapeAttr _⟩,
      ⟨by decide, escapedText_xmlEscapeAttr _⟩, List.forall_mem_nil _⟩
  have htime : EscapedText (startTagText "TimeStamp" (timeStampAttrs ps) .empty) := by
    refine escapedText_startTag (by decide) ?_
    simp only [timeStampAttrs, List.forall_mem_cons]
    exact ⟨⟨by decide, hplain (isPlain_iso8601 _)⟩, List.forall_mem_nil _⟩
  unfold nvgDocument
  refine (htext (by decide)).append ((htext (by decide)).append ((htext (by decide)).append
    ((htext (by decide)).append (hpoint.append ((htext (by decide)).append ?_)))))
  exact htime.append (htext (by decide))

/-- A document passes the floor. -/
theorem checkMarkupFloor_nvgDocument (ps : PlatformState) (pos : Position) (claim : Claim) :
    NvgPolicy.checkMarkupFloor (nvgDocument ps pos claim) = .ok () := by
  have hmarkup : prohibitedMarkup (nvgDocument ps pos claim) = none :=
    prohibitedMarkup_eq_none fun b hb => contains_nvgBody hb ps pos claim rfl
  unfold NvgPolicy.checkMarkupFloor
  rw [hmarkup, (escapedText_nvgDocument ps pos claim).eq_none]

/-- The root, as the policy cuts it out. -/
theorem openTag_nvg (ps : PlatformState) (pos : Position) (claim : Claim) :
    openTag (nvgDocument ps pos claim) "nvg".toList =
      some (startTagText "nvg" nvgAttrs .open_) := by
  have hhere : FoundAfter ('<' :: "nvg".toList)
      (startTagText "nvg" nvgAttrs .open_ ++ ("\n  ".toList ++
        (startTagText "point" (nvgPointAttrs ps pos claim) .open_ ++ pointTail ps))) [] _ :=
    .here (List.IsPrefix.trans (List.prefix_append _ _) (List.prefix_append _ _))
  have hall := (hhere.skip (a := "\n".toList) (by decide)).skipFront ['?']
    (CotPolicy.declBody ++ ['?', '>']) (by decide) (by decide) (by decide)
  have hdecl : '<' :: (['?'] ++ (CotPolicy.declBody ++ ['?', '>'])) = xmlDecl :=
    CotPolicy.xmlDecl_eq.symm
  rw [hdecl] at hall
  exact openTag_of_found hall (by decide) nvgAttrs_valid

/-- The inside of the point, as the policy cuts it out. -/
theorem pointInner_nvgDocument (ps : PlatformState) (pos : Position) (claim : Claim) :
    NvgPolicy.pointInner (nvgDocument ps pos claim) =
      some ("\n    ".toList ++ (startTagText "TimeStamp" (timeStampAttrs ps) .empty ++
        "\n  ".toList)) := by
  obtain ⟨before, hfound⟩ := found_point ps pos claim
  have hend := @found_tagEnd "point" _ (by decide) (nvgPointAttrs_valid ps pos claim)
    (pointTail ps)
  have hclose : FoundAfter ('<' :: '/' :: ("point".toList ++ ['>']))
      (endTagText "point" ++ ("\n".toList ++ (endTagText "nvg" ++ "\n".toList))) [] _ :=
    .here (List.prefix_append _ _)
  have hinner := ((hclose.skip (a := "\n  ".toList) (by decide)).skipStartTag "TimeStamp" .empty
    (timeStampAttrs_valid ps) (by decide) (by decide) (by decide)).skip (a := "\n    ".toList)
    (by decide)
  rw [List.append_nil] at hinner
  have htail : pointTail ps = "\n    ".toList ++ (startTagText "TimeStamp" (timeStampAttrs ps)
      .empty ++ ("\n  ".toList ++ (endTagText "point" ++ ("\n".toList ++ (endTagText "nvg" ++
        "\n".toList))))) := rfl
  rw [← htail] at hinner
  have hneedle : "</point>".toList = '<' :: '/' :: ("point".toList ++ ['>']) := by decide
  have hopen : "<point".toList = '<' :: "point".toList := by decide
  unfold NvgPolicy.pointInner
  rw [hneedle, hopen]
  simp only [hfound.found, hfound.drop, hend.found, ← List.drop_drop, hend.drop, List.drop_one,
    List.tail_cons, hinner.found, hinner.take, bind, Option.bind, pure]

theorem countPointChildren_append {a : Text} (s : Text) (n : ℕ) (h : '<' ∉ a) :
    NvgPolicy.countPointChildren (a ++ s) n = NvgPolicy.countPointChildren s n := by
  induction a with
  | nil => rfl
  | cons c a ih =>
    rw [List.mem_cons, not_or] at h
    rw [List.cons_append, NvgPolicy.countPointChildren, if_neg (Ne.symm h.1), ih h.2]

/-- The one child of a point. -/
theorem checkPointChildren_timeStamp (ps : PlatformState) : NvgPolicy.checkPointChildren
    ("\n    ".toList ++ (startTagText "TimeStamp" (timeStampAttrs ps) .empty ++
      "\n  ".toList)) = .ok () := by
  have hvalid := timeStampAttrs_valid ps
  have hwhen : '<' ∉ iso8601UtcFromEpochMs (effectiveTimeMs ps.timestamps) :=
    notMem_of_all (isPlain_iso8601 _) (by decide)
  have htag : startTagText "TimeStamp" (timeStampAttrs ps) .empty =
      '<' :: ("TimeStamp".toList ++ ' ' :: ("when=\"".toList ++
        (iso8601UtcFromEpochMs (effectiveTimeMs ps.timestamps) ++ "\"/>".toList))) := by
    simp [startTagText, timeStampAttrs, attrText, Close.text]
  have hname (rest : Text) : ("TimeStamp".toList ++ ' ' :: rest).takeWhile
      NvgPolicy.isPointNameChar = "TimeStamp".toList := by
    rw [List.takeWhile_append_of_pos (List.all_iff_forall_prop.mp (by decide)),
      List.takeWhile_cons_of_neg (by decide), List.append_nil]
  unfold NvgPolicy.checkPointChildren
  rw [countPointChildren_append _ _ (by decide), htag, List.cons_append, List.append_assoc,
    List.cons_append, NvgPolicy.countPointChildren, if_pos rfl]
  simp only [hname]
  rw [if_pos (by decide), if_neg (by decide), countPointChildren_append _ _ (by decide)]
  rw [← List.singleton_append, countPointChildren_append _ _ (by decide), List.append_assoc,
    countPointChildren_append _ _ (by decide), List.append_assoc,
    countPointChildren_append _ _ hwhen]
  decide

/-! ## 2. What is read of the point -/

/-- **An attribute of the point is read as it was written** unless the platform ends with its name
and an equals sign; then what stands before the next quote is read. -/
theorem attr_point {ps : PlatformState} {pos : Position} {claim : Claim} {key : String}
    {value : Text} {before after : List (String × Text)}
    (hsplit : nvgPointAttrs ps pos claim = ("uri", xmlEscapeAttr ps.platformId.toList) ::
      ("x", fmtF64 pos.lonDeg) :: (before ++ (key, value) :: after))
    (hkey : isName key = true) (huri : ¬ key.toList <:+ "uri".toList)
    (hx : ¬ key.toList <:+ "x".toList) (hbefore : NotMistaken key before) :
    attr (startTagText "point" (nvgPointAttrs ps pos claim) .open_) key.toList =
      some (if key.toList ++ ['='] <:+ ps.platformId.toList then " x=".toList else value) := by
  have hvalid := nvgPointAttrs_valid ps pos claim
  rw [hsplit, validAttrs_cons, validAttrs_cons] at hvalid
  obtain ⟨huriValid, hxValid, hrest⟩ := hvalid
  obtain ⟨hbeforeValid, hafterValid⟩ := List.forall_mem_append.mp hrest
  obtain ⟨⟨-, hvalue⟩, -⟩ := List.forall_mem_cons.mp hafterValid
  have hspecial : ∀ c ∈ key.toList ++ ['='], c ∉ ['&', '<', '>', '"', ';'] := by
    rw [List.forall_mem_append, List.forall_mem_singleton]
    refine ⟨?_, by decide⟩
    intro c hc hmem
    have hnot : ∀ c ∈ ['&', '<', '>', '"', ';'], isNameChar c = false :=
      List.all_iff_forall_prop.mp (by decide)
    exact notMem_of_isName hkey (hnot c hmem) hc
  have hsuffix := suffix_xmlEscapeAttr (s := ps.platformId.toList) hspecial
  rw [hsplit]
  by_cases hmistaken : key.toList ++ ['='] <:+ ps.platformId.toList
  · rw [if_pos hmistaken]
    have hread := @attr_of_mistaken key "uri" "x" (xmlEscapeAttr ps.platformId.toList)
      (fmtF64 pos.lonDeg) ((before ++ (key, value) :: after).flatMap attrText ++ Close.open_.text)
      [] hkey validAttrs_nil huriValid.1 huriValid.2 hxValid.1 (notMistaken_nil key) huri
      (hsuffix.mpr hmistaken) ('<' :: "point".toList) (by decide)
    unfold startTagText
    simp only [List.cons_append, List.flatMap_cons, List.append_assoc, List.flatMap_nil,
      List.nil_append] at hread ⊢
    exact hread
  · rw [if_neg hmistaken]
    have hpassed : NotMistaken key (("uri", xmlEscapeAttr ps.platformId.toList) ::
        ("x", fmtF64 pos.lonDeg) :: before) := by
      rw [notMistaken_cons, notMistaken_cons]
      exact ⟨⟨huri, mt hsuffix.mp hmistaken⟩,
        ⟨hx, not_suffix_of_isPlain (isPlain_fmtF64 _)⟩, hbefore⟩
    have hpassedValid : ValidAttrs (("uri", xmlEscapeAttr ps.platformId.toList) ::
        ("x", fmtF64 pos.lonDeg) :: before) := by
      rw [validAttrs_cons, validAttrs_cons]
      exact ⟨huriValid, hxValid, hbeforeValid⟩
    have hread := @attr_of_notMistaken key value (after.flatMap attrText ++ Close.open_.text) _
      hkey hpassedValid hvalue hpassed ('<' :: "point".toList) (by decide)
    unfold startTagText
    simp only [List.cons_append, List.flatMap_cons, List.flatMap_append, List.append_assoc]
      at hread ⊢
    exact hread

/-- The coordinates are not mistaken for anything. -/
theorem notMistaken_coordinates {key : String} (pos : Position)
    (hy : ¬ key.toList <:+ "y".toList) (hz : ¬ key.toList <:+ "z".toList) :
    NotMistaken key (("y", fmtF64 pos.latDeg) :: zAttr pos.altM) := by
  rw [notMistaken_cons]
  refine ⟨⟨hy, not_suffix_of_isPlain (isPlain_fmtF64 _)⟩, ?_⟩
  intro a ha
  unfold zAttr at ha
  split at ha
  · split at ha
    · rw [List.mem_singleton.mp ha]
      exact ⟨hz, not_suffix_of_isPlain (isPlain_fmtF64 _)⟩
    · cases ha
  · cases ha

theorem notMistaken_append {key : String} {attrs more : List (String × Text)}
    (h : NotMistaken key attrs) (hmore : NotMistaken key more) :
    NotMistaken key (attrs ++ more) := List.forall_mem_append.mpr ⟨h, hmore⟩

theorem app6bSymbol_notMem (domain : PlatformDomain) : '=' ∉ app6bSymbol domain := by
  cases domain
  all_goals decide

/-- A label ends with its bracket. -/
theorem getLast_labelText (ps : PlatformState) (mark : Mark) :
    (xmlEscapeAttr (labelText ps mark)).getLast? = some ']' := by
  have htext : labelText ps mark =
      (ps.platformId.toList ++ (" [".toList ++ (markSummary mark).toList)) ++ [']'] := by
    unfold labelText
    simp only [List.append_assoc]
    rfl
  have hescape : xmlEscapeAttr [']'] = [']'] := by decide
  rw [htext, xmlEscapeAttr_append, hescape, List.getLast?_concat]

theorem attr_symbol (ps : PlatformState) (pos : Position) (claim : Claim) :
    attr (startTagText "point" (nvgPointAttrs ps pos claim) .open_) "symbol".toList =
      some (if "symbol=".toList <:+ ps.platformId.toList then " x=".toList
        else app6bSymbol ps.platformDomain) := by
  have hsplit : nvgPointAttrs ps pos claim = ("uri", xmlEscapeAttr ps.platformId.toList) ::
      ("x", fmtF64 pos.lonDeg) :: ((("y", fmtF64 pos.latDeg) :: zAttr pos.altM) ++
        ("symbol", app6bSymbol ps.platformDomain) ::
          [("label", xmlEscapeAttr (labelText ps claim.mark)),
            ("modifiers", xmlEscapeAttr (modifiersText claim))]) := rfl
  exact attr_point hsplit (by decide) (by decide) (by decide)
    (notMistaken_coordinates pos (by decide) (by decide))

theorem attr_label (ps : PlatformState) (pos : Position) (claim : Claim) :
    attr (startTagText "point" (nvgPointAttrs ps pos claim) .open_) "label".toList =
      some (if "label=".toList <:+ ps.platformId.toList then " x=".toList
        else xmlEscapeAttr (labelText ps claim.mark)) := by
  have hsplit : nvgPointAttrs ps pos claim = ("uri", xmlEscapeAttr ps.platformId.toList) ::
      ("x", fmtF64 pos.lonDeg) :: (((("y", fmtF64 pos.latDeg) :: zAttr pos.altM) ++
        [("symbol", app6bSymbol ps.platformDomain)]) ++
          ("label", xmlEscapeAttr (labelText ps claim.mark)) ::
            [("modifiers", xmlEscapeAttr (modifiersText claim))]) := by
    simp [nvgPointAttrs]
  refine attr_point hsplit (by decide) (by decide) (by decide) (notMistaken_append
    (notMistaken_coordinates pos (by decide) (by decide)) ?_)
  rw [notMistaken_cons]
  exact ⟨⟨(by decide : ¬ "label".toList <:+ "symbol".toList),
    not_suffix_of_notMem (app6bSymbol_notMem _)⟩, notMistaken_nil _⟩

/-- The scan for the modifiers. -/
theorem attr_modifiers_eq (ps : PlatformState) (pos : Position) (claim : Claim) :
    attr (startTagText "point" (nvgPointAttrs ps pos claim) .open_) "modifiers".toList =
      some (if "modifiers=".toList <:+ ps.platformId.toList then " x=".toList
        else xmlEscapeAttr (modifiersText claim)) := by
  have hsplit : nvgPointAttrs ps pos claim = ("uri", xmlEscapeAttr ps.platformId.toList) ::
      ("x", fmtF64 pos.lonDeg) :: (((("y", fmtF64 pos.latDeg) :: zAttr pos.altM) ++
        [("symbol", app6bSymbol ps.platformDomain),
          ("label", xmlEscapeAttr (labelText ps claim.mark))]) ++
            ("modifiers", xmlEscapeAttr (modifiersText claim)) :: []) := by
    simp [nvgPointAttrs]
  refine attr_point hsplit (by decide) (by decide) (by decide) (notMistaken_append
    (notMistaken_coordinates pos (by decide) (by decide)) ?_)
  rw [notMistaken_cons, notMistaken_cons]
  refine ⟨⟨(by decide : ¬ "modifiers".toList <:+ "symbol".toList),
    not_suffix_of_notMem (app6bSymbol_notMem _)⟩,
    ⟨(by decide : ¬ "modifiers".toList <:+ "label".toList), not_suffix_of_getLast ?_⟩,
    notMistaken_nil _⟩
  rw [getLast_labelText]
  decide

/-! ## 3. What the policy says of it -/

theorem app6bSymbol_declared (domain : PlatformDomain) :
    app6bSymbol domain ∈ NvgPolicy.declaredNvgSymbols := by
  cases domain
  all_goals decide

theorem checkSymbol_iff (ps : PlatformState) (pos : Position) (claim : Claim) :
    NvgPolicy.checkSymbol (startTagText "point" (nvgPointAttrs ps pos claim) .open_) = .ok () ↔
      ¬ "symbol=".toList <:+ ps.platformId.toList := by
  unfold NvgPolicy.checkSymbol
  rw [attr_symbol]
  by_cases hmistaken : "symbol=".toList <:+ ps.platformId.toList
  · rw [if_pos hmistaken]
    refine iff_of_false ?_ (not_not.mpr hmistaken)
    decide
  · rw [if_neg hmistaken]
    refine iff_of_true ?_ hmistaken
    simp [NvgPolicy.okOr, bind, Except.bind, app6bSymbol_declared]

theorem markStatusLabel_declared (status : MarkStatus) :
    (markStatusLabel status).toList ∈ NvgPolicy.declaredMarkStatus := by
  cases status
  all_goals decide

/-- What stands before the colon of a summary is the status. -/
theorem beforeColon_markSummary (mark : Mark) :
    NvgPolicy.beforeColon (markSummary mark).toList = (markStatusLabel mark.status).toList := by
  have hread := congrArg Prod.fst (readSummary_markSummary mark)
  have hbefore (s : Text) : (readSummary s).1 = NvgPolicy.beforeColon s := by
    unfold readSummary NvgPolicy.beforeColon
    cases find [':'] s <;> rfl
  rw [hbefore] at hread
  exact hread

/-- The label of a platform without brackets has its shape. -/
theorem checkLabelGrammar_labelText {ps : PlatformState} {mark : Mark}
    (hbrackets : ∀ c ∈ NvgPolicy.labelBoundaryChars, c ∉ ps.platformId.toList)
    (hreason : IsWireText mark.reasonCode.toList) :
    NvgPolicy.checkLabelGrammar (xmlEscapeAttr (labelText ps mark))
      (xmlEscapeAttr ps.platformId.toList) = .ok () := by
  have hescape : xmlEscapeAttr (labelText ps mark) = xmlEscapeAttr ps.platformId.toList ++
      (" [".toList ++ ((markSummary mark).toList ++ [']'])) := by
    have hspace : xmlEscapeAttr " [".toList = " [".toList := by decide
    have hclose : xmlEscapeAttr "]".toList = [']'] := by decide
    unfold labelText
    rw [xmlEscapeAttr_append, xmlEscapeAttr_append, xmlEscapeAttr_append, hspace, hclose,
      xmlEscapeAttr_of_plain (isWireText_markSummary hreason).plain]
  have hany : (xmlEscapeAttr ps.platformId.toList).any
      (fun c => c ∈ NvgPolicy.labelBoundaryChars) = false := by
    rw [List.any_eq_false]
    intro c hc
    rw [decide_eq_true_iff]
    intro hmem
    obtain ⟨d, hd, hcd⟩ := List.mem_flatMap.mp hc
    rcases escapeChar_cases d with ⟨heq, -⟩ | ⟨hspecial, -⟩
    · rw [heq, List.mem_singleton] at hcd
      exact hbrackets c hmem (hcd ▸ hd)
    · have hnot : ∀ d ∈ ['&', '<', '>', '"'],
          (NvgPolicy.labelBoundaryChars.all fun c => c ∉ escapeChar d) = true :=
        List.all_iff_forall_prop.mp (by decide)
      exact List.all_iff_forall_prop.mp (hnot d hspecial) c hmem hcd
  unfold NvgPolicy.checkLabelGrammar
  rw [if_neg (by rw [hany]; exact Bool.false_ne_true), hescape]
  simp only [stripPrefix_append, stripLast_append, bind, Option.bind, beforeColon_markSummary,
    markStatusLabel_declared, not_true_eq_false, if_false]

/-- What is read in place of a label has not its shape. -/
theorem checkLabelGrammar_mistaken {uri : Text} (h : " x=".length < uri.length) :
    NvgPolicy.checkLabelGrammar " x=".toList uri ≠ .ok () := by
  have hstrip : stripPrefix uri " x=".toList = none := by
    unfold stripPrefix
    rw [if_neg]
    intro hfront
    have hlength := (List.isPrefixOf_iff_prefix.mp hfront).length_le
    exact absurd hlength (Nat.not_le.mpr h)
  unfold NvgPolicy.checkLabelGrammar
  rw [hstrip]
  split
  · simp
  · simp [bind, Option.bind]

/-- The modifiers of a legitimate observation are for the wire, field by field. -/
theorem isWireText_modifiersFields {envelope : EvidenceEnvelope} {ps : PlatformState}
    {pos : Position} (h : Legitimate envelope ps pos) :
    ∀ s ∈ modifiersFields envelope.claim, IsWireText s := by
  have hreason : IsWireText (shownReason envelope.claim.mark.reasonCode) := by
    unfold shownReason
    split
    · exact isWireText_of_all (by decide)
    · exact h.reason
  simp only [modifiersFields, List.forall_mem_cons]
  exact ⟨isWireText_field (isWireText_of_all (by decide)) (isWireText_markStatusLabel _),
    isWireText_field (isWireText_of_all (by decide)) hreason,
    isWireText_field (isWireText_of_all (by decide)) (isWireText_of_isPlain (isPlain_fmtConf _)),
    isWireText_field (isWireText_of_all (by decide)) (isWireText_fmtBasis _),
    List.forall_mem_nil _⟩

/-- The grammar of the modifiers is about the confidence alone. -/
theorem checkModifiersGrammar_iff {envelope : EvidenceEnvelope} {ps : PlatformState}
    {pos : Position} (h : Legitimate envelope ps pos) :
    NvgPolicy.checkModifiersGrammar (modifiersText envelope.claim) = .ok () ↔
      envelope.claim.confidence ≠ ⟨0x80000000⟩ := by
  have hfields : inspectSemicolonFields (modifiersText envelope.claim)
      NvgPolicy.declaredModifierPrefixes = .ok (modifiersFields envelope.claim) := by
    rw [modifiersText_eq]
    refine inspectSemicolonFields_ok (List.cons_ne_nil _ _) rfl
      (fun s hs => (isWireText_modifiersFields h s hs).notMem) ?_
    simp only [modifiersFields, NvgPolicy.declaredModifierPrefixes, List.map_cons, List.map_nil,
      List.zip_cons_cons, List.zip_nil_right, List.forall_mem_cons]
    exact ⟨List.prefix_append _ _, List.prefix_append _ _, List.prefix_append _ _,
      List.prefix_append _ _, List.forall_mem_nil _⟩
  have hconf : ((modifiersFields envelope.claim).getD 2 []).drop "CONF:".length =
      fmtConf envelope.claim.confidence := rfl
  have hbasis : ((modifiersFields envelope.claim).getD 3 []).drop "BASIS:".length =
      fmtBasis envelope.claim.confidenceBasis := rfl
  rw [← isTwoDecimal_fmtConf_iff h.confidence]
  unfold NvgPolicy.checkModifiersGrammar
  rw [hfields]
  simp only [Except.mapError, bind, Except.bind, hconf, hbasis, fmtBasis_declared,
    not_true_eq_false, if_false]
  split
  · next hnot => simp [hnot]
  · next hyes => simp [not_not.mp hyes]

/-! ## 4. Which documents are published -/

/-- The names of the attributes of a point that a platform can be taken for, with their equals
signs. -/
def mistakenEnds : List Text := ["symbol=".toList, "label=".toList, "modifiers=".toList]

theorem forall_mistakenEnds {p : Text → Prop} : (∀ key ∈ mistakenEnds, p key) ↔
    p "symbol=".toList ∧ p "label=".toList ∧ p "modifiers=".toList := by
  simp only [mistakenEnds, List.forall_mem_cons, List.not_mem_nil, false_implies, implies_true,
    and_true]

/-- The check of the label. -/
theorem checkLabel_iff {envelope : EvidenceEnvelope} {ps : PlatformState} {pos : Position}
    (h : Legitimate envelope ps pos) (hfits : FitsNvg ps pos envelope.claim) {label : Text}
    (hlabel : label = if "label=".toList <:+ ps.platformId.toList then " x=".toList
      else xmlEscapeAttr (labelText ps envelope.claim.mark)) :
    (NvgPolicy.checkWireField "label" label NvgPolicy.maxLabelWireChars = .ok () ∧
      NvgPolicy.checkLabelGrammar label (xmlEscapeAttr ps.platformId.toList) = .ok ()) ↔
        ¬ "label=".toList <:+ ps.platformId.toList := by
  by_cases hmistaken : "label=".toList <:+ ps.platformId.toList
  · rw [if_pos hmistaken] at hlabel
    refine iff_of_false ?_ (not_not.mpr hmistaken)
    rintro ⟨-, hgrammar⟩
    rw [hlabel] at hgrammar
    have hends : "label=".toList <:+ xmlEscapeAttr ps.platformId.toList :=
      (suffix_xmlEscapeAttr (List.all_iff_forall_prop.mp (by decide))).mpr hmistaken
    exact checkLabelGrammar_mistaken (Nat.lt_of_lt_of_le (by decide) hends.length_le) hgrammar
  · rw [if_neg hmistaken] at hlabel
    refine iff_of_true ⟨?_, ?_⟩ hmistaken
    · have hmem : ']' ∈ label := by
        rw [hlabel]
        exact List.mem_of_getLast? (getLast_labelText ps _)
      refine mapError_eq_ok.mpr (inspectWireField_ok (trim_isEmpty_eq_false hmem (by decide))
        (hlabel ▸ hfits.label) ?_)
      have hsummary := isWireText_markSummary h.reason
      have hrest : ∀ c ∈ " [".toList ++ ((markSummary envelope.claim.mark).toList ++
          "]".toList), isDisallowedCodepoint c = false := by
        rw [List.forall_mem_append, List.forall_mem_append]
        exact ⟨List.all_iff_forall_prop.mp (by decide), fun c hc => (hsummary c hc).2,
          List.all_iff_forall_prop.mp (by decide)⟩
      have hplain : ∀ c ∈ " [".toList ++ ((markSummary envelope.claim.mark).toList ++
          "]".toList), c ∉ ['&', '<', '>', '"'] := by
        rw [List.forall_mem_append, List.forall_mem_append]
        exact ⟨List.all_iff_forall_prop.mp (by decide), hsummary.plain,
          List.all_iff_forall_prop.mp (by decide)⟩
      rw [hlabel]
      unfold labelText
      rw [xmlEscapeAttr_append, xmlEscapeAttr_of_plain hplain, List.forall_mem_append]
      exact ⟨h.platformId, hrest⟩
    · rw [hlabel]
      exact checkLabelGrammar_labelText hfits.brackets h.reason

/-- The check of the modifiers. -/
theorem checkModifiers_iff {envelope : EvidenceEnvelope} {ps : PlatformState} {pos : Position}
    (h : Legitimate envelope ps pos) (hfits : FitsNvg ps pos envelope.claim) {modifiers : Text}
    (hmodifiers : modifiers = if "modifiers=".toList <:+ ps.platformId.toList then " x=".toList
      else xmlEscapeAttr (modifiersText envelope.claim)) :
    (NvgPolicy.checkWireField "modifiers" modifiers NvgPolicy.maxModifiersWireChars = .ok () ∧
      NvgPolicy.checkModifiersGrammar modifiers = .ok ()) ↔
        ¬ "modifiers=".toList <:+ ps.platformId.toList ∧
          envelope.claim.confidence ≠ ⟨0x80000000⟩ := by
  have hplain := plain_of_fields (isWireText_modifiersFields h)
  rw [← modifiersText_eq] at hplain
  rw [xmlEscapeAttr_of_plain fun c hc => (hplain c hc).1] at hmodifiers
  by_cases hmistaken : "modifiers=".toList <:+ ps.platformId.toList
  · rw [if_pos hmistaken] at hmodifiers
    refine iff_of_false ?_ fun hand => hand.1 hmistaken
    rintro ⟨-, hgrammar⟩
    rw [hmodifiers] at hgrammar
    exact absurd hgrammar (by decide)
  · rw [if_neg hmistaken] at hmodifiers
    have hfield : NvgPolicy.checkWireField "modifiers" modifiers
        NvgPolicy.maxModifiersWireChars = .ok () := by
      have hmark : 'M' ∈ modifiersText envelope.claim := List.mem_append_left _ (by decide)
      rw [hmodifiers]
      exact mapError_eq_ok.mpr (inspectWireField_ok (trim_isEmpty_eq_false hmark (by decide))
        hfits.modifiers fun c hc => (hplain c hc).2)
    rw [hmodifiers, checkModifiersGrammar_iff h]
    rw [hmodifiers] at hfield
    exact ⟨fun hand => ⟨hmistaken, hand.2⟩, fun hand => ⟨hfield, hand.2⟩⟩

/-- **Which documents of legitimate observations the policy accepts.** -/
theorem checkNvgDocument_iff {envelope : EvidenceEnvelope} {ps : PlatformState} {pos : Position}
    (h : Legitimate envelope ps pos) (hfits : FitsNvg ps pos envelope.claim) :
    NvgPolicy.checkNvgDocument (nvgDocument ps pos envelope.claim) = .ok () ↔
      (∀ key ∈ mistakenEnds, ¬ key <:+ ps.platformId.toList) ∧
        envelope.claim.confidence ≠ ⟨0x80000000⟩ := by
  have huri : NvgPolicy.checkWireField "uri" (xmlEscapeAttr ps.platformId.toList)
      NvgPolicy.maxUriWireChars = .ok () :=
    mapError_eq_ok.mpr (inspectWireField_ok (trim_xmlEscapeAttr h.nonblank) hfits.uri h.platformId)
  have hroot : NvgPolicy.checkRoot (startTagText "nvg" nvgAttrs .open_) = .ok () := by decide
  obtain ⟨label, hlabel⟩ : ∃ label, label = if "label=".toList <:+ ps.platformId.toList
    then " x=".toList else xmlEscapeAttr (labelText ps envelope.claim.mark) := ⟨_, rfl⟩
  obtain ⟨modifiers, hmodifiers⟩ : ∃ modifiers, modifiers =
    if "modifiers=".toList <:+ ps.platformId.toList then " x=".toList
    else xmlEscapeAttr (modifiersText envelope.claim) := ⟨_, rfl⟩
  rw [forall_mistakenEnds, ← checkSymbol_iff ps pos envelope.claim, ← checkLabel_iff h hfits hlabel,
    and_assoc, and_assoc, ← checkModifiers_iff h hfits hmodifiers]
  unfold NvgPolicy.checkNvgDocument
  rw [checkMarkupFloor_nvgDocument, openTag_nvg, openTag_nvgDocument, pointInner_nvgDocument]
  simp only [NvgPolicy.okOr, bind, Except.bind, hroot, attr_uri, huri, attr_label, ← hlabel,
    attr_modifiers_eq, ← hmodifiers, checkPointChildren_timeStamp]
  cases NvgPolicy.checkSymbol
    (startTagText "point" (nvgPointAttrs ps pos envelope.claim) .open_) with
  | error e => simp
  | ok _ =>
    cases NvgPolicy.checkWireField "label" label NvgPolicy.maxLabelWireChars with
    | error e => simp
    | ok _ =>
      cases NvgPolicy.checkLabelGrammar label (xmlEscapeAttr ps.platformId.toList) with
      | error e => simp
      | ok _ =>
        cases NvgPolicy.checkWireField "modifiers" modifiers NvgPolicy.maxModifiersWireChars with
        | error e => simp
        | ok _ =>
          cases NvgPolicy.checkModifiersGrammar modifiers with
          | error e => simp
          | ok _ => simp

theorem nvgPublish_isOk_iff {envelope : EvidenceEnvelope} {ps : PlatformState} {pos : Position}
    (h : Legitimate envelope ps pos) (hfits : FitsNvg ps pos envelope.claim) :
    (∃ out, nvgPublish envelope = .ok out) ↔
      (∀ key ∈ mistakenEnds, ¬ key <:+ ps.platformId.toList) ∧
        envelope.claim.confidence ≠ ⟨0x80000000⟩ := by
  have hbytes := checkNvgDocumentBytes_toUTF8 hfits.document
  rw [← checkNvgDocument_iff h hfits, ← hbytes]
  constructor
  · rintro ⟨out, hout⟩
    obtain ⟨ps', pos', hobs, hpos, hcheck, -⟩ := nvgPublish_eq_ok hout
    rw [h.observation] at hobs
    cases hobs
    rw [h.position] at hpos
    cases hpos
    exact hcheck
  · intro hcheck
    exact ⟨_, nvgPublish_of_accepted h.observation h.domain h.position hcheck⟩

/-! ## 5. Completeness -/

/-- **Which legitimate observations are published**: all but those of a platform whose name ends
as an attribute begins, or with a confidence of minus zero.  `h` says what a publisher of
positions may expect of an observation; the two formats have limits of length of their own, so
each part has its own hypothesis for them.  Both directions are exact: under these hypotheses no
other check of the policies ever refuses. -/
theorem publish_isOk_iff (ttl : StaleTtlConfig) (envelope : EvidenceEnvelope)
    (ps : PlatformState) (pos : Position) (h : Legitimate envelope ps pos) :
    (FitsCot ttl ps pos envelope.claim → ((∃ out, cotPublish ttl envelope = .ok out) ↔
      ¬ "type=".toList <:+ ps.platformId.toList ∧
        envelope.claim.confidence ≠ ⟨0x80000000⟩)) ∧
    (FitsNvg ps pos envelope.claim → ((∃ out, nvgPublish envelope = .ok out) ↔
      (∀ key ∈ mistakenEnds, ¬ key <:+ ps.platformId.toList) ∧
        envelope.claim.confidence ≠ ⟨0x80000000⟩)) :=
  ⟨cotPublish_isOk_iff h, nvgPublish_isOk_iff h⟩

/-- The vehicle under another name. -/
def namedPlatform (platformId : String) : PlatformState :=
  { markupPlatform with platformId := platformId }

def namedEnvelope (platformId : String) : EvidenceEnvelope :=
  { markupEnvelope with observation := .platformState (namedPlatform platformId) }

theorem namedEnvelope_legitimate {platformId : String}
    (hblank : (trim platformId.toList).isEmpty = false)
    (hclean : ∀ c ∈ xmlEscapeAttr platformId.toList, isDisallowedCodepoint c = false) :
    Legitimate (namedEnvelope platformId) (namedPlatform platformId) ⟨⟨0⟩, ⟨0⟩, none⟩ where
  observation := rfl
  position := rfl
  domain := (by decide : PlatformDomain.air ≠ .subsurface)
  confidence :=
    (by decide +kernel : F32.within (.ofRat 0) (.ofRat 1) markupEnvelope.claim.confidence = true)
  nonblank := hblank
  platformId := hclean
  reason := (isWireText_of_all (by decide) : IsWireText "link-loss".toList)
  notes := by
    show ∀ note ∈ ["adapter@1", "late"], IsWireText note.toList
    rw [List.forall_mem_cons, List.forall_mem_singleton]
    exact ⟨isWireText_of_all (by decide), isWireText_of_all (by decide)⟩

/-- A name that looks like markup is published in both dialects. -/
theorem markup_isOk :
    ((∃ out, cotPublish .recommended (namedEnvelope "uav <1> & \"2\"") = .ok out) ↔
      ¬ "type=".toList <:+ "uav <1> & \"2\"".toList ∧
        (namedEnvelope "uav <1> & \"2\"").claim.confidence ≠ ⟨0x80000000⟩) ∧
    ((∃ out, nvgPublish (namedEnvelope "uav <1> & \"2\"") = .ok out) ↔
      (∀ key ∈ mistakenEnds, ¬ key <:+ "uav <1> & \"2\"".toList) ∧
        (namedEnvelope "uav <1> & \"2\"").claim.confidence ≠ ⟨0x80000000⟩) := by
  obtain ⟨hcot, hnvg⟩ := publish_isOk_iff .recommended (namedEnvelope "uav <1> & \"2\"")
    (namedPlatform "uav <1> & \"2\"") ⟨⟨0⟩, ⟨0⟩, none⟩
    (namedEnvelope_legitimate (by decide) (List.all_iff_forall_prop.mp (by decide)))
  exact ⟨hcot ⟨by decide +kernel, by decide +kernel, size_toUTF8_le (by decide +kernel)⟩,
    hnvg ⟨by decide +kernel, by decide +kernel, by decide +kernel,
      size_toUTF8_le (by decide +kernel), List.all_iff_forall_prop.mp (by decide +kernel)⟩⟩

/-- A platform whose name ends with `type=` has no event, and one whose name ends with `label=`
no document. -/
theorem mistakenEnd_refused :
    (∃ ps pos, Legitimate (namedEnvelope "uav type=") ps pos ∧
      FitsCot .recommended ps pos (namedEnvelope "uav type=").claim ∧
      ¬ ∃ out, cotPublish .recommended (namedEnvelope "uav type=") = .ok out) ∧
    (∃ ps pos, Legitimate (namedEnvelope "uav label=") ps pos ∧
      FitsNvg ps pos (namedEnvelope "uav label=").claim ∧
      ¬ ∃ out, nvgPublish (namedEnvelope "uav label=") = .ok out) := by
  have hcot := @namedEnvelope_legitimate "uav type=" (by decide)
    (List.all_iff_forall_prop.mp (by decide))
  have hnvg := @namedEnvelope_legitimate "uav label=" (by decide)
    (List.all_iff_forall_prop.mp (by decide))
  have hfitsCot : FitsCot .recommended (namedPlatform "uav type=") ⟨⟨0⟩, ⟨0⟩, none⟩
      (namedEnvelope "uav type=").claim :=
    ⟨by decide +kernel, by decide +kernel, size_toUTF8_le (by decide +kernel)⟩
  have hfitsNvg : FitsNvg (namedPlatform "uav label=") ⟨⟨0⟩, ⟨0⟩, none⟩
      (namedEnvelope "uav label=").claim :=
    ⟨by decide +kernel, by decide +kernel, by decide +kernel,
      size_toUTF8_le (by decide +kernel), List.all_iff_forall_prop.mp (by decide +kernel)⟩
  refine ⟨⟨_, _, hcot, hfitsCot, ?_⟩, ⟨_, _, hnvg, hfitsNvg, ?_⟩⟩
  · rw [cotPublish_isOk_iff hcot hfitsCot]
    exact fun hok => hok.1 (by decide)
  · rw [nvgPublish_isOk_iff hnvg hfitsNvg]
    exact fun hok => hok.1 "label=".toList (by decide) (by decide)

end Musubi.Northbound
