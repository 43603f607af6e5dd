/-
# Published documents as XML

Whether what is published is a document of XML 1.0.  The serializers print tags that match and
escape what they print in them, so everything hangs on the code points of the strings.  The policy
keeps most of what XML has no place for off the wire, but its list of code points ends before
U+FFFE and U+FFFF: a string with one of these is published, and no conforming reader takes the
document.

The grammar is that of the library (`Lib.Xml`), with the code points that the standard allows in
character data, in values and in references.  One direction is short: an illegal code point in a
string is an illegal code point of the document, because escaping leaves it where it is.  The
other goes through the document tag by tag; the policy has refused everything else that a code
point could be wrong for, so what is left to ask of a string is that it is clean of the two
(`IsClean`).

Which strings these are differs between the dialects and is listed for each: the ones of the
envelope that are printed, and no others.
-/
import Musubi.Lib.XmlPrint
import Musubi.Northbound.NvgFidelity

namespace Musubi.Northbound

open Lib Xml WirePolicy

/-! ## 1. Code points -/

/-- The two code points of the first plane that are no characters of XML although they are not
on the list of the policy. -/
def isNoncharacter : Char → Bool := Xml.inRanges [(0xFFFE, 0xFFFF)]

theorem isXmlChar_of_allowed {c : Char} (hallowed : isDisallowedCodepoint c = false)
    (hclean : isNoncharacter c = false) : isXmlChar c = true := by
  have hvalid : c.toNat < 0xD800 ∨ 0xDFFF < c.toNat ∧ c.toNat < 0x110000 := c.valid
  simp [isDisallowedCodepoint, isNoncharacter, isXmlChar, inRanges] at hallowed hclean ⊢
  omega

theorem isXmlChar_eq_false_of_noncharacter {c : Char} (h : isNoncharacter c = true) :
    isXmlChar c = false := by
  simp [isNoncharacter, isXmlChar, inRanges] at h ⊢
  omega

/-- The text has neither U+FFFE nor U+FFFF. -/
def IsClean (s : Text) : Prop := ∀ c ∈ s, isNoncharacter c = false

instance (s : Text) : Decidable (IsClean s) := List.decidableBAll _ s

theorem isClean_append {s t : Text} : IsClean (s ++ t) ↔ IsClean s ∧ IsClean t :=
  List.forall_mem_append

theorem isClean_cons {c : Char} {s : Text} :
    IsClean (c :: s) ↔ isNoncharacter c = false ∧ IsClean s := List.forall_mem_cons

theorem isClean_of_all_xmlChar {s : Text} (h : s.all isXmlChar = true) : IsClean s := by
  intro c hc
  by_contra hclean
  rw [Bool.not_eq_false] at hclean
  have hchar := List.all_eq_true.mp h c hc
  rw [isXmlChar_eq_false_of_noncharacter hclean] at hchar
  cases hchar

theorem isXmlChar_of_isPlain {s : Text} (h : s.all isPlain = true) : s.all isXmlChar = true := by
  rw [List.all_eq_true] at h ⊢
  intro c hc
  have hplain := h c hc
  unfold isPlain at hplain
  rcases Bool.or_eq_true_iff.mp hplain with hdigit | hother
  · simp [Char.isDigit, isXmlChar, inRanges, UInt32.le_iff_toNat_le] at hdigit ⊢
    have htoNat : c.val.toNat = c.toNat := rfl
    omega
  · have hall : ∀ c ∈ ['-', '.', ':', 'T', 'Z'], isXmlChar c = true :=
      List.all_iff_forall_prop.mp (by decide)
    exact hall c (of_decide_eq_true hother)

/-- What is in a text is in it after escaping, if it is not clean. -/
theorem isClean_of_xmlEscapeAttr {s : Text} (h : IsClean (xmlEscapeAttr s)) : IsClean s := by
  intro c hc
  rcases escapeChar_cases c with ⟨heq, -⟩ | ⟨hspecial, -⟩
  · refine h c (List.mem_flatMap.mpr ⟨c, hc, ?_⟩)
    rw [heq]
    exact List.mem_singleton_self c
  · have hall : ∀ c ∈ ['&', '<', '>', '"'], isNoncharacter c = false :=
      List.all_iff_forall_prop.mp (by decide)
    exact hall c hspecial

/-- Characters that pass the check of a field in their escaped form are characters of XML, if
they are clean. -/
theorem all_xmlChar_of_inspected {s : Text} {maxChars : ℕ}
    (h : inspectWireField (xmlEscapeAttr s) maxChars = .ok ()) (hclean : IsClean s) :
    s.all isXmlChar = true := by
  have hallowed : ∀ c ∈ xmlEscapeAttr s, isDisallowedCodepoint c = false := by
    unfold inspectWireField at h
    split at h
    · cases h
    · split at h
      · cases h
      · split at h
        · cases h
        · rename_i hnone
          intro c hc
          exact Bool.not_eq_true _ ▸ List.find?_eq_none.mp hnone c hc
  rw [List.all_eq_true]
  intro c hc
  rcases escapeChar_cases c with ⟨heq, -⟩ | ⟨hspecial, -⟩
  · refine isXmlChar_of_allowed (hallowed c (List.mem_flatMap.mpr ⟨c, hc, ?_⟩)) (hclean c hc)
    rw [heq]
    exact List.mem_singleton_self c
  · have hall : ∀ c ∈ ['&', '<', '>', '"'], isXmlChar c = true :=
      List.all_iff_forall_prop.mp (by decide)
    exact hall c hspecial

/-! ## 2. Values -/

theorem isAttValue_escapeChar {c : Char} (h : isXmlChar c = true) :
    IsAttValue (escapeChar c) := by
  have href (name : String) (value : Char) (hname : isName name = true)
      (hchars : ('&' :: (name.toList ++ [';'])).all isXmlChar = true)
      (hpredefined : (name.toList, [value]) ∈ predefinedEntities) :
      IsAttValue ('&' :: (name.toList ++ [';'])) :=
    isAttValue_reference (r := .entity (nameOf name hname) [value]) hchars rfl
      (decide_eq_true hpredefined)
  unfold escapeChar
  split
  · exact href "amp" '&' (by decide) (by decide) (by decide)
  · split
    · exact href "lt" '<' (by decide) (by decide) (by decide)
    · split
      · exact href "gt" '>' (by decide) (by decide) (by decide)
      · split
        · exact href "quot" '"' (by decide) (by decide) (by decide)
        · refine isAttValue_singleton h ?_
          simp only [List.mem_cons, List.not_mem_nil, or_false, not_or]
          exact ⟨by assumption, by assumption, by assumption⟩

/-- **Escaped text may stand between quotes**, if its code points are those of XML. -/
theorem isAttValue_xmlEscapeAttr {s : Text} (h : s.all isXmlChar = true) :
    IsAttValue (xmlEscapeAttr s) :=
  isAttValue_flatMap fun c hc => isAttValue_escapeChar (List.all_eq_true.mp h c hc)

theorem isAttValue_of_isPlain {s : Text} (h : s.all isPlain = true) : IsAttValue s := by
  refine isAttValue_of_plain (isXmlChar_of_isPlain h) ?_
  intro c hc hspecial
  have hall : ∀ c ∈ ['<', '&', '"'], isPlain c = false :=
    List.all_iff_forall_prop.mp (by decide)
  have hplain := List.all_eq_true.mp h c hc
  rw [hall c hspecial] at hplain
  cases hplain

/-- A value of the program text: characters of XML without markup. -/
theorem isAttValue_of_decide {s : Text}
    (h : s.all (fun c => isXmlChar c && c ∉ ['<', '&', '"']) = true) : IsAttValue s := by
  rw [List.all_eq_true] at h
  refine isAttValue_of_plain ?_ ?_
  · rw [List.all_eq_true]
    intro c hc
    exact (Bool.and_eq_true_iff.mp (h c hc)).1
  · intro c hc
    exact of_decide_eq_true (Bool.and_eq_true_iff.mp (h c hc)).2

/-- White space between tags. -/
theorem isCharData_of_isSpace {s : Text} (h : s.all isSpace = true) : IsCharData s := by
  rw [List.all_eq_true] at h
  have hspace : ∀ c, isSpace c = true → isXmlChar c = true ∧ c ∉ ['<', '&', '>'] := by
    intro c hc
    constructor
    · simp [isSpace, isXmlChar, inRanges] at hc ⊢
      omega
    · intro hmem
      have hall : ∀ c ∈ ['<', '&', '>'], isSpace c = false :=
        List.all_iff_forall_prop.mp (by decide)
      rw [hall c hmem] at hc
      cases hc
  constructor
  · rw [List.all_eq_true]
    intro c hc
    exact (hspace c (h c hc)).1
  · intro c hc
    exact (hspace c (h c hc)).2

/-- The XML declaration of both dialects. -/
def xmlDeclaration : Declaration where
  body := " version=\"1.0\" encoding=\"UTF-8\"".toList
  separated := by decide
  noEnd := by decide

theorem xmlDeclaration_text : xmlDeclaration.token.text = xmlDecl := by decide

/-- Bytes that are a well-formed document of XML 1.0 in UTF-8: they are a text, its characters are
characters of XML, and it has a derivation with the declaration that the serializers print. -/
def WellFormedBytes (bytes : List UInt8) : Prop :=
  ∃ s, String.fromUTF8? ⟨bytes.toArray⟩ = some s ∧ WellFormed xmlDeclaration.body s.toList

theorem wellFormedBytes_textBytes (s : Text) :
    WellFormedBytes (textBytes s) ↔ WellFormed xmlDeclaration.body s := by
  have hbytes : (⟨(textBytes s).toArray⟩ : ByteArray) = (String.ofList s).toUTF8 := rfl
  unfold WellFormedBytes
  rw [hbytes, fromUTF8?_toUTF8]
  constructor
  · rintro ⟨t, ht, h⟩
    cases ht
    rwa [String.toList_ofList] at h
  · intro h
    refine ⟨_, rfl, ?_⟩
    rwa [String.toList_ofList]

/-! ## 3. Events -/

theorem isClean_of_isPlain {s : Text} (h : s.all isPlain = true) : IsClean s :=
  isClean_of_all_xmlChar (isXmlChar_of_isPlain h)

theorem isClean_markStatusLabel (status : MarkStatus) :
    IsClean (markStatusLabel status).toList := by
  cases status
  all_goals decide

theorem isClean_fmtBasis (basis : Option ConfidenceBasis) : IsClean (fmtBasis basis) := by
  rcases basis with _ | _ | _
  · show IsClean "unspecified".toList
    decide
  · show IsClean "adapter-assigned".toList
    decide
  · show IsClean "measured".toList
    decide

theorem isClean_markSummary (mark : Mark) :
    IsClean (markSummary mark).toList ↔ IsClean mark.reasonCode.toList := by
  have hlabel := isClean_markStatusLabel mark.status
  unfold markSummary
  split
  · rename_i hempty
    have hreason : mark.reasonCode.toList = [] :=
      String.toList_eq_nil_iff.mpr (String.isEmpty_iff.mp hempty)
    rw [hreason]
    exact iff_of_true hlabel (by decide)
  · have hcolon : IsClean ":".toList := by decide
    rw [String.toList_append, String.toList_append, isClean_append, isClean_append]
    constructor
    · intro h
      exact h.2
    · intro h
      exact ⟨⟨hlabel, hcolon⟩, h⟩

theorem isClean_join (sep : String) (hsep : IsClean sep.toList) (parts : List String) :
    IsClean (join sep parts).toList ↔ ∀ s ∈ parts, IsClean s.toList := by
  constructor
  · intro h s hs c hc
    exact h c (mem_join_of_mem hs hc)
  · intro h c hc
    rcases mem_join hc with hc | ⟨s, hs, hc⟩
    · exact hsep c hc
    · exact h s hs c hc

/-- The strings of an envelope that an event is printed with. -/
def cotStrings (ps : PlatformState) (claim : Claim) : List String :=
  ps.platformId :: claim.mark.reasonCode :: claim.mark.provenance

theorem isClean_remarksText (claim : Claim) : IsClean (remarksText claim) ↔
    ∀ s ∈ claim.mark.reasonCode :: claim.mark.provenance, IsClean s.toList := by
  have hmark : IsClean "MARK:".toList := by decide
  have hconf : IsClean "CONF:".toList := by decide
  have hprov : IsClean "PROV:".toList := by decide
  have hbasis : IsClean "BASIS:".toList := by decide
  have hsemicolon : isNoncharacter ';' = false := by decide
  unfold remarksText
  simp only [isClean_append, isClean_cons, hmark, hconf, hprov, hbasis, hsemicolon,
    isClean_of_isPlain (isPlain_fmtConf _), isClean_fmtBasis, isClean_markSummary,
    isClean_join "|" (by decide), true_and, and_true, List.forall_mem_cons]

theorem isAttrs_eventAttrs (ttlSecs : Int64) {ps : PlatformState}
    (h : ps.platformId.toList.all isXmlChar = true) : IsAttrs (eventAttrs ttlSecs ps) := by
  have htime (t : Int64) : IsAttValue (iso8601UtcFromEpochMs t) :=
    isAttValue_of_isPlain (isPlain_iso8601 t)
  have htype : IsAttValue (cotType ps.platformDomain) := by
    refine isAttValue_of_decide ?_
    cases ps.platformDomain
    all_goals decide
  constructor
  · simp only [eventAttrs, List.map_cons, List.map_nil]
    decide
  · simp only [eventAttrs, List.forall_mem_cons]
    refine ⟨⟨?_, isAttValue_of_decide ?_⟩, ⟨?_, isAttValue_xmlEscapeAttr h⟩, ⟨?_, htype⟩,
      ⟨?_, isAttValue_of_decide ?_⟩, ⟨?_, htime _⟩, ⟨?_, htime _⟩, ⟨?_, htime _⟩,
      List.forall_mem_nil _⟩
    all_goals decide

theorem isAttrs_pointAttrs (pos : Position) : IsAttrs (pointAttrs pos) := by
  have hnumber (v : F64) : IsAttValue (fmtF64 v) := isAttValue_of_isPlain (isPlain_fmtF64 v)
  constructor
  · simp only [pointAttrs, List.map_cons, List.map_nil]
    decide
  · simp only [pointAttrs, List.forall_mem_cons]
    refine ⟨⟨?_, hnumber _⟩, ⟨?_, hnumber _⟩, ⟨?_, hnumber _⟩, ⟨?_, hnumber _⟩, ⟨?_, hnumber _⟩,
      List.forall_mem_nil _⟩
    all_goals decide

/-- An event is a document when its strings hold characters of XML only and its remarks hold
nothing to escape. -/
theorem wellFormed_cotEvent {ttlSecs : Int64} {ps : PlatformState} {pos : Position}
    {claim : Claim} (hid : ps.platformId.toList.all isXmlChar = true)
    (hremarks : (remarksText claim).all isXmlChar = true)
    (hplain : ∀ c ∈ remarksText claim, c ∉ ['&', '<', '>', '"']) :
    WellFormed xmlDeclaration.body (cotEvent ttlSecs ps pos claim) := by
  have hdata : IsCharData (xmlEscapeAttr (remarksText claim)) := by
    rw [xmlEscapeAttr_of_plain hplain]
    refine ⟨hremarks, ?_⟩
    intro c hc hspecial
    have hall : ∀ c ∈ ['<', '&', '>'], c ∈ ['&', '<', '>', '"'] :=
      List.all_iff_forall_prop.mp (by decide)
    exact hplain c hc (hall c hspecial)
  have hspace {s : Text} (h : s.all isSpace = true) : IsCharData s := isCharData_of_isSpace h
  have hnewline : "\n".toList.all isSpace = true := by decide
  have hline : IsCharData "\n".toList := hspace hnewline
  have hindent : IsCharData "\n  ".toList := hspace (by decide)
  have hindents : IsCharData "\n    ".toList := hspace (by decide)
  have hdetail := hindent.isContent.consElement hindents "remarks" (by decide)
    isAttrs_nil hdata.isContent
  have hevent := (hline.isContent.consElement hindent "detail" (by decide) isAttrs_nil
    hdetail).consEmpty hindent "point" (by decide) (isAttrs_pointAttrs pos)
  have hdocument := hevent.wellFormed xmlDeclaration (by decide) "event"
    (by decide) (isAttrs_eventAttrs ttlSecs hid) hnewline hnewline
  rw [xmlDeclaration_text] at hdocument
  unfold cotEvent
  simp only [List.append_assoc] at hdocument ⊢
  exact hdocument

/-- The start tag of the event, as the policy cuts it out. -/
theorem openTag_cotEvent (ttlSecs : Int64) (ps : PlatformState) (pos : Position)
    (claim : Claim) : openTag (cotEvent ttlSecs ps pos claim) "event".toList =
      some (startTagText "event" (eventAttrs ttlSecs ps) .open_) := by
  have hhere : FoundAfter ('<' :: "event".toList)
      (startTagText "event" (eventAttrs ttlSecs ps) .open_ ++ ("\n  ".toList ++
        (startTagText "point" (pointAttrs pos) .empty ++ ("\n  ".toList ++
          (startTagText "detail" [] .open_ ++ (detailText claim ++
            (endTagText "detail" ++ ("\n".toList ++ (endTagText "event" ++
              "\n".toList))))))))) [] _ :=
    .here (List.IsPrefix.trans (List.prefix_append _ _) (List.prefix_append _ _))
  have hall := (hhere.skip (a := "\n".toList) (by decide)).skipFront ['?']
    (CotPolicy.declBody ++ ['?', '>']) (by decide) (by decide)
    (by decide)
  have hdecl : '<' :: (['?'] ++ (CotPolicy.declBody ++ ['?', '>'])) = xmlDecl :=
    CotPolicy.xmlDecl_eq.symm
  rw [hdecl] at hall
  rw [cotEvent_eq]
  exact openTag_of_found hall (by decide) (eventAttrs_valid ttlSecs ps)

/-- The scan of the event for the platform. -/
theorem attr_uid (ttlSecs : Int64) (ps : PlatformState) :
    attr (startTagText "event" (eventAttrs ttlSecs ps) .open_) "uid".toList =
      some (xmlEscapeAttr ps.platformId.toList) := by
  have hquote := (isValue_xmlEscapeAttr ps.platformId.toList).1
  obtain ⟨more, htext⟩ : ∃ more, startTagText "event" (eventAttrs ttlSecs ps) .open_ =
      ('<' :: ("event".toList ++ (attrText ("version", "2.0".toList) ++ [' ']))) ++
        ("uid".toList ++ '=' :: '"' :: (xmlEscapeAttr ps.platformId.toList ++ '"' :: more)) := by
    unfold startTagText eventAttrs
    simp only [List.cons_append, List.flatMap_cons, attrText, List.append_assoc, List.nil_append]
    exact ⟨_, rfl⟩
  have hkey : "uid".toList = 'u' :: "id".toList := by decide
  rw [htext, hkey, attr_append_of_notMem (by decide), CotPolicy.attr_here hquote]

/-- The platform of an accepted event has passed as a field. -/
theorem uid_of_accepted_event {ttlSecs : Int64} {ps : PlatformState} {pos : Position}
    {claim : Claim} (h : CotPolicy.checkCotEvent (cotEvent ttlSecs ps pos claim) = .ok ()) :
    CotPolicy.checkWireField "uid" (xmlEscapeAttr ps.platformId.toList)
      CotPolicy.maxUidWireChars = .ok () := by
  unfold CotPolicy.checkCotEvent at h
  obtain ⟨_, -, h⟩ := bind_eq_ok.mp h
  obtain ⟨event, hevent, h⟩ := bind_eq_ok.mp h
  obtain ⟨_, -, h⟩ := bind_eq_ok.mp h
  obtain ⟨uid, huid, h⟩ := bind_eq_ok.mp h
  obtain ⟨⟨⟩, hfield, -⟩ := bind_eq_ok.mp h
  have hevent := CotPolicy.okOr_eq_ok hevent
  rw [openTag_cotEvent] at hevent
  cases hevent
  have huid := CotPolicy.okOr_eq_ok huid
  rw [attr_uid] at huid
  cases huid
  exact hfield

/-- **An accepted event is well formed exactly when its strings are clean.** -/
theorem wellFormed_cotEvent_iff {ttlSecs : Int64} {ps : PlatformState} {pos : Position}
    {claim : Claim} (h : CotPolicy.checkCotEvent (cotEvent ttlSecs ps pos claim) = .ok ()) :
    WellFormed xmlDeclaration.body (cotEvent ttlSecs ps pos claim) ↔
      ∀ s ∈ cotStrings ps claim, IsClean s.toList := by
  obtain ⟨hplain, -, hfield⟩ := remarks_of_accepted_event h
  rw [cotStrings, List.forall_mem_cons, ← isClean_remarksText]
  constructor
  · intro hwell
    have hclean := isClean_of_all_xmlChar hwell.chars
    constructor
    · refine isClean_of_xmlEscapeAttr fun c hc => hclean c ?_
      have htag : c ∈ startTagText "event" (eventAttrs ttlSecs ps) .open_ :=
        mem_startTagText (List.mem_cons_of_mem _ List.mem_cons_self) hc
      unfold cotEvent
      exact List.mem_append_right _ (List.mem_append_right _ (List.mem_append_left _ htag))
    · refine isClean_of_xmlEscapeAttr fun c hc => hclean c ?_
      have hdetail : c ∈ detailText claim := by
        unfold detailText
        exact List.mem_append_right _ (List.mem_append_right _ (List.mem_append_left _ hc))
      rw [cotEvent_eq]
      simp only [List.mem_append, hdetail, true_or, or_true]
  · rintro ⟨hid, hremarks⟩
    exact wellFormed_cotEvent
      (all_xmlChar_of_inspected (mapError_eq_ok.mp (uid_of_accepted_event h)) hid)
      (all_xmlChar_of_inspected (mapError_eq_ok.mp hfield) hremarks) hplain

/-! ## 4. Documents -/

/-- The strings of an envelope that a document is printed with. -/
def nvgStrings (ps : PlatformState) (claim : Claim) : List String :=
  [ps.platformId, claim.mark.reasonCode]

theorem isClean_shownReason (reasonCode : String) :
    IsClean (shownReason reasonCode) ↔ IsClean reasonCode.toList := by
  unfold shownReason
  split
  · rename_i hempty
    have hreason : reasonCode.toList = [] :=
      String.toList_eq_nil_iff.mpr (String.isEmpty_iff.mp hempty)
    rw [hreason]
    exact iff_of_true (by decide) (by decide)
  · rfl

theorem isClean_modifiersText (claim : Claim) :
    IsClean (modifiersText claim) ↔ IsClean claim.mark.reasonCode.toList := by
  have hmark : IsClean "MARK:".toList := by decide
  have hreason : IsClean "REASON:".toList := by decide
  have hconf : IsClean "CONF:".toList := by decide
  have hbasis : IsClean "BASIS:".toList := by decide
  have hsemicolon : isNoncharacter ';' = false := by decide
  unfold modifiersText
  simp only [isClean_append, isClean_cons, hmark, hreason, hconf, hbasis, hsemicolon,
    isClean_of_isPlain (isPlain_fmtConf _), isClean_fmtBasis, isClean_markStatusLabel,
    isClean_shownReason, true_and, and_true]

theorem isAttrs_nvgPointAttrs {ps : PlatformState} (pos : Position) {claim : Claim}
    (hid : ps.platformId.toList.all isXmlChar = true)
    (hmodifiers : (modifiersText claim).all isXmlChar = true) :
    IsAttrs (nvgPointAttrs ps pos claim) := by
  have hnumber (v : F64) : IsAttValue (fmtF64 v) := isAttValue_of_isPlain (isPlain_fmtF64 v)
  have hsymbol : IsAttValue (app6bSymbol ps.platformDomain) := by
    refine isAttValue_of_decide ?_
    cases ps.platformDomain
    all_goals decide
  have hlabel : (labelText ps claim.mark).all isXmlChar = true := by
    have hsummary : (markSummary claim.mark).toList.all isXmlChar = true := by
      rw [List.all_eq_true]
      intro c hc
      rcases mem_modifiersText_of_mem_markSummary hc with rfl | hc
      · decide
      · exact List.all_eq_true.mp hmodifiers c hc
    have hopen : " [".toList.all isXmlChar = true := by decide
    have hclose : "]".toList.all isXmlChar = true := by decide
    unfold labelText
    rw [List.all_append, List.all_append, List.all_append, hid, hopen, hsummary, hclose]
    rfl
  have hz : zAttr pos.altM = [] ∨ ∃ z, zAttr pos.altM = [("z", fmtF64 z)] := by
    unfold zAttr
    split
    · split
      · exact Or.inr ⟨_, rfl⟩
      · exact Or.inl rfl
    · exact Or.inl rfl
  unfold nvgPointAttrs
  constructor
  · rcases hz with hz | ⟨z, hz⟩
    · rw [hz]
      simp only [List.map_cons, List.map_nil, List.map_append]
      decide
    · rw [hz]
      simp only [List.map_cons, List.map_nil, List.map_append]
      decide
  · simp only [List.forall_mem_append, List.forall_mem_cons]
    refine ⟨⟨⟨⟨?_, isAttValue_xmlEscapeAttr hid⟩, ⟨?_, hnumber _⟩, ⟨?_, hnumber _⟩,
      List.forall_mem_nil _⟩, ?_⟩, ⟨?_, hsymbol⟩, ⟨?_, isAttValue_xmlEscapeAttr hlabel⟩,
      ⟨?_, isAttValue_xmlEscapeAttr hmodifiers⟩, List.forall_mem_nil _⟩
    case refine_4 =>
      rcases hz with hz | ⟨z, hz⟩
      · rw [hz]
        exact List.forall_mem_nil _
      · rw [hz, List.forall_mem_singleton]
        exact ⟨show isName "z" = true by decide, hnumber z⟩
    all_goals decide

theorem isAttrs_nvgAttrs : IsAttrs nvgAttrs := by
  constructor
  · decide
  · simp only [nvgAttrs, List.forall_mem_cons]
    refine ⟨⟨?_, isAttValue_of_decide ?_⟩, ⟨?_, isAttValue_of_decide ?_⟩, List.forall_mem_nil _⟩
    all_goals decide

theorem isAttrs_timeStampAttrs (ps : PlatformState) : IsAttrs (timeStampAttrs ps) := by
  constructor
  · exact List.nodup_singleton _
  · simp only [timeStampAttrs, List.forall_mem_cons]
    exact ⟨⟨by decide, isAttValue_of_isPlain (isPlain_iso8601 _)⟩, List.forall_mem_nil _⟩

/-- A document is well formed when its strings hold characters of XML only. -/
theorem wellFormed_nvgDocument {ps : PlatformState} {pos : Position} {claim : Claim}
    (hid : ps.platformId.toList.all isXmlChar = true)
    (hmodifiers : (modifiersText claim).all isXmlChar = true) :
    WellFormed xmlDeclaration.body (nvgDocument ps pos claim) := by
  have hspace {s : Text} (h : s.all isSpace = true) : IsCharData s := isCharData_of_isSpace h
  have hnewline : "\n".toList.all isSpace = true := by decide
  have hline : IsCharData "\n".toList := hspace hnewline
  have hindent : IsCharData "\n  ".toList := hspace (by decide)
  have hindents : IsCharData "\n    ".toList := hspace (by decide)
  have hpoint := hline.isContent.consElement hindent "point" (by decide)
    (isAttrs_nvgPointAttrs pos hid hmodifiers)
    (hindent.isContent.consEmpty hindents "TimeStamp" (by decide)
      (isAttrs_timeStampAttrs ps))
  have hdocument := hpoint.wellFormed xmlDeclaration (by decide) "nvg"
    (by decide) isAttrs_nvgAttrs hnewline hnewline
  rw [xmlDeclaration_text] at hdocument
  unfold nvgDocument
  simp only [List.append_assoc] at hdocument ⊢
  exact hdocument

/-- **An accepted document is well formed exactly when its strings are clean.** -/
theorem wellFormed_nvgDocument_iff {ps : PlatformState} {pos : Position} {claim : Claim}
    (h : NvgPolicy.checkNvgDocument (nvgDocument ps pos claim) = .ok ()) :
    WellFormed xmlDeclaration.body (nvgDocument ps pos claim) ↔
      ∀ s ∈ nvgStrings ps claim, IsClean s.toList := by
  obtain ⟨-, -, -, huri, hfield⟩ := modifiers_of_accepted_document h
  rw [nvgStrings, List.forall_mem_cons, List.forall_mem_singleton, ← isClean_modifiersText]
  constructor
  · intro hwell
    have hclean := isClean_of_all_xmlChar hwell.chars
    have htag (key : String) {s : Text}
        (hkey : (key, xmlEscapeAttr s) ∈ nvgPointAttrs ps pos claim) : IsClean s := by
      refine isClean_of_xmlEscapeAttr fun c hc => hclean c ?_
      have hmem : c ∈ startTagText "point" (nvgPointAttrs ps pos claim) .open_ :=
        mem_startTagText hkey hc
      unfold nvgDocument
      simp only [List.mem_append, hmem, true_or, or_true]
    constructor
    · exact htag "uri" (by simp [nvgPointAttrs])
    · exact htag "modifiers" (by simp [nvgPointAttrs])
  · rintro ⟨hid, hmodifiers⟩
    exact wellFormed_nvgDocument
      (all_xmlChar_of_inspected (mapError_eq_ok.mp huri) hid)
      (all_xmlChar_of_inspected (mapError_eq_ok.mp hfield) hmodifiers)

/-! ## 5. Publishing -/

/-- **A published document is well formed exactly when its strings are clean**, in both dialects.
Being published is the only hypothesis: the policy has then seen the document, and of all the ways
for a text to be no document of XML two code points are left.  The strings are those of the
envelope, so the condition can be checked before anything is printed. -/
theorem published_wellFormed_iff (ttl : StaleTtlConfig) (envelope : EvidenceEnvelope)
    (out : List UInt8) :
    (cotPublish ttl envelope = .ok out → ∃ ps, envelope.observation = .platformState ps ∧
        (WellFormedBytes out ↔ ∀ s ∈ cotStrings ps envelope.claim, IsClean s.toList)) ∧
      (nvgPublish envelope = .ok out → ∃ ps, envelope.observation = .platformState ps ∧
        (WellFormedBytes out ↔ ∀ s ∈ nvgStrings ps envelope.claim, IsClean s.toList)) := by
  constructor
  · intro h
    obtain ⟨ps, pos, hobs, -, hcheck, rfl⟩ := cotPublish_eq_ok h
    refine ⟨ps, hobs, ?_⟩
    rw [wellFormedBytes_textBytes]
    exact wellFormed_cotEvent_iff (CotPolicy.checkCotEvent_of_bytes hcheck)
  · intro h
    obtain ⟨ps, pos, hobs, -, hcheck, rfl⟩ := nvgPublish_eq_ok h
    refine ⟨ps, hobs, ?_⟩
    rw [wellFormedBytes_textBytes]
    exact wellFormed_nvgDocument_iff (checkNvgDocument_of_bytes hcheck)

/-- The envelope whose platform looks like markup is published as a well-formed document in
both dialects. -/
theorem markup_wellFormed :
    WellFormedBytes (textBytes (cotEvent 15 markupPlatform ⟨⟨0⟩, ⟨0⟩, none⟩
        markupEnvelope.claim)) ∧
      WellFormedBytes (textBytes (nvgDocument markupNvgPlatform
        ⟨⟨0⟩, ⟨0⟩, some ⟨0x7FF8000000000000⟩⟩ markupEnvelope.claim)) := by
  constructor
  · obtain ⟨ps, hobs, hiff⟩ :=
      (published_wellFormed_iff .recommended markupEnvelope _).1 markupEnvelope_published
    cases hobs
    exact hiff.mpr (by decide)
  · obtain ⟨ps, hobs, hiff⟩ :=
      (published_wellFormed_iff .recommended markupNvgEnvelope _).2 markupNvgEnvelope_published
    cases hobs
    exact hiff.mpr (by decide)

/-- A vehicle with U+FFFE in its name. -/
def noncharacterPlatform : PlatformState :=
  { markupPlatform with platformId := "uav\uFFFE" }

def noncharacterEnvelope : EvidenceEnvelope :=
  { markupEnvelope with observation := .platformState noncharacterPlatform }

/-- Both dialects publish it, and neither document is well formed. -/
theorem noncharacter_not_wellFormed :
    (∃ out, cotPublish .recommended noncharacterEnvelope = .ok out ∧ ¬ WellFormedBytes out) ∧
      ∃ out, nvgPublish noncharacterEnvelope = .ok out ∧ ¬ WellFormedBytes out := by
  have hunclean : ¬ IsClean noncharacterPlatform.platformId.toList := by decide
  constructor
  · have hcheck : CotPolicy.checkCotEventBytes (String.ofList (cotEvent 15 noncharacterPlatform
        ⟨⟨0⟩, ⟨0⟩, none⟩ markupEnvelope.claim)).toUTF8 = .ok () :=
      (CotPolicy.checkCotEventBytes_toUTF8 (size_toUTF8_le (by decide +kernel))).trans
      (by decide +kernel)
    refine ⟨_, cotPublish_of_accepted rfl (by decide) rfl hcheck, ?_⟩
    rw [wellFormedBytes_textBytes]
    intro h
    have hclean := (wellFormed_cotEvent_iff (CotPolicy.checkCotEvent_of_bytes hcheck)).mp h
    exact hunclean (hclean _ List.mem_cons_self)
  · have hcheck : NvgPolicy.checkNvgDocumentBytes (String.ofList (nvgDocument
        noncharacterPlatform ⟨⟨0⟩, ⟨0⟩, none⟩ markupEnvelope.claim)).toUTF8 = .ok () :=
      (checkNvgDocumentBytes_toUTF8 (size_toUTF8_le (by decide +kernel))).trans
      (by decide +kernel)
    refine ⟨_, nvgPublish_of_accepted rfl (by decide) rfl hcheck, ?_⟩
    rw [wellFormedBytes_textBytes]
    intro h
    have hclean := (wellFormed_nvgDocument_iff (checkNvgDocument_of_bytes hcheck)).mp h
    exact hunclean (hclean _ List.mem_cons_self)

end Musubi.Northbound
