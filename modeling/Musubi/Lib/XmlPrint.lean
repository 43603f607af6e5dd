/-
# What is printed is a document

The rules by which text that a program prints, tag after tag, is a derivation of the grammar: an
attribute value is made of pieces, an element stands around content, and content is character data
between tags.  Each rule also keeps that all characters are characters of XML, and that references
are predefined, so what the last rule makes of them is a well-formed document (`WellFormed`).

A program does not print character data between all its tags; where it prints none, the rules put
an empty text there, so that the shape of the grammar and that of the program meet.
-/
import Mathlib.Data.List.Nodup
import Musubi.Lib.XmlReader

namespace Lib

namespace Xml

/-! ## 1. Characters and names -/

theorem isXmlChar_of_isNameStart {c : Char} (h : isNameStart c = true) : isXmlChar c = true := by
  simp [isNameStart, isXmlChar, inRanges] at h ⊢
  omega

theorem isXmlChar_of_isNameChar {c : Char} (h : isNameChar c = true) : isXmlChar c = true := by
  unfold isNameChar at h
  rcases Bool.or_eq_true_iff.mp h with h | h
  · exact isXmlChar_of_isNameStart h
  · simp [isXmlChar, inRanges] at h ⊢
    omega

theorem isXmlChar_of_isName {s : String} (h : isName s = true) :
    s.toList.all isXmlChar = true := by
  unfold isName at h
  rw [Bool.and_eq_true] at h
  rw [List.all_eq_true]
  intro c hc
  exact isXmlChar_of_isNameChar (List.all_eq_true.mp h.2 c hc)

/-- The name that a string is. -/
def nameOf (s : String) (h : isName s = true) : Name where
  text := s.toList
  start := (Bool.and_eq_true_iff.mp h).1
  chars := (Bool.and_eq_true_iff.mp h).2

/-! ## 2. Attribute values -/

/-- The text may stand between double quotes. -/
structure IsAttValue (v : List Char) : Prop where
  chars : v.all isXmlChar = true
  pieces : ∃ pieces : List Piece, pieces.all (Piece.valid .double) = true ∧
    pieces.flatMap Piece.text = v ∧ ∀ r, .ref r ∈ pieces → r.predefined = true

theorem isAttValue_nil : IsAttValue [] :=
  ⟨rfl, [], rfl, rfl, fun _ h => nomatch h⟩

theorem IsAttValue.append {v w : List Char} (hv : IsAttValue v) (hw : IsAttValue w) :
    IsAttValue (v ++ w) := by
  obtain ⟨hvchars, vs, hvvalid, rfl, hvrefs⟩ := hv
  obtain ⟨hwchars, ws, hwvalid, rfl, hwrefs⟩ := hw
  constructor
  · rw [List.all_append, hvchars, hwchars]
    rfl
  · refine ⟨vs ++ ws, ?_, List.flatMap_append, ?_⟩
    · rw [List.all_append, hvvalid, hwvalid]
      rfl
    · intro r hr
      rcases List.mem_append.mp hr with hr | hr
      · exact hvrefs r hr
      · exact hwrefs r hr

/-- A value made from a text, character after character. -/
theorem isAttValue_flatMap {f : Char → List Char} {s : List Char}
    (h : ∀ c ∈ s, IsAttValue (f c)) : IsAttValue (s.flatMap f) := by
  induction s with
  | nil => exact isAttValue_nil
  | cons c s ih =>
    obtain ⟨hc, hs⟩ := List.forall_mem_cons.mp h
    rw [List.flatMap_cons]
    exact hc.append (ih hs)

theorem isAttValue_singleton {c : Char} (hc : isXmlChar c = true)
    (hplain : c ∉ ['<', '&', '"']) : IsAttValue [c] := by
  simp only [List.mem_cons, List.not_mem_nil, or_false, not_or] at hplain
  constructor
  · rw [List.all_cons, hc]
    rfl
  · refine ⟨[.char c], ?_, rfl, ?_⟩
    · rw [List.all_cons, Piece.valid, hc, decide_eq_true hplain.1, decide_eq_true hplain.2.1,
        Bool.true_and, Bool.true_and, Bool.true_and, List.all_nil, Bool.and_true]
      exact decide_eq_true hplain.2.2
    · intro r hr
      cases List.mem_singleton.mp hr

theorem isAttValue_of_plain {v : List Char} (hv : v.all isXmlChar = true)
    (hplain : ∀ c ∈ v, c ∉ ['<', '&', '"']) : IsAttValue v := by
  have h := isAttValue_flatMap (f := fun c => [c]) fun c hc =>
    isAttValue_singleton (List.all_eq_true.mp hv c hc) (hplain c hc)
  rwa [List.flatMap_singleton'] at h

theorem isAttValue_reference {r : Reference} (hchars : r.text.all isXmlChar = true)
    (hvalid : r.valid = true) (hpredefined : r.predefined = true) : IsAttValue r.text := by
  constructor
  · exact hchars
  · refine ⟨[.ref r], ?_, List.flatMap_singleton .., ?_⟩
    · rw [List.all_cons, Piece.valid, hvalid]
      rfl
    · intro r' hr'
      cases List.mem_singleton.mp hr'
      exact hpredefined

/-! ## 3. Tags -/

/-- Attributes that make a tag: their names are names and different, and their values may stand
between double quotes. -/
structure IsAttrs (attrs : List (String × List Char)) : Prop where
  distinct : (attrs.map Prod.fst).Nodup
  attr : ∀ attr ∈ attrs, isName attr.1 = true ∧ IsAttValue attr.2

theorem isAttrs_nil : IsAttrs [] := ⟨List.nodup_nil, List.forall_mem_nil _⟩

theorem IsAttrs.all_attrText {attrs : List (String × List Char)} (h : IsAttrs attrs) :
    (attrs.flatMap attrText).all isXmlChar = true := by
  rw [List.all_flatMap, List.all_eq_true]
  intro attr hattr
  obtain ⟨hkey, hvalue⟩ := h.attr attr hattr
  simp only [attrText, List.all_cons, List.all_append, isXmlChar_of_isName hkey, hvalue.chars]
  rfl

theorem all_startTagText {name : String} {attrs : List (String × List Char)} (close : Close)
    (hname : isName name = true) (h : IsAttrs attrs) :
    (startTagText name attrs close).all isXmlChar = true := by
  have hclose : close.text.all isXmlChar = true := by
    cases close with
    | open_ => rfl
    | empty => rfl
  simp only [startTagText, List.all_cons, List.all_append, isXmlChar_of_isName hname,
    h.all_attrText, hclose]
  rfl

theorem all_endTagText {name : String} (hname : isName name = true) :
    (endTagText name).all isXmlChar = true := by
  simp only [endTagText, List.all_cons, List.all_append, isXmlChar_of_isName hname]
  rfl

/-- The values of attributes stand in the tag. -/
theorem mem_startTagText {name : String} {attrs : List (String × List Char)} {close : Close}
    {key : String} {value : List Char} {c : Char} (h : (key, value) ∈ attrs) (hc : c ∈ value) :
    c ∈ startTagText name attrs close := by
  have hattr : c ∈ attrText (key, value) := by
    simp only [attrText, List.mem_cons, List.mem_append]
    exact Or.inr (Or.inr (Or.inr (Or.inr (Or.inl hc))))
  unfold startTagText
  refine List.mem_cons_of_mem _ (List.mem_append_right _ (List.mem_append_left _ ?_))
  exact List.mem_flatMap.mpr ⟨_, h, hattr⟩

/-- Attributes as the grammar has them. -/
theorem exists_attributes {attrs : List (String × List Char)}
    (h : ∀ attr ∈ attrs, isName attr.1 = true ∧ IsAttValue attr.2) :
    ∃ as : List Attribute, as.map (fun a => a.name.text) = attrs.map (fun attr => attr.1.toList) ∧
      as.flatMap Attribute.text = attrs.flatMap attrText ∧
      ∀ a ∈ as, ∀ r, .ref r ∈ a.pieces → r.predefined = true := by
  induction attrs with
  | nil => exact ⟨[], rfl, rfl, List.forall_mem_nil _⟩
  | cons attr attrs ih =>
    obtain ⟨⟨hkey, hvalue⟩, hattrs⟩ := List.forall_mem_cons.mp h
    obtain ⟨pieces, hvalid, htext, hrefs⟩ := hvalue.pieces
    obtain ⟨as, hnames, hall, has⟩ := ih hattrs
    let a : Attribute :=
      { lead := ⟨[' '], rfl⟩, lead_ne := List.cons_ne_nil _ _, name := nameOf attr.1 hkey
        beforeEq := noSpace, afterEq := noSpace, quote := .double, pieces, valid := hvalid }
    have ha : a.text = attrText attr := by
      have hraw : a.raw = attr.2 := htext
      unfold Attribute.text attrText
      rw [hraw]
      simp only [a, noSpace, nameOf, Quote.char, List.append_nil, List.nil_append,
        List.cons_append]
    refine ⟨a :: as, ?_, ?_, ?_⟩
    · rw [List.map_cons, List.map_cons, hnames]
      rfl
    · rw [List.flatMap_cons, List.flatMap_cons, ha, hall]
    · rw [List.forall_mem_cons]
      exact ⟨hrefs, has⟩

/-- **A printed start tag is a tag.** -/
theorem exists_tag {name : String} {attrs : List (String × List Char)}
    (hname : isName name = true) (h : IsAttrs attrs) :
    ∃ tag : Tag, tag.name = nameOf name hname ∧
      (∀ close, tag.text close = startTagText name attrs close) ∧
      ∀ r ∈ tag.references, r.predefined = true := by
  obtain ⟨as, hnames, htext, hrefs⟩ := exists_attributes h.attr
  have hdistinct : (as.map Attribute.name).Nodup := by
    refine List.Nodup.of_map Name.text ?_
    rw [List.map_map]
    have hkeys : (attrs.map fun attr => attr.1.toList).Nodup := by
      have hmap := h.distinct.map fun _ _ heq => String.toList_injective heq
      rwa [List.map_map] at hmap
    rwa [← hnames] at hkeys
  refine ⟨⟨nameOf name hname, as, hdistinct, noSpace⟩, rfl, ?_, ?_⟩
  · intro close
    unfold Tag.text Tag.rest
    rw [htext]
    rfl
  · intro r hr
    obtain ⟨a, ha, hr⟩ := List.mem_flatMap.mp hr
    obtain ⟨piece, hpiece, hr⟩ := List.mem_filterMap.mp hr
    cases piece with
    | char c => cases hr
    | ref r' =>
      cases hr
      exact hrefs a ha r hpiece

/-! ## 4. Content -/

/-- The text is character data: no markup and no reference, and no `>` either. -/
structure IsCharData (s : List Char) : Prop where
  chars : s.all isXmlChar = true
  plain : ∀ c ∈ s, c ∉ ['<', '&', '>']

def IsCharData.charData {s : List Char} (h : IsCharData s) : CharData where
  text := s
  valid := by
    rw [List.all_eq_true]
    intro c hc
    have hplain := h.plain c hc
    simp only [List.mem_cons, List.not_mem_nil, or_false, not_or] at hplain
    rw [List.all_eq_true.mp h.chars c hc, decide_eq_true hplain.1, decide_eq_true hplain.2.1]
    rfl
  noEnd := by
    intro hpart
    exact h.plain '>' (hpart.subset (by simp)) (by simp)

/-- The tokens refer to predefined entities only. -/
def Predefined (ts : List Token) : Prop := ∀ t ∈ ts, ∀ r ∈ t.references, r.predefined = true

theorem predefined_append {ts us : List Token} :
    Predefined (ts ++ us) ↔ Predefined ts ∧ Predefined us := List.forall_mem_append

theorem predefined_cons {t : Token} {ts : List Token} :
    Predefined (t :: ts) ↔ (∀ r ∈ t.references, r.predefined = true) ∧ Predefined ts :=
  List.forall_mem_cons

theorem predefined_nil : Predefined [] := List.forall_mem_nil _

/-- The text may stand in an element. -/
structure IsContent (s : List Char) : Prop where
  chars : s.all isXmlChar = true
  content : ∃ c : Content, c.tokens.flatMap Token.text = s ∧ Predefined c.tokens

theorem IsCharData.isContent {s : List Char} (h : IsCharData s) : IsContent s := by
  constructor
  · exact h.chars
  · refine ⟨.data h.charData, List.flatMap_singleton .., ?_⟩
    unfold Content.tokens
    rw [predefined_cons]
    exact ⟨List.forall_mem_nil _, predefined_nil⟩

/-- An element without content stands after character data. -/
theorem IsContent.consEmpty {s rest : List Char} {attrs : List (String × List Char)}
    (hrest : IsContent rest) (hs : IsCharData s) (name : String) (hname : isName name = true)
    (hattrs : IsAttrs attrs) :
    IsContent (s ++ (startTagText name attrs .empty ++ rest)) := by
  obtain ⟨tag, -, htext, htag⟩ := exists_tag hname hattrs
  obtain ⟨more, hmore, hrefs⟩ := hrest.content
  constructor
  · rw [List.all_append, List.all_append, hs.chars, all_startTagText .empty hname hattrs,
      hrest.chars]
    rfl
  · refine ⟨.empty hs.charData tag more, ?_, ?_⟩
    · unfold Content.tokens
      rw [List.flatMap_cons, List.flatMap_cons, hmore, ← htext]
      rfl
    · unfold Content.tokens
      rw [predefined_cons, predefined_cons]
      exact ⟨List.forall_mem_nil _, htag, hrefs⟩

/-- **An element with content** stands after character data: the tags around the content match, as
both are printed with one name. -/
theorem IsContent.consElement {s inner rest : List Char} {attrs : List (String × List Char)}
    (hrest : IsContent rest) (hs : IsCharData s) (name : String) (hname : isName name = true)
    (hattrs : IsAttrs attrs) (hinner : IsContent inner) :
    IsContent (s ++ (startTagText name attrs .open_ ++ (inner ++ (endTagText name ++ rest)))) := by
  obtain ⟨tag, htagName, htext, htag⟩ := exists_tag hname hattrs
  obtain ⟨children, hchildren, hchildRefs⟩ := hinner.content
  obtain ⟨more, hmore, hrefs⟩ := hrest.content
  constructor
  · rw [List.all_append, List.all_append, List.all_append, List.all_append, hs.chars,
      all_startTagText .open_ hname hattrs, hinner.chars, all_endTagText hname, hrest.chars]
    rfl
  · refine ⟨.element hs.charData tag children noSpace more, ?_, ?_⟩
    · unfold Content.tokens
      rw [List.flatMap_cons, List.flatMap_cons, List.flatMap_append, List.flatMap_cons, hchildren,
        hmore, ← htext, htagName]
      rfl
    · unfold Content.tokens
      rw [predefined_cons, predefined_cons, predefined_append, predefined_cons]
      exact ⟨List.forall_mem_nil _, htag, hchildRefs, List.forall_mem_nil _, hrefs⟩

/-! ## 5. Documents -/

/-- **A well-formed document** with that XML declaration and without a document type declaration:
all its characters are characters of XML, and it has a derivation. -/
structure WellFormed (declaration text : List Char) : Prop where
  chars : text.all isXmlChar = true
  derivation : ∃ d : Document, d.prolog.doctype = none ∧
    d.prolog.declaration.map Declaration.body = some declaration ∧ d.text = text

/-- Content in one element, after an XML declaration, is a document. -/
theorem IsContent.wellFormed {inner before after : List Char}
    {attrs : List (String × List Char)} (hinner : IsContent inner) (declaration : Declaration)
    (hdeclaration : declaration.body.all isXmlChar = true) (name : String)
    (hname : isName name = true) (hattrs : IsAttrs attrs) (hbefore : before.all isSpace = true)
    (hafter : after.all isSpace = true) :
    WellFormed declaration.body (declaration.token.text ++ (before ++
      (startTagText name attrs .open_ ++ (inner ++ (endTagText name ++ after))))) := by
  obtain ⟨tag, htagName, htext, htag⟩ := exists_tag hname hattrs
  obtain ⟨children, hchildren, hrefs⟩ := hinner.content
  have hspace {s : List Char} (h : s.all isSpace = true) : s.all isXmlChar = true := by
    rw [List.all_eq_true] at h ⊢
    intro c hc
    have hc := h c hc
    simp [isSpace, isXmlChar, inRanges] at hc ⊢
    omega
  let prolog : Prolog := ⟨false, some declaration, [.space ⟨before, hbefore⟩], none⟩
  let root : Root := .element tag children noSpace
  have hall : Predefined (documentTokens prolog root [.space ⟨after, hafter⟩]) := by
    unfold documentTokens
    rw [predefined_append, predefined_append]
    refine ⟨⟨?_, ?_⟩, ?_⟩
    · simp only [Prolog.tokens, prolog, Option.toList_some, List.map_cons, List.map_nil,
        predefined_append, predefined_cons]
      exact ⟨⟨⟨predefined_nil, List.forall_mem_nil _, predefined_nil⟩,
        List.forall_mem_nil _, predefined_nil⟩, predefined_nil⟩
    · simp only [Root.tokens, root, predefined_append, predefined_cons]
      exact ⟨htag, hrefs, List.forall_mem_nil _, predefined_nil⟩
    · rw [List.map_singleton, predefined_cons]
      exact ⟨List.forall_mem_nil _, predefined_nil⟩
  constructor
  · have htoken : declaration.token.text.all isXmlChar = true := by
      have hxml : "xml".toList.all isXmlChar = true := by decide +kernel
      simp only [Declaration.token, Token.text, List.all_cons, List.all_append, hxml,
        hdeclaration]
      rfl
    simp only [List.all_append, htoken, hspace hbefore, all_startTagText .open_ hname hattrs,
      hinner.chars, all_endTagText hname, hspace hafter]
    rfl
  · refine ⟨⟨prolog, root, [.space ⟨after, hafter⟩], fun _ => hall⟩, rfl, rfl, ?_⟩
    simp only [Document.text, Document.tokens, documentTokens, Prolog.tokens, Root.tokens, prolog,
      root, List.flatMap_append, List.flatMap_cons, List.map_cons, List.map_nil,
      List.flatMap_nil, Option.toList_some, hchildren, Misc.token, Token.text, htagName, ← htext,
      List.append_nil, List.append_assoc]
    rfl

end Xml

end Lib
