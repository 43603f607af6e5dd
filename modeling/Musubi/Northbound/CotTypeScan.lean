/-
# What the egress policy says about the types of an event document

`check_cot_event_bytes` reads one type: that of the first tag whose text starts with `<event`,
from the first `type="` in it.  This module compares it with the elements of the document
(`Xml.Document.elements`).  An element `event` whose type the scan reads has a declared type; an
element that escapes the scan may have any, and three ways to escape are shown.

The documents are those of the grammar of XML and not only those that this repository prints,
since the policy is the last check before bytes leave.  Attributes may be quoted either way, with
blanks around the equals sign; elements may be named `events`; there may be a second event.  The
floor of forbidden markup, which is checked first, leaves tags and text between tags
(`exists_plain`), so the scan cannot be led astray by comments or processing instructions.

What the scan does on a tag has an exact description: among the attributes whose text holds the
needle it stops at the first, and reads its value when this is the attribute `type`, written with
double quotes and no blanks (`Meets`).  An element for which all this holds is not one that
`EscapesScan`, and the main result says that these, and only these, are what acceptance leaves
open.
-/
import Musubi.Northbound.CotPolicy

namespace Musubi.Northbound.CotPolicy

open Lib WirePolicy

/-! ## 1. The scanners -/

theorem openTag_append {a s name : Text}
    (h : find ('<' :: name) (a ++ s) = (find ('<' :: name) s).map (a.length + ·)) :
    openTag (a ++ s) name = openTag s name := by
  rw [openTag, openTag, h]
  cases find ('<' :: name) s with
  | none => rfl
  | some i => simp only [Option.map_some, bind, Option.bind, List.drop_length_add_append]

/-- The tag that is cut out at a position is a prefix of what stands there. -/
theorem openTag_isPrefix {before rest name tag : Text}
    (h : find ('<' :: name) (before ++ rest) = some before.length)
    (htag : openTag (before ++ rest) name = some tag) : tag <+: rest := by
  simp only [openTag, h, bind, Option.bind, List.drop_left] at htag
  split at htag
  · cases htag
  · cases htag
    exact List.take_prefix _ _

section Attr

variable {key a s : Text}

theorem attr_append {n : ℕ}
    (h : find (key ++ ['=', '"']) (a ++ s) = (find (key ++ ['=', '"']) s).map (n + ·))
    (hn : n = a.length) : attr (a ++ s) key = attr s key := by
  subst hn
  rw [attr, attr]
  simp only [h]
  cases find (key ++ ['=', '"']) s with
  | none => rfl
  | some i =>
    simp only [Option.map_some, bind, Option.bind, Nat.add_assoc, List.drop_length_add_append]

/-- The value is read where the needle stands in front. -/
theorem attr_here {value : Text} (hvalue : '"' ∉ value) :
    attr (key ++ '=' :: '"' :: (value ++ '"' :: s)) key = some value := by
  have hneedle : find (key ++ ['=', '"']) (key ++ '=' :: '"' :: (value ++ '"' :: s)) = some 0 :=
    find_of_isPrefix ⟨value ++ '"' :: s, by rw [List.append_assoc]; rfl⟩
  have hrest : (key ++ '=' :: '"' :: (value ++ '"' :: s)).drop
      (0 + (key ++ ['=', '"']).length) = value ++ '"' :: s := by
    have hsplit : key ++ '=' :: '"' :: (value ++ '"' :: s) =
        (key ++ ['=', '"']) ++ (value ++ '"' :: s) := by rw [List.append_assoc]; rfl
    rw [hsplit, Nat.zero_add, List.drop_left]
  have hquote : find ['"'] (value ++ '"' :: s) = some value.length := by
    have hfirst : find ['"'] ('"' :: s) = some 0 := find_of_isPrefix ⟨s, rfl⟩
    rw [find_append_of_notMem hvalue, hfirst]
    rfl
  simp only [attr, hneedle, hrest, hquote, bind, Option.bind, pure, List.take_left]

/-- **What is read from a prefix** is read from the whole: the scan stops at its first success. -/
theorem attr_of_scope {scope value : Text} (hscope : scope <+: s)
    (h : attr scope key = some value) : attr s key = some value := by
  obtain ⟨t, rfl⟩ := hscope
  simp only [attr, bind, Option.bind] at h ⊢
  cases hstart : find (key ++ ['=', '"']) scope with
  | none => simp only [hstart] at h; cases h
  | some i =>
    simp only [hstart] at h
    rw [find_of_scope (List.prefix_append scope t) hstart]
    cases hstop : find ['"'] (scope.drop (i + (key ++ ['=', '"']).length)) with
    | none => simp only [hstop] at h; cases h
    | some j =>
      simp only [hstop] at h
      have hrest : (scope ++ t).drop (i + (key ++ ['=', '"']).length) =
          scope.drop (i + (key ++ ['=', '"']).length) ++
            t.drop (i + (key ++ ['=', '"']).length - scope.length) := List.drop_append
      simp only [hrest, find_of_scope (List.prefix_append _ _) hstop]
      rw [← h, List.take_append_of_le_length (find_le_length hstop)]

/-- Text without the needle, up to a character that the needle does not have. -/
theorem attr_append_cons {x : Char} (hx : x ∉ key ++ ['=', '"'])
    (ha : ¬ key ++ ['=', '"'] <:+: a) : attr (a ++ x :: s) key = attr s key := by
  have hne : key ++ ['=', '"'] ≠ [] := List.append_ne_nil_of_right_ne_nil _ (by decide)
  have hsplit : a ++ x :: s = (a ++ [x]) ++ s := by rw [List.append_assoc]; rfl
  have hfind := find_append_cons (s := s) hne hx ha
  rw [hsplit] at hfind ⊢
  exact attr_append hfind (by rw [List.length_append, List.length_singleton])

end Attr

/-! ## 2. The attribute that a scan meets -/

section Meets

variable {key : Text} {tag : Xml.Tag} {a : Xml.Attribute}

/-- The attribute is written `key="..."`, with double quotes and without blanks around the equals
sign, which is the only way that the scan for it knows. -/
def WrittenAs (key : Text) (a : Xml.Attribute) : Prop :=
  a.name.text = key ∧ a.beforeEq.text = [] ∧ a.afterEq.text = [] ∧ a.quote = .double

/-- The scan for `key="` meets the attribute `key`: of the attributes whose text holds the
needle it is the first, and it is written so. -/
def Meets (key : Text) (tag : Xml.Tag) (a : Xml.Attribute) : Prop :=
  tag.attrs.find? (fun b => contains (key ++ ['=', '"']) b.text) = some a ∧ WrittenAs key a

theorem quote_notMem {s : Text} (h : '"' ∉ s) : ¬ key ++ ['=', '"'] <:+: s := fun hs =>
  h (hs.subset (List.mem_append_right _ (List.mem_cons_of_mem _ List.mem_cons_self)))

theorem space_notMem (hkey : key.all Xml.isNameChar = true) {w : Char}
    (hw : Xml.isSpace w = true) : w ∉ key ++ ['=', '"'] := by
  rw [List.mem_append, not_or]
  refine ⟨Xml.notMem_of_all hkey (Xml.isNameChar_of_isSpace hw), ?_⟩
  simp only [List.mem_cons, List.not_mem_nil, or_false]
  rintro (rfl | rfl) <;> exact absurd hw (by decide)

theorem text_eq_cons (a : Xml.Attribute) :
    ∃ w more, a.text = w :: more ∧ Xml.isSpace w = true := by
  obtain ⟨w, more, hlead⟩ := List.exists_cons_of_ne_nil a.lead_ne
  have hw := List.all_eq_true.mp a.lead.spaces w (hlead ▸ List.mem_cons_self)
  simp only [Xml.Attribute.text, hlead, List.cons_append]
  exact ⟨w, _, rfl, hw⟩

/-- The scan reads the attribute written so, after text without the needle. -/
theorem attr_writtenAs (hne : key ≠ []) (hkey : key.all Xml.isNameChar = true)
    (h : WrittenAs key a) {seg : Text} (hseg : ¬ key ++ ['=', '"'] <:+: seg) (more : Text) :
    attr (seg ++ (a.text ++ more)) key = some a.raw := by
  obtain ⟨hname, hbefore, hafter, hquote⟩ := h
  obtain ⟨w, lead, hlead⟩ := List.exists_cons_of_ne_nil a.lead_ne
  obtain ⟨c, key', hcons⟩ := List.exists_cons_of_ne_nil hne
  have hspaces := a.lead.spaces
  rw [hlead, List.all_cons, Bool.and_eq_true] at hspaces
  have hc : Xml.isNameChar c = true := List.all_eq_true.mp hkey c (hcons ▸ List.mem_cons_self)
  have hclead : c ∉ lead := by
    refine Xml.notMem_of_all hspaces.2 ?_
    by_contra hsp
    rw [Xml.isNameChar_of_isSpace (by simpa using hsp)] at hc
    cases hc
  have hraw : '"' ∉ a.raw :=
    a.notMem_raw (by decide) (by decide) (Or.inr (by rw [hquote]; rfl))
  have htext : a.text ++ more = w :: (lead ++ (key ++ '=' :: '"' :: (a.raw ++ '"' :: more))) := by
    simp [Xml.Attribute.text, hlead, hname, hbefore, hafter, hquote, Xml.Quote.char]
  rw [htext, attr_append_cons (space_notMem hkey hspaces.1) hseg]
  have hskip : find (c :: (key' ++ ['=', '"']))
      (lead ++ (key ++ '=' :: '"' :: (a.raw ++ '"' :: more))) = _ := find_append_of_notMem hclead
  rw [← List.cons_append, ← hcons] at hskip
  rw [attr_append hskip rfl, attr_here hraw]

/-- **The scan of a tag reads the attribute it meets.** Before it there is no other place where
the needle stands. -/
theorem attr_tag (hne : key ≠ []) (hkey : key.all Xml.isNameChar = true)
    (h : Meets key tag a) (close : Xml.Close) (after : Text) :
    attr (tag.text close ++ after) key = some a.raw := by
  obtain ⟨hfind, hwritten⟩ := h
  obtain ⟨-, pre, post, hattrs, hpre⟩ := List.find?_eq_some_iff_append.mp hfind
  have hattrsText : ∀ (pre : List Xml.Attribute) (seg more : Text),
      (∀ b ∈ pre, ¬ key ++ ['=', '"'] <:+: b.text) → ¬ key ++ ['=', '"'] <:+: seg →
      attr (seg ++ (pre.flatMap Xml.Attribute.text ++ (a.text ++ more))) key = some a.raw := by
    intro pre
    induction pre with
    | nil => exact fun seg more _ hseg => attr_writtenAs hne hkey hwritten hseg more
    | cons b pre ih =>
      intro seg more hpre hseg
      rw [List.forall_mem_cons] at hpre
      obtain ⟨w, tail, htext, hw⟩ := text_eq_cons b
      rw [List.flatMap_cons, htext, List.append_assoc, List.cons_append,
        attr_append_cons (space_notMem hkey hw) hseg]
      refine ih tail more hpre.2 fun htail => hpre.1 ?_
      rw [htext]
      exact List.infix_cons htail
  have hname : '"' ∉ '<' :: tag.name.text := by
    rw [List.mem_cons, not_or]
    exact ⟨by decide, tag.name.notMem (by decide)⟩
  have htext : tag.text close ++ after = '<' :: tag.name.text ++
      (pre.flatMap Xml.Attribute.text ++ (a.text ++
        (post.flatMap Xml.Attribute.text ++ (tag.trail.text ++ close.text) ++ after))) := by
    simp [Xml.Tag.text, Xml.Tag.rest, hattrs]
  rw [htext]
  refine hattrsText pre _ _ (fun b hb => ?_) (quote_notMem hname)
  rw [← contains_eq_false_iff]
  simpa using hpre b hb

end Meets

/-- A value without references and white space is reported as it is written. -/
theorem value_eq_raw {a : Xml.Attribute}
    (h : ∀ c ∈ a.raw, c ≠ '&' ∧ Xml.isSpace c = false) : a.value = a.raw := by
  rw [Xml.Attribute.value, Xml.Attribute.raw]
  refine List.flatMap_congr fun piece hpiece => ?_
  have hmem : ∀ c ∈ piece.text, c ∈ a.raw := fun c hc =>
    List.mem_flatMap.mpr ⟨piece, hpiece, hc⟩
  cases piece with
  | char c =>
    have hspace := (h c (hmem c List.mem_cons_self)).2
    rw [Xml.Piece.value, Xml.Piece.text, hspace]
    rfl
  | ref r =>
    refine absurd rfl (h '&' (hmem '&' ?_)).1
    cases r <;> exact List.mem_cons_self

/-! ## 3. What the floor leaves -/

open Xml (Token)

theorem text_infix_of_mem {t : Token} {ts : List Token} (h : t ∈ ts) :
    t.text <:+: ts.flatMap Token.text := by
  obtain ⟨l, r, rfl⟩ := List.append_of_mem h
  refine ⟨l.flatMap Token.text, r.flatMap Token.text, ?_⟩
  rw [List.flatMap_append, List.flatMap_cons, List.append_assoc]

/-- Without `<!` and `<?` there are only tags and text between tags. -/
theorem plain_of_no_markup {ts : List Token} (hbang : ¬ "<!".toList <:+: ts.flatMap Token.text)
    (hquestion : ¬ "<?".toList <:+: ts.flatMap Token.text) : ∀ t ∈ ts, t.Plain := by
  intro t ht
  have hpart := text_infix_of_mem ht
  cases t with
  | bang body => exact hbang (List.IsInfix.trans ⟨[], body, rfl⟩ hpart)
  | question body =>
    exact hquestion (List.IsInfix.trans ⟨[], body ++ ['?', '>'], rfl⟩ hpart)
  | _ => exact trivial

/-- The one declaration that is let through, without its ends. -/
def declBody : Text := "xml version=\"1.0\" encoding=\"UTF-8\"".toList

theorem xmlDecl_eq : xmlDecl = '<' :: '?' :: (declBody ++ ['?', '>']) := by decide +kernel

/-- Stripping the declaration strips whole tokens, none of which is a tag. -/
theorem strip_tokens {ts : List Token} {rest : Text} (hts : ∀ t ∈ ts, t.Shaped)
    (h : ts.flatMap Token.text = xmlDecl ++ rest) :
    ∃ front tail, ts = front ++ tail ∧ tail.flatMap Token.text = rest ∧
      front.filterMap Token.element? = [] := by
  induction ts with
  | nil =>
    rw [xmlDecl_eq] at h
    cases h
  | cons t ts ih =>
    rw [List.forall_mem_cons] at hts
    rw [List.flatMap_cons, xmlDecl_eq] at h
    cases t with
    | data text =>
      cases text with
      | nil =>
        rw [← xmlDecl_eq] at h
        obtain ⟨front, tail, rfl, htail, hfront⟩ := ih hts.2 h
        exact ⟨.data [] :: front, tail, rfl, htail, hfront⟩
      | cons c text =>
        have hc := (List.cons.inj h).1
        exact absurd (hc ▸ List.mem_cons_self) hts.1
    | reference r => cases r <;> exact absurd (List.cons.inj h).1 (by decide)
    | question body =>
      -- both end at the first `?>`
      have hbody : body ++ '?' :: '>' :: ts.flatMap Token.text =
          declBody ++ '?' :: '>' :: rest := by
        simpa [Token.text] using h
      have hdecl : ¬ ['?', '>'] <:+: declBody := by decide +kernel
      obtain ⟨-, hrest⟩ := append_pair_inj (by decide) hts.1 hdecl hbody
      exact ⟨[.question body], ts, rfl, hrest, rfl⟩
    | bang body => exact absurd (List.cons.inj (List.cons.inj h).2).1 (by decide)
    | openTag tag close =>
      obtain ⟨c, name, hname, hc⟩ := tag.name.eq_cons
      simp only [Token.text, Xml.Tag.text, hname] at h
      rw [(List.cons.inj (List.cons.inj h).2).1] at hc
      exact absurd hc (by decide)
    | closeTag name space => exact absurd (List.cons.inj (List.cons.inj h).2).1 (by decide)

/-- **Past the floor, a document is tags and text between tags**, after the one declaration.  The
elements are not touched by this. -/
theorem exists_plain {ts : List Token} (hts : ∀ t ∈ ts, t.Shaped)
    (h : WirePolicy.prohibitedMarkup (ts.flatMap Token.text) = none) :
    ∃ (front : Text) (tail : List Token),
      ts.flatMap Token.text = front ++ tail.flatMap Token.text ∧
      (front = [] ∨ front = xmlDecl) ∧ (∀ t ∈ tail, t.Shaped ∧ t.Plain) ∧
      tail.filterMap Token.element? = ts.filterMap Token.element? := by
  unfold WirePolicy.prohibitedMarkup at h
  split at h
  · cases h
  split at h
  · cases h
  rename_i hbang hquestion
  rw [Bool.not_eq_true, contains_eq_false_iff] at hbang hquestion
  cases hstrip : stripPrefix xmlDecl (ts.flatMap Token.text) with
  | none =>
    rw [hstrip] at hquestion
    exact ⟨[], ts, rfl, Or.inl rfl,
      fun t ht => ⟨hts t ht, plain_of_no_markup hbang hquestion t ht⟩, rfl⟩
  | some rest =>
    rw [hstrip] at hquestion
    have htext := stripPrefix_eq_some hstrip
    obtain ⟨front, tail, rfl, rfl, hfront⟩ := strip_tokens hts htext
    have hbang' : ¬ "<!".toList <:+: tail.flatMap Token.text := fun hi =>
      hbang (hi.trans (htext ▸ (List.suffix_append _ _).isInfix))
    refine ⟨xmlDecl, tail, htext, Or.inr rfl, fun t ht =>
      ⟨hts t (List.mem_append_right _ ht), plain_of_no_markup hbang' hquestion t ht⟩, ?_⟩
    rw [List.filterMap_append, hfront, List.nil_append]

/-- The declaration holds no tag of an element. -/
theorem find_front {front needle s : Text} (hfront : front = [] ∨ front = xmlDecl)
    (hne : needle ≠ []) (hneedle : needle.all Xml.isNameChar = true) :
    find ('<' :: needle) (front ++ s) = (find ('<' :: needle) s).map (front.length + ·) := by
  rcases hfront with rfl | rfl
  · simp
  · have hpre : ¬ '<' :: needle <+: '<' :: ('?' :: (declBody ++ ['?', '>']) ++ s) := by
      obtain ⟨c, needle, rfl⟩ := List.exists_cons_of_ne_nil hne
      intro h
      rw [List.cons_prefix_cons, List.cons_append, List.cons_prefix_cons] at h
      rw [h.2.1, List.all_cons, Bool.and_eq_true] at hneedle
      exact absurd hneedle.1 (by decide)
    have hrest : '<' ∉ '?' :: (declBody ++ ['?', '>']) := by decide +kernel
    rw [xmlDecl_eq, List.cons_append, find_cons hpre, find_append_of_notMem hrest,
      map_add_map_succ]
    rfl

/-! ## 4. Accepted events -/

theorem okOr_eq_ok {α : Type} {o : Option α} {e : CotPolicyViolation} {a : α}
    (h : okOr o e = .ok a) : o = some a := by
  cases o with
  | none => cases h
  | some a' =>
    cases h
    rfl

/-- **What acceptance says about the type**: past the floor, the first tag has a type that the
scan reads, and it is a declared one.  Of later tags it says nothing. -/
theorem type_of_accepted {xml : Text} (h : checkCotEvent xml = .ok ()) :
    WirePolicy.prohibitedMarkup xml = none ∧
      ∃ event cotType, openTag xml "event".toList = some event ∧
        attr event "type".toList = some cotType ∧ cotType ∈ declaredCotTypes := by
  obtain ⟨_, hfloor, h⟩ := bind_eq_ok.mp h
  obtain ⟨event, hevent, h⟩ := bind_eq_ok.mp h
  obtain ⟨_, htype, -⟩ := bind_eq_ok.mp h
  obtain ⟨cotType, hcotType, hdeclared⟩ := bind_eq_ok.mp htype
  refine ⟨?_, event, cotType, okOr_eq_ok hevent, okOr_eq_ok hcotType, ?_⟩
  · unfold checkMarkupFloor at hfloor
    split at hfloor
    · cases hfloor
    · cases hfloor
    · assumption
  · by_contra hnot
    rw [if_pos hnot] at hdeclared
    cases hdeclared

/-- The check on the bytes of a text that is not too large is the check on the text. -/
theorem checkCotEventBytes_toUTF8 {s : Text}
    (h : (String.ofList s).toUTF8.size ≤ maxEventBytes) :
    checkCotEventBytes (String.ofList s).toUTF8 = checkCotEvent s := by
  rw [checkCotEventBytes, if_neg (Nat.not_lt.mpr h)]
  simp only [fromUTF8?_toUTF8, String.toList_ofList]

theorem checkCotEvent_of_bytes {s : Text}
    (h : checkCotEventBytes (String.ofList s).toUTF8 = .ok ()) : checkCotEvent s = .ok () := by
  by_cases hsize : (String.ofList s).toUTF8.size ≤ maxEventBytes
  · rwa [checkCotEventBytes_toUTF8 hsize] at h
  · rw [checkCotEventBytes, if_pos (Nat.not_le.mp hsize)] at h
    cases h

/-! ## 5. The types of the elements -/

/-- The element has an attribute `type` with a declared type.  The value is the one that a reader
of XML finds, references resolved. -/
def DeclaresType (e : Xml.Tag) : Prop :=
  ∃ a ∈ e.attrs, a.name.text = "type".toList ∧ a.value ∈ declaredCotTypes

instance (e : Xml.Tag) : Decidable (DeclaresType e) :=
  inferInstanceAs (Decidable (∃ a ∈ e.attrs, _))

/-- The scan does not read the type of this element: it is not the first element whose name
starts with `event`, or the first `type="` in it is not its type. -/
def EscapesScan (d : Xml.Document) (e : Xml.Tag) : Prop :=
  ¬ (d.elements.find? (fun t => "event".toList.isPrefixOf t.name.text) = some e ∧
    ∃ a, Meets "type".toList e a)

theorem declaredCotTypes_plain :
    ∀ t ∈ declaredCotTypes, ∀ c ∈ t, c ≠ '&' ∧ Xml.isSpace c = false := by
  have hall : declaredCotTypes.all (fun t => t.all fun c => c ≠ '&' && !Xml.isSpace c) = true := by
    decide +kernel
  intro t ht c hc
  have hplain := List.all_eq_true.mp (List.all_eq_true.mp hall t ht) c hc
  simpa using hplain

/-- **An element that the scan reads has a declared type.** -/
theorem declaresType_of_scanned {d : Xml.Document} (h : checkCotEventBytes d.bytes = .ok ())
    {e : Xml.Tag} (he : ¬ EscapesScan d e) : DeclaresType e := by
  rw [EscapesScan, not_not] at he
  obtain ⟨hfirst, a, hmeets⟩ := he
  obtain ⟨hfloor, event, cotType, hevent, hcotType, hdeclared⟩ :=
    type_of_accepted (checkCotEvent_of_bytes h)
  obtain ⟨front, tail, htext, hfront, htail, helements⟩ := exists_plain d.shaped hfloor
  have hname : "event".toList.all Xml.isNameChar = true := by decide +kernel
  have hkey : "type".toList.all Xml.isNameChar = true := by decide +kernel
  rw [Xml.Document.elements, ← helements] at hfirst
  obtain ⟨before, close, after, hsplit, hfind⟩ :=
    Xml.find_openTag hname (by decide +kernel) htail hfirst
  have hskip := openTag_append (find_front (s := tail.flatMap Token.text) hfront
    (by decide +kernel) hname)
  rw [Xml.Document.text, htext, hskip, hsplit] at hevent
  rw [hsplit] at hfind
  have hread := attr_of_scope (openTag_isPrefix hfind hevent) hcotType
  rw [attr_tag (by decide +kernel) hkey hmeets close after, Option.some_inj] at hread
  have hattr := List.mem_of_find?_eq_some hmeets.1
  refine ⟨a, hattr, hmeets.2.1, ?_⟩
  rw [value_eq_raw (hread ▸ declaredCotTypes_plain cotType hdeclared), hread]
  exact hdeclared

/-- **Exactly when all types are declared.** Of an accepted document, every element `event` has a
declared type if and only if those that escape the scan have one.  The condition asks something of
an element only where the scan does not read its type: another element comes first, or another
place in the tag is met first.  Of the documents that the serializer of this repository prints no
element escapes; three documents that the policy accepts, each with an event of an undeclared
type, follow below. -/
theorem eventTypes_declared_iff {d : Xml.Document} (h : checkCotEventBytes d.bytes = .ok ()) :
    (∀ e ∈ d.elements, e.name.text = "event".toList → DeclaresType e) ↔
      ∀ e ∈ d.elements, e.name.text = "event".toList → EscapesScan d e → DeclaresType e := by
  constructor
  · exact fun hall e he hevent _ => hall e he hevent
  · intro hescape e he hevent
    by_cases hscan : EscapesScan d e
    · exact hescape e he hevent hscan
    · exact declaresType_of_scanned h hscan

/-! ## 6. Documents -/

namespace Example

/-- The attribute `name="value"`. -/
def plainAttr (name : Xml.Name) (value : String)
    (valid : (value.toList.map Xml.Piece.char).all (Xml.Piece.valid .double) = true) :
    Xml.Attribute where
  lead := ⟨[' '], rfl⟩
  lead_ne := List.cons_ne_nil _ _
  name := name
  beforeEq := Xml.noSpace
  afterEq := Xml.noSpace
  quote := .double
  pieces := value.toList.map Xml.Piece.char
  valid := valid

def typeName : Xml.Name := ⟨"type".toList, by decide +kernel, by decide +kernel⟩

def xtypeName : Xml.Name := ⟨"xtype".toList, by decide +kernel, by decide +kernel⟩

def eventName : Xml.Name := ⟨"event".toList, by decide +kernel, by decide +kernel⟩

def eventsName : Xml.Name := ⟨"events".toList, by decide +kernel, by decide +kernel⟩

def uid : Xml.Attribute :=
  plainAttr ⟨"uid".toList, by decide +kernel, by decide +kernel⟩ "u" (by decide +kernel)

def noData : Xml.CharData := ⟨[], rfl, by decide⟩

/-- A detail that the policy lets through. -/
def detail : Xml.Content :=
  .element noData ⟨⟨"detail".toList, by decide +kernel, by decide +kernel⟩, [], by decide,
      Xml.noSpace⟩
    (.element noData ⟨⟨"remarks".toList, by decide +kernel, by decide +kernel⟩, [], by decide,
        Xml.noSpace⟩
      (.data ⟨"MARK:OK;CONF:0.60;PROV:x;BASIS:measured".toList, by decide +kernel,
        by decide +kernel⟩) Xml.noSpace (.data noData)) Xml.noSpace (.data noData)

/-- The document of a root element alone. -/
def ofRoot (root : Xml.Root) (h : ∀ t ∈ Xml.documentTokens ⟨false, none, [], none⟩ root [],
    ∀ r ∈ t.references, r.predefined = true) : Xml.Document where
  prolog := ⟨false, none, [], none⟩
  root := root
  tail := []
  declared := fun _ => h

def undeclared : Xml.Attribute := plainAttr typeName "t-x-c-c" (by decide +kernel)

def declared : Xml.Attribute := plainAttr typeName "a-u" (by decide +kernel)

/-- The event `type="a-u" uid="u"`. -/
def declaredTag : Xml.Tag := ⟨eventName, [declared, uid], by decide +kernel, Xml.noSpace⟩

def declaredEvent : Xml.Document :=
  ofRoot (.element declaredTag detail Xml.noSpace) (by decide +kernel)

end Example

open Example

theorem declaredEvent_type : checkCotEventBytes declaredEvent.bytes = .ok () ∧
    ∀ e ∈ declaredEvent.elements, e.name.text = "event".toList → DeclaresType e := by
  have haccepted : checkCotEventBytes declaredEvent.bytes = .ok () :=
    (checkCotEventBytes_toUTF8 (by decide +kernel)).trans (by decide +kernel)
  refine ⟨haccepted, (eventTypes_declared_iff haccepted).mpr fun e he hevent hescapes => ?_⟩
  have honly : ∀ e ∈ declaredEvent.elements, e.name.text = "event".toList → e = declaredTag := by
    decide +kernel
  rw [honly e he hevent] at hescapes
  exact absurd ⟨by decide +kernel, declared, by decide +kernel, rfl, rfl, rfl, rfl⟩ hescapes

/-- The document is accepted although one of its events has no declared type: it has no type at
all, or one that is not on the list. -/
def Smuggles (d : Xml.Document) : Prop :=
  checkCotEventBytes d.bytes = .ok () ∧
    ∃ e ∈ d.elements, e.name.text = "event".toList ∧ ¬ DeclaresType e

namespace Example

/-- `<event xtype="a-u" type="t-x-c-c" uid="u">...</event>` -/
def longerAttributeName : Xml.Document :=
  ofRoot (.element ⟨eventName, [plainAttr xtypeName "a-u" (by decide +kernel), undeclared, uid],
    by decide +kernel, Xml.noSpace⟩ detail Xml.noSpace) (by decide +kernel)

/-- `<events type="a-u" uid="u"><event type="t-x-c-c"/>...</events>` -/
def longerElementName : Xml.Document :=
  ofRoot (.element ⟨eventsName, [declared, uid], by decide +kernel, Xml.noSpace⟩
    (.empty noData ⟨eventName, [undeclared], by decide +kernel, Xml.noSpace⟩ detail)
    Xml.noSpace) (by decide +kernel)

/-- `<event type="a-u" uid="u"><event type="t-x-c-c"/>...</event>` -/
def secondEvent : Xml.Document :=
  ofRoot (.element declaredTag
    (.empty noData ⟨eventName, [undeclared], by decide +kernel, Xml.noSpace⟩ detail)
    Xml.noSpace) (by decide +kernel)

end Example

theorem smuggled_types :
    Smuggles longerAttributeName ∧ Smuggles longerElementName ∧ Smuggles secondEvent := by
  refine ⟨⟨?_, by decide +kernel⟩, ⟨?_, by decide +kernel⟩, ⟨?_, by decide +kernel⟩⟩
  all_goals exact (checkCotEventBytes_toUTF8 (by decide +kernel)).trans (by decide +kernel)

end Musubi.Northbound.CotPolicy
