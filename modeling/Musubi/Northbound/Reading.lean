/-
# Reading what is published

What the fidelity of both dialects rests on: the bytes of a document are read as its text, the
values that the serializers print may stand between quotes, a summary of a mark reads back, and
what the shared grammar of fields says about the text it has passed.

The scan for an attribute is the least obvious of these.  It looks for a blank-free key, an equals
sign and a quote anywhere in the tag, so in a tag that was printed it may stop at an attribute
whose name ENDS with the key, or at a value that ends with the key and an equals sign.  Section 5
shows that nothing else can happen, and that in the second case what is read begins with a blank,
which no check of any attribute lets pass.
-/
import Musubi.Northbound.CotPublisher
import Musubi.Northbound.CotTypeScan

namespace Musubi.Northbound

open Lib Xml WirePolicy

/-! ## 1. Documents -/

/-- Bytes read as XML in UTF-8. -/
def readXml (bytes : List UInt8) : Option (List Item) :=
  (String.fromUTF8? ⟨bytes.toArray⟩).bind fun s => Xml.read s.toList

theorem readXml_textBytes (s : Text) : readXml (textBytes s) = Xml.read s := by
  have hbytes : (⟨(textBytes s).toArray⟩ : ByteArray) = (String.ofList s).toUTF8 := rfl
  unfold readXml
  rw [hbytes, fromUTF8?_toUTF8, Option.bind_some, String.toList_ofList]

/-- The names and values of attributes as they are read. -/
def readAttrs (attrs : List (String × Text)) : List (Text × Text) :=
  attrs.map fun attr => (attr.1.toList, attr.2)

theorem run_xmlDecl : Reader.run ⟨[], .content []⟩ xmlDecl =
    ⟨[.text [], .instruction CotPolicy.declBody], .content []⟩ := by decide +kernel

/-! ## 2. Values -/

theorem isValue_of_isPlain {s : Text} (h : s.all isPlain = true) : IsValue s :=
  ⟨notMem_of_all h (by decide), notMem_of_all h (by decide), notMem_of_all h (by decide)⟩

theorem isValue_xmlEscapeAttr (s : Text) : IsValue (xmlEscapeAttr s) :=
  ⟨notMem_xmlEscapeAttr (by decide) s, notMem_xmlEscapeAttr (by decide) s,
    notMem_xmlEscapeAttr (by decide) s⟩

/-! ## 3. Summaries -/

/-- The status and the reason that a summary reads as: what stands before the first `:`, and
after it. -/
def readSummary (s : Text) : Text × Text :=
  match find [':'] s with
  | none => (s, [])
  | some i => (s.take i, s.drop (i + 1))

theorem colon_notMem_label (status : MarkStatus) : ':' ∉ (markStatusLabel status).toList := by
  cases status
  all_goals decide +kernel

/-- **A summary reads back** as a status and a reason code, which is empty when the summary is the
status alone. -/
theorem readSummary_markSummary (mark : Mark) : readSummary (markSummary mark).toList =
    ((markStatusLabel mark.status).toList, mark.reasonCode.toList) := by
  have hlabel := colon_notMem_label mark.status
  unfold markSummary
  split
  · rename_i hempty
    have hreason : mark.reasonCode.toList = [] :=
      String.toList_eq_nil_iff.mpr (String.isEmpty_iff.mp hempty)
    unfold readSummary
    rw [find_singleton_eq_none.mpr hlabel, hreason]
  · have hfound : FoundAfter [':'] ((markStatusLabel mark.status).toList ++
        ':' :: mark.reasonCode.toList) _ _ := FoundAfter.skip (.here ⟨_, rfl⟩) hlabel
    have htext : (markStatusLabel mark.status ++ ":" ++ mark.reasonCode).toList =
        (markStatusLabel mark.status).toList ++ ':' :: mark.reasonCode.toList := by
      rw [String.toList_append, String.toList_append, List.append_assoc]
      rfl
    rw [List.append_nil] at hfound
    unfold readSummary
    rw [htext, hfound.found]
    simp only [hfound.take, ← List.drop_drop, hfound.drop, List.drop_one, List.tail_cons]

/-! ## 4. Fields that pass -/

/-- Fields that pass are what stands between `;`, without references, one for each prefix and
starting with it. -/
theorem inspectSemicolonFields_eq_ok {text : Text} {prefixes fields : List Text}
    (h : inspectSemicolonFields text prefixes = .ok fields) :
    '&' ∉ text ∧ (text.splitOn ';').length = prefixes.length ∧
      ∀ x ∈ (text.splitOn ';').zip prefixes, x.2 <+: x.1 := by
  unfold inspectSemicolonFields at h
  split at h
  · cases h
  · rename_i hentity
    have hfind : find ['&'] text = none := by
      unfold firstEntityReference at hentity
      exact Option.map_eq_none_iff.mp hentity
    simp only at h
    split at h
    · cases h
    · rename_i hcount
      refine ⟨find_singleton_eq_none.mp hfind, not_not.mp hcount, ?_⟩
      split at h
      · cases h
      · rename_i hstart
        intro x hx
        obtain ⟨i, hi, hget⟩ := List.mem_iff_getElem.mp hx
        have hmem : (x, i) ∈ ((text.splitOn ';').zip prefixes).zipIdx :=
          List.mem_zipIdx_iff_getElem?.mpr (List.getElem?_eq_some_iff.mpr ⟨hi, hget⟩)
        have hpass := List.find?_eq_none.mp hstart (x, i) hmem
        rw [Bool.not_eq_true, Bool.not_eq_false'] at hpass
        exact List.isPrefixOf_iff_prefix.mp hpass

/-! ## 5. Scanning a start tag -/

/-- A start tag ends at its first `>`. -/
theorem found_tagEnd {name : String} {attrs : List (String × Text)} (hname : isName name = true)
    (hattrs : ValidAttrs attrs) (rest : Text) :
    FoundAfter ['>'] (startTagText name attrs .open_ ++ rest)
      ('<' :: (name.toList ++ attrs.flatMap attrText)) ('>' :: rest) := by
  have hgtName {s : String} (h : isName s = true) : '>' ∉ s.toList :=
    notMem_of_isName h (by decide)
  have hgt : '>' ∉ '<' :: (name.toList ++ attrs.flatMap attrText) := by
    rw [List.mem_cons, List.mem_append, List.mem_flatMap]
    rintro (h | h | ⟨attr, hattr, h⟩)
    · exact absurd h (by decide)
    · exact hgtName hname h
    · obtain ⟨hkey, hvalue⟩ := hattrs attr hattr
      simp only [attrText, List.mem_cons, List.mem_append, List.not_mem_nil, or_false] at h
      rcases h with h | h | h | h | h | h
      · exact absurd h (by decide)
      · exact hgtName hkey h
      · exact absurd h (by decide)
      · exact absurd h (by decide)
      · exact hvalue.2.2 h
      · exact absurd h (by decide)
  have htag : startTagText name attrs .open_ =
      '<' :: (name.toList ++ attrs.flatMap attrText) ++ ['>'] := by
    simp only [startTagText, Close.text, List.cons_append, List.append_assoc]
  have hend : FoundAfter ['>'] (startTagText name attrs .open_ ++ rest)
      ('<' :: (name.toList ++ attrs.flatMap attrText) ++ []) ('>' :: rest) := by
    rw [htag, List.append_assoc]
    exact FoundAfter.skip (.here ⟨rest, rfl⟩) hgt
  rw [List.append_nil] at hend
  exact hend

/-- The tag that the policy cuts out is the whole tag. -/
theorem openTag_of_found {xml before rest : Text} {name : String} {attrs : List (String × Text)}
    (hfound : FoundAfter ('<' :: name.toList) xml before (startTagText name attrs .open_ ++ rest))
    (hname : isName name = true) (hattrs : ValidAttrs attrs) :
    openTag xml name.toList = some (startTagText name attrs .open_) := by
  have hend := found_tagEnd hname hattrs rest
  have htag : startTagText name attrs .open_ =
      '<' :: (name.toList ++ attrs.flatMap attrText) ++ ['>'] := by
    simp only [startTagText, Close.text, List.cons_append, List.append_assoc]
  unfold openTag
  simp only [hfound.found, hfound.drop, hend.found, bind, Option.bind, pure]
  rw [htag, List.append_assoc, List.take_length_add_append]
  rfl

/-- The scan passes over text without the first character of the key. -/
theorem attr_append_of_notMem {c : Char} {key a s : Text} (hc : c ∉ a) :
    attr (a ++ s) (c :: key) = attr s (c :: key) :=
  CotPolicy.attr_append (find_append_of_notMem hc) rfl

/-- The scan for an attribute goes from quote to quote. -/
theorem attr_delim {key a rest : Text} (hkey : '"' ∉ key) (ha : '"' ∉ a) :
    attr (a ++ '"' :: rest) key =
      if key ++ ['='] <:+ a then (find ['"'] rest).map rest.take else attr rest key := by
  have hne : key ++ ['='] ≠ [] := List.append_ne_nil_of_right_ne_nil _ (List.cons_ne_nil _ _)
  have hquote : '"' ∉ key ++ ['='] := by
    rw [List.mem_append, not_or]
    exact ⟨hkey, by decide⟩
  have hneedle : key ++ ['=', '"'] = (key ++ ['=']) ++ ['"'] := by
    rw [List.append_assoc]
    rfl
  have hfind := find_append_delim (s := rest) hne hquote ha
  rw [← hneedle] at hfind
  split
  · rename_i hsuffix
    rw [if_pos hsuffix] at hfind
    have hlen := hsuffix.length_le
    have hdrop : (a ++ '"' :: rest).drop (a.length - (key ++ ['=']).length +
        (key ++ ['=', '"']).length) = rest := by
      have hcount : a.length - (key ++ ['=']).length + (key ++ ['=', '"']).length =
          a.length + 1 := by
        simp only [List.length_append, List.length_cons, List.length_nil] at hlen ⊢
        omega
      rw [hcount, ← List.drop_drop, List.drop_left]
      rfl
    unfold attr
    simp only [hfind, hdrop, bind, Option.bind, pure]
    cases find ['"'] rest with
    | none => rfl
    | some stop => rfl
  · rename_i hsuffix
    rw [if_neg hsuffix] at hfind
    have hsplit : a ++ '"' :: rest = (a ++ ['"']) ++ rest := by
      rw [List.append_assoc]
      rfl
    rw [hsplit] at hfind ⊢
    exact CotPolicy.attr_append hfind (by rw [List.length_append, List.length_singleton])

/-- A key without spaces that ends the text of an attribute's name ends the name. -/
theorem suffix_name_of_suffix {key pre name : Text} (hspace : ' ' ∉ key)
    (h : key ++ ['='] <:+ pre ++ ' ' :: (name ++ ['='])) : key <:+ name := by
  have hsuffix : key <:+ pre ++ ' ' :: name := by
    obtain ⟨t, ht⟩ := h
    refine ⟨t, ?_⟩
    have hsplit : pre ++ ' ' :: (name ++ ['=']) = (pre ++ ' ' :: name) ++ ['='] := by
      rw [List.append_assoc, List.cons_append]
    rw [hsplit, ← List.append_assoc] at ht
    exact List.append_cancel_right ht
  have hname : name <:+ pre ++ ' ' :: name := ⟨pre ++ [' '], by rw [List.append_assoc]; rfl⟩
  rcases List.suffix_or_suffix_of_suffix hsuffix hname with h' | ⟨t, rfl⟩
  · exact h'
  · -- the key would go beyond the space before the name
    obtain ⟨u, hu⟩ := hsuffix
    rw [← List.append_assoc, ← List.singleton_append, ← List.append_assoc] at hu
    have hlast := List.append_cancel_right hu
    rcases List.eq_nil_or_concat t with rfl | ⟨t, c, rfl⟩
    · exact List.suffix_refl _
    · rw [List.concat_eq_append, ← List.append_assoc] at hlast
      have hc := (List.append_inj' hlast rfl).2
      rw [List.cons.injEq] at hc
      refine absurd ?_ hspace
      rw [← hc.1]
      simp

/-- **What the scan of a start tag reads**: the value of an attribute whose name ends with the
key, or what stands between two attributes.  `ValidAttrs` says that names are names and that no
value holds a quote. -/
theorem attr_attrs {key : String} {close : Close} (hkey : isName key = true) {r : Text}
    {attrs : List (String × Text)} (hattrs : ValidAttrs attrs) :
    ∀ pre : Text, '"' ∉ pre →
      attr (pre ++ (attrs.flatMap attrText ++ close.text)) key.toList = some r →
      (∃ a ∈ attrs, key.toList <:+ a.1.toList ∧ r = a.2) ∨ r.head? = some ' ' := by
  have hquote : '"' ∉ key.toList := notMem_of_isName hkey (by decide)
  induction attrs with
  | nil =>
    intro pre hpre h
    have hnone : find (key.toList ++ ['=', '"']) (pre ++ close.text) = none := by
      by_contra hsome
      obtain ⟨i, hi⟩ := Option.ne_none_iff_exists'.mp hsome
      have hmem : '"' ∈ pre ++ close.text :=
        (infix_of_find_eq_some hi).subset (by simp)
      rcases List.mem_append.mp hmem with hmem | hmem
      · exact hpre hmem
      · cases close with
        | open_ => exact absurd hmem (by decide)
        | empty => exact absurd hmem (by decide)
    rw [List.flatMap_nil, List.nil_append, attr, hnone] at h
    cases h
  | cons a attrs ih =>
    intro pre hpre h
    obtain ⟨⟨hname, hvalue⟩, hattrs⟩ := List.forall_mem_cons.mp hattrs
    have hseg : '"' ∉ pre ++ ' ' :: (a.1.toList ++ ['=']) := by
      rw [List.mem_append, List.mem_cons, List.mem_append, List.mem_singleton]
      rintro (h | h | h | h)
      · exact hpre h
      · exact absurd h (by decide)
      · exact notMem_of_isName hname (by decide) h
      · exact absurd h (by decide)
    have htext : pre ++ ((a :: attrs).flatMap attrText ++ close.text) =
        (pre ++ ' ' :: (a.1.toList ++ ['='])) ++ '"' :: (a.2 ++ '"' ::
          (attrs.flatMap attrText ++ close.text)) := by
      simp only [List.flatMap_cons, attrText, List.append_assoc, List.cons_append, List.nil_append]
    rw [htext, attr_delim hquote hseg] at h
    split at h
    · rename_i hsuffix
      have hstop : FoundAfter ['"'] (a.2 ++ '"' :: (attrs.flatMap attrText ++ close.text))
          (a.2 ++ []) _ := FoundAfter.skip (.here ⟨_, rfl⟩) hvalue.1
      rw [List.append_nil] at hstop
      rw [hstop.found, Option.map_some, hstop.take, Option.some_inj] at h
      refine Or.inl ⟨a, List.mem_cons_self, ?_, h.symm⟩
      exact suffix_name_of_suffix (notMem_of_isName hkey (by decide)) hsuffix
    · rw [attr_delim hquote hvalue.1] at h
      split at h
      · -- the value ends with the key: what follows up to the next quote is read
        right
        cases attrs with
        | nil =>
          have hnone : find ['"'] close.text = none := by
            cases close with
            | open_ => rfl
            | empty => rfl
          rw [List.flatMap_nil, List.nil_append, hnone] at h
          cases h
        | cons b attrs =>
          obtain ⟨stop, hstop, hr⟩ := Option.map_eq_some_iff.mp h
          rw [List.flatMap_cons, attrText, List.cons_append, List.cons_append] at hstop hr
          rw [find_cons (by simp), Option.map_eq_some_iff] at hstop
          obtain ⟨j, -, rfl⟩ := hstop
          rw [← hr]
          rfl
      · rcases ih hattrs [] List.not_mem_nil h with ⟨b, hb, hr⟩ | hr
        · exact Or.inl ⟨b, List.mem_cons_of_mem _ hb, hr⟩
        · exact Or.inr hr

end Musubi.Northbound
