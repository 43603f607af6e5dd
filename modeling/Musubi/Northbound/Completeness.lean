/-
# What the policies let through

Which legitimate observations are published.  The document of an envelope is one that the policy
knows how to read, but it reads by substrings: an attribute is looked for by its name, an equals
sign and a quote, and these also stand where a platform whose name ends with the name of an
attribute and an equals sign meets the quote that closes it.  Such a platform is refused, and so
is a confidence of minus zero, which is written with its sign; every other legitimate observation
is published.

Completeness of a check means going through ALL of its parts, and each has its section: the two
decimals of a confidence, the texts and their lengths, the attributes of the tags, the floor of
markup.  A legitimate observation (`Legitimate`) is one that the publishers are there for: the
state of a platform that has a position and is not below the surface, a confidence from zero to
one, a platform with a name, and texts in which no check of the wire finds a character that it
objects to; the lengths come separately (`FitsCot`), since the limits differ.

The scan for an attribute is the part with an exception.  Before an attribute of a printed tag
stand other attributes, whose names are fixed and whose values are escaped, so a quote inside them
is the quote that closes a value.  What precedes that quote is the END of the value, and only the
platform's name is free enough to end with a name and an equals sign (`attr_of_mistaken`).
-/
import Mathlib.Data.Bool.AllAny
import Musubi.Northbound.NvgLabel
import Musubi.Northbound.WellFormed

namespace Musubi.Northbound

open Lib Xml WirePolicy

/-! ## 1. Confidences -/

theorem isAsciiDigit_of_mem_repr {n : ℕ} {c : Char} (h : c ∈ n.repr.toList) :
    isAsciiDigit c = true := by
  have hdigit := isDigit_of_mem_repr h
  simp [Char.isDigit, isAsciiDigit, inRanges, UInt32.le_iff_toNat_le] at hdigit ⊢
  have htoNat : c.val.toNat = c.toNat := rfl
  omega

theorem zeroPad_two : ∀ m < 100,
    (zeroPad 2 m).length = 2 ∧ (zeroPad 2 m).all isAsciiDigit = true := by decide

/-- A number with two decimals is one, unless it has a sign. -/
theorem isTwoDecimal_fixedPoint {word : ℕ} (h : word < binary32.signBit) :
    isTwoDecimal (fixedPoint binary32 2 word) = true := by
  unfold fixedPoint
  rw [if_neg (Nat.not_le.mpr h), List.nil_append]
  generalize roundHalfEven (binary32.value (word % binary32.signBit) * 10 ^ 2) = n
  have hint : ∀ c ∈ (n / 10 ^ 2).repr.toList, isAsciiDigit c = true := fun c hc =>
    isAsciiDigit_of_mem_repr hc
  have hpoint : '.' ∉ (n / 10 ^ 2).repr.toList := fun hmem => absurd (hint '.' hmem) (by decide)
  have hfound : FoundAfter ['.'] ((n / 10 ^ 2).repr.toList ++ '.' :: zeroPad 2 (n % 10 ^ 2))
      ((n / 10 ^ 2).repr.toList ++ []) _ := FoundAfter.skip (.here ⟨_, rfl⟩) hpoint
  rw [List.append_nil] at hfound
  obtain ⟨hlength, hall⟩ := zeroPad_two (n % 10 ^ 2) (Nat.mod_lt _ (by decide))
  have hne : (n / 10 ^ 2).repr.toList.isEmpty = false := by
    rw [List.isEmpty_eq_false_iff, ne_eq, String.toList_eq_nil_iff]
    exact Nat.repr_ne_empty
  unfold isTwoDecimal
  simp only [hfound.found, hfound.take, ← List.drop_drop, hfound.drop, List.drop_one,
    List.tail_cons, hne, hlength, hall, List.all_eq_true.mpr hint]
  rfl

theorem isTwoDecimal_of_sign (s : Text) : isTwoDecimal ('-' :: s) = false := by
  unfold isTwoDecimal
  have hfind : find ['.'] ('-' :: s) = (find ['.'] s).map (· + 1) := find_cons (by simp)
  rw [hfind]
  cases find ['.'] s with
  | none => rfl
  | some i => simp [isAsciiDigit, inRanges]

/-- A confidence between nought and one. -/
theorem confidence_cases {v : F32} (h : F32.within (.ofRat 0) (.ofRat 1) v = true) :
    v.isFinite = true ∧ (v.bits.toNat < binary32.signBit ∨ v = ⟨0x80000000⟩) := by
  have hzero : F32.ofRat 0 = ⟨0⟩ := by decide
  have hone : F32.ofRat 1 = ⟨0x3F800000⟩ := by decide +kernel
  rw [hzero, hone] at h
  simp only [F32.within, F32.le, Bool.and_eq_true, decide_eq_true_iff, BinaryFormat.key] at h
  obtain ⟨⟨-, hlow⟩, -, hhigh⟩ := h
  have hsign : binary32.signBit = 2 ^ 31 := rfl
  have hinf : binary32.infinity = 0x7F800000 := rfl
  have hlt := v.bits.toNat_lt
  have hb0 : (0 : UInt32).toNat = 0 := rfl
  have hb1 : (0x3F800000 : UInt32).toNat = 0x3F800000 := rfl
  rw [F32.isFinite, F32.magnitude, decide_eq_true_iff, hsign, hinf]
  rw [hsign, hb0] at hlow
  rw [hsign, hb1] at hhigh
  by_cases hneg : v.bits.toNat < 2 ^ 31
  · simp only [hneg, if_true, true_or, and_true] at hhigh ⊢
    rw [if_pos (by decide)] at hhigh
    omega
  · simp only [hneg, if_false, false_or] at hlow ⊢
    rw [if_pos (by decide)] at hlow
    have hbits : v.bits.toNat = 2 ^ 31 := by omega
    refine ⟨by omega, ?_⟩
    obtain ⟨bits⟩ := v
    congr 1
    exact UInt32.toNat_inj.mp hbits

/-- **A confidence between nought and one has two decimals, unless it is minus zero.** Minus zero
lies in the range, since it equals zero, and its text starts with a minus. -/
theorem isTwoDecimal_fmtConf_iff {v : F32} (h : F32.within (.ofRat 0) (.ofRat 1) v = true) :
    isTwoDecimal (fmtConf v) = true ↔ v ≠ ⟨0x80000000⟩ := by
  obtain ⟨hfinite, hpos | rfl⟩ := confidence_cases h
  · rw [fmtConf, if_pos hfinite, isTwoDecimal_fixedPoint hpos]
    refine iff_of_true rfl ?_
    rintro rfl
    exact absurd hpos (by decide)
  · have hsign : fmtConf ⟨0x80000000⟩ = '-' :: (fmtConf ⟨0x80000000⟩).tail := by decide +kernel
    rw [hsign, isTwoDecimal_of_sign]
    simp

/-! ## 2. Texts that pass -/

/-- A text that no check of the wire objects to: no character that a document reserves or a field
is separated by, and no code point that the policy refuses. -/
def IsWireText (s : Text) : Prop :=
  ∀ c ∈ s, c ∉ ['&', '<', '>', '"', ';'] ∧ isDisallowedCodepoint c = false

theorem IsWireText.plain {s : Text} (h : IsWireText s) :
    ∀ c ∈ s, c ∉ ['&', '<', '>', '"'] := by
  intro c hc hmem
  refine (h c hc).1 ?_
  simp only [List.mem_cons, List.not_mem_nil, or_false] at hmem ⊢
  tauto

theorem isWireText_append {s t : Text} : IsWireText (s ++ t) ↔ IsWireText s ∧ IsWireText t :=
  List.forall_mem_append

theorem isWireText_of_all {s : Text} (h : s.all (fun c => c ∉ ['&', '<', '>', '"', ';'] ∧
    isDisallowedCodepoint c = false) = true) : IsWireText s := by
  intro c hc
  exact of_decide_eq_true (List.all_eq_true.mp h c hc)

theorem isWireText_of_isPlain {s : Text} (h : s.all isPlain = true) : IsWireText s := by
  intro c hc
  have hplain := List.all_eq_true.mp h c hc
  unfold isPlain at hplain
  rcases Bool.or_eq_true_iff.mp hplain with hdigit | hother
  · simp [Char.isDigit, UInt32.le_iff_toNat_le] at hdigit
    have htoNat : c.val.toNat = c.toNat := rfl
    constructor
    · simp only [List.mem_cons, List.not_mem_nil, or_false]
      rintro (rfl | rfl | rfl | rfl | rfl)
      all_goals simp at hdigit
    · simp [isDisallowedCodepoint, inRanges]
      omega
  · have hall : ∀ c ∈ ['-', '.', ':', 'T', 'Z'], c ∉ ['&', '<', '>', '"', ';'] ∧
        isDisallowedCodepoint c = false := List.all_iff_forall_prop.mp (by decide)
    exact hall c (of_decide_eq_true hother)

/-- A text with something to show passes as a field. -/
theorem inspectWireField_ok {s : Text} {maxChars : ℕ} (hblank : (trim s).isEmpty = false)
    (hlength : s.length ≤ maxChars) (hclean : ∀ c ∈ s, isDisallowedCodepoint c = false) :
    inspectWireField s maxChars = .ok () := by
  have hfind : s.find? isDisallowedCodepoint = none := by
    rw [List.find?_eq_none]
    intro c hc
    rw [hclean c hc]
    exact Bool.false_ne_true
  unfold inspectWireField
  rw [hblank, if_neg Bool.false_ne_true, if_neg (Nat.not_lt.mpr hlength), hfind]

/-- Escaping leaves something to show. -/
theorem trim_xmlEscapeAttr {s : Text} (h : (trim s).isEmpty = false) :
    (trim (xmlEscapeAttr s)).isEmpty = false := by
  rw [Bool.eq_false_iff, ne_eq, trim_isEmpty_iff, List.all_eq_true] at h
  push Not at h
  obtain ⟨c, hc, hspace⟩ := h
  rcases escapeChar_cases c with ⟨heq, -⟩ | ⟨-, hamp, -⟩
  · refine trim_isEmpty_eq_false (List.mem_flatMap.mpr ⟨c, hc, ?_⟩) (by simpa using hspace)
    rw [heq]
    exact List.mem_singleton_self c
  · exact trim_isEmpty_eq_false (List.mem_flatMap.mpr ⟨c, hc, hamp⟩) (by decide)

/-- Fields that are put together pass the grammar. -/
theorem inspectSemicolonFields_ok {parts prefixes : List Text} (hne : parts ≠ [])
    (hlength : parts.length = prefixes.length) (hplain : ∀ s ∈ parts, ';' ∉ s ∧ '&' ∉ s)
    (hstart : ∀ x ∈ parts.zip prefixes, x.2 <+: x.1) :
    inspectSemicolonFields (List.intercalate [';'] parts) prefixes = .ok parts := by
  have hamp : '&' ∉ List.intercalate [';'] parts := by
    intro hmem
    rcases mem_intercalate hmem with hmem | ⟨s, hs, hmem⟩
    · exact absurd hmem (by decide)
    · exact (hplain s hs).2 hmem
  have hsplit : (List.intercalate [';'] parts).splitOn ';' = parts :=
    List.splitOn_intercalate ';' (fun s hs => (hplain s hs).1) hne
  have hfind : ((parts.zip prefixes).zipIdx.find? fun x => !x.1.2.isPrefixOf x.1.1) = none := by
    rw [List.find?_eq_none]
    rintro ⟨x, i⟩ hx
    have hmem := List.fst_mem_of_mem_zipIdx hx
    simpa using List.isPrefixOf_iff_prefix.mpr (hstart x hmem)
  unfold inspectSemicolonFields firstEntityReference
  rw [find_singleton_eq_none.mpr hamp, Option.map_none]
  simp only [hsplit, hlength, ne_eq, not_true_eq_false, if_false, hfind]

/-! ## 3. What the scan of a tag reads -/

theorem concat_suffix_concat {a b : Text} {x y : Char} :
    a ++ [x] <:+ b ++ [y] ↔ x = y ∧ a <:+ b := by
  rw [← List.reverse_prefix, List.reverse_append, List.reverse_append, ← List.reverse_prefix]
  exact List.cons_prefix_cons

/-- A name that ends what was escaped ends what was not. -/
theorem suffix_xmlEscapeAttr {key : Text} : ∀ {s : Text},
    (∀ c ∈ key, c ∉ ['&', '<', '>', '"', ';']) → (key <:+ xmlEscapeAttr s ↔ key <:+ s) := by
  intro s
  induction s using List.reverseRecOn generalizing key with
  | nil => exact fun _ => Iff.rfl
  | append_singleton s c ih =>
    intro hkey
    rcases List.eq_nil_or_concat key with rfl | ⟨init, k, rfl⟩
    · exact iff_of_true (List.nil_suffix) (List.nil_suffix)
    rw [List.concat_eq_append] at hkey ⊢
    rw [List.forall_mem_append, List.forall_mem_singleton] at hkey
    rw [xmlEscapeAttr_append]
    rcases escapeChar_cases c with ⟨heq, -⟩ | ⟨hspecial, -⟩
    · have hone : xmlEscapeAttr [c] = [c] := by rw [xmlEscapeAttr_cons, heq]; rfl
      rw [hone, concat_suffix_concat, concat_suffix_concat, ih hkey.1]
    · -- a reference ends with `;`, and what it stands for is not in the key
      have hend : (xmlEscapeAttr [c]).getLast? = some ';' := by
        simp only [List.mem_cons, List.not_mem_nil, or_false] at hspecial
        rcases hspecial with rfl | rfl | rfl | rfl
        all_goals decide
      refine iff_of_false ?_ ?_
      · rintro ⟨t, ht⟩
        have hlast := congrArg List.getLast? ht
        rw [← List.append_assoc, List.getLast?_concat, List.getLast?_append, hend,
          Option.some_or, Option.some_inj] at hlast
        refine hkey.2 ?_
        rw [hlast]
        decide
      · rw [concat_suffix_concat]
        rintro ⟨rfl, -⟩
        refine hkey.2 ?_
        simp only [List.mem_cons, List.not_mem_nil, or_false] at hspecial ⊢
        tauto

/-- Nothing before an attribute is taken for it: no name ends with the key, and no value with
the key and an equals sign. -/
def NotMistaken (key : String) (attrs : List (String × Text)) : Prop :=
  ∀ a ∈ attrs, ¬ key.toList <:+ a.1.toList ∧ ¬ key.toList ++ ['='] <:+ a.2

theorem notMistaken_nil (key : String) : NotMistaken key [] := List.forall_mem_nil _

theorem notMistaken_cons {key : String} {a : String × Text} {attrs : List (String × Text)} :
    NotMistaken key (a :: attrs) ↔
      (¬ key.toList <:+ a.1.toList ∧ ¬ key.toList ++ ['='] <:+ a.2) ∧ NotMistaken key attrs :=
  List.forall_mem_cons

theorem validAttrs_cons {a : String × Text} {attrs : List (String × Text)} :
    ValidAttrs (a :: attrs) ↔ (isName a.1 = true ∧ IsValue a.2) ∧ ValidAttrs attrs :=
  List.forall_mem_cons

theorem attr_attrText {key name : String} {value rest : Text} (hkey : isName key = true)
    (hname : isName name = true) (hvalue : IsValue value) {pre : Text} (hpre : '"' ∉ pre) :
    attr (pre ++ (attrText (name, value) ++ rest)) key.toList =
      if key.toList ++ ['='] <:+ pre ++ ' ' :: (name.toList ++ ['=']) then some value
      else if key.toList ++ ['='] <:+ value then (find ['"'] rest).map rest.take
      else attr rest key.toList := by
  have hquote : '"' ∉ key.toList := notMem_of_isName hkey (by decide)
  have hseg : '"' ∉ pre ++ ' ' :: (name.toList ++ ['=']) := by
    rw [List.mem_append, List.mem_cons, List.mem_append, List.mem_singleton]
    rintro (h | h | h | h)
    · exact hpre h
    · exact absurd h (by decide)
    · exact notMem_of_isName hname (by decide) h
    · exact absurd h (by decide)
  have htext : pre ++ (attrText (name, value) ++ rest) =
      (pre ++ ' ' :: (name.toList ++ ['='])) ++ '"' :: (value ++ '"' :: rest) := by
    simp only [attrText, List.append_assoc, List.cons_append, List.nil_append]
  have hstop : FoundAfter ['"'] (value ++ '"' :: rest) (value ++ []) _ :=
    FoundAfter.skip (.here ⟨_, rfl⟩) hvalue.1
  rw [List.append_nil] at hstop
  rw [htext, attr_delim hquote hseg, hstop.found, Option.map_some, hstop.take,
    attr_delim hquote hvalue.1]

/-- The scan passes over attributes that are not mistaken for what it looks for. -/
theorem attr_skip {key : String} {attrs : List (String × Text)} {rest : Text}
    (hkey : isName key = true) (hattrs : ValidAttrs attrs) (h : NotMistaken key attrs) :
    ∀ pre : Text, '"' ∉ pre → ∃ pre', '"' ∉ pre' ∧
      attr (pre ++ (attrs.flatMap attrText ++ rest)) key.toList =
        attr (pre' ++ rest) key.toList := by
  induction attrs with
  | nil => exact fun pre hpre => ⟨pre, hpre, rfl⟩
  | cons a attrs ih =>
    intro pre hpre
    obtain ⟨⟨hname, hvalue⟩, hattrs⟩ := List.forall_mem_cons.mp hattrs
    obtain ⟨⟨hends, hvalueEnds⟩, h⟩ := List.forall_mem_cons.mp h
    have hsuffix : ¬ key.toList ++ ['='] <:+ pre ++ ' ' :: (a.1.toList ++ ['=']) := fun hs =>
      hends (suffix_name_of_suffix (notMem_of_isName hkey (by decide)) hs)
    obtain ⟨pre', hpre', hscan⟩ := ih hattrs h [] List.not_mem_nil
    refine ⟨pre', hpre', ?_⟩
    rw [List.flatMap_cons, List.append_assoc, attr_attrText hkey hname hvalue hpre,
      if_neg hsuffix, if_neg hvalueEnds]
    exact hscan

/-- **The attribute is read** when nothing before it is taken for it. -/
theorem attr_of_notMistaken {key : String} {value rest : Text}
    {before : List (String × Text)} (hkey : isName key = true) (hbefore : ValidAttrs before)
    (hvalue : IsValue value) (h : NotMistaken key before) {pre : Text} (hpre : '"' ∉ pre) :
    attr (pre ++ (before.flatMap attrText ++ (attrText (key, value) ++ rest))) key.toList =
      some value := by
  obtain ⟨pre', hpre', hscan⟩ := @attr_skip _ _ (attrText (key, value) ++ rest) hkey hbefore h
    pre hpre
  have hsuffix : key.toList ++ ['='] <:+ pre' ++ ' ' :: (key.toList ++ ['=']) :=
    ⟨pre' ++ [' '], by rw [List.append_assoc]; rfl⟩
  rw [hscan, attr_attrText hkey hkey hvalue hpre', if_pos hsuffix]

/-- **What stands before the next quote is read** when a value ends with the key and an equals
sign.  That is a blank, the next name and its equals sign, and no check of any attribute accepts
it. -/
theorem attr_of_mistaken {key name next : String} {value nextValue rest : Text}
    {before : List (String × Text)} (hkey : isName key = true) (hbefore : ValidAttrs before)
    (hname : isName name = true) (hvalue : IsValue value) (hnext : isName next = true)
    (h : NotMistaken key before) (hends : ¬ key.toList <:+ name.toList)
    (hmistaken : key.toList ++ ['='] <:+ value) {pre : Text} (hpre : '"' ∉ pre) :
    attr (pre ++ (before.flatMap attrText ++ (attrText (name, value) ++
      (attrText (next, nextValue) ++ rest)))) key.toList =
        some (' ' :: (next.toList ++ ['='])) := by
  obtain ⟨pre', hpre', hscan⟩ := @attr_skip _ _
    (attrText (name, value) ++ (attrText (next, nextValue) ++ rest)) hkey hbefore h
    pre hpre
  have hsuffix : ¬ key.toList ++ ['='] <:+ pre' ++ ' ' :: (name.toList ++ ['=']) := fun hs =>
    hends (suffix_name_of_suffix (notMem_of_isName hkey (by decide)) hs)
  have hquote : '"' ∉ ' ' :: (next.toList ++ ['=']) := by
    rw [List.mem_cons, List.mem_append, List.mem_singleton]
    rintro (h | h | h)
    · exact absurd h (by decide)
    · exact notMem_of_isName hnext (by decide) h
    · exact absurd h (by decide)
  have htext : attrText (next, nextValue) ++ rest =
      ' ' :: (next.toList ++ ['=']) ++ '"' :: (nextValue ++ '"' :: rest) := by
    simp only [attrText, List.append_assoc, List.cons_append, List.nil_append]
  have hstop : FoundAfter ['"'] (attrText (next, nextValue) ++ rest)
      (' ' :: (next.toList ++ ['=']) ++ []) ('"' :: (nextValue ++ '"' :: rest)) := by
    rw [htext]
    exact FoundAfter.skip (.here ⟨_, rfl⟩) hquote
  rw [List.append_nil] at hstop
  rw [hscan, attr_attrText hkey hname hvalue hpre', if_neg hsuffix, if_pos hmistaken, hstop.found,
    Option.map_some, hstop.take]

/-- A value without an equals sign at its end is not mistaken. -/
theorem not_suffix_of_getLast {key : String} {value : Text} (h : value.getLast? ≠ some '=') :
    ¬ key.toList ++ ['='] <:+ value := by
  rintro ⟨t, rfl⟩
  rw [← List.append_assoc, List.getLast?_concat] at h
  exact h rfl

theorem not_suffix_of_notMem {key : String} {value : Text} (h : '=' ∉ value) :
    ¬ key.toList ++ ['='] <:+ value := by
  rintro ⟨t, rfl⟩
  exact h (by simp)

theorem not_suffix_of_isPlain {key : String} {value : Text} (h : value.all isPlain = true) :
    ¬ key.toList ++ ['='] <:+ value := not_suffix_of_notMem (notMem_of_all h (by decide))

/-! ## 4. The floor of markup -/

theorem firstUndeclaredEntity_append {a : Text} (s : Text) (h : '&' ∉ a) :
    firstUndeclaredEntity (a ++ s) = firstUndeclaredEntity s := by
  induction a with
  | nil => rfl
  | cons c a ih =>
    rw [List.mem_cons, not_or] at h
    have hc : ¬ (c = '&' ∧ ¬ declaredEntities.any (·.isPrefixOf (c :: (a ++ s)))) := fun hc =>
      h.1 hc.1.symm
    rw [List.cons_append, firstUndeclaredEntity, if_neg hc, ih h.2]

/-- A declared reference. -/
theorem firstUndeclaredEntity_entity {e : Text} (s : Text) (he : '&' :: e ∈ declaredEntities)
    (hamp : '&' ∉ e) : firstUndeclaredEntity ('&' :: e ++ s) = firstUndeclaredEntity s := by
  have hany : declaredEntities.any (·.isPrefixOf ('&' :: (e ++ s))) = true :=
    List.any_eq_true.mpr ⟨_, he, List.isPrefixOf_iff_prefix.mpr (List.prefix_append ('&' :: e) s)⟩
  rw [List.cons_append, firstUndeclaredEntity, if_neg (fun hc => hc.2 hany),
    firstUndeclaredEntity_append s hamp]

/-- Escaping makes no other reference. -/
theorem firstUndeclaredEntity_escaped (t s : Text) :
    firstUndeclaredEntity (xmlEscapeAttr t ++ s) = firstUndeclaredEntity s := by
  induction t with
  | nil => rfl
  | cons c t ih =>
    rw [xmlEscapeAttr_cons, List.append_assoc]
    rcases escapeChar_cases c with ⟨heq, hplain⟩ | ⟨hspecial, -⟩
    · have hamp : '&' ∉ [c] := by
        rw [List.mem_singleton]
        rintro rfl
        exact hplain (by decide)
      rw [heq, firstUndeclaredEntity_append _ hamp, ih]
    · simp only [List.mem_cons, List.not_mem_nil, or_false] at hspecial
      rcases hspecial with rfl | rfl | rfl | rfl
      · exact (firstUndeclaredEntity_entity (e := "amp;".toList) _ (by decide) (by decide)).trans ih
      · exact (firstUndeclaredEntity_entity (e := "lt;".toList) _ (by decide) (by decide)).trans ih
      · exact (firstUndeclaredEntity_entity (e := "gt;".toList) _ (by decide) (by decide)).trans ih
      · exact (firstUndeclaredEntity_entity (e := "quot;".toList) _ (by decide)
          (by decide)).trans ih

/-- Text in which every reference is one that escaping makes, so that a search for another one
passes over it. -/
def EscapedText (a : Text) : Prop :=
  ∀ s : Text, firstUndeclaredEntity (a ++ s) = firstUndeclaredEntity s

theorem escapedText_xmlEscapeAttr (t : Text) : EscapedText (xmlEscapeAttr t) :=
  firstUndeclaredEntity_escaped t

theorem escapedText_of_notMem {a : Text} (h : '&' ∉ a) : EscapedText a := fun s =>
  firstUndeclaredEntity_append s h

theorem EscapedText.append {a b : Text} (ha : EscapedText a) (hb : EscapedText b) :
    EscapedText (a ++ b) := by
  intro s
  rw [List.append_assoc, ha, hb]

theorem EscapedText.eq_none {a : Text} (h : EscapedText a) : firstUndeclaredEntity a = none := by
  have hnil := h []
  rw [List.append_nil] at hnil
  exact hnil

theorem escapedText_startTag {name : String} {attrs : List (String × Text)} {close : Close}
    (hname : isName name = true)
    (hattrs : ∀ a ∈ attrs, isName a.1 = true ∧ EscapedText a.2) :
    EscapedText (startTagText name attrs close) := by
  have hflat : EscapedText (attrs.flatMap attrText) := by
    induction attrs with
    | nil => exact escapedText_of_notMem List.not_mem_nil
    | cons a attrs ih =>
      obtain ⟨⟨hkey, hvalue⟩, hrest⟩ := List.forall_mem_cons.mp hattrs
      have hfront : '&' ∉ ' ' :: (a.1.toList ++ ['=', '"']) := by
        rw [List.mem_cons, List.mem_append]
        rintro (h | h | h)
        · exact absurd h (by decide)
        · exact notMem_of_isName hkey (by decide) h
        · exact absurd h (by decide)
      have htext : attrText a = (' ' :: (a.1.toList ++ ['=', '"'])) ++ (a.2 ++ ['"']) := by
        simp only [attrText, List.append_assoc, List.cons_append, List.nil_append]
      rw [List.flatMap_cons, htext]
      exact ((escapedText_of_notMem hfront).append
        (hvalue.append (escapedText_of_notMem (by decide)))).append (ih hrest)
  have hopen : '&' ∉ '<' :: name.toList := by
    rw [List.mem_cons]
    rintro (h | h)
    · exact absurd h (by decide)
    · exact notMem_of_isName hname (by decide) h
  have hclose : EscapedText close.text := by
    cases close with
    | open_ => exact escapedText_of_notMem (by decide)
    | empty => exact escapedText_of_notMem (by decide)
  exact (escapedText_of_notMem hopen).append (hflat.append hclose)

/-! ## 5. Legitimate observations -/

/-- An observation that a publisher of positions is there for: the state of a platform that is not
below the surface and has a position, a confidence from zero to one, a platform with a name, and
texts for the wire. -/
structure Legitimate (envelope : EvidenceEnvelope) (ps : PlatformState) (pos : Position) :
    Prop where
  observation : envelope.observation = .platformState ps
  position : ps.position = some pos
  domain : ps.platformDomain ≠ .subsurface
  confidence : F32.within (.ofRat 0) (.ofRat 1) envelope.claim.confidence = true
  nonblank : (trim ps.platformId.toList).isEmpty = false
  platformId : ∀ c ∈ xmlEscapeAttr ps.platformId.toList, isDisallowedCodepoint c = false
  reason : IsWireText envelope.claim.mark.reasonCode.toList
  notes : ∀ note ∈ envelope.claim.mark.provenance, IsWireText note.toList

theorem isWireText_markStatusLabel (status : MarkStatus) :
    IsWireText (markStatusLabel status).toList := by
  cases status
  all_goals exact isWireText_of_all (by decide)

theorem isWireText_markSummary {mark : Mark} (h : IsWireText mark.reasonCode.toList) :
    IsWireText (markSummary mark).toList := by
  unfold markSummary
  split
  · exact isWireText_markStatusLabel _
  · rw [String.toList_append, String.toList_append, isWireText_append, isWireText_append]
    exact ⟨⟨isWireText_markStatusLabel _, isWireText_of_all (by decide)⟩, h⟩

theorem isWireText_fmtBasis (basis : Option ConfidenceBasis) : IsWireText (fmtBasis basis) := by
  unfold fmtBasis
  split
  · exact isWireText_of_all (by decide)
  · exact isWireText_of_all (by decide)
  · exact isWireText_of_all (by decide)

theorem fmtBasis_declared (basis : Option ConfidenceBasis) :
    fmtBasis basis ∈ declaredBasisTokens := by
  unfold fmtBasis
  split
  · decide
  · decide
  · decide

theorem isWireText_join {sep : String} (hsep : IsWireText sep.toList) {parts : List String}
    (h : ∀ s ∈ parts, IsWireText s.toList) : IsWireText (join sep parts).toList := by
  intro c hc
  rcases mem_join hc with hc | ⟨s, hs, hc⟩
  · exact hsep c hc
  · exact h s hs c hc

/-- Fields that are put together from texts for the wire. -/
theorem isWireText_field {name : String} {value : Text} (hname : IsWireText name.toList)
    (hvalue : IsWireText value) : IsWireText (name.toList ++ value) :=
  isWireText_append.mpr ⟨hname, hvalue⟩

theorem IsWireText.notMem {s : Text} (h : IsWireText s) : ';' ∉ s ∧ '&' ∉ s := by
  constructor
  · intro hmem
    exact (h ';' hmem).1 (by decide)
  · intro hmem
    exact (h '&' hmem).1 (by decide)

/-- Fields joined by `;` hold nothing to escape and nothing that may not be on the wire. -/
theorem plain_of_fields {parts : List Text} (h : ∀ s ∈ parts, IsWireText s) :
    ∀ c ∈ List.intercalate [';'] parts,
      c ∉ ['&', '<', '>', '"'] ∧ isDisallowedCodepoint c = false := by
  intro c hc
  rcases mem_intercalate hc with hc | ⟨s, hs, hc⟩
  · rw [List.mem_singleton] at hc
    rw [hc]
    decide
  · exact ⟨(h s hs).plain c hc, (h s hs c hc).2⟩

/-! ## 6. Events -/

/-- The lengths of an event are within the limits: of the escaped platform, of the remarks, and of
the document in bytes. -/
structure FitsCot (ttl : StaleTtlConfig) (ps : PlatformState) (pos : Position) (claim : Claim) :
    Prop where
  uid : (xmlEscapeAttr ps.platformId.toList).length ≤ CotPolicy.maxUidWireChars
  remarks : (remarksText claim).length ≤ CotPolicy.maxRemarksWireChars
  document : (String.ofList (cotEvent ttl.platformStateSecs ps pos claim)).toUTF8.size ≤
    maxDocumentBytes

/-- After the declaration there is no comment, no section and no instruction. -/
theorem contains_cotBody {b : Char} (hb : b ∈ ['!', '?']) (ttlSecs : Int64) (ps : PlatformState)
    (pos : Position) (claim : Claim) {body : Text}
    (hbody : cotEvent ttlSecs ps pos claim = xmlDecl ++ body) : contains ['<', b] body = false := by
  have hremarks := notMem_xmlEscapeAttr (c := '<') (by decide) (remarksText claim)
  have hstart {name : String} (hname : name ∈ ["event", "point", "detail", "remarks"]) :
      isName name = true ∧ ¬ [b] <+: name.toList ∧ ¬ name.toList <+: [b] ∧
        ¬ [b] <+: '/' :: name.toList ∧ ¬ '/' :: name.toList <+: [b] := by
    simp only [List.mem_cons, List.not_mem_nil, or_false] at hb hname
    rcases hb with rfl | rfl
    all_goals
      rcases hname with rfl | rfl | rfl | rfl
      all_goals decide
  obtain ⟨hevent, hevent1, hevent2, hevent3, hevent4⟩ := @hstart "event" (by decide)
  obtain ⟨hpoint, hpoint1, hpoint2, -⟩ := @hstart "point" (by decide)
  obtain ⟨hdetail, hdetail1, hdetail2, hdetail3, hdetail4⟩ :=
    @hstart "detail" (by decide)
  obtain ⟨htag, htag1, htag2, htag3, htag4⟩ := @hstart "remarks" (by decide)
  unfold cotEvent at hbody
  rw [← List.append_cancel_left hbody, contains_append_of_notMem (by decide),
    contains_startTag (eventAttrs_valid ttlSecs ps) hevent hevent1 hevent2,
    contains_append_of_notMem (by decide),
    contains_startTag (pointAttrs_valid pos) hpoint hpoint1 hpoint2,
    contains_append_of_notMem (by decide),
    contains_startTag validAttrs_nil hdetail hdetail1 hdetail2,
    contains_append_of_notMem (by decide), contains_startTag validAttrs_nil htag htag1 htag2,
    contains_append_of_notMem hremarks, contains_endTag htag htag3 htag4,
    contains_append_of_notMem (by decide), contains_endTag hdetail hdetail3 hdetail4,
    contains_append_of_notMem (by decide), contains_endTag hevent hevent3 hevent4]
  rw [contains_eq_false_iff]
  intro hinside
  exact absurd (hinside.subset List.mem_cons_self) (by decide)

/-- Neither do a declaration and what follows hold a comment or a section. -/
theorem contains_xmlDecl (body : Text) : contains "<!".toList (xmlDecl ++ body) =
    contains "<!".toList body := by
  have hneedle : "<!".toList = '<' :: ['!'] := by decide
  have hdecl : xmlDecl = '<' :: (['?'] ++ (CotPolicy.declBody ++ ['?', '>'])) :=
    CotPolicy.xmlDecl_eq
  rw [hneedle, hdecl]
  exact contains_skipFront _ _ (by decide) (by decide) (by decide)

theorem prohibitedMarkup_eq_none {body : Text}
    (h : ∀ b ∈ ['!', '?'], contains ['<', b] body = false) :
    prohibitedMarkup (xmlDecl ++ body) = none := by
  have hbang : contains "<!".toList (xmlDecl ++ body) = false := by
    rw [contains_xmlDecl]
    exact h '!' (by decide)
  have hquestion : contains "<?".toList body = false := h '?' (by decide)
  unfold prohibitedMarkup
  rw [hbang, stripPrefix_append, Option.getD_some, hquestion]
  rfl

theorem escapedText_cotEvent (ttlSecs : Int64) (ps : PlatformState) (pos : Position)
    (claim : Claim) : EscapedText (cotEvent ttlSecs ps pos claim) := by
  have hplain {a : Text} (h : a.all isPlain = true) : EscapedText a :=
    escapedText_of_notMem (notMem_of_all h (by decide))
  have hevent : EscapedText (startTagText "event" (eventAttrs ttlSecs ps) .open_) := by
    refine escapedText_startTag (by decide) ?_
    simp only [eventAttrs, List.forall_mem_cons]
    refine ⟨⟨by decide, escapedText_of_notMem (by decide)⟩,
      ⟨by decide, escapedText_xmlEscapeAttr _⟩, ⟨by decide, ?_⟩,
      ⟨by decide, escapedText_of_notMem (by decide)⟩, ⟨by decide, hplain (isPlain_iso8601 _)⟩,
      ⟨by decide, hplain (isPlain_iso8601 _)⟩, ⟨by decide, hplain (isPlain_iso8601 _)⟩,
      List.forall_mem_nil _⟩
    refine escapedText_of_notMem ?_
    cases ps.platformDomain
    all_goals decide
  have hpoint : EscapedText (startTagText "point" (pointAttrs pos) .empty) := by
    refine escapedText_startTag (by decide) ?_
    simp only [pointAttrs, List.forall_mem_cons]
    exact ⟨⟨by decide, hplain (isPlain_fmtF64 _)⟩, ⟨by decide, hplain (isPlain_fmtF64 _)⟩,
      ⟨by decide, hplain (isPlain_fmtF64 _)⟩, ⟨by decide, hplain (isPlain_fmtF64 _)⟩,
      ⟨by decide, hplain (isPlain_fmtF64 _)⟩, List.forall_mem_nil _⟩
  have htext {a : Text} (h : '&' ∉ a) : EscapedText a := escapedText_of_notMem h
  unfold cotEvent
  refine (htext (by decide)).append ((htext (by decide)).append (hevent.append
    ((htext (by decide)).append (hpoint.append ((htext (by decide)).append ?_)))))
  refine (htext (by decide)).append ((htext (by decide)).append ((htext (by decide)).append
    ((escapedText_xmlEscapeAttr _).append (htext (by decide)))))

/-- An event passes the floor. -/
theorem checkMarkupFloor_cotEvent (ttlSecs : Int64) (ps : PlatformState) (pos : Position)
    (claim : Claim) : CotPolicy.checkMarkupFloor (cotEvent ttlSecs ps pos claim) = .ok () := by
  have hmarkup : prohibitedMarkup (cotEvent ttlSecs ps pos claim) = none :=
    prohibitedMarkup_eq_none fun b hb => contains_cotBody hb ttlSecs ps pos claim rfl
  unfold CotPolicy.checkMarkupFloor
  rw [hmarkup, (escapedText_cotEvent ttlSecs ps pos claim).eq_none]

theorem countDetailChildren_append {a : Text} (s : Text) (n : ℕ) (h : '<' ∉ a) :
    CotPolicy.countDetailChildren (a ++ s) n = CotPolicy.countDetailChildren s n := by
  induction a with
  | nil => rfl
  | cons c a ih =>
    rw [List.mem_cons, not_or] at h
    rw [List.cons_append, CotPolicy.countDetailChildren, if_neg (Ne.symm h.1), ih h.2]

/-- The one child of the detail of an event. -/
theorem checkDetailChildren_detailText (claim : Claim) :
    CotPolicy.checkDetailChildren (detailText claim) = .ok () := by
  have hremarks := notMem_xmlEscapeAttr (c := '<') (by decide) (remarksText claim)
  have hopen (s : Text) (n : ℕ) : CotPolicy.countDetailChildren
      (startTagText "remarks" [] .open_ ++ s) n = CotPolicy.countDetailChildren s (n + 1) := by
    have htag : startTagText "remarks" [] .open_ = '<' :: "remarks>".toList := by decide
    rw [htag, List.cons_append, CotPolicy.countDetailChildren, if_pos rfl]
    exact countDetailChildren_append s (n + 1) (by decide)
  have hclose (s : Text) (n : ℕ) : CotPolicy.countDetailChildren
      (endTagText "remarks" ++ s) n = CotPolicy.countDetailChildren s n := by
    have htag : endTagText "remarks" = '<' :: "/remarks>".toList := by decide
    rw [htag, List.cons_append, CotPolicy.countDetailChildren, if_pos rfl]
    exact countDetailChildren_append s n (by decide)
  have hend : CotPolicy.countDetailChildren "\n  ".toList 1 = .ok 1 := by decide
  unfold CotPolicy.checkDetailChildren detailText
  rw [countDetailChildren_append _ _ (by decide), hopen, countDetailChildren_append _ _ hremarks,
    hclose, hend]
  rfl

/-- The remarks of a legitimate observation are for the wire, field by field. -/
theorem isWireText_remarksFields {envelope : EvidenceEnvelope} {ps : PlatformState}
    {pos : Position} (h : Legitimate envelope ps pos) :
    ∀ s ∈ remarksFields envelope.claim, IsWireText s := by
  obtain ⟨hfinite, -⟩ := confidence_cases h.confidence
  have hbar : IsWireText "|".toList := isWireText_of_all (by decide)
  simp only [remarksFields, List.forall_mem_cons]
  exact ⟨isWireText_field (isWireText_of_all (by decide)) (isWireText_markSummary h.reason),
    isWireText_field (isWireText_of_all (by decide)) (isWireText_of_isPlain (isPlain_fmtConf _)),
    isWireText_field (isWireText_of_all (by decide)) (isWireText_join hbar h.notes),
    isWireText_field (isWireText_of_all (by decide)) (isWireText_fmtBasis _),
    List.forall_mem_nil _⟩

/-- The grammar of the remarks is about the confidence alone. -/
theorem checkRemarksGrammar_iff {envelope : EvidenceEnvelope} {ps : PlatformState}
    {pos : Position} (h : Legitimate envelope ps pos) :
    CotPolicy.checkRemarksGrammar (remarksText envelope.claim) = .ok () ↔
      envelope.claim.confidence ≠ ⟨0x80000000⟩ := by
  have hfields : inspectSemicolonFields (remarksText envelope.claim)
      CotPolicy.declaredRemarksPrefixes = .ok (remarksFields envelope.claim) := by
    rw [remarksText_eq]
    refine inspectSemicolonFields_ok (List.cons_ne_nil _ _) rfl
      (fun s hs => (isWireText_remarksFields h s hs).notMem) ?_
    simp only [remarksFields, CotPolicy.declaredRemarksPrefixes, List.map_cons, List.map_nil,
      List.zip_cons_cons, List.zip_nil_right, List.forall_mem_cons]
    exact ⟨List.prefix_append _ _, List.prefix_append _ _, List.prefix_append _ _,
      List.prefix_append _ _, List.forall_mem_nil _⟩
  have hconf : ((remarksFields envelope.claim).getD 1 []).drop "CONF:".length =
      fmtConf envelope.claim.confidence := rfl
  have hbasis : ((remarksFields envelope.claim).getD 3 []).drop "BASIS:".length =
      fmtBasis envelope.claim.confidenceBasis := rfl
  rw [← isTwoDecimal_fmtConf_iff h.confidence]
  unfold CotPolicy.checkRemarksGrammar
  rw [hfields]
  simp only [Except.mapError, bind, Except.bind, hconf, hbasis, fmtBasis_declared,
    not_true_eq_false, if_false]
  split
  · next hnot => simp [hnot]
  · next hyes => simp [not_not.mp hyes]

theorem cotType_declared {domain : PlatformDomain} :
    cotType domain ∈ CotPolicy.declaredCotTypes := by
  cases domain
  all_goals decide

/-- The type is read as it was written unless the platform ends like its attribute begins. -/
theorem checkType_iff (ttlSecs : Int64) (ps : PlatformState) :
    CotPolicy.checkType (startTagText "event" (eventAttrs ttlSecs ps) .open_) = .ok () ↔
      ¬ "type=".toList <:+ ps.platformId.toList := by
  have hkey : "type".toList ++ ['='] = "type=".toList := by decide
  have hsuffix := @suffix_xmlEscapeAttr "type=".toList ps.platformId.toList
    (List.all_iff_forall_prop.mp (by decide))
  have huid := isValue_xmlEscapeAttr ps.platformId.toList
  have hversion : NotMistaken "type" [("version", "2.0".toList)] :=
    notMistaken_cons.mpr ⟨by decide, notMistaken_nil _⟩
  have hversionValid : ValidAttrs [("version", "2.0".toList)] :=
    validAttrs_cons.mpr ⟨⟨by decide, by decide⟩, validAttrs_nil⟩
  obtain ⟨rest, htag⟩ : ∃ rest, startTagText "event" (eventAttrs ttlSecs ps) .open_ =
      ('<' :: "event".toList) ++ ([("version", "2.0".toList)].flatMap attrText ++
        (attrText ("uid", xmlEscapeAttr ps.platformId.toList) ++
          (attrText ("type", cotType ps.platformDomain) ++ rest))) := by
    unfold startTagText eventAttrs
    simp only [List.cons_append, List.flatMap_cons, List.append_assoc, List.flatMap_nil,
      List.nil_append]
    exact ⟨_, rfl⟩
  rw [← hsuffix]
  by_cases hmistaken : "type=".toList <:+ xmlEscapeAttr ps.platformId.toList
  · have hread : attr (startTagText "event" (eventAttrs ttlSecs ps) .open_) "type".toList =
        some (' ' :: ("type".toList ++ ['='])) := by
      rw [htag]
      exact attr_of_mistaken (by decide) hversionValid (by decide) huid (by decide) hversion
        (by decide) (hkey ▸ hmistaken) (by decide)
    refine iff_of_false ?_ (not_not.mpr hmistaken)
    unfold CotPolicy.checkType
    rw [hread]
    decide
  · have hbefore : NotMistaken "type"
        [("version", "2.0".toList), ("uid", xmlEscapeAttr ps.platformId.toList)] := by
      rw [notMistaken_cons, notMistaken_cons, hkey]
      exact ⟨by decide, ⟨(by decide : ¬ "type".toList <:+ "uid".toList), hmistaken⟩,
        notMistaken_nil _⟩
    have hvalid : ValidAttrs
        [("version", "2.0".toList), ("uid", xmlEscapeAttr ps.platformId.toList)] := by
      rw [validAttrs_cons, validAttrs_cons]
      exact ⟨⟨by decide, by decide⟩, ⟨(by decide : isName "uid" = true), huid⟩, validAttrs_nil⟩
    have hread : attr (startTagText "event" (eventAttrs ttlSecs ps) .open_) "type".toList =
        some (cotType ps.platformDomain) := by
      have htag' : startTagText "event" (eventAttrs ttlSecs ps) .open_ =
          ('<' :: "event".toList) ++ ([("version", "2.0".toList),
            ("uid", xmlEscapeAttr ps.platformId.toList)].flatMap attrText ++
              (attrText ("type", cotType ps.platformDomain) ++ rest)) := by
        rw [htag]
        simp only [List.flatMap_cons, List.flatMap_nil, List.append_nil, List.append_assoc]
      rw [htag']
      exact attr_of_notMistaken (by decide) hvalid (isValue_cotType _) hbefore (by decide)
    refine iff_of_true ?_ hmistaken
    unfold CotPolicy.checkType
    rw [hread]
    simp [CotPolicy.okOr, bind, Except.bind, cotType_declared]

/-- **Which events of legitimate observations the policy accepts.** In an event only `type` is
looked for behind the platform. -/
theorem checkCotEvent_iff {ttl : StaleTtlConfig} {envelope : EvidenceEnvelope}
    {ps : PlatformState} {pos : Position} (h : Legitimate envelope ps pos)
    (hfits : FitsCot ttl ps pos envelope.claim) :
    CotPolicy.checkCotEvent (cotEvent ttl.platformStateSecs ps pos envelope.claim) = .ok () ↔
      ¬ "type=".toList <:+ ps.platformId.toList ∧
        envelope.claim.confidence ≠ ⟨0x80000000⟩ := by
  have huid : CotPolicy.checkWireField "uid" (xmlEscapeAttr ps.platformId.toList)
      CotPolicy.maxUidWireChars = .ok () :=
    mapError_eq_ok.mpr (inspectWireField_ok (trim_xmlEscapeAttr h.nonblank) hfits.uid h.platformId)
  have hplain := plain_of_fields (isWireText_remarksFields h)
  rw [← remarksText_eq] at hplain
  have hescape := xmlEscapeAttr_of_plain fun c hc => (hplain c hc).1
  have hremarks : CotPolicy.checkWireField "remarks" (remarksText envelope.claim)
      CotPolicy.maxRemarksWireChars = .ok () := by
    have hmark : 'M' ∈ remarksText envelope.claim := List.mem_append_left _ (by decide)
    exact mapError_eq_ok.mpr (inspectWireField_ok (trim_isEmpty_eq_false hmark (by decide))
      hfits.remarks fun c hc => (hplain c hc).2)
  rw [← checkType_iff ttl.platformStateSecs ps, ← checkRemarksGrammar_iff h]
  unfold CotPolicy.checkCotEvent
  rw [checkMarkupFloor_cotEvent, openTag_cotEvent, detailInner_cotEvent]
  simp only [CotPolicy.okOr, bind, Except.bind, attr_uid, huid, checkDetailChildren_detailText,
    elementText_detailText, hescape, hremarks]
  cases CotPolicy.checkType (startTagText "event" (eventAttrs ttl.platformStateSecs ps) .open_) with
  | error e => simp
  | ok _ => simp

theorem cotPublish_isOk_iff {ttl : StaleTtlConfig} {envelope : EvidenceEnvelope}
    {ps : PlatformState} {pos : Position} (h : Legitimate envelope ps pos)
    (hfits : FitsCot ttl ps pos envelope.claim) :
    (∃ out, cotPublish ttl envelope = .ok out) ↔
      ¬ "type=".toList <:+ ps.platformId.toList ∧
        envelope.claim.confidence ≠ ⟨0x80000000⟩ := by
  have hbytes := CotPolicy.checkCotEventBytes_toUTF8 hfits.document
  rw [← checkCotEvent_iff h hfits, ← hbytes]
  constructor
  · rintro ⟨out, hout⟩
    obtain ⟨ps', pos', hobs, hpos, hcheck, -⟩ := cotPublish_eq_ok hout
    rw [h.observation] at hobs
    cases hobs
    rw [h.position] at hpos
    cases hpos
    exact hcheck
  · intro hcheck
    exact ⟨_, cotPublish_of_accepted h.observation h.domain h.position hcheck⟩

end Musubi.Northbound
