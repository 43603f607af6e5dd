/-
# Writing and reading XML text

A document as a program prints it, tag after tag, and a reader of such text that knows nothing of
the program: a machine that goes over the characters once and reports tags with their attributes,
the text between them and processing instructions.  It knows no `<!` markup, and it does not check
that characters are characters of XML or that tags match.

What is printed with values that hold neither the quote nor `<` and `>` is read back as it was
printed, and a search for a tag meets no other.  The lemmas say what the machine is after a piece
of text, from any state between tags, so a document is read by going through what was printed,
piece by piece.
-/
import Musubi.Lib.Xml

namespace Lib

namespace Xml

/-! ## 1. Writing -/

/-- ` key="value"`. -/
def attrText (attr : String × List Char) : List Char :=
  ' ' :: (attr.1.toList ++ '=' :: '"' :: (attr.2 ++ ['"']))

/-- `<name key="value" ...>`, or with `/>` at the end. -/
def startTagText (name : String) (attrs : List (String × List Char)) (close : Close) :
    List Char :=
  '<' :: (name.toList ++ (attrs.flatMap attrText ++ close.text))

/-- `</name>`. -/
def endTagText (name : String) : List Char := '<' :: '/' :: (name.toList ++ ['>'])

/-! ## 2. Reading -/

/-- What the reader reports. -/
inductive Item
  | text (s : List Char)
  | instruction (body : List Char)
  | startTag (name : List Char) (attrs : List (List Char × List Char)) (close : Close)
  | endTag (name : List Char)
deriving DecidableEq

/-- Where the reader is. -/
inductive Mode
  | content (s : List Char)
  /-- After `<`. -/
  | markup
  | name (name : List Char)
  /-- In a start tag, between attributes. -/
  | tag (name : List Char) (attrs : List (List Char × List Char))
  | key (name : List Char) (attrs : List (List Char × List Char)) (key : List Char)
  /-- After the key, before `=`. -/
  | keyEnd (name : List Char) (attrs : List (List Char × List Char)) (key : List Char)
  /-- After `=`, before the quote. -/
  | equals (name : List Char) (attrs : List (List Char × List Char)) (key : List Char)
  | value (name : List Char) (attrs : List (List Char × List Char)) (key : List Char)
    (quote : Char) (value : List Char)
  /-- After `/` in a start tag. -/
  | slash (name : List Char) (attrs : List (List Char × List Char))
  | endName (name : List Char)
  /-- After the name of an end tag. -/
  | endSpace (name : List Char)
  | instruction (body : List Char)
  | failed
deriving DecidableEq

structure Reader where
  items : List Item
  mode : Mode
deriving DecidableEq

namespace Reader

/-- A character in a start tag, outside of names and values. -/
def stepTag (items : List Item) (name : List Char) (attrs : List (List Char × List Char))
    (c : Char) : Reader :=
  if isSpace c then ⟨items, .tag name attrs⟩
  else if c = '>' then ⟨items ++ [.startTag name attrs .open_], .content []⟩
  else if c = '/' then ⟨items, .slash name attrs⟩
  else if isNameStart c then ⟨items, .key name attrs [c]⟩
  else ⟨items, .failed⟩

/-- A character between a key and the `=` after it. -/
def stepEquals (items : List Item) (name : List Char) (attrs : List (List Char × List Char))
    (key : List Char) (c : Char) : Reader :=
  if isSpace c then ⟨items, .keyEnd name attrs key⟩
  else if c = '=' then ⟨items, .equals name attrs key⟩
  else ⟨items, .failed⟩

/-- A character after the name of an end tag. -/
def stepEnd (items : List Item) (name : List Char) (c : Char) : Reader :=
  if isSpace c then ⟨items, .endSpace name⟩
  else if c = '>' then ⟨items ++ [.endTag name], .content []⟩
  else ⟨items, .failed⟩

def step (r : Reader) (c : Char) : Reader :=
  match r.mode with
  | .content s =>
    if c = '<' then ⟨r.items ++ [.text s], .markup⟩ else ⟨r.items, .content (s ++ [c])⟩
  | .markup =>
    if c = '/' then ⟨r.items, .endName []⟩
    else if c = '?' then ⟨r.items, .instruction []⟩
    else if isNameStart c then ⟨r.items, .name [c]⟩
    else ⟨r.items, .failed⟩
  | .name name =>
    if isNameChar c then ⟨r.items, .name (name ++ [c])⟩ else stepTag r.items name [] c
  | .tag name attrs => stepTag r.items name attrs c
  | .key name attrs key =>
    if isNameChar c then ⟨r.items, .key name attrs (key ++ [c])⟩
    else stepEquals r.items name attrs key c
  | .keyEnd name attrs key => stepEquals r.items name attrs key c
  | .equals name attrs key =>
    if isSpace c then ⟨r.items, .equals name attrs key⟩
    else if c = '"' ∨ c = '\'' then ⟨r.items, .value name attrs key c []⟩
    else ⟨r.items, .failed⟩
  | .value name attrs key quote value =>
    if c = quote then ⟨r.items, .tag name (attrs ++ [(key, value)])⟩
    else if c = '<' then ⟨r.items, .failed⟩
    else ⟨r.items, .value name attrs key quote (value ++ [c])⟩
  | .slash name attrs =>
    if c = '>' then ⟨r.items ++ [.startTag name attrs .empty], .content []⟩
    else ⟨r.items, .failed⟩
  | .endName name =>
    if isNameChar c then ⟨r.items, .endName (name ++ [c])⟩ else stepEnd r.items name c
  | .endSpace name => stepEnd r.items name c
  | .instruction body =>
    if c = '>' ∧ body.getLast? = some '?' then
      ⟨r.items ++ [.instruction body.dropLast], .content []⟩
    else ⟨r.items, .instruction (body ++ [c])⟩
  | .failed => r

def run (r : Reader) (s : List Char) : Reader := s.foldl step r

/-- What has been read at the end of the text. -/
def finish (r : Reader) : Option (List Item) :=
  match r.mode with
  | .content s => some (r.items ++ [.text s])
  | _ => none

end Reader

def read (s : List Char) : Option (List Item) := (Reader.run ⟨[], .content []⟩ s).finish

/-! ## 3. What has been read -/

/-- The attributes of every start tag of that name. -/
def attrsOf (name : String) (items : List Item) : List (List (List Char × List Char)) :=
  items.filterMap fun
    | .startTag n attrs _ => if n = name.toList then some attrs else none
    | _ => none

/-- The value of every attribute of that name. -/
def valuesOf (key : String) (attrs : List (List Char × List Char)) : List (List Char) :=
  (attrs.filter fun attr => attr.1 = key.toList).map Prod.snd

/-- The text of every element of that name that has nothing but text in it. -/
def textsOf (name : String) : List Item → List (List Char)
  | [] => []
  | .startTag n _ close :: items =>
    match items with
    | .text s :: .endTag _ :: _ =>
      if n = name.toList ∧ close = .open_ then s :: textsOf name items else textsOf name items
    | _ => textsOf name items
  | _ :: items => textsOf name items

/-- The text in which every reference to a predefined entity is replaced. -/
def unescape : List Char → List Char
  | '&' :: 'a' :: 'm' :: 'p' :: ';' :: s => '&' :: unescape s
  | '&' :: 'l' :: 't' :: ';' :: s => '<' :: unescape s
  | '&' :: 'g' :: 't' :: ';' :: s => '>' :: unescape s
  | '&' :: 'q' :: 'u' :: 'o' :: 't' :: ';' :: s => '"' :: unescape s
  | '&' :: 'a' :: 'p' :: 'o' :: 's' :: ';' :: s => '\'' :: unescape s
  | c :: s => c :: unescape s
  | [] => []

theorem unescape_cons {c : Char} (h : c ≠ '&') (s : List Char) :
    unescape (c :: s) = c :: unescape s := by
  rw [unescape]
  all_goals
    intros
    simp_all

/-! ## 4. What was written is read back -/

namespace Reader

theorem run_append (r : Reader) (s t : List Char) : r.run (s ++ t) = (r.run s).run t :=
  List.foldl_append

theorem run_cons (r : Reader) (c : Char) (s : List Char) : r.run (c :: s) = (r.step c).run s := rfl

theorem run_content (items : List Item) (s : List Char) (hs : '<' ∉ s) :
    ∀ acc, run ⟨items, .content acc⟩ s = ⟨items, .content (acc ++ s)⟩ := by
  induction s with
  | nil =>
    intro acc
    rw [List.append_nil]
    rfl
  | cons c s ih =>
    intro acc
    rw [List.mem_cons, not_or] at hs
    have hstep : step ⟨items, .content acc⟩ c = ⟨items, .content (acc ++ [c])⟩ :=
      if_neg (Ne.symm hs.1)
    rw [run_cons, hstep, ih hs.2, List.append_assoc, List.singleton_append]

theorem run_name {s : List Char} (hs : s.all isNameChar = true) (items : List Item) :
    ∀ name, run ⟨items, .name name⟩ s = ⟨items, .name (name ++ s)⟩ := by
  induction s with
  | nil =>
    intro name
    rw [List.append_nil]
    rfl
  | cons c s ih =>
    intro name
    rw [List.all_cons, Bool.and_eq_true] at hs
    have hstep : step ⟨items, .name name⟩ c = ⟨items, .name (name ++ [c])⟩ := if_pos hs.1
    rw [run_cons, hstep, ih hs.2, List.append_assoc, List.singleton_append]

theorem run_key {s : List Char} (hs : s.all isNameChar = true) (items : List Item)
    (name : List Char) (attrs : List (List Char × List Char)) :
    ∀ key, run ⟨items, .key name attrs key⟩ s = ⟨items, .key name attrs (key ++ s)⟩ := by
  induction s with
  | nil =>
    intro key
    rw [List.append_nil]
    rfl
  | cons c s ih =>
    intro key
    rw [List.all_cons, Bool.and_eq_true] at hs
    have hstep : step ⟨items, .key name attrs key⟩ c = ⟨items, .key name attrs (key ++ [c])⟩ :=
      if_pos hs.1
    rw [run_cons, hstep, ih hs.2, List.append_assoc, List.singleton_append]

theorem run_endName {s : List Char} (hs : s.all isNameChar = true) (items : List Item) :
    ∀ name, run ⟨items, .endName name⟩ s = ⟨items, .endName (name ++ s)⟩ := by
  induction s with
  | nil =>
    intro name
    rw [List.append_nil]
    rfl
  | cons c s ih =>
    intro name
    rw [List.all_cons, Bool.and_eq_true] at hs
    have hstep : step ⟨items, .endName name⟩ c = ⟨items, .endName (name ++ [c])⟩ := if_pos hs.1
    rw [run_cons, hstep, ih hs.2, List.append_assoc, List.singleton_append]

theorem run_value {s : List Char} {quote : Char} (hquote : quote ∉ s) (hlt : '<' ∉ s)
    (items : List Item) (name : List Char) (attrs : List (List Char × List Char))
    (key : List Char) :
    ∀ value, run ⟨items, .value name attrs key quote value⟩ s =
      ⟨items, .value name attrs key quote (value ++ s)⟩ := by
  induction s with
  | nil =>
    intro value
    rw [List.append_nil]
    rfl
  | cons c s ih =>
    intro value
    rw [List.mem_cons, not_or] at hquote hlt
    have hstep : step ⟨items, .value name attrs key quote value⟩ c =
        ⟨items, .value name attrs key quote (value ++ [c])⟩ :=
      (if_neg (Ne.symm hquote.1)).trans (if_neg (Ne.symm hlt.1))
    rw [run_cons, hstep, ih hquote.2 hlt.2, List.append_assoc, List.singleton_append]

/-- What follows the name of a start tag is read as if the name had ended. -/
theorem run_name_end {c : Char} (hc : isNameChar c = false) (items : List Item)
    (name s : List Char) :
    run ⟨items, .name name⟩ (c :: s) = run ⟨items, .tag name []⟩ (c :: s) := by
  have hstep : step ⟨items, .name name⟩ c = stepTag items name [] c :=
    if_neg (by rw [hc]; exact Bool.false_ne_true)
  rw [run_cons, hstep]
  rfl

end Reader

/-- A name of the grammar. -/
def isName (s : String) : Bool := s.toList.head?.any isNameStart && s.toList.all isNameChar

/-- A value that may be written between double quotes and holds nothing that looks like the
start or the end of a tag. -/
def IsValue (v : List Char) : Prop := '"' ∉ v ∧ '<' ∉ v ∧ '>' ∉ v

instance (v : List Char) : Decidable (IsValue v) := inferInstanceAs (Decidable (_ ∧ _ ∧ _))

/-- Attributes that may be written. -/
def ValidAttrs (attrs : List (String × List Char)) : Prop :=
  ∀ attr ∈ attrs, isName attr.1 = true ∧ IsValue attr.2

theorem validAttrs_nil : ValidAttrs [] := List.forall_mem_nil _

theorem isName_eq_cons {s : String} (h : isName s = true) :
    ∃ c more, s.toList = c :: more ∧ isNameStart c = true ∧ more.all isNameChar = true := by
  unfold isName at h
  rw [Bool.and_eq_true] at h
  cases htext : s.toList with
  | nil =>
    rw [htext] at h
    exact absurd h.1 Bool.false_ne_true
  | cons c more =>
    rw [htext, List.head?_cons, Option.any_some, List.all_cons, Bool.and_eq_true] at h
    exact ⟨c, more, rfl, h.1, h.2.2⟩

theorem isNameStart_ne {c d : Char} (h : isNameStart c = true) (hd : isNameStart d = false) :
    c ≠ d := by
  rintro rfl
  rw [h] at hd
  cases hd

theorem isSpace_of_isNameStart {c : Char} (h : isNameStart c = true) : isSpace c = false := by
  cases hspace : isSpace c with
  | false => rfl
  | true =>
    have hname : isNameChar c = true := by
      unfold isNameChar
      rw [h, Bool.true_or]
    rw [isNameChar_of_isSpace hspace] at hname
    cases hname

namespace Reader

theorem run_attrText {key : String} {value : List Char} (hkey : isName key = true)
    (hvalue : IsValue value) (items : List Item) (name : List Char)
    (attrs : List (List Char × List Char)) :
    run ⟨items, .tag name attrs⟩ (attrText (key, value)) =
      ⟨items, .tag name (attrs ++ [(key.toList, value)])⟩ := by
  obtain ⟨c, more, htext, hstart, hmore⟩ := isName_eq_cons hkey
  have hspace : step ⟨items, .tag name attrs⟩ ' ' = ⟨items, .tag name attrs⟩ := rfl
  have hfirst : step ⟨items, .tag name attrs⟩ c = ⟨items, .key name attrs [c]⟩ := by
    unfold step stepTag
    simp only
    rw [if_neg (by rw [isSpace_of_isNameStart hstart]; exact Bool.false_ne_true),
      if_neg (isNameStart_ne hstart (by decide)), if_neg (isNameStart_ne hstart (by decide)),
      if_pos hstart]
  have hequals : step ⟨items, .key name attrs key.toList⟩ '=' =
      ⟨items, .equals name attrs key.toList⟩ := rfl
  have hopen : step ⟨items, .equals name attrs key.toList⟩ '"' =
      ⟨items, .value name attrs key.toList '"' []⟩ := rfl
  have hclose : step ⟨items, .value name attrs key.toList '"' value⟩ '"' =
      ⟨items, .tag name (attrs ++ [(key.toList, value)])⟩ := rfl
  unfold attrText
  rw [run_cons, hspace, htext, List.cons_append, run_cons, hfirst, run_append, run_key hmore,
    List.singleton_append, ← htext, run_cons, hequals, run_cons, hopen, run_append,
    run_value hvalue.1 hvalue.2.1, List.nil_append, run_cons, hclose]
  rfl

theorem run_attrs {attrs : List (String × List Char)}
    (hattrs : ValidAttrs attrs) (items : List Item)
    (name : List Char) :
    ∀ before, run ⟨items, .tag name before⟩ (attrs.flatMap attrText) =
      ⟨items, .tag name (before ++ attrs.map fun attr => (attr.1.toList, attr.2))⟩ := by
  induction attrs with
  | nil =>
    intro before
    rw [List.map_nil, List.append_nil]
    rfl
  | cons attr attrs ih =>
    intro before
    obtain ⟨hattr, hattrs⟩ := List.forall_mem_cons.mp hattrs
    rw [List.flatMap_cons, run_append, run_attrText hattr.1 hattr.2, ih hattrs,
      List.append_assoc, List.map_cons, List.singleton_append]

theorem run_close (items : List Item) (name : List Char) (attrs : List (List Char × List Char))
    (close : Close) :
    run ⟨items, .tag name attrs⟩ close.text =
      ⟨items ++ [.startTag name attrs close], .content []⟩ := by
  cases close with
  | open_ => rfl
  | empty => rfl

/-- The end of a name is seen in what follows it: a space, or the end of the tag. -/
theorem exists_cons_rest (attrs : List (String × List Char)) (close : Close) :
    ∃ c s, attrs.flatMap attrText ++ close.text = c :: s ∧ isNameChar c = false := by
  cases attrs with
  | nil =>
    cases close with
    | open_ => exact ⟨_, _, rfl, by decide⟩
    | empty => exact ⟨_, _, rfl, by decide⟩
  | cons attr attrs => exact ⟨' ', _, rfl, by decide⟩

/-- **A start tag is read back.** -/
theorem run_startTagText {name : String} {attrs : List (String × List Char)} {close : Close}
    (hname : isName name = true)
    (hattrs : ValidAttrs attrs) (items : List Item)
    (acc : List Char) :
    run ⟨items, .content acc⟩ (startTagText name attrs close) =
      ⟨items ++ [.text acc,
        .startTag name.toList (attrs.map fun attr => (attr.1.toList, attr.2)) close],
        .content []⟩ := by
  obtain ⟨c, more, htext, hstart, hmore⟩ := isName_eq_cons hname
  obtain ⟨c', s, hrest, hc'⟩ := exists_cons_rest attrs close
  have hlt : step ⟨items, .content acc⟩ '<' = ⟨items ++ [.text acc], .markup⟩ := rfl
  have hfirst : step ⟨items ++ [.text acc], .markup⟩ c = ⟨items ++ [.text acc], .name [c]⟩ := by
    unfold step
    simp only
    rw [if_neg (isNameStart_ne hstart (by decide)), if_neg (isNameStart_ne hstart (by decide)),
      if_pos hstart]
  unfold startTagText
  rw [run_cons, hlt, htext, List.cons_append, run_cons, hfirst, run_append, run_name hmore,
    List.singleton_append, ← htext, hrest, run_name_end hc', ← hrest, run_append,
    run_attrs hattrs, List.nil_append, run_close, List.append_assoc]
  rfl

/-- **An end tag is read back.** -/
theorem run_endTagText {name : String} (hname : isName name = true) (items : List Item)
    (acc : List Char) :
    run ⟨items, .content acc⟩ (endTagText name) =
      ⟨items ++ [.text acc, .endTag name.toList], .content []⟩ := by
  unfold isName at hname
  rw [Bool.and_eq_true] at hname
  have hlt : step ⟨items, .content acc⟩ '<' = ⟨items ++ [.text acc], .markup⟩ := rfl
  have hslash : step ⟨items ++ [.text acc], .markup⟩ '/' =
      ⟨items ++ [.text acc], .endName []⟩ := rfl
  have hclose : step ⟨items ++ [.text acc], .endName name.toList⟩ '>' =
      ⟨items ++ [.text acc] ++ [.endTag name.toList], .content []⟩ := rfl
  unfold endTagText
  rw [run_cons, hlt, run_cons, hslash, run_append, run_endName hname.2, List.nil_append,
    run_cons, hclose, List.append_assoc]
  rfl

end Reader

/-! ## 5. Searching what was written -/

theorem notMem_of_isName {name : String} (h : isName name = true) {c : Char}
    (hc : isNameChar c = false) : c ∉ name.toList := by
  unfold isName at h
  rw [Bool.and_eq_true] at h
  exact notMem_of_all h.2 hc

theorem lt_notMem_attrText {attr : String × List Char} (hkey : isName attr.1 = true)
    (hvalue : IsValue attr.2) : '<' ∉ attrText attr := by
  simp only [attrText, List.mem_cons, List.mem_append, List.not_mem_nil, or_false, not_or]
  exact ⟨by decide, notMem_of_isName hkey (by decide), by decide, by decide, hvalue.2.1, by decide⟩

theorem lt_notMem_startTag {name : String} {attrs : List (String × List Char)}
    (hname : isName name = true) (hattrs : ValidAttrs attrs) (close : Close) :
    '<' ∉ name.toList ++ (attrs.flatMap attrText ++ close.text) := by
  rw [List.mem_append, List.mem_append, List.mem_flatMap]
  rintro (h | ⟨attr, hattr, h⟩ | h)
  · exact notMem_of_isName hname (by decide) h
  · obtain ⟨hkey, hvalue⟩ := hattrs attr hattr
    exact lt_notMem_attrText hkey hvalue h
  · exact close.lt_notMem h

theorem lt_notMem_endTag {name : String} (hname : isName name = true) :
    '<' ∉ ('/' :: name.toList) ++ ['>'] := by
  rw [List.cons_append, List.mem_cons, List.mem_append, List.mem_singleton]
  rintro (h | h | h)
  · exact absurd h (by decide)
  · exact notMem_of_isName hname (by decide) h
  · exact absurd h (by decide)

/-- A start tag with another name holds no tag that is looked for. -/
theorem contains_startTag {needle s : List Char} {name : String} {close : Close}
    {attrs : List (String × List Char)} (hattrs : ValidAttrs attrs) (hname : isName name = true)
    (hneedle : ¬ needle <+: name.toList) (hfront : ¬ name.toList <+: needle) :
    contains ('<' :: needle) (startTagText name attrs close ++ s) =
      contains ('<' :: needle) s :=
  contains_skipFront _ _ hneedle hfront (lt_notMem_startTag hname hattrs close)

/-- Nor does an end tag. -/
theorem contains_endTag {needle s : List Char} {name : String} (hname : isName name = true)
    (hneedle : ¬ needle <+: '/' :: name.toList) (hfront : ¬ '/' :: name.toList <+: needle) :
    contains ('<' :: needle) (endTagText name ++ s) = contains ('<' :: needle) s :=
  contains_skipFront ('/' :: name.toList) ['>'] hneedle hfront (lt_notMem_endTag hname)

end Xml

namespace FoundAfter

open Xml

variable {needle s before after : List Char}

/-- A search for a tag passes over a start tag with another name. -/
theorem skipStartTag (h : FoundAfter ('<' :: needle) s before after) (name : String)
    (close : Close) {attrs : List (String × List Char)} (hattrs : ValidAttrs attrs)
    (hname : isName name = true) (hneedle : ¬ needle <+: name.toList)
    (hfront : ¬ name.toList <+: needle) :
    FoundAfter ('<' :: needle) (startTagText name attrs close ++ s)
      (startTagText name attrs close ++ before) after :=
  h.skipFront _ _ hneedle hfront (lt_notMem_startTag hname hattrs close)

/-- A search for a tag passes over an end tag with another name. -/
theorem skipEndTag (h : FoundAfter ('<' :: needle) s before after) (name : String)
    (hname : isName name = true) (hneedle : ¬ needle <+: '/' :: name.toList)
    (hfront : ¬ '/' :: name.toList <+: needle) :
    FoundAfter ('<' :: needle) (endTagText name ++ s) (endTagText name ++ before) after :=
  h.skipFront ('/' :: name.toList) ['>'] hneedle hfront (lt_notMem_endTag hname)

end FoundAfter

end Lib
