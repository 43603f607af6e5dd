/-
# XML 1.0 documents

A `Document` is a derivation of the grammar of XML 1.0 together with its well-formedness
constraints: names match because an element stores its name once, attribute names of a tag are
distinct, references without a document type declaration are predefined.  What the author chose
is kept (quotes, white space, how a character is referred to), so `Document.text` is the text
of the document and not a normal form of it.

Two parts are not analysed: the rest of an XML declaration and the inside of a document type
declaration are free text up to their ends.  Everything a document type declaration could do
to the elements after it is thus outside of this module.

`Document.tokens` cuts the text at its tags; proofs about scanners go along the tokens, where
`<` stands only at the front of a tag (`Token.Shaped`).
-/
import Mathlib.Data.List.Basic
import Musubi.Lib.Substr

namespace Lib

namespace Xml

/-! ## 1. Characters and names -/

def inRanges (ranges : List (ℕ × ℕ)) (c : Char) : Bool :=
  ranges.any fun r => r.1 ≤ c.toNat && c.toNat ≤ r.2

/-- `Char` of the grammar. -/
def isXmlChar : Char → Bool :=
  inRanges [(0x9, 0xA), (0xD, 0xD), (0x20, 0xD7FF), (0xE000, 0xFFFD), (0x10000, 0x10FFFF)]

/-- White space. -/
def isSpace : Char → Bool := inRanges [(0x9, 0xA), (0xD, 0xD), (0x20, 0x20)]

def isNameStart : Char → Bool :=
  inRanges [(0x3A, 0x3A), (0x41, 0x5A), (0x5F, 0x5F), (0x61, 0x7A), (0xC0, 0xD6), (0xD8, 0xF6),
    (0xF8, 0x2FF), (0x370, 0x37D), (0x37F, 0x1FFF), (0x200C, 0x200D), (0x2070, 0x218F),
    (0x2C00, 0x2FEF), (0x3001, 0xD7FF), (0xF900, 0xFDCF), (0xFDF0, 0xFFFD), (0x10000, 0xEFFFF)]

def isNameChar (c : Char) : Bool :=
  isNameStart c ||
    inRanges [(0x2D, 0x2E), (0x30, 0x39), (0xB7, 0xB7), (0x300, 0x36F), (0x203F, 0x2040)] c

structure Name where
  text : List Char
  start : text.head?.any isNameStart = true
  chars : text.all isNameChar = true
deriving DecidableEq

/-- Optional white space. -/
structure Space where
  text : List Char
  spaces : text.all isSpace = true
deriving DecidableEq

def noSpace : Space := ⟨[], rfl⟩

/-! ## 2. References and attributes -/

inductive Reference
  /-- `&name;`, which stands for the replacement. -/
  | entity (name : Name) (replacement : List Char)
  /-- `&#digits;` -/
  | decimal (digits : List Char)
  /-- `&#xdigits;` -/
  | hex (digits : List Char)
deriving DecidableEq

/-- The entities that every document has. -/
def predefinedEntities : List (List Char × List Char) :=
  [("amp".toList, ['&']), ("lt".toList, ['<']), ("gt".toList, ['>']), ("apos".toList, ['\'']),
    ("quot".toList, ['"'])]

def isDigit : Char → Bool := inRanges [(0x30, 0x39)]

def isHexDigit : Char → Bool := inRanges [(0x30, 0x39), (0x41, 0x46), (0x61, 0x66)]

def hexValue (c : Char) : ℕ :=
  if c.toNat ≤ 0x39 then c.toNat - 0x30
  else if c.toNat ≤ 0x46 then c.toNat - 0x37
  else c.toNat - 0x57

def digitsValue (base : ℕ) (digits : List Char) : ℕ :=
  digits.foldl (fun n c => base * n + hexValue c) 0

namespace Reference

def text : Reference → List Char
  | entity name _ => '&' :: (name.text ++ [';'])
  | decimal digits => '&' :: '#' :: (digits ++ [';'])
  | hex digits => '&' :: '#' :: 'x' :: (digits ++ [';'])

/-- What the reference stands for. -/
def value : Reference → List Char
  | entity _ replacement => replacement
  | decimal digits => [Char.ofNat (digitsValue 10 digits)]
  | hex digits => [Char.ofNat (digitsValue 16 digits)]

/-- A character reference has digits and refers to a character of XML. -/
def valid : Reference → Bool
  | entity _ _ => true
  | decimal digits => digits.all isDigit && (decimal digits).value.all isXmlChar
  | hex digits => digits.all isHexDigit && (hex digits).value.all isXmlChar

def predefined : Reference → Bool
  | entity name replacement => (name.text, replacement) ∈ predefinedEntities
  | _ => true

end Reference

inductive Quote
  | single
  | double
deriving DecidableEq

def Quote.char : Quote → Char
  | single => '\''
  | double => '"'

/-- A piece of an attribute value. -/
inductive Piece
  | char (c : Char)
  | ref (r : Reference)
deriving DecidableEq

namespace Piece

def text : Piece → List Char
  | char c => [c]
  | ref r => r.text

/-- White space in an attribute value is read as a space. -/
def value : Piece → List Char
  | char c => [if isSpace c then ' ' else c]
  | ref r => r.value

def valid (q : Quote) : Piece → Bool
  | char c => isXmlChar c && c ≠ '<' && c ≠ '&' && c ≠ q.char
  | ref r => r.valid

end Piece

/-- An attribute, with the white space before it. -/
structure Attribute where
  lead : Space
  lead_ne : lead.text ≠ []
  name : Name
  beforeEq : Space
  afterEq : Space
  quote : Quote
  pieces : List Piece
  valid : pieces.all (Piece.valid quote) = true
deriving DecidableEq

namespace Attribute

/-- The value as it is written. -/
def raw (a : Attribute) : List Char := a.pieces.flatMap Piece.text

/-- The value that the document reports. -/
def value (a : Attribute) : List Char := a.pieces.flatMap Piece.value

def text (a : Attribute) : List Char :=
  a.lead.text ++ a.name.text ++ a.beforeEq.text ++ '=' :: (a.afterEq.text ++
    a.quote.char :: (a.raw ++ [a.quote.char]))

end Attribute

/-! ## 3. Tags -/

/-- The name and the attributes of an element. -/
structure Tag where
  name : Name
  attrs : List Attribute
  distinct : (attrs.map Attribute.name).Nodup
  trail : Space
deriving DecidableEq

/-- How a start tag ends. -/
inductive Close
  | open_
  | empty
deriving DecidableEq

def Close.text : Close → List Char
  | open_ => ['>']
  | empty => ['/', '>']

/-- The tag after its name. -/
def Tag.rest (t : Tag) (close : Close) : List Char :=
  t.attrs.flatMap Attribute.text ++ (t.trail.text ++ close.text)

def Tag.text (t : Tag) (close : Close) : List Char := '<' :: (t.name.text ++ t.rest close)

def Tag.references (t : Tag) : List Reference :=
  t.attrs.flatMap fun a => a.pieces.filterMap fun
    | .char _ => none
    | .ref r => some r

/-! ## 4. Content and documents -/

/-- Character data, perhaps none. -/
structure CharData where
  text : List Char
  valid : text.all (fun c => isXmlChar c && c ≠ '<' && c ≠ '&') = true
  noEnd : ¬ [']', ']', '>'] <:+: text

structure Comment where
  body : List Char
  valid : body.all isXmlChar = true
  noDashes : ¬ ['-', '-'] <:+: body ++ ['-']

structure Cdata where
  body : List Char
  valid : body.all isXmlChar = true
  noEnd : ¬ [']', ']', '>'] <:+: body

/-- A processing instruction: a target other than `xml` and what follows it. -/
structure Instruction where
  target : Name
  notXml : target.text.map Char.toLower ≠ "xml".toList
  body : List Char
  separated : body.head?.all isSpace = true
  valid : body.all isXmlChar = true
  noEnd : ¬ ['?', '>'] <:+: target.text ++ body

/-- An XML declaration; its parts are not analysed. -/
structure Declaration where
  body : List Char
  separated : body.head?.any isSpace = true
  noEnd : ¬ ['?', '>'] <:+: "xml".toList ++ body

inductive Markup
  | reference (r : Reference) (valid : r.valid = true)
  | comment (c : Comment)
  | instruction (i : Instruction)
  | cdata (c : Cdata)

/-- The content of an element: character data, between any two of which stands an item. -/
inductive Content
  | data (d : CharData)
  | markup (d : CharData) (m : Markup) (rest : Content)
  | empty (d : CharData) (tag : Tag) (rest : Content)
  | element (d : CharData) (tag : Tag) (children : Content) (closeSpace : Space) (rest : Content)

inductive Misc
  | comment (c : Comment)
  | instruction (i : Instruction)
  | space (s : Space)

inductive Root
  | empty (tag : Tag)
  | element (tag : Tag) (children : Content) (closeSpace : Space)

/-! ## 5. Tokens -/

/-- A piece of the text of a document. -/
inductive Token
  | data (s : List Char)
  | reference (r : Reference)
  /-- `<?body?>` -/
  | question (body : List Char)
  /-- `<!body` -/
  | bang (body : List Char)
  | openTag (tag : Tag) (close : Close)
  | closeTag (name : Name) (space : Space)

namespace Token

def text : Token → List Char
  | data s => s
  | reference r => r.text
  | question body => '<' :: '?' :: (body ++ ['?', '>'])
  | bang body => '<' :: '!' :: body
  | openTag tag close => tag.text close
  | closeTag name space => '<' :: '/' :: (name.text ++ (space.text ++ ['>']))

/-- The element that starts here. -/
def element? : Token → Option Tag
  | openTag tag _ => some tag
  | _ => none

def references : Token → List Reference
  | reference r => [r]
  | openTag tag _ => tag.references
  | _ => []

end Token

def Comment.token (c : Comment) : Token := .bang ('-' :: '-' :: (c.body ++ ['-', '-', '>']))

def Cdata.token (c : Cdata) : Token := .bang ("[CDATA[".toList ++ (c.body ++ [']', ']', '>']))

def Instruction.token (i : Instruction) : Token := .question (i.target.text ++ i.body)

def Declaration.token (d : Declaration) : Token := .question ("xml".toList ++ d.body)

def Markup.token : Markup → Token
  | reference r _ => .reference r
  | comment c => c.token
  | instruction i => i.token
  | cdata c => c.token

def Misc.token : Misc → Token
  | comment c => c.token
  | instruction i => i.token
  | space s => .data s.text

def Content.tokens : Content → List Token
  | data d => [.data d.text]
  | markup d m rest => .data d.text :: m.token :: rest.tokens
  | empty d tag rest => .data d.text :: .openTag tag .empty :: rest.tokens
  | element d tag children closeSpace rest =>
    .data d.text :: .openTag tag .open_ :: (children.tokens ++
      .closeTag tag.name closeSpace :: rest.tokens)

def Root.tokens : Root → List Token
  | empty tag => [.openTag tag .empty]
  | element tag children closeSpace =>
    .openTag tag .open_ :: (children.tokens ++ [.closeTag tag.name closeSpace])

/-- What stands before the root element: a byte order mark, the XML declaration, and the
document type declaration between comments, instructions and white space. -/
structure Prolog where
  mark : Bool
  declaration : Option Declaration
  head : List Misc
  doctype : Option (List Char × List Misc)

def Prolog.tokens (p : Prolog) : List Token :=
  (if p.mark then [.data ['\uFEFF']] else []) ++ p.declaration.toList.map Declaration.token ++
    p.head.map Misc.token ++ match p.doctype with
      | none => []
      | some (body, misc) => .bang ("DOCTYPE".toList ++ body) :: misc.map Misc.token

def documentTokens (prolog : Prolog) (root : Root) (tail : List Misc) : List Token :=
  prolog.tokens ++ root.tokens ++ tail.map Misc.token

/-- **A well-formed document.** -/
structure Document where
  prolog : Prolog
  root : Root
  tail : List Misc
  declared : prolog.doctype = none →
    ∀ t ∈ documentTokens prolog root tail, ∀ r ∈ t.references, r.predefined = true

namespace Document

def tokens (d : Document) : List Token := documentTokens d.prolog d.root d.tail

def text (d : Document) : List Char := d.tokens.flatMap Token.text

/-- The bytes in UTF-8, the encoding of every document whose declaration names no other. -/
def bytes (d : Document) : ByteArray := (String.ofList d.text).toUTF8

/-- The elements in document order. -/
def elements (d : Document) : List Tag := d.tokens.filterMap Token.element?

end Document

/-! ## 6. Where `<` stands -/

theorem isNameChar_of_isHexDigit {c : Char} (h : isHexDigit c = true) : isNameChar c = true := by
  simp [isHexDigit, isNameChar, isNameStart, inRanges] at h ⊢
  omega

theorem isHexDigit_of_isDigit {c : Char} (h : isDigit c = true) : isHexDigit c = true := by
  simp [isHexDigit, isDigit, inRanges] at h ⊢
  omega

theorem isNameChar_of_isSpace {c : Char} (h : isSpace c = true) : isNameChar c = false := by
  simp [isSpace, isNameChar, isNameStart, inRanges] at h ⊢
  omega

/-- A character that a property of all characters of the text excludes. -/
theorem notMem_of_all {p : Char → Bool} {s : List Char} (h : s.all p = true) {c : Char}
    (hc : p c = false) : c ∉ s := by
  intro hmem
  have hp := List.all_eq_true.mp h c hmem
  rw [hc] at hp
  cases hp

/-- A name is not empty. -/
theorem Name.eq_cons (n : Name) : ∃ c more, n.text = c :: more ∧ isNameStart c = true := by
  have hstart := n.start
  cases htext : n.text with
  | nil =>
    rw [htext] at hstart
    cases hstart
  | cons c more =>
    rw [htext, List.head?_cons, Option.any_some] at hstart
    exact ⟨c, more, rfl, hstart⟩

section NotMem

variable {c : Char} (hname : isNameChar c = false) (hsyn : c ∉ ['&', '#', ';'])
include hname

theorem Name.notMem (n : Name) : c ∉ n.text := notMem_of_all n.chars hname

theorem isHexDigit_eq_false : isHexDigit c = false := by
  by_contra h
  rw [isNameChar_of_isHexDigit (by simpa using h)] at hname
  cases hname

include hsyn

/-- A reference has characters of names besides its own syntax. -/
theorem Reference.notMem {r : Reference} (hr : r.valid = true) : c ∉ r.text := by
  simp only [List.mem_cons, List.not_mem_nil, or_false, not_or] at hsyn
  have hx : c ≠ 'x' := by
    rintro rfl
    revert hname
    decide
  cases r with
  | entity name replacement =>
    simp only [text, List.mem_cons, List.mem_append, List.not_mem_nil, or_false, not_or]
    exact ⟨hsyn.1, name.notMem hname, hsyn.2.2⟩
  | decimal digits =>
    rw [valid, Bool.and_eq_true] at hr
    have hdigit : isDigit c = false := by
      by_contra h
      have hhex := isHexDigit_of_isDigit (c := c) (by simpa using h)
      rw [isHexDigit_eq_false hname] at hhex
      cases hhex
    simp only [text, List.mem_cons, List.mem_append, List.not_mem_nil, or_false, not_or]
    exact ⟨hsyn.1, hsyn.2.1, notMem_of_all hr.1 hdigit, hsyn.2.2⟩
  | hex digits =>
    rw [valid, Bool.and_eq_true] at hr
    simp only [text, List.mem_cons, List.mem_append, List.not_mem_nil, or_false, not_or]
    exact ⟨hsyn.1, hsyn.2.1, hx, notMem_of_all hr.1 (isHexDigit_eq_false hname),
      hsyn.2.2⟩

/-- A value neither holds `<` nor the quote it stands between. -/
theorem Attribute.notMem_raw (a : Attribute) (h : c = '<' ∨ c = a.quote.char) : c ∉ a.raw := by
  intro hmem
  obtain ⟨piece, hpiece, hc⟩ := List.mem_flatMap.mp hmem
  have hvalid := List.all_eq_true.mp a.valid piece hpiece
  cases piece with
  | char c' =>
    rw [Piece.text, List.mem_singleton] at hc
    subst hc
    simp only [Piece.valid, Bool.and_eq_true, decide_eq_true_eq] at hvalid
    exact h.elim hvalid.1.1.2 hvalid.2
  | ref r => exact Reference.notMem hname hsyn hvalid hc

end NotMem

theorem Attribute.lt_notMem (a : Attribute) : '<' ∉ a.text := by
  have hquote : '<' ≠ a.quote.char := by cases a.quote <;> decide
  simp only [Attribute.text, List.mem_append, List.mem_cons, List.not_mem_nil, or_false, not_or]
  exact ⟨⟨⟨notMem_of_all a.lead.spaces (by decide), a.name.notMem (by decide)⟩,
    notMem_of_all a.beforeEq.spaces (by decide)⟩, by decide,
    notMem_of_all a.afterEq.spaces (by decide), hquote,
    a.notMem_raw (by decide) (by decide) (Or.inl rfl), hquote⟩

theorem Close.lt_notMem (close : Close) : '<' ∉ close.text := by cases close <;> decide

theorem Tag.lt_notMem (t : Tag) (close : Close) : '<' ∉ t.name.text ++ t.rest close := by
  simp only [Tag.rest, List.mem_append, List.mem_flatMap, not_or, not_exists, not_and]
  exact ⟨t.name.notMem (by decide), fun a _ => a.lt_notMem,
    notMem_of_all t.trail.spaces (by decide), close.lt_notMem⟩

theorem Space.ne_nameChar (s : Space) {c : Char} {more : List Char} (h : s.text = c :: more) :
    isNameChar c = false :=
  isNameChar_of_isSpace (List.all_eq_true.mp s.spaces c (h ▸ List.mem_cons_self))

/-- What follows the name of a tag does not continue it. -/
theorem Tag.rest_eq_cons (t : Tag) (close : Close) :
    ∃ c more, t.rest close = c :: more ∧ isNameChar c = false := by
  unfold Tag.rest
  cases t.attrs with
  | nil =>
    cases htrail : t.trail.text with
    | nil => cases close <;> exact ⟨_, _, rfl, by decide⟩
    | cons c more => exact ⟨c, _, rfl, t.trail.ne_nameChar htrail⟩
  | cons a attrs =>
    obtain ⟨c, more, hlead⟩ := List.exists_cons_of_ne_nil a.lead_ne
    simp only [List.flatMap_cons, Attribute.text, hlead, List.cons_append]
    exact ⟨c, _, rfl, a.lead.ne_nameChar hlead⟩

/-- What a token of a document is known to hold: `<` only at its front, and `?>` only at its
end where it starts with `<?`. -/
def Token.Shaped : Token → Prop
  | data s => '<' ∉ s
  | reference r => r.valid = true
  | question body => ¬ ['?', '>'] <:+: body
  | _ => True

theorem Misc.shaped (m : Misc) : m.token.Shaped := by
  cases m with
  | comment c => exact trivial
  | instruction i => exact i.noEnd
  | space s => exact notMem_of_all s.spaces (by decide)

theorem Markup.shaped (m : Markup) : m.token.Shaped := by
  cases m with
  | reference r valid => exact valid
  | comment c => exact trivial
  | instruction i => exact i.noEnd
  | cdata c => exact trivial

theorem CharData.shaped (d : CharData) : (Token.data d.text).Shaped :=
  notMem_of_all d.valid (by decide)

theorem Content.shaped (c : Content) : ∀ t ∈ c.tokens, t.Shaped := by
  induction c with
  | data d =>
    simp only [Content.tokens, List.forall_mem_cons]
    exact ⟨d.shaped, fun _ h => nomatch h⟩
  | markup d m rest ih =>
    simp only [Content.tokens, List.forall_mem_cons]
    exact ⟨d.shaped, m.shaped, ih⟩
  | empty d tag rest ih =>
    simp only [Content.tokens, List.forall_mem_cons]
    exact ⟨d.shaped, trivial, ih⟩
  | element d tag children closeSpace rest ihc ihr =>
    simp only [Content.tokens, List.forall_mem_cons, List.forall_mem_append]
    exact ⟨d.shaped, trivial, ihc, trivial, ihr⟩

theorem Root.shaped (r : Root) : ∀ t ∈ r.tokens, t.Shaped := by
  cases r with
  | empty tag =>
    simp only [Root.tokens, List.forall_mem_cons]
    exact ⟨trivial, fun _ h => nomatch h⟩
  | element tag children closeSpace =>
    simp only [Root.tokens, List.forall_mem_cons, List.forall_mem_append]
    exact ⟨trivial, children.shaped, trivial, fun _ h => nomatch h⟩

theorem shaped_of_mem_map_misc {l : List Misc} : ∀ t ∈ l.map Misc.token, t.Shaped := by
  simp only [List.forall_mem_map]
  exact fun m _ => m.shaped

theorem Prolog.shaped (p : Prolog) : ∀ t ∈ p.tokens, t.Shaped := by
  obtain ⟨mark, declaration, head, doctype⟩ := p
  simp only [Prolog.tokens, List.forall_mem_append]
  refine ⟨⟨⟨?_, ?_⟩, shaped_of_mem_map_misc⟩, ?_⟩
  · cases mark with
    | false => exact fun _ h => nomatch h
    | true =>
      simp only [if_true, List.forall_mem_singleton, Token.Shaped]
      decide
  · simp only [List.forall_mem_map]
    exact fun declaration _ => declaration.noEnd
  · rcases doctype with _ | ⟨body, misc⟩
    · exact fun _ h => nomatch h
    · simp only [List.forall_mem_cons]
      exact ⟨trivial, shaped_of_mem_map_misc⟩

/-- **Every token of a document is shaped.** -/
theorem Document.shaped (d : Document) : ∀ t ∈ d.tokens, t.Shaped := by
  simp only [Document.tokens, documentTokens, List.forall_mem_append]
  exact ⟨⟨d.prolog.shaped, d.root.shaped⟩, shaped_of_mem_map_misc⟩

/-! ## 7. Searching for a tag -/

/-- A tag, or text between tags. -/
def Token.Plain : Token → Prop
  | question _ => False
  | bang _ => False
  | _ => True

section Search

variable {needle : List Char} (hneedle : needle.all isNameChar = true)
include hneedle

/-- A needle of name characters starts after a `<` only where a name with this prefix does. -/
theorem prefix_name_iff (t : Tag) (close : Close) (s : List Char) :
    needle <+: t.name.text ++ t.rest close ++ s ↔ needle <+: t.name.text := by
  obtain ⟨c, more, hrest, hc⟩ := t.rest_eq_cons close
  constructor
  · intro h
    rw [hrest, List.append_assoc, List.cons_append] at h
    exact prefix_of_prefix_append_cons (notMem_of_all hneedle hc) h
  · intro h
    rw [List.append_assoc]
    exact h.trans (List.prefix_append _ _)

variable (hne : needle ≠ [])
include hne

/-- The search passes over a token that opens no element whose name starts so. -/
theorem find_token {t : Token} (hshaped : t.Shaped) (hplain : t.Plain)
    (hname : ∀ tag ∈ t.element?, ¬ needle <+: tag.name.text) (s : List Char) :
    find ('<' :: needle) (t.text ++ s) =
      (find ('<' :: needle) s).map (t.text.length + ·) := by
  have htag : ∀ tail : List Char, '<' ∉ tail → ¬ needle <+: tail ++ s →
      find ('<' :: needle) ('<' :: tail ++ s) =
        (find ('<' :: needle) s).map (('<' :: tail).length + ·) := by
    intro tail htail hpre
    have hpre' : ¬ '<' :: needle <+: '<' :: (tail ++ s) := fun h =>
      hpre (List.cons_prefix_cons.mp h).2
    rw [List.cons_append, find_cons hpre', find_append_of_notMem htail, map_add_map_succ,
      List.length_cons]
  cases t with
  | data text => exact find_append_of_notMem hshaped
  | reference r => exact find_append_of_notMem (Reference.notMem (by decide) (by decide) hshaped)
  | question body => exact hplain.elim
  | bang body => exact hplain.elim
  | openTag tag close =>
    refine htag _ (tag.lt_notMem close) fun h => ?_
    exact hname tag rfl ((prefix_name_iff hneedle tag close s).mp h)
  | closeTag name space =>
    refine htag _ ?_ ?_
    · simp only [List.mem_cons, List.mem_append, List.not_mem_nil, or_false, not_or]
      exact ⟨by decide, name.notMem (by decide), notMem_of_all space.spaces (by decide), by decide⟩
    · -- a needle of name characters does not start with a slash
      obtain ⟨c, needle', rfl⟩ := List.exists_cons_of_ne_nil hne
      intro h
      rw [List.cons_append, List.cons_prefix_cons] at h
      rw [h.1, List.all_cons, Bool.and_eq_true] at hneedle
      exact absurd hneedle.1 (by decide)

/-- **The search for `<needle` ends at the first element whose name starts so.** -/
theorem find_openTag {tag : Tag} {ts : List Token} (hts : ∀ t ∈ ts, t.Shaped ∧ t.Plain)
    (h : (ts.filterMap Token.element?).find? (fun t => needle.isPrefixOf t.name.text) =
      some tag) :
    ∃ before close after, ts.flatMap Token.text = before ++ (tag.text close ++ after) ∧
      find ('<' :: needle) (ts.flatMap Token.text) = some before.length := by
  induction ts with
  | nil => cases h
  | cons t ts ih =>
    rw [List.forall_mem_cons] at hts
    by_cases hname : ∀ tag ∈ t.element?, ¬ needle <+: tag.name.text
    · -- the token opens no such element: the search goes on after it
      have hrest : (ts.filterMap Token.element?).find?
          (fun t => needle.isPrefixOf t.name.text) = some tag := by
        cases helement : t.element? with
        | none => rwa [List.filterMap_cons_none helement] at h
        | some first =>
          rw [List.filterMap_cons_some helement] at h
          have hfirst := mt List.isPrefixOf_iff_prefix.mp (hname first helement)
          rwa [List.find?_cons_of_neg (p := fun t : Tag => needle.isPrefixOf t.name.text)
            hfirst] at h
      obtain ⟨before, close, after, htext, hfind⟩ := ih hts.2 hrest
      refine ⟨t.text ++ before, close, after, ?_, ?_⟩
      · rw [List.flatMap_cons, htext, List.append_assoc]
      · rw [List.flatMap_cons, find_token hneedle hne hts.1.1 hts.1.2 hname, hfind,
          Option.map_some, List.length_append]
    · simp only [not_forall, not_not] at hname
      obtain ⟨first, hfirst, hpre⟩ := hname
      cases t with
      | openTag _ close =>
        cases hfirst
        rw [List.filterMap_cons_some (f := Token.element?) rfl,
          List.find?_cons_of_pos (p := fun t : Tag => needle.isPrefixOf t.name.text)
            (List.isPrefixOf_iff_prefix.mpr hpre)] at h
        cases h
        have hhere := (prefix_name_iff hneedle tag close (ts.flatMap Token.text)).mpr hpre
        exact ⟨[], close, ts.flatMap Token.text, rfl,
          find_of_isPrefix (List.cons_prefix_cons.mpr ⟨rfl, hhere⟩)⟩
      | _ => cases hfirst

end Search

end Xml

end Lib
