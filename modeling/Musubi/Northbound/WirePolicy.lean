/-
# Wire checks that the dialects share

`northbound/src/wire_policy.rs`: checks of text that name no dialect, and the two scanners
`open_tag` and `attr` that cut a start tag and an attribute value out of a document.  Text is a
list of characters; slices at positions that a search returned are `drop` and `take`.

The scanners take the first place where their needle stands.  `open_tag` looks for an angle
bracket and the name, so a longer name is found too; `attr` looks for the key with its equals sign
and quote, wherever in the tag that is.  They are translated as they stand, and the modules about
the dialects say when they find what was meant.
-/
import Mathlib.Data.List.TakeWhile
import Musubi.Lib.Result
import Musubi.Lib.Substr
import Musubi.Lib.Text
import Musubi.Lib.Xml

namespace Musubi.Northbound

open Lib

/-- `&str`. -/
abbrev Text := List Char

namespace WirePolicy

/-! ## 1. What may stand on the wire -/

def declaredEntities : List Text := ["&amp;", "&lt;", "&gt;", "&quot;"].map String.toList

def declaredBasisTokens : List Text :=
  ["adapter-assigned", "measured", "unspecified"].map String.toList

/-- The one XML declaration that is let through. -/
def xmlDecl : Text := "<?xml version=\"1.0\" encoding=\"UTF-8\"?>".toList

def maxDocumentBytes : ℕ := 8192

def isDisallowedCodepoint : Char → Bool :=
  Xml.inRanges [(0x00, 0x1F), (0x7F, 0x7F), (0x80, 0x9F), (0x061C, 0x061C), (0x200B, 0x200F),
    (0x202A, 0x202E), (0x2060, 0x2060), (0x2066, 0x2069), (0xFEFF, 0xFEFF)]

/-- `char::is_whitespace`: the code points with the property `White_Space`. -/
def isWhitespace : Char → Bool :=
  Xml.inRanges [(0x09, 0x0D), (0x20, 0x20), (0x85, 0x85), (0xA0, 0xA0), (0x1680, 0x1680),
    (0x2000, 0x200A), (0x2028, 0x2029), (0x202F, 0x202F), (0x205F, 0x205F), (0x3000, 0x3000)]

/-- `str::trim`. -/
def trim (s : Text) : Text := ((s.dropWhile isWhitespace).reverse.dropWhile isWhitespace).reverse

def isAsciiDigit : Char → Bool := Xml.inRanges [(0x30, 0x39)]

/-- The fixed two-digit decimal that confidences are written as. -/
def isTwoDecimal (s : Text) : Bool :=
  match find ['.'] s with
  | none => false
  | some i =>
    let int := s.take i
    let frac := s.drop (i + 1)
    !int.isEmpty && int.all isAsciiDigit && frac.length == 2 && frac.all isAsciiDigit

/-- A text is blank when it has white space only. -/
theorem trim_isEmpty_iff (s : Text) : (trim s).isEmpty = true ↔ s.all isWhitespace = true := by
  unfold trim
  rw [List.isEmpty_iff, List.reverse_eq_nil_iff, List.dropWhile_eq_nil_iff, List.all_eq_true]
  constructor
  · intro h c hc
    by_contra hspace
    have hmem : c ∈ s.dropWhile isWhitespace := by
      clear h
      induction s with
      | nil => cases hc
      | cons d s ih =>
        rw [List.dropWhile_cons]
        split
        · next hd =>
          rcases List.mem_cons.mp hc with rfl | hc
          · exact absurd hd hspace
          · exact ih hc
        · exact hc
    exact hspace (h c (List.mem_reverse.mpr hmem))
  · intro h c hc
    exact h c ((List.dropWhile_sublist _).mem (List.mem_reverse.mp hc))

theorem trim_isEmpty_eq_false {s : Text} {c : Char} (hc : c ∈ s)
    (hspace : isWhitespace c = false) : (trim s).isEmpty = false := by
  rw [Bool.eq_false_iff, ne_eq, trim_isEmpty_iff, List.all_eq_true]
  intro hall
  rw [hall c hc] at hspace
  cases hspace

/-! ## 2. Fields -/

inductive FieldFault
  | empty
  | tooLong (chars max : ℕ)
  | disallowedCodepoint (codepoint : ℕ)
deriving DecidableEq, Repr

def inspectWireField (value : Text) (maxChars : ℕ) : Except FieldFault Unit :=
  if (trim value).isEmpty then .error .empty
  else if maxChars < value.length then .error (.tooLong value.length maxChars)
  else match value.find? isDisallowedCodepoint with
    | some c => .error (.disallowedCodepoint c.toNat)
    | none => .ok ()

inductive GrammarFault
  | entity (found : Text)
  | fieldCount (found : ℕ)
  | prefix_ (index : ℕ) (found : Text)
deriving DecidableEq, Repr

/-- The first entity reference, cut after twelve characters. -/
def firstEntityReference (text : Text) : Option Text :=
  (find ['&'] text).map fun i => (text.drop i).take 12

/-- The fields between `;`, one for each prefix and starting with it. -/
def inspectSemicolonFields (text : Text) (prefixes : List Text) :
    Except GrammarFault (List Text) :=
  match firstEntityReference text with
  | some found => .error (.entity found)
  | none =>
    let fields := text.splitOn ';'
    if fields.length ≠ prefixes.length then .error (.fieldCount fields.length)
    else match (fields.zip prefixes).zipIdx.find? fun x => !x.1.2.isPrefixOf x.1.1 with
      | some ((field, _), index) => .error (.prefix_ index field)
      | none => .ok fields

/-! ## 3. Markup -/

/-- A comment, a document type declaration, a CDATA section or a further instruction. -/
def prohibitedMarkup (xml : Text) : Option String :=
  if contains "<!".toList xml then some "<!"
  else if contains "<?".toList ((stripPrefix xmlDecl xml).getD xml) then some "<?"
  else none

/-- The first reference other than the declared ones, cut after twelve characters. -/
def firstUndeclaredEntity : Text → Option Text
  | [] => none
  | c :: xml =>
    if c = '&' ∧ ¬ declaredEntities.any (·.isPrefixOf (c :: xml)) then some ((c :: xml).take 12)
    else firstUndeclaredEntity xml

/-- The start tag of the element `name`: from the first `<name` to the next `>`. -/
def openTag (xml name : Text) : Option Text := do
  let start ← find ('<' :: name) xml
  let rest := xml.drop start
  let stop ← find ['>'] rest
  return rest.take (stop + 1)

/-- The value of `key="..."` in a start tag: from the first `key="` to the next quote. -/
def attr (scope key : Text) : Option Text := do
  let needle := key ++ ['=', '"']
  let start ← find needle scope
  let rest := scope.drop (start + needle.length)
  let stop ← find ['"'] rest
  return rest.take stop

end WirePolicy

end Musubi.Northbound
