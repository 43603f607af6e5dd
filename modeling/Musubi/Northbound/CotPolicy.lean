/-
# The egress policy of CoT

`northbound/src/cot_policy.rs`: the check that an event passes before it is published and again
before it is sent.  It reads the bytes as text and looks for the parts it knows; it is not a
parser of XML.

The parts are looked for in an order, and each is bounded and matched against what is declared:
the type of the event, the times, the point, the remarks and their four fields.  What the check
says about the strings of an envelope is in `CotFidelity` and `Completeness`; what it says about
documents that this repository did not print is in `CotTypeScan`.
-/
import Musubi.Northbound.WirePolicy

namespace Musubi.Northbound.CotPolicy

open Lib WirePolicy

/-! ## 1. What is declared -/

def declaredCotTypes : List Text := ["a-u", "a-u-A", "a-u-S", "a-u-G"].map String.toList

def declaredDetailTags : List Text := ["remarks"].map String.toList

def declaredRemarksPrefixes : List Text :=
  ["MARK:", "CONF:", "PROV:", "BASIS:"].map String.toList

def maxEventBytes : ℕ := maxDocumentBytes

def maxUidWireChars : ℕ := 128

def maxRemarksWireChars : ℕ := 1024

inductive CotPolicyViolation
  | notUtf8
  | eventTooLarge (bytes : ℕ)
  | noEventElement
  | missingAttr (attr : String)
  | undeclaredType (found : Text)
  | prohibitedMarkup (found : String)
  | undeclaredEntity (found : Text)
  | noDetailElement
  | noRemarksElement
  | undeclaredDetailTag (found : Text)
  | detailChildCount (found : ℕ)
  | remarksFieldCount (found : ℕ)
  | remarksPrefix (index : ℕ) (found : Text)
  | undeclaredBasis (found : Text)
  | malformedConfidence (found : Text)
  | disallowedCodepoint (field : String) (codepoint : ℕ)
  | fieldTooLong (field : String) (chars max : ℕ)
  | emptyField (field : String)
deriving DecidableEq, Repr

abbrev Check := Except CotPolicyViolation

/-! ## 2. The parts of the check -/

def checkMarkupFloor (xml : Text) : Check Unit :=
  match WirePolicy.prohibitedMarkup xml, firstUndeclaredEntity xml with
  | some found, _ => .error (.prohibitedMarkup found)
  | none, some found => .error (.undeclaredEntity found)
  | none, none => .ok ()

/-- What stands between `<detail ...>` and `</detail>`. -/
def detailInner (xml : Text) : Option Text := do
  let start ← find "<detail".toList xml
  let stop ← find ['>'] (xml.drop start)
  let inner := xml.drop (start + stop + 1)
  let length ← find "</detail>".toList inner
  return inner.take length

/-- The characters that `check_detail_children` reads as a name. -/
def isDetailNameChar (c : Char) : Bool :=
  Xml.inRanges [(0x30, 0x39), (0x41, 0x5A), (0x61, 0x7A)] c || c = '_' || c = '-' || c = '/'

/-- The children that open in what is left of the detail, after `opened` before it. -/
def countDetailChildren : Text → ℕ → Check ℕ
  | [], opened => .ok opened
  | c :: inner, opened =>
    if c = '<' then
      let name := inner.takeWhile isDetailNameChar
      let bare := name.dropWhile (· = '/')
      if bare ∈ declaredDetailTags then
        countDetailChildren inner (if name.head? = some '/' then opened else opened + 1)
      else .error (.undeclaredDetailTag bare)
    else countDetailChildren inner opened

def checkDetailChildren (inner : Text) : Check Unit := do
  let opened ← countDetailChildren inner 0
  if opened ≠ 1 then .error (.detailChildCount opened) else .ok ()

def checkWireField (field : String) (value : Text) (maxChars : ℕ) : Check Unit :=
  (inspectWireField value maxChars).mapError fun
    | .empty => .emptyField field
    | .tooLong chars max => .fieldTooLong field chars max
    | .disallowedCodepoint codepoint => .disallowedCodepoint field codepoint

def checkRemarksGrammar (remarks : Text) : Check Unit := do
  let fields ← (inspectSemicolonFields remarks declaredRemarksPrefixes).mapError fun
    | .entity found => CotPolicyViolation.undeclaredEntity found
    | .fieldCount found => .remarksFieldCount found
    | .prefix_ index found => .remarksPrefix index found
  -- there are four fields, each with its prefix
  let conf := (fields.getD 1 []).drop "CONF:".length
  if ¬ isTwoDecimal conf then .error (.malformedConfidence conf)
  else
    let basis := (fields.getD 3 []).drop "BASIS:".length
    if basis ∉ declaredBasisTokens then .error (.undeclaredBasis basis) else .ok ()

/-- The text between `<name>` and `</name>`. -/
def elementText (scope name : Text) : Option Text := do
  let start ← find ('<' :: (name ++ ['>'])) scope
  let rest := scope.drop (start + (name.length + 2))
  let stop ← find ('<' :: '/' :: (name ++ ['>'])) rest
  return rest.take stop

/-- `ok_or`. -/
def okOr {α : Type} (o : Option α) (e : CotPolicyViolation) : Check α :=
  match o with
  | some a => .ok a
  | none => .error e

/-! ## 3. The check -/

def checkType (event : Text) : Check Unit := do
  let cotType ← okOr (attr event "type".toList) (.missingAttr "type")
  if cotType ∉ declaredCotTypes then .error (.undeclaredType cotType) else .ok ()

/-- The check on text. -/
def checkCotEvent (xml : Text) : Check Unit := do
  checkMarkupFloor xml
  let event ← okOr (openTag xml "event".toList) .noEventElement
  checkType event
  let uid ← okOr (attr event "uid".toList) (.missingAttr "uid")
  checkWireField "uid" uid maxUidWireChars
  let detail ← okOr (detailInner xml) .noDetailElement
  checkDetailChildren detail
  let remarks ← okOr (elementText detail "remarks".toList) .noRemarksElement
  checkWireField "remarks" remarks maxRemarksWireChars
  checkRemarksGrammar remarks

def checkCotEventBytes (bytes : ByteArray) : Check Unit :=
  if maxEventBytes < bytes.size then .error (.eventTooLarge bytes.size)
  else match String.fromUTF8? bytes with
    | none => .error .notUtf8
    | some xml => checkCotEvent xml.toList

end Musubi.Northbound.CotPolicy
