/-
# The egress policy of NVG

`northbound/src/nvg_policy.rs`: the check that a document passes before it is published.  It
shares its parts with the policy of CoT; its own are the vocabulary, the grammar of labels and the
order of the fields of modifiers.

A label is a platform and a mark in brackets, and the policy splits it at the first bracket.  Its
check of brackets looks at the platform; what stands in brackets has been checked as a field of
the modifiers by then (`NvgLabel` says what this leaves open).
-/
import Musubi.Northbound.WirePolicy

namespace Musubi.Northbound.NvgPolicy

open Lib WirePolicy

/-! ## 1. What is declared -/

def nvgNs : Text := "https://tide.act.nato.int/schemas/2012/10/nvg".toList

def nvgVersion : Text := "2.0.0".toList

def declaredNvgSymbols : List Text :=
  ["app6b:SU-P------*****", "app6b:SUAP------*****", "app6b:SUSP------*****",
    "app6b:SUGP------*****"].map String.toList

def declaredModifierPrefixes : List Text :=
  ["MARK:", "REASON:", "CONF:", "BASIS:"].map String.toList

def declaredMarkStatus : List Text :=
  ["OK", "DEGRADED", "INVALID", "ORDER_UNKNOWN", "WITHHELD", "STALE_REVOCATION",
    "SELF_ASSERTED_TIME", "BUFFER_SATURATED"].map String.toList

def labelBoundaryChars : List Char := ['[', ']']

def declaredPointTags : List Text := ["TimeStamp"].map String.toList

def maxUriWireChars : ℕ := 128

def maxLabelWireChars : ℕ := 1024

def maxModifiersWireChars : ℕ := 1024

inductive NvgPolicyViolation
  | notUtf8
  | documentTooLarge (bytes : ℕ)
  | noNvgElement
  | noPointElement
  | missingAttr (attr : String)
  | undeclaredNamespace (found : Text)
  | undeclaredVersion (found : Text)
  | undeclaredSymbol (found : Text)
  | prohibitedMarkup (found : String)
  | undeclaredEntity (found : Text)
  | escapedFieldContent (field : String) (found : Text)
  | undeclaredPointTag (found : Text)
  | pointChildCount (found : ℕ)
  | labelShape (found : Text)
  | undeclaredMarkStatus (found : Text)
  | uriBreaksLabelBoundary (found : Text)
  | modifiersFieldCount (found : ℕ)
  | modifiersPrefix (index : ℕ) (found : Text)
  | undeclaredBasis (found : Text)
  | malformedConfidence (found : Text)
  | disallowedCodepoint (field : String) (codepoint : ℕ)
  | fieldTooLong (field : String) (chars max : ℕ)
  | emptyField (field : String)
deriving DecidableEq, Repr

abbrev Check := Except NvgPolicyViolation

/-! ## 2. The parts of the check -/

/-- `ok_or`. -/
def okOr {α : Type} (o : Option α) (e : NvgPolicyViolation) : Check α :=
  match o with
  | some a => .ok a
  | none => .error e

def checkMarkupFloor (xml : Text) : Check Unit :=
  match WirePolicy.prohibitedMarkup xml, firstUndeclaredEntity xml with
  | some found, _ => .error (.prohibitedMarkup found)
  | none, some found => .error (.undeclaredEntity found)
  | none, none => .ok ()

def checkWireField (field : String) (value : Text) (maxChars : ℕ) : Check Unit :=
  (inspectWireField value maxChars).mapError fun
    | .empty => .emptyField field
    | .tooLong chars max => .fieldTooLong field chars max
    | .disallowedCodepoint codepoint => .disallowedCodepoint field codepoint

/-- `strip_suffix` of one character. -/
def stripLast (c : Char) (s : Text) : Option Text :=
  if s.getLast? = some c then some s.dropLast else none

/-- What stands before the first `:`, or all of it. -/
def beforeColon (s : Text) : Text :=
  match find [':'] s with
  | none => s
  | some i => s.take i

/-- The label is `uri [summary]`, and the uri holds no bracket. -/
def checkLabelGrammar (label uri : Text) : Check Unit :=
  if uri.any fun c => c ∈ labelBoundaryChars then .error (.uriBreaksLabelBoundary uri)
  else
    let rest := do
      let rest ← stripPrefix uri label
      let rest ← stripPrefix " [".toList rest
      stripLast ']' rest
    match rest with
    | none => .error (.labelShape label)
    | some summary =>
      let status := beforeColon summary
      if status ∉ declaredMarkStatus then .error (.undeclaredMarkStatus status) else .ok ()

def checkModifiersGrammar (modifiers : Text) : Check Unit := do
  let fields ← (inspectSemicolonFields modifiers declaredModifierPrefixes).mapError fun
    | .entity found => NvgPolicyViolation.escapedFieldContent "modifiers" found
    | .fieldCount found => .modifiersFieldCount found
    | .prefix_ index found => .modifiersPrefix index found
  -- there are four fields, each with its prefix
  let conf := (fields.getD 2 []).drop "CONF:".length
  if ¬ isTwoDecimal conf then .error (.malformedConfidence conf)
  else
    let basis := (fields.getD 3 []).drop "BASIS:".length
    if basis ∉ declaredBasisTokens then .error (.undeclaredBasis basis) else .ok ()

/-- What stands between `<point ...>` and `</point>`. -/
def pointInner (xml : Text) : Option Text := do
  let start ← find "<point".toList xml
  let stop ← find ['>'] (xml.drop start)
  let inner := xml.drop (start + stop + 1)
  let length ← find "</point>".toList inner
  return inner.take length

/-- The characters that `check_point_children` reads as a name. -/
def isPointNameChar (c : Char) : Bool :=
  Xml.inRanges [(0x30, 0x39), (0x41, 0x5A), (0x61, 0x7A)] c || c = '_' || c = '-' || c = '/'

/-- The children that open in what is left of the point, after `opened` before it. -/
def countPointChildren : Text → ℕ → Check ℕ
  | [], opened => .ok opened
  | c :: inner, opened =>
    if c = '<' then
      let name := inner.takeWhile isPointNameChar
      let bare := name.dropWhile (· = '/')
      if bare ∈ declaredPointTags then
        countPointChildren inner (if name.head? = some '/' then opened else opened + 1)
      else .error (.undeclaredPointTag bare)
    else countPointChildren inner opened

def checkPointChildren (inner : Text) : Check Unit := do
  let opened ← countPointChildren inner 0
  if opened ≠ 1 then .error (.pointChildCount opened) else .ok ()

/-! ## 3. The check -/

/-- The namespace and the version of the root. -/
def checkRoot (nvg : Text) : Check Unit := do
  let ns ← okOr (attr nvg "xmlns".toList) (.missingAttr "xmlns")
  if ns ≠ nvgNs then .error (.undeclaredNamespace ns)
  else
    let version ← okOr (attr nvg "version".toList) (.missingAttr "version")
    if version ≠ nvgVersion then .error (.undeclaredVersion version) else .ok ()

def checkSymbol (point : Text) : Check Unit := do
  let symbol ← okOr (attr point "symbol".toList) (.missingAttr "symbol")
  if symbol ∉ declaredNvgSymbols then .error (.undeclaredSymbol symbol) else .ok ()

/-- The check on text. -/
def checkNvgDocument (xml : Text) : Check Unit := do
  checkMarkupFloor xml
  let nvg ← okOr (openTag xml "nvg".toList) .noNvgElement
  checkRoot nvg
  let point ← okOr (openTag xml "point".toList) .noPointElement
  let uri ← okOr (attr point "uri".toList) (.missingAttr "uri")
  checkWireField "uri" uri maxUriWireChars
  checkSymbol point
  let label ← okOr (attr point "label".toList) (.missingAttr "label")
  checkWireField "label" label maxLabelWireChars
  checkLabelGrammar label uri
  let modifiers ← okOr (attr point "modifiers".toList) (.missingAttr "modifiers")
  checkWireField "modifiers" modifiers maxModifiersWireChars
  checkModifiersGrammar modifiers
  let inner ← okOr (pointInner xml) .noPointElement
  checkPointChildren inner

def checkNvgDocumentBytes (bytes : ByteArray) : Check Unit :=
  if maxDocumentBytes < bytes.size then .error (.documentTooLarge bytes.size)
  else match String.fromUTF8? bytes with
    | none => .error .notUtf8
    | some xml => checkNvgDocument xml.toList

end Musubi.Northbound.NvgPolicy
