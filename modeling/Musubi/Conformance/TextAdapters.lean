/-
# The text adapters under the harness

Every check of the harness, for every payload.  The adapters for vessels and the template put
texts of the payload into marks as they are: a column that cannot be read, the text of a JSON
error, the name of an application and the names of unknown fields.  Where one of these holds the
separator the harness finds it, and it finds nothing else (`normalizers_conform_iff`).

The separator is the semicolon between the parts of a provenance and of the reasons.  The
interface of the adapters asks of whoever makes an INVALID error that neither of its texts holds
one; the two adapters do not see to it.  `debug` formatting does not help, as it escapes quotes
and control characters and leaves a semicolon alone (`sepFree_debugText_iff`).

An adapter is a chain of steps that may refuse, and the harness looks at the outcome.  `Conforms`
is the specification of a step: its errors pass the harness, and what it returns has a property
that the next step starts from.  So each step has one lemma, and the two adapters are the lemmas
of their steps in a row.  The conditions (`TemplatePlain`, `UsvPlain`) name the texts that are
quoted: of the template the first column that cannot be read, of the vessels' adapter the error of
the JSON library or, in a frame that is accepted, the names that it brings.
-/
import Musubi.Adapter.Template
import Musubi.Conformance.Harness
import Musubi.Lib.Result
import Musubi.UsvJson.Normalizer

namespace Musubi.Conformance

open Lib Musubi.Core Adapter

/-! ## 1. Steps that may be refused -/

/-- What the harness finds in what a normalizer returns. -/
def checkOutput (sha256 : List UInt8 → Digest) (result : Except NormalizeError EvidenceEnvelope)
    (case : ConformanceCase) : List Violation :=
  match result with
  | .ok env => checkEnvelope sha256 env case
  | .error err => checkError err case

/-- An error of the step passes, and what it returns satisfies `Q`.  Steps are composed by taking
the `Q` of one for what the next may assume. -/
def Conforms {α : Type} (case : ConformanceCase) (x : Except NormalizeError α) (Q : α → Prop) :
    Prop :=
  match x with
  | .ok a => Q a
  | .error err => checkError err case = []

section Steps

variable {α β ε : Type} {case : ConformanceCase} {x : Except NormalizeError α} {Q : α → Prop}
  {R : β → Prop}

theorem conforms_bind {f : α → Except NormalizeError β} :
    Conforms case (x >>= f) R ↔ Conforms case x fun a => Conforms case (f a) R := by
  cases x with
  | error err => exact Iff.rfl
  | ok a => exact Iff.rfl

theorem conforms_mapError {y : Except ε α} {g : ε → NormalizeError} :
    Conforms case (y.mapError g) Q ↔
      (∀ e, y = .error e → checkError (g e) case = []) ∧ ∀ a, y = .ok a → Q a := by
  cases y with
  | error e => exact ⟨fun h => ⟨fun _ he => Except.error.inj he ▸ h, nofun⟩, fun h => h.1 e rfl⟩
  | ok a => exact ⟨fun h => ⟨nofun, fun _ ha => Except.ok.inj ha ▸ h⟩, fun h => h.2 a rfl⟩

/-- A step that returns nothing, and the steps after it: what is asked of the rest is asked only
where the step passes, and the step says when that is. -/
theorem forall_unit_iff_of_ok {y : Except ε Unit} {p q r : Prop} (h : y = .ok () ↔ p)
    (hqr : q ↔ r) : (∀ u, y = .ok u → q) ↔ (p → r) := by
  rw [← h, ← hqr]
  exact ⟨fun hq hy => hq () hy, fun hq _ hy => hq hy⟩

theorem checkOutput_eq_nil_iff {sha256 : List UInt8 → Digest}
    {result : Except NormalizeError EvidenceEnvelope} : checkOutput sha256 result case = [] ↔
      Conforms case result fun env => checkEnvelope sha256 env case = [] := by
  cases result with
  | error err => exact Iff.rfl
  | ok env => exact Iff.rfl

end Steps

/-! ## 2. Errors of adapters -/

section Errors

variable {case : ConformanceCase} {sourceId slug : String}

/-- **An INVALID error passes** when its detail has no separator. -/
theorem checkError_invalid_iff {reasonCode detail : String} (hcase : sourceId = case.raw.sourceId)
    (hid : SepFree sourceId) (hslug : SepFree slug) (hne : reasonCode ≠ "")
    (hreason : SepFree reasonCode) :
    checkError (invalid sourceId slug reasonCode detail) case = [] ↔ SepFree detail := by
  have hsource : SepFree "source:" := by decide
  have hadapter : SepFree "adapter:" := by decide
  rw [checkError_eq_nil_iff, checkMarkGrammar_eq_nil_iff]
  simp [invalid, hcase.symm, hid, hslug, hne, hreason, hsource, hadapter]

theorem sepFree_hex4 (n : ℕ) : SepFree (hex4 n) := by
  have hdigit (d : ℕ) : (Nat.digitChar d).toUpper ≠ ';' := by
    by_cases hd : d < 16
    · have hall : ∀ d < 16, (Nat.digitChar d).toUpper ≠ ';' := by decide
      exact hall d hd
    · rw [Nat.digitChar_eq_star.mpr (by omega)]
      decide
  unfold SepFree hex4
  rw [String.toList_ofList, List.mem_append, not_or]
  constructor
  · intro h
    exact absurd (List.eq_of_mem_replicate h) (by decide)
  · intro h
    obtain ⟨c, hc, heq⟩ := List.mem_map.mp h
    obtain ⟨d, rfl⟩ := exists_of_mem_toDigits hc
    exact hdigit d heq

/-- The text of a rejection has the separator only in the name of a field. -/
theorem sepFree_display : ∀ {reject : TextReject},
    (∀ field maxBytes actualBytes, reject = .fieldOversize field maxBytes actualBytes →
      SepFree field) →
    (∀ field codepoint, reject = .fieldDisallowedCodepoint field codepoint → SepFree field) →
    SepFree reject.display
  | .payloadOversize maxBytes actualBytes, _, _ =>
    sepFree_append.mpr ⟨sepFree_append.mpr ⟨sepFree_append.mpr ⟨by decide, sepFree_repr maxBytes⟩,
      by decide⟩, sepFree_repr actualBytes⟩
  | .jsonNestingExceeded maxDepth, _, _ =>
    sepFree_append.mpr ⟨by decide, sepFree_repr maxDepth⟩
  | .fieldOversize field maxBytes actualBytes, hfield, _ =>
    sepFree_append.mpr ⟨sepFree_append.mpr ⟨sepFree_append.mpr ⟨sepFree_append.mpr
      ⟨sepFree_append.mpr ⟨by decide, hfield _ _ _ rfl⟩, by decide⟩, sepFree_repr maxBytes⟩,
        by decide⟩, sepFree_repr actualBytes⟩
  | .fieldDisallowedCodepoint field codepoint, _, hfield =>
    sepFree_append.mpr ⟨sepFree_append.mpr ⟨sepFree_append.mpr ⟨by decide, hfield _ _ rfl⟩,
      by decide⟩, sepFree_hex4 codepoint⟩

theorem sepFree_of_payloadSize {payload : List UInt8} {maxBytes : ℕ} {reject : TextReject}
    (h : payloadSize payload maxBytes = .error reject) : SepFree reject.display := by
  unfold payloadSize at h
  split at h
  · rw [← Except.error.inj h]
    exact sepFree_display nofun nofun
  · cases h

theorem sepFree_of_jsonNesting {bytes : List UInt8} {maxDepth : ℕ} {reject : TextReject}
    (h : jsonNesting bytes maxDepth = .error reject) : SepFree reject.display := by
  unfold jsonNesting at h
  cases hscan : rejectIfJsonNestingExceeds bytes maxDepth with
  | ok u =>
    rw [hscan] at h
    cases h
  | error e =>
    rw [hscan] at h
    rw [← Except.error.inj h]
    exact sepFree_display nofun nofun

theorem sepFree_of_quarantineStrField {field raw : String} {maxBytes : ℕ} {reject : TextReject}
    (hfield : SepFree field) (h : quarantineStrField field raw maxBytes = .error reject) :
    SepFree reject.display := by
  unfold quarantineStrField at h
  split at h
  · rw [← Except.error.inj h]
    refine sepFree_display ?_ nofun
    intro name _ _ hreject
    cases hreject
    exact hfield
  split at h
  · rw [← Except.error.inj h]
    refine sepFree_display nofun ?_
    intro name _ hreject
    cases hreject
    exact hfield
  · cases h

/-- A quarantined observation is reported without the separator, as long as the reasons of the
refusals have none. -/
theorem checkError_quarantineError {reject : TextReject} (hcase : sourceId = case.raw.sourceId)
    (hid : SepFree sourceId) (hslug : SepFree slug) (h : SepFree reject.display) :
    checkError (quarantineError sourceId slug reject) case = [] := by
  have hquarantine : SepFree "quarantine:" := by decide
  have hdetail : SepFree ("quarantine:" ++ reject.display) := sepFree_append.mpr ⟨hquarantine, h⟩
  exact (checkError_invalid_iff hcase hid hslug (by decide) (by decide)).mpr hdetail

theorem sepFree_toText (v : F64) : SepFree v.toText :=
  notMem_displayText (by decide) (by decide) _ _ _

theorem sepFree_toText32 (v : F32) : SepFree v.toText :=
  notMem_displayText (by decide) (by decide) _ _ _

theorem sepFree_utf8Error (e : Utf8Error) : SepFree e.display := by
  have hinvalid : SepFree "invalid utf-8 sequence of " := by decide
  have hbytes : SepFree " bytes from index " := by decide
  have hincomplete : SepFree "incomplete utf-8 byte sequence from index " := by decide
  unfold Utf8Error.display
  split
  · simp [hinvalid, hbytes]
  · simp [hincomplete]

theorem payloadSize_eq_ok_iff {payload : List UInt8} {maxBytes : ℕ} :
    payloadSize payload maxBytes = .ok () ↔ payload.length ≤ maxBytes := by
  unfold payloadSize
  split
  · exact iff_of_false nofun (by omega)
  · exact iff_of_true rfl (by omega)

end Errors

/-! ## 3. Columns of the template -/

section Columns

open Template

def isNumber (tok : String) : Bool := (F64.parse tok).any F64.isFinite

/-- A number, or the token that says that there is none. -/
def isColumn (tok : String) : Bool := tok = absentToken || isNumber tok

/-- The first column that cannot be read. -/
def firstUnread (wire : String) : Option String :=
  match columnsOf wire with
  | latTok :: lonTok :: optional =>
    ([latTok, lonTok].find? fun tok => !isNumber tok).or
      ((optional.take 3).find? fun tok => !isColumn tok)
  | _ => none

/-- A line of two columns that are numbers and a third that is not. -/
example : firstUnread "35.5 139.25 high;low -" = some "high;low" ∧
    firstUnread "35.5 139.25 - - - more" = none := by decide +kernel

variable {printed : Char → Bool} {α β : Type}

/-- A step reads its column, or quotes it: its error has the separator where the column has it. -/
def Quotes (x : Except ParseErr α) (unread : Option String) (Q : α → Prop) : Prop :=
  match x with
  | .ok a => unread = none ∧ Q a
  | .error e => ∃ tok, unread = some tok ∧ e.code = "field-unparseable" ∧
      (SepFree e.detail ↔ SepFree tok)

theorem quotes_bind {x : Except ParseErr α} {f : α → Except ParseErr β}
    {unread later : Option String} {Q : α → Prop} {R : β → Prop} (hx : Quotes x unread Q)
    (hf : ∀ a, Q a → Quotes (f a) later R) : Quotes (x >>= f) (unread.or later) R := by
  cases x with
  | ok a =>
    obtain ⟨rfl, hQ⟩ := hx
    exact hf a hQ
  | error e =>
    obtain ⟨tok, rfl, he⟩ := hx
    exact ⟨tok, rfl, he⟩

/-- The last step, which only puts together what was read: it can fail no more, so what it returns
is what the step before it says. -/
theorem quotes_bind_return {x : Except ParseErr α} {f : α → β} {unread : Option String}
    {Q : α → Prop} {R : β → Prop} (hx : Quotes x unread Q) (hf : ∀ a, Q a → R (f a)) :
    Quotes (x >>= fun a => .ok (f a)) unread R := by
  rw [← Option.or_none (o := unread)]
  exact quotes_bind hx fun a ha => ⟨rfl, hf a ha⟩

/-- **What is quoted has the separator** where the text has it. -/
theorem sepFree_debugText_iff {s : String} : SepFree (debugText printed s) ↔ SepFree s :=
  not_congr (mem_debugText (by decide) (by decide) (by decide))

theorem quotes_error {tok what : String} (hwhat : SepFree what) {Q : α → Prop} :
    Quotes (.error ⟨"field-unparseable", what ++ debugText printed tok⟩ : Except ParseErr α)
      (some tok) Q := by
  refine ⟨tok, rfl, rfl, ?_⟩
  rw [sepFree_append, sepFree_debugText_iff]
  exact and_iff_right hwhat

theorem quotes_parseRequired (tok : String) {name : String} (hname : SepFree name) :
    Quotes (parseRequired printed tok name) ((some tok).filter fun tok => !isNumber tok)
      fun v => v.isFinite = true := by
  have heq : SepFree "=" := by decide
  have hnot : SepFree "-not-finite:" := by decide
  unfold parseRequired isNumber
  cases hparse : F64.parse tok with
  | none =>
    simp only [Option.filter, hparse, Option.any_none, Bool.not_false, if_true]
    exact quotes_error (sepFree_append.mpr ⟨hname, heq⟩)
  | some v =>
    simp only [Option.filter, hparse, Option.any_some]
    cases hfinite : v.isFinite with
    | true => exact ⟨rfl, hfinite⟩
    | false => exact quotes_error (sepFree_append.mpr ⟨hname, hnot⟩)

theorem quotes_parseOptional (tok : Option String) {name : String} (hname : SepFree name) :
    Quotes (parseOptional printed tok name) (tok.filter fun tok => !isColumn tok)
      fun v => ∀ x ∈ v, x.isFinite = true := by
  have heq : SepFree "=" := by decide
  have hnot : SepFree "-not-finite:" := by decide
  unfold parseOptional isColumn isNumber
  cases tok with
  | none => exact ⟨rfl, nofun⟩
  | some tok =>
    by_cases habsent : tok = absentToken
    · simp only [Option.filter, habsent, decide_true, Bool.true_or, Bool.not_true]
      exact ⟨rfl, nofun⟩
    · simp only [Option.filter, habsent, if_false, decide_false, Bool.false_or]
      cases hparse : F64.parse tok with
      | none => exact quotes_error (sepFree_append.mpr ⟨hname, heq⟩)
      | some v =>
        by_cases hfinite : v.isFinite = true
        · simp only [Option.any_some, hfinite, if_true, Bool.not_true]
          refine ⟨rfl, fun x hx => ?_⟩
          rwa [← Option.mem_some.mp hx]
        · simp only [Option.any_some, hfinite, Bool.not_false, if_true]
          exact quotes_error (sepFree_append.mpr ⟨hname, hnot⟩)

theorem find?_cons_eq_or (p : String → Bool) (a : String) (l : List String) :
    (a :: l).find? p = ((some a).filter p).or (l.find? p) := by
  rw [List.find?_cons, Option.filter]
  cases p a with
  | true => rfl
  | false => rfl

theorem find?_take_three (p : String → Bool) : ∀ l : List String,
    (l.take 3).find? p = (l[0]?.filter p).or ((l[1]?.filter p).or (l[2]?.filter p))
  | [] => rfl
  | [a] => find?_cons_eq_or p a []
  | [a, b] => by
    rw [List.take_of_length_le (by simp), find?_cons_eq_or, find?_cons_eq_or]
    rfl
  | a :: b :: c :: l => by
    have htake : (a :: b :: c :: l).take 3 = [a, b, c] := rfl
    rw [htake, find?_cons_eq_or, find?_cons_eq_or, find?_cons_eq_or, List.find?_nil, Option.or_none]
    rfl

/-- The numbers of an observation that the harness looks at. -/
structure FiniteObs (obs : RawObs) : Prop where
  lat : obs.lat.isFinite = true
  lon : obs.lon.isFinite = true
  altM : ∀ v ∈ obs.altM, v.isFinite = true

theorem Quotes.cases {x : Except ParseErr α} {unread : Option String} {Q : α → Prop}
    (h : Quotes x unread Q) : (∃ a, x = .ok a ∧ Q a ∧ ∀ tok, unread = some tok → SepFree tok) ∨
      ∃ e, x = .error e ∧ e.code = "field-unparseable" ∧
        (SepFree e.detail ↔ ∀ tok, unread = some tok → SepFree tok) := by
  match x, h with
  | .ok a, h => exact Or.inl ⟨a, rfl, h.2, fun tok htok => nomatch h.1.symm.trans htok⟩
  | .error e, h =>
    obtain ⟨tok, rfl, hcode, hdetail⟩ := h
    refine Or.inr ⟨e, rfl, hcode, hdetail.trans ?_⟩
    exact ⟨fun hplain _ h => Option.some.inj h ▸ hplain, fun h => h tok rfl⟩

theorem quotes_parseMyDevice (printed : Char → Bool) {wire latTok lonTok : String}
    {optional : List String} (h : columnsOf wire = latTok :: lonTok :: optional) :
    Quotes (parseMyDevice printed wire) (firstUnread wire) FiniteObs := by
  unfold parseMyDevice firstUnread
  rw [h]
  dsimp only
  rw [find?_cons_eq_or, find?_cons_eq_or, List.find?_nil, Option.or_none, find?_take_three,
    Option.or_assoc]
  refine quotes_bind (quotes_parseRequired latTok (by decide)) fun lat hlat => ?_
  refine quotes_bind (quotes_parseRequired lonTok (by decide)) fun lon hlon => ?_
  refine quotes_bind (quotes_parseOptional optional[0]? (by decide)) fun altM haltM => ?_
  refine quotes_bind (quotes_parseOptional optional[1]? (by decide)) fun headingDeg _ => ?_
  exact quotes_bind_return (quotes_parseOptional optional[2]? (by decide))
    fun tsEpochS _ => ⟨hlat, hlon, haltM⟩

/-- **What the parser quotes** is the first column that cannot be read. -/
theorem parseMyDevice_cases (printed : Char → Bool) (wire : String) :
    (∃ obs, parseMyDevice printed wire = .ok obs ∧ FiniteObs obs ∧
      ∀ tok, firstUnread wire = some tok → SepFree tok) ∨
    ∃ e, parseMyDevice printed wire = .error e ∧
      (e.code = "field-unparseable" ∨ e.code = "wire-malformed") ∧
      (SepFree e.detail ↔ ∀ tok, firstUnread wire = some tok → SepFree tok) := by
  have hfew (n : ℕ) : SepFree ("expected at least 2 fields (lat lon), got " ++ n.repr) :=
    sepFree_append.mpr ⟨by decide, sepFree_repr n⟩
  match h : columnsOf wire with
  | latTok :: lonTok :: optional =>
    rcases (quotes_parseMyDevice printed h).cases with hok | ⟨e, he, hcode, hdetail⟩
    · exact Or.inl hok
    · exact Or.inr ⟨e, he, Or.inl hcode, hdetail⟩
  | [] =>
    unfold parseMyDevice firstUnread
    rw [h]
    exact Or.inr ⟨_, rfl, Or.inr rfl, iff_of_true (hfew _) nofun⟩
  | [tok] =>
    unfold parseMyDevice firstUnread
    rw [h]
    exact Or.inr ⟨_, rfl, Or.inr rfl, iff_of_true (hfew _) nofun⟩

/-- The payload is too long, is no text, or has no column that is quoted with the separator. -/
def TemplatePlain (payload : List UInt8) : Prop :=
  payload.length ≤ maxWireLineBytes → ∀ wire, fromUtf8 payload = .ok wire →
    ∀ tok, firstUnread wire = some tok → SepFree tok

variable {sha256 : List UInt8 → Digest} {raw : RawObservation} {case : ConformanceCase}

theorem conforms_checkRange (hcase : raw.sourceId = case.raw.sourceId) (hid : SepFree raw.sourceId)
    {name : String} (hname : SepFree name) {bound : ℚ} {v : F64} {Q : Unit → Prop}
    (h : F64.within (.ofRat (-bound)) (.ofRat bound) v = true → Q ()) :
    Conforms case (Template.checkRange raw.sourceId name bound v) Q := by
  have hrange : SepFree "-out-of-range:" := by decide
  unfold Template.checkRange
  split
  · refine (checkError_invalid_iff hcase hid (by decide) (by decide) (by decide)).mpr ?_
    exact sepFree_append.mpr ⟨sepFree_append.mpr ⟨hname, hrange⟩, sepFree_toText v⟩
  · rename_i hwithin
    exact h (by simpa using hwithin)

/-- What is put into the marks of a template's position is never from the payload as it is. -/
theorem sepFree_notesOf (obs : RawObs) :
    ∀ note ∈ Template.notesOf obs, SepFree note.provenance ∧ SepFree note.reasonCode := by
  have hempty : SepFree "" := by decide
  have hheading : SepFree "heading_deg:" := by decide
  have htime : SepFree (interpretTimestamp obs.tsEpochS).2.2.provenance ∧
      SepFree (interpretTimestamp obs.tsEpochS).2.2.reasonCode := by
    have hformat : SepFree "timestamp-format:epoch-sec" := by decide
    have habsent : SepFree "timestamp:absent" := by decide
    unfold interpretTimestamp
    split
    · exact ⟨hformat, hempty⟩
    · exact ⟨habsent, hempty⟩
  unfold Template.notesOf
  simp only [List.forall_mem_cons]
  refine ⟨?_, ?_, htime, ⟨by decide, hempty⟩, List.forall_mem_nil _⟩
  · split
    · exact ⟨by decide, hempty⟩
    · exact ⟨by decide, by decide⟩
  · split
    · exact ⟨sepFree_append.mpr ⟨hheading, sepFree_toText _⟩, hempty⟩
    · exact ⟨by decide, by decide⟩

theorem inUnit_interpretTimestamp (ts : Option F64) :
    inUnit (interpretTimestamp ts).2.1 = true := by
  have hepoch : inUnit timeConfEpochSec = true := by decide +kernel
  have habsent : inUnit timeConfAbsent = true := by decide +kernel
  unfold interpretTimestamp
  split
  · exact hepoch
  · exact habsent

theorem all_isFinite_of_forall {alt : Option F64} (h : ∀ v ∈ alt, v.isFinite = true) :
    alt.all F64.isFinite = true := by
  cases alt with
  | none => rfl
  | some v => exact h v rfl

/-- A position of the template passes.  The range of both coordinates and their being finite are
what the parser has already checked; the rest is in the envelope by construction. -/
theorem checkEnvelope_template (hcase : case.raw = raw) (hid : SepFree raw.sourceId)
    (hblank : isBlank raw.sourceId = false) {obs : RawObs} (hfinite : FiniteObs obs)
    (hlat : F64.within (.ofRat (-90)) (.ofRat 90) obs.lat = true)
    (hlon : F64.within (.ofRat (-180)) (.ofRat 180) obs.lon = true) :
    checkEnvelope sha256 (sealDigest sha256 (Template.envelopeOf raw obs)) case = [] := by
  have hslug : SepFree Template.adapterSlug := by decide
  have hconfidence : inUnit (.ofRat (6 / 10)) = true := by decide +kernel
  have hnotes := sepFree_notesOf obs
  have hmark : (Template.envelopeOf raw obs).claim.mark =
    deriveMark (Template.qualityOf raw.sourceId obs) := rfl
  have hplatform : (Template.envelopeOf raw obs).observation = .platformState
    { platformId := raw.sourceId
      position := some { latDeg := obs.lat, lonDeg := obs.lon, altM := obs.altM }
      mode := none
      timestamps :=
        { observedAt := (interpretTimestamp obs.tsEpochS).1
          receivedAt := raw.receivedAt
          timeConfidence := (interpretTimestamp obs.tsEpochS).2.1 }
      platformDomain := .unknown } := rfl
  have hposition : positionInRange ⟨obs.lat, obs.lon, obs.altM⟩ = true := by
    simp only [positionInRange, hfinite.lat, hfinite.lon, hlat, hlon,
      all_isFinite_of_forall hfinite.altM, Bool.and_self]
  have hclaim : isBlank (raw.sourceId ++ ":my-device-text") = false := by
    refine isBlank_eq_false (c := ':') ?_ (by decide)
    rw [String.toList_append]
    exact List.mem_append_right _ (by decide)
  have hgrammar := @checkMarkGrammar_deriveMark_iff (Template.qualityOf raw.sourceId obs) case hid
    hslug fun note hnote => (hnotes note hnote).2
  rw [checkEnvelope_sealDigest_iff, hmark, hplatform, checkObservation_platformState_iff rfl,
    hgrammar]
  refine ⟨isAdapterEmittable_deriveMark _, fun note hnote => (hnotes note hnote).1, ?_, hclaim,
    hconfidence⟩
  exact ⟨hblank, hposition, congrArg RawObservation.receivedAt hcase.symm,
    inUnit_interpretTimestamp obs.tsEpochS⟩

theorem conforms_parseLine (hcase : raw.sourceId = case.raw.sourceId) (hid : SepFree raw.sourceId)
    {Q : RawObs → Prop} (hQ : ∀ obs, FiniteObs obs → Q obs) :
    Conforms case (parseLine printed raw) Q ↔ TemplatePlain raw.payload := by
  have hslug : SepFree Template.adapterSlug := by decide
  have hutf8 : SepFree "not-utf8:" := by decide
  have hparse : SepFree "parse:" := by decide
  unfold parseLine TemplatePlain
  rw [conforms_bind, conforms_mapError, and_iff_right fun _ h =>
    checkError_quarantineError hcase hid hslug (sepFree_of_payloadSize h)]
  refine forall_unit_iff_of_ok payloadSize_eq_ok_iff ?_
  rw [conforms_bind, conforms_mapError, and_iff_right fun e _ =>
    (checkError_invalid_iff hcase hid hslug (by decide) (by decide)).mpr
      (sepFree_append.mpr ⟨hutf8, sepFree_utf8Error e⟩)]
  refine forall₂_congr fun wire _ => ?_
  rw [conforms_mapError]
  rcases parseMyDevice_cases printed wire with
    ⟨obs, hobs, hfinite, hplain⟩ | ⟨e, he, hcode, hdetail⟩
  · rw [hobs]
    exact iff_of_true ⟨nofun, fun _ h => Except.ok.inj h ▸ hQ obs hfinite⟩ hplain
  · have hcheck : checkError (invalid raw.sourceId Template.adapterSlug e.code
        ("parse:" ++ e.detail)) case = [] ↔ SepFree ("parse:" ++ e.detail) := by
      rcases hcode with hcode | hcode
      · rw [hcode]
        exact checkError_invalid_iff hcase hid hslug (by decide) (by decide)
      · rw [hcode]
        exact checkError_invalid_iff hcase hid hslug (by decide) (by decide)
    rw [he, ← hdetail]
    constructor
    · intro h
      exact (sepFree_append.mp (hcheck.mp (h.1 e rfl))).2
    · intro h
      refine ⟨fun _ heq => ?_, nofun⟩
      rw [← Except.error.inj heq]
      exact hcheck.mpr (sepFree_append.mpr ⟨hparse, h⟩)

/-- **The template conforms** when it quotes no column with the separator. -/
theorem template_conforms_iff (hcase : case.raw = raw) (hid : SepFree raw.sourceId)
    (hblank : isBlank raw.sourceId = false) :
    checkOutput sha256 (Template.normalize printed sha256 raw) case = [] ↔
      TemplatePlain raw.payload := by
  have hsource : raw.sourceId = case.raw.sourceId := congrArg RawObservation.sourceId hcase.symm
  unfold Template.normalize
  rw [checkOutput_eq_nil_iff, conforms_bind]
  refine conforms_parseLine hsource hid fun obs hfinite => ?_
  rw [conforms_bind]
  refine conforms_checkRange hsource hid (by decide) fun hlat => ?_
  rw [conforms_bind]
  refine conforms_checkRange hsource hid (by decide) fun hlon => ?_
  exact checkEnvelope_template hcase hid hblank hfinite hlat hlon

end Columns

/-! ## 4. Frames of vessels -/

section Frames

open UsvJson

variable {fromSlice : List UInt8 → Except String UsvTelemetryFrame} {sha256 : List UInt8 → Digest}
  {raw : RawObservation} {case : ConformanceCase} {frame : UsvTelemetryFrame}

/-- A frame that no check refuses, with what is taken from it.  The fields follow the checks of
the adapter, in their order. -/
structure Accepted (frame : UsvTelemetryFrame) (vehicleId : String) (lat lon : F64) : Prop where
  identity : identityOf frame = some vehicleId
  vehicle : quarantineStrField "vehicle_id" vehicleId maxStrFieldBytes = .ok ()
  latitude : frame.lat = some lat
  longitude : frame.lon = some lon
  latRange : inRange 90 lat = true
  lonRange : inRange 180 lon = true
  fix : frame.gnssFix ≠ some 0
  mode : ∀ mode, frame.mode = some mode →
    quarantineStrField "mode" mode maxStrFieldBytes = .ok ()

section Checks

variable {sourceId : String}

theorem checkError_refused_iff {reasonCode detail : String} (hcase : sourceId = case.raw.sourceId)
    (hid : SepFree sourceId) (hne : reasonCode ≠ "") (hreason : SepFree reasonCode) :
    checkError (refused sourceId reasonCode detail) case = [] ↔ SepFree detail :=
  checkError_invalid_iff hcase hid (by decide) hne hreason

theorem conforms_quarantined (hcase : sourceId = case.raw.sourceId) (hid : SepFree sourceId)
    {x : Except TextReject Unit} (hx : ∀ reject, x = .error reject → SepFree reject.display)
    {Q : Unit → Prop} :
    Conforms case (quarantined sourceId x) Q ↔ (x = .ok () → Q ()) := by
  refine conforms_mapError.trans ((and_iff_right fun reject h =>
    checkError_quarantineError hcase hid (by decide) (hx reject h)).trans ?_)
  exact ⟨fun h => h (), fun h _ => h⟩

theorem conforms_strField (hcase : sourceId = case.raw.sourceId) (hid : SepFree sourceId)
    {field : String} (hfield : SepFree field) {text : String} {maxBytes : ℕ} {Q : Unit → Prop} :
    Conforms case (quarantined sourceId (quarantineStrField field text maxBytes)) Q ↔
      (quarantineStrField field text maxBytes = .ok () → Q ()) :=
  conforms_quarantined hcase hid fun _ h => sepFree_of_quarantineStrField hfield h

theorem conforms_required {α : Type} (hcase : sourceId = case.raw.sourceId)
    (hid : SepFree sourceId) {name : String} (hname : SepFree name) {field : Option α}
    {Q : α → Prop} :
    Conforms case (required sourceId name field) Q ↔ ∀ v, field = some v → Q v := by
  cases field with
  | none =>
    refine iff_of_true ((checkError_refused_iff hcase hid (by decide) (by decide)).mpr ?_) nofun
    exact sepFree_append.mpr ⟨by decide, hname⟩
  | some v => exact ⟨fun h _ heq => Option.some.inj heq ▸ h, fun h => h v rfl⟩

theorem conforms_vesselRange (hcase : sourceId = case.raw.sourceId) (hid : SepFree sourceId)
    {name : String} (hname : SepFree name) {bound : ℚ} {v : F64} {Q : Unit → Prop} :
    Conforms case (UsvJson.checkRange sourceId name bound v) Q ↔
      (inRange bound v = true → Q ()) := by
  unfold UsvJson.checkRange
  cases h : inRange bound v with
  | false =>
    refine iff_of_true ((checkError_refused_iff hcase hid (by decide) (by decide)).mpr ?_) nofun
    exact sepFree_append.mpr ⟨sepFree_append.mpr ⟨hname, by decide⟩, sepFree_toText v⟩
  | true => exact ⟨fun hQ _ => hQ, fun hQ => hQ rfl⟩

theorem conforms_checkFix (hcase : sourceId = case.raw.sourceId) (hid : SepFree sourceId)
    {gnssFix : Option Int64} {Q : Unit → Prop} :
    Conforms case (checkFix sourceId gnssFix) Q ↔ (gnssFix ≠ some 0 → Q ()) := by
  unfold checkFix
  by_cases h : gnssFix = some 0
  · rw [if_pos h]
    refine iff_of_true ?_ fun hne => absurd h hne
    exact (checkError_refused_iff hcase hid (by decide) (by decide)).mpr (by decide)
  · rw [if_neg h]
    exact ⟨fun hQ _ => hQ, fun hQ => hQ h⟩

/-- **A refused frame is reported without the separator.** -/
theorem conforms_checkFrame (hcase : sourceId = case.raw.sourceId) (hid : SepFree sourceId)
    {Q : String × F64 × F64 → Prop} :
    Conforms case (checkFrame sourceId frame) Q ↔
      ∀ vehicleId lat lon, Accepted frame vehicleId lat lon → Q (vehicleId, lat, lon) := by
  have hvehicle : SepFree "vehicle_id" := by decide
  have hlat : SepFree "lat" := by decide
  have hlon : SepFree "lon" := by decide
  have hmode : SepFree "mode" := by decide
  unfold checkFrame
  simp only [conforms_bind, conforms_required hcase hid hvehicle, conforms_required hcase hid hlat,
    conforms_required hcase hid hlon, conforms_strField hcase hid hvehicle,
    conforms_vesselRange hcase hid hlat, conforms_vesselRange hcase hid hlon,
    conforms_checkFix hcase hid]
  cases h : frame.mode with
  | none =>
    constructor
    · intro hQ vehicleId lat lon ha
      exact hQ vehicleId ha.identity ha.vehicle lat ha.latitude lon ha.longitude ha.latRange
        ha.lonRange ha.fix
    · intro hQ vehicleId hidentity hquarantine lat hlat lon hlon hlatRange hlonRange hfix
      refine hQ vehicleId lat lon
        ⟨hidentity, hquarantine, hlat, hlon, hlatRange, hlonRange, hfix, ?_⟩
      exact fun mode hsome => nomatch h.symm.trans hsome
  | some mode =>
    simp only [conforms_bind, conforms_strField hcase hid hmode]
    constructor
    · intro hQ vehicleId lat lon ha
      exact hQ vehicleId ha.identity ha.vehicle lat ha.latitude lon ha.longitude ha.latRange
        ha.lonRange ha.fix (ha.mode mode h)
    · intro hQ vehicleId hidentity hquarantine lat hlat lon hlon hlatRange hlonRange hfix htext
      refine hQ vehicleId lat lon
        ⟨hidentity, hquarantine, hlat, hlon, hlatRange, hlonRange, hfix, ?_⟩
      intro m hsome
      rwa [← Option.some.inj (h.symm.trans hsome)]

end Checks

/-! ## 5. Positions of vessels -/

theorem forall_noteOf_iff {α : Type} {name : String} {display : α → String} {field : Option α}
    (hname : SepFree name) : (∀ note ∈ noteOf name display field, SepFree note.provenance) ↔
      ∀ v ∈ field, SepFree (display v) := by
  have hcolon : SepFree ":" := by decide
  cases field with
  | none => exact iff_of_true nofun nofun
  | some v => simp [noteOf, QualityNote.neutral, hname, hcolon]

theorem sepFree_toString_int64 (n : Int64) : SepFree (toString n) := by
  change SepFree (toString n.toInt)
  cases n.toInt with
  | ofNat m => exact sepFree_repr m
  | negSucc m => exact sepFree_append.mpr ⟨by decide, sepFree_repr (m + 1)⟩

theorem sepFree_interpretTimestamp (ts : Option TimestampField) :
    SepFree (UsvJson.interpretTimestamp ts).note.provenance := by
  have hiso : SepFree "timestamp-format:iso8601-utc" := by decide
  have hepoch : SepFree "timestamp-format:epoch-sec" := by decide
  have habsent : SepFree "timestamp:absent-or-malformed" := by decide
  unfold UsvJson.interpretTimestamp
  split
  · split
    · exact hiso
    · split
      · exact hepoch
      · exact habsent
  · split
    · exact hepoch
    · exact habsent
  · exact habsent

theorem inUnit_timeConfidence (ts : Option TimestampField) :
    inUnit (UsvJson.interpretTimestamp ts).timeConfidence = true := by
  have hiso : inUnit timeConfIso8601Utc = true := by decide +kernel
  have hepoch : inUnit UsvJson.timeConfEpochSec = true := by decide +kernel
  have habsent : inUnit UsvJson.timeConfAbsent = true := by decide +kernel
  unfold UsvJson.interpretTimestamp
  split
  · split
    · exact hiso
    · split
      · exact hepoch
      · exact habsent
  · split
    · exact hepoch
    · exact habsent
  · exact habsent

/-- **The names that a frame brings** are put into marks as they are. -/
theorem forall_notesOf_iff : (∀ note ∈ UsvJson.notesOf frame, SepFree note.provenance) ↔
    (∀ app ∈ frame.sourceApp, SepFree app) ∧ ∀ key ∈ frame.extra, SepFree key := by
  have hunknown : SepFree "unknown-field:" := by decide
  have hheading : SepFree "heading_deg:" := by decide
  unfold UsvJson.notesOf
  simp only [List.forall_mem_append, forall_noteOf_iff (by decide : SepFree "sog_knots"),
    forall_noteOf_iff (by decide : SepFree "depth_m"),
    forall_noteOf_iff (by decide : SepFree "battery_pct"),
    forall_noteOf_iff (by decide : SepFree "source-app"), List.forall_mem_map,
    List.forall_mem_cons]
  constructor
  · rintro ⟨⟨⟨-, happ⟩, hextra⟩, -⟩
    exact ⟨happ, fun key hkey => (sepFree_append.mp (hextra key hkey)).2⟩
  · rintro ⟨happ, hextra⟩
    refine ⟨⟨⟨⟨⟨⟨⟨?_, ?_, ?_, List.forall_mem_nil _⟩, fun _ _ => sepFree_toText32 _⟩,
      fun _ _ => sepFree_toText32 _⟩, fun _ _ => sepFree_toString_int64 _⟩, happ⟩,
      fun key hkey => sepFree_append.mpr ⟨hunknown, hextra key hkey⟩⟩,
      sepFree_interpretTimestamp _, by decide, List.forall_mem_nil _⟩
    · split
      · exact sepFree_append.mpr ⟨by decide, sepFree_toString_int64 _⟩
      · exact (by decide : SepFree "gnss_fix:absent-assumed-1")
    · split
      · exact (by decide : SepFree "alt-ref:MSL-assumed")
      · exact (by decide : SepFree "alt_m field absent")
    · split
      · exact sepFree_append.mpr ⟨hheading, sepFree_toText32 _⟩
      · exact (by decide : SepFree "heading_deg field absent")

theorem sepFree_reasonCodes : ∀ note ∈ UsvJson.notesOf frame, SepFree note.reasonCode := by
  have hempty : SepFree "" := by decide
  have hnote {α : Type} {name : String} {display : α → String} {field : Option α} :
      ∀ note ∈ noteOf name display field, SepFree note.reasonCode := by
    cases field with
    | none => exact nofun
    | some v => exact List.forall_mem_singleton.mpr hempty
  have htime : (UsvJson.interpretTimestamp frame.timestamp).note.reasonCode = "" := by
    unfold UsvJson.interpretTimestamp
    split
    · split
      · rfl
      · split <;> rfl
    · split <;> rfl
    · rfl
  unfold UsvJson.notesOf
  simp only [List.forall_mem_append, List.forall_mem_cons, List.forall_mem_map]
  refine ⟨⟨⟨⟨⟨⟨⟨?_, ?_, ?_, List.forall_mem_nil _⟩, hnote⟩, hnote⟩, hnote⟩, hnote⟩,
    fun _ _ => hempty⟩, htime ▸ hempty, hempty, List.forall_mem_nil _⟩
  · split <;> exact hempty
  · split
    · exact hempty
    · exact (by decide : SepFree "field-missing:alt")
  · split
    · exact hempty
    · exact (by decide : SepFree "field-missing:heading")

/-- A position of a vessel passes when the names that its frame brings do. -/
theorem checkEnvelope_vessel_iff (hcase : case.raw = raw) (hid : SepFree raw.sourceId)
    {vehicleId : String} {lat lon : F64} (haccepted : Accepted frame vehicleId lat lon)
    (haltM : ∀ v ∈ frame.altM, v.isFinite = true) :
    checkEnvelope sha256 (sealDigest sha256 (UsvJson.envelopeOf raw frame vehicleId lat lon)) case
      = [] ↔ (∀ app ∈ frame.sourceApp, SepFree app) ∧ ∀ key ∈ frame.extra, SepFree key := by
  have hslug : SepFree UsvJson.adapterSlug := by decide
  have hconfidence : inUnit (.ofRat (6 / 10)) = true := by decide +kernel
  have hslash : '/' ∈ (platformId raw vehicleId).toList := by
    unfold platformId
    rw [String.toList_append, String.toList_append]
    exact List.mem_append_left _ (List.mem_append_right _ (by decide))
  have hplatform : isBlank (platformId raw vehicleId) = false := isBlank_eq_false hslash (by decide)
  have hclaim : isBlank (platformId raw vehicleId ++ ":usv-telemetry-json") = false := by
    refine isBlank_eq_false (c := '/') ?_ (by decide)
    rw [String.toList_append]
    exact List.mem_append_left _ hslash
  obtain ⟨hlatFinite, hlat⟩ := (Bool.and_eq_true _ _).mp haccepted.latRange
  obtain ⟨hlonFinite, hlon⟩ := (Bool.and_eq_true _ _).mp haccepted.lonRange
  have hposition : positionInRange ⟨lat, lon, frame.altM⟩ = true := by
    simp only [positionInRange, hlatFinite, hlonFinite, hlat, hlon, all_isFinite_of_forall haltM,
      Bool.and_self]
  have hmark : (UsvJson.envelopeOf raw frame vehicleId lat lon).claim.mark =
    deriveMark (UsvJson.qualityOf raw.sourceId frame) := rfl
  have hobservation : (UsvJson.envelopeOf raw frame vehicleId lat lon).observation =
    .platformState
      { platformId := platformId raw vehicleId
        position := some { latDeg := lat, lonDeg := lon, altM := frame.altM }
        mode := frame.mode
        timestamps :=
          { observedAt := (UsvJson.interpretTimestamp frame.timestamp).observedAt
            receivedAt := raw.receivedAt
            timeConfidence := (UsvJson.interpretTimestamp frame.timestamp).timeConfidence }
        platformDomain := .surface } := rfl
  have hgrammar := @checkMarkGrammar_deriveMark_iff (UsvJson.qualityOf raw.sourceId frame) case hid
    hslug sepFree_reasonCodes
  rw [checkEnvelope_sealDigest_iff, hmark, hobservation, checkObservation_platformState_iff rfl,
    hgrammar, ← forall_notesOf_iff]
  constructor
  · exact fun h => h.2.1
  · intro h
    refine ⟨isAdapterEmittable_deriveMark _, h, ?_, hclaim, hconfidence⟩
    exact ⟨hplatform, hposition, congrArg RawObservation.receivedAt hcase.symm,
      inUnit_timeConfidence frame.timestamp⟩

/-- The text of a JSON error has no separator, nor have the names that an accepted frame brings. -/
structure UsvPlain (fromSlice : List UInt8 → Except String UsvTelemetryFrame)
    (payload : List UInt8) : Prop where
  error : checkBytes payload = .ok () → ∀ e, fromSlice payload = .error e → SepFree e
  names : checkBytes payload = .ok () → ∀ frame, fromSlice payload = .ok frame →
    ∀ vehicleId lat lon, Accepted frame vehicleId lat lon →
      (∀ app ∈ frame.sourceApp, SepFree app) ∧ ∀ key ∈ frame.extra, SepFree key

theorem sepFree_of_checkBytes {payload : List UInt8} {reject : TextReject}
    (h : checkBytes payload = .error reject) : SepFree reject.display := by
  unfold checkBytes at h
  cases hsize : payloadSize payload maxJsonPayloadBytes with
  | error e =>
    rw [hsize] at h
    exact Except.error.inj h ▸ sepFree_of_payloadSize hsize
  | ok u =>
    rw [hsize] at h
    exact sepFree_of_jsonNesting h

/-- **The vessels' adapter conforms** when no text of the payload that it quotes has the
separator. -/
theorem usv_conforms_iff (hcase : case.raw = raw) (hid : SepFree raw.sourceId)
    (haltM : ∀ payload frame, fromSlice payload = .ok frame → ∀ v ∈ frame.altM, v.isFinite = true) :
    checkOutput sha256 (UsvJson.normalize fromSlice sha256 raw) case = [] ↔
      UsvPlain fromSlice raw.payload := by
  have hsource : raw.sourceId = case.raw.sourceId := congrArg RawObservation.sourceId hcase.symm
  have herror (e : String) :
      checkError (refused raw.sourceId "json-malformed" ("json-error:" ++ e)) case = [] ↔
        SepFree e := by
    rw [checkError_refused_iff hsource hid (by decide) (by decide), sepFree_append]
    exact and_iff_right (by decide)
  unfold UsvJson.normalize
  rw [checkOutput_eq_nil_iff, conforms_bind,
    conforms_quarantined hsource hid fun _ h => sepFree_of_checkBytes h]
  simp only [conforms_bind, conforms_mapError, herror, conforms_checkFrame hsource hid]
  constructor
  · intro h
    refine ⟨fun hbytes e he => (h hbytes).1 e he, ?_⟩
    intro hbytes frame hframe vehicleId lat lon haccepted
    exact (checkEnvelope_vessel_iff hcase hid haccepted (haltM _ _ hframe)).mp
      ((h hbytes).2 frame hframe vehicleId lat lon haccepted)
  · intro h hbytes
    refine ⟨h.error hbytes, ?_⟩
    intro frame hframe vehicleId lat lon haccepted
    exact (checkEnvelope_vessel_iff hcase hid haccepted (haltM _ _ hframe)).mpr
      (h.names hbytes frame hframe vehicleId lat lon haccepted)

end Frames

/-! ## 6. Both adapters -/

/-- **When the text adapters conform.** Of either adapter, for every payload, the harness finds
nothing exactly when no quoted text has the separator.  Which characters `debug` leaves as they
are is a parameter, as is the JSON library; of the latter `haltM` says what its documentation
does, that a number it returns is finite.  The name of the source is the host's own, and has to be
a name without the separator. -/
theorem normalizers_conform_iff (printed : Char → Bool)
    (fromSlice : List UInt8 → Except String UsvJson.UsvTelemetryFrame)
    (sha256 : List UInt8 → Digest) (raw : RawObservation) (case : ConformanceCase)
    (hcase : case.raw = raw) (hid : SepFree raw.sourceId) (hblank : isBlank raw.sourceId = false)
    (haltM : ∀ payload frame, fromSlice payload = .ok frame → ∀ v ∈ frame.altM, v.isFinite = true) :
    (checkOutput sha256 (UsvJson.normalize fromSlice sha256 raw) case = [] ↔
      UsvPlain fromSlice raw.payload) ∧
    (checkOutput sha256 (Template.normalize printed sha256 raw) case = [] ↔
      TemplatePlain raw.payload) :=
  ⟨usv_conforms_iff hcase hid haltM, template_conforms_iff hcase hid hblank⟩

/-- A frame of a vessel, and what a JSON library makes of it. -/
def vesselJson (unknown : String) : String :=
  r#"{"vehicle_id":"usv-1","lat":35.0,"lon":139.0,""# ++ unknown ++ r#"":1}"#

def vesselSlice (unknown : String) (payload : List UInt8) :
    Except String UsvJson.UsvTelemetryFrame :=
  if payload = utf8 (vesselJson unknown) then
    .ok { vehicleId := some "usv-1", lat := some (.ofRat 35), lon := some (.ofRat 139),
          extra := [unknown] }
  else .error "expected value at line 1 column 1"

def tapped (text : String) : RawObservation := ⟨"tap", utf8 text, 1⟩

def tappedCase (text : String) : ConformanceCase := ⟨"tap", tapped text, .normalizes⟩

theorem vesselSlice_altM {unknown : String} (payload : List UInt8)
    (frame : UsvJson.UsvTelemetryFrame) (h : vesselSlice unknown payload = .ok frame) :
    ∀ v ∈ frame.altM, v.isFinite = true := by
  unfold vesselSlice at h
  split at h
  · rw [← Except.ok.inj h]
    exact nofun
  · cases h

/-- A frame with the field `hull`: a position for vessels, and for the template a line that begins
with no number. -/
theorem plain_frame_conforms :
    checkOutput Sha256.hash (UsvJson.normalize (vesselSlice "hull") Sha256.hash
      (tapped (vesselJson "hull"))) (tappedCase (vesselJson "hull")) = [] ∧
    checkOutput Sha256.hash (Template.normalize (fun _ => true) Sha256.hash
      (tapped (vesselJson "hull"))) (tappedCase (vesselJson "hull")) = [] := by
  have hread : vesselSlice "hull" (tapped (vesselJson "hull")).payload = .ok
      { vehicleId := some "usv-1", lat := some (.ofRat 35), lon := some (.ofRat 139),
        extra := ["hull"] } := if_pos rfl
  have hunread : (fromUtf8 (tapped (vesselJson "hull")).payload).toOption.bind firstUnread =
    some r#"{"vehicle_id":"usv-1""# := by decide +kernel
  have hplain : SepFree r#"{"vehicle_id":"usv-1""# := by decide
  have hiff := normalizers_conform_iff (fun _ => true) (vesselSlice "hull") Sha256.hash
    (tapped (vesselJson "hull")) (tappedCase (vesselJson "hull")) rfl (by decide) (by decide)
    vesselSlice_altM
  refine ⟨hiff.1.mpr ⟨fun _ e he => (nomatch hread.symm.trans he), ?_⟩, hiff.2.mpr ?_⟩
  · intro _ frame hframe _ _ _ _
    rw [← Except.ok.inj (hread.symm.trans hframe)]
    exact ⟨nofun, List.forall_mem_singleton.mpr (by decide)⟩
  · intro _ wire hwire tok htok
    rw [hwire] at hunread
    rwa [Option.some.inj (htok.symm.trans hunread)]

/-- An unknown field and a column with the separator in them. -/
theorem quoted_separator_violates :
    checkOutput Sha256.hash (UsvJson.normalize (vesselSlice "a;b") Sha256.hash
      (tapped (vesselJson "a;b"))) (tappedCase (vesselJson "a;b")) ≠ [] ∧
    checkOutput Sha256.hash (Template.normalize (fun _ => true) Sha256.hash
        (tapped "35;5 139.6")) (tappedCase "35;5 139.6") =
      [⟨"tap", "C-PROVENANCE", .provenanceSeparator "parse:lat=\"35;5\""⟩] := by
  refine ⟨fun h => ?_, by decide +kernel⟩
  have hid : SepFree (tapped (vesselJson "a;b")).sourceId := by decide
  have hcase : (tappedCase (vesselJson "a;b")).raw = tapped (vesselJson "a;b") := rfl
  have hplain := (usv_conforms_iff hcase hid vesselSlice_altM).mp h
  have hread : vesselSlice "a;b" (tapped (vesselJson "a;b")).payload = .ok
      { vehicleId := some "usv-1", lat := some (.ofRat 35), lon := some (.ofRat 139),
        extra := ["a;b"] } := if_pos rfl
  have hnames := hplain.names (by decide +kernel) _ hread "usv-1" (.ofRat 35) (.ofRat 139)
    ⟨by decide +kernel, by decide +kernel, rfl, rfl, by decide +kernel, by decide +kernel,
      by decide, nofun⟩
  exact absurd (hnames.2 "a;b" (List.mem_singleton.mpr rfl)) (by decide)

end Musubi.Conformance
