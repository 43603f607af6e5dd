/-
# The conformance harness

`conformance/src/harness.rs`: what every adapter's output is checked for.  A check appends a
violation to a list and goes on, so the list is the concatenation of what the checks find, and an
output conforms when it is empty.

An envelope is checked for its mark (the texts that must be there, and the separator that must
not), for its digest, for its numbers and for its times; an error is checked for its mark alone,
which has to be INVALID.  The expectation of the case, that the payload is normalized or rejected,
is a check among the others.

The text of a violation is kept as the message and the values that stand in it, so that two
violations are compared by what they say and the texts of floats do not enter.
-/
import Mathlib.Data.List.TakeWhile
import Musubi.Core.DerivedMark
import Musubi.Core.Digest
import Musubi.Northbound.WirePolicy

namespace Musubi.Conformance

open Lib Musubi.Core

/-! ## 1. Violations -/

inductive ExpectedOutcome
  | normalizes
  | rejects
deriving DecidableEq, Repr

structure ConformanceCase where
  name : String
  raw : RawObservation
  expected : ExpectedOutcome

inductive Detail
  | contentDigestNone
  | verifyDigestReturned (status : MarkStatus) (reasonCode : String)
  | reservedMarkStatus (status : MarkStatus)
  | reasonCodeEmpty
  | reasonCodeSeparator (reasonCode : String)
  | provenanceEmpty
  | provenanceSeparator (item : String)
  | platformIdEmpty
  | hostFieldsRequired
  | positionOutside (lat lon : F64) (alt : Option F64)
  | receivedAtNotTranscribed (raw envelope : Int64)
  | timeConfidenceRange (tc : F32)
  | hostTimeConfidenceRange (tc : F32)
  | claimIdEmpty
  | confidenceRange (conf : F32)
  | rejectionStatus (status : MarkStatus)
  | sourceIdNotPreserved (err raw : String)
deriving DecidableEq

structure Violation where
  case : String
  invariant : String
  detail : Detail
deriving DecidableEq

/-- `push`, when the condition holds. -/
def pushIf (bad : Prop) [Decidable bad] (case : ConformanceCase) (invariant : String)
    (detail : Detail) : List Violation :=
  if bad then [⟨case.name, invariant, detail⟩] else []

/-! ## 2. Checks -/

def isAdapterEmittable : MarkStatus → Bool
  | .ok => true
  | .degraded => true
  | .invalid => true
  | _ => false

/-- `trim().is_empty()`. -/
def isBlank (s : String) : Bool := (Northbound.WirePolicy.trim s.toList).isEmpty

/-- `v.is_finite() && (0.0..=1.0).contains(&v)`. -/
def inUnit (v : F32) : Bool := v.isFinite && F32.within (.ofRat 0) (.ofRat 1) v

def checkMarkGrammar (reasonCode : String) (provenance : List String) (case : ConformanceCase) :
    List Violation :=
  pushIf (reasonCode = "") case "C-MARK-REASON" .reasonCodeEmpty ++
  pushIf (¬ SepFree reasonCode) case "C-MARK-REASON" (.reasonCodeSeparator reasonCode) ++
  pushIf (provenance = []) case "C-PROVENANCE" .provenanceEmpty ++
  provenance.flatMap fun item =>
    pushIf (¬ SepFree item) case "C-PROVENANCE" (.provenanceSeparator item)

/-- Latitude and longitude on the globe, and everything finite. -/
def positionInRange (pos : Position) : Bool :=
  let latOk := pos.latDeg.isFinite && F64.within (.ofRat (-90)) (.ofRat 90) pos.latDeg
  let lonOk := pos.lonDeg.isFinite && F64.within (.ofRat (-180)) (.ofRat 180) pos.lonDeg
  let altOk := pos.altM.all F64.isFinite
  latOk && lonOk && altOk

def checkObservation (case : ConformanceCase) : ComObject → List Violation
  | .platformState ps =>
    pushIf (isBlank ps.platformId) case "C-COM-REQUIRED" .platformIdEmpty ++
    (match ps.position with
      | some pos =>
        pushIf (¬ positionInRange pos) case "C-POSITION-RANGE"
          (.positionOutside pos.latDeg pos.lonDeg pos.altM)
      | none => []) ++
    pushIf (ps.timestamps.receivedAt ≠ case.raw.receivedAt) case "C-TIME"
      (.receivedAtNotTranscribed case.raw.receivedAt ps.timestamps.receivedAt) ++
    pushIf (¬ inUnit ps.timestamps.timeConfidence) case "C-TIME"
      (.timeConfidenceRange ps.timestamps.timeConfidence)
  | .hostStateObservation host =>
    pushIf (isBlank host.sourceContractId ∨ isBlank host.hostId ∨ host.sequence = 0) case
      "C-COM-REQUIRED" .hostFieldsRequired ++
    pushIf (¬ inUnit host.timestamps.timeConfidence) case "C-TIME"
      (.hostTimeConfidenceRange host.timestamps.timeConfidence)

variable (sha256 : List UInt8 → Digest)

def checkSealed (env : EvidenceEnvelope) (case : ConformanceCase) : List Violation :=
  if env.contentDigest.isNone then
    [⟨case.name, "C-SEALED", .contentDigestNone⟩]
  else
    let mark := verifyDigest sha256 env
    pushIf (mark.status ≠ .ok) case "C-DIGEST" (.verifyDigestReturned mark.status mark.reasonCode)

def checkEnvelope (env : EvidenceEnvelope) (case : ConformanceCase) : List Violation :=
  checkSealed sha256 env case ++
  pushIf (¬ isAdapterEmittable env.claim.mark.status) case "C-MARK-VOCAB"
    (.reservedMarkStatus env.claim.mark.status) ++
  checkMarkGrammar env.claim.mark.reasonCode env.claim.mark.provenance case ++
  checkObservation case env.observation ++
  pushIf (isBlank env.claim.claimId) case "C-COM-REQUIRED" .claimIdEmpty ++
  pushIf (¬ inUnit env.claim.confidence) case "C-CONFIDENCE" (.confidenceRange env.claim.confidence)

def checkError (err : NormalizeError) (case : ConformanceCase) : List Violation :=
  pushIf (err.mark.status ≠ .invalid) case "C-ERR-INVALID" (.rejectionStatus err.mark.status) ++
  pushIf (err.sourceId ≠ case.raw.sourceId) case "C-ERR-INVALID"
    (.sourceIdNotPreserved err.sourceId case.raw.sourceId) ++
  checkMarkGrammar err.mark.reasonCode err.mark.provenance case

/-! ## 3. What the checks find nothing in -/

theorem pushIf_neg {bad : Prop} [Decidable bad] (h : ¬ bad) (case : ConformanceCase)
    (invariant : String) (detail : Detail) : pushIf bad case invariant detail = [] := if_neg h

theorem pushIf_eq_nil_iff {bad : Prop} [Decidable bad] {case : ConformanceCase}
    {invariant : String} {detail : Detail} : pushIf bad case invariant detail = [] ↔ ¬ bad := by
  unfold pushIf
  by_cases h : bad
  · rw [if_pos h]
    exact iff_of_false (List.cons_ne_nil _ _) (not_not.mpr h)
  · rw [if_neg h]
    exact iff_of_true rfl h

/-- **A mark passes** when its texts are there and have no separator. -/
theorem checkMarkGrammar_eq_nil_iff {reasonCode : String} {provenance : List String}
    {case : ConformanceCase} : checkMarkGrammar reasonCode provenance case = [] ↔
      reasonCode ≠ "" ∧ SepFree reasonCode ∧ provenance ≠ [] ∧
        ∀ item ∈ provenance, SepFree item := by
  unfold checkMarkGrammar
  simp only [List.append_eq_nil_iff, pushIf_eq_nil_iff, List.flatMap_eq_nil_iff, not_not, and_assoc,
    ne_eq]

theorem checkMarkGrammar_eq_nil {reasonCode : String} {provenance : List String}
    (hreason : reasonCode ≠ "") (hsep : SepFree reasonCode) (hprov : provenance ≠ [])
    (hitems : ∀ item ∈ provenance, SepFree item) (case : ConformanceCase) :
    checkMarkGrammar reasonCode provenance case = [] :=
  checkMarkGrammar_eq_nil_iff.mpr ⟨hreason, hsep, hprov, hitems⟩

/-- A derived mark passes when the texts that it is made of do. -/
theorem checkMarkGrammar_deriveMark_iff {quality : ObservationQuality} {case : ConformanceCase}
    (hsource : SepFree quality.sourceId) (hslug : SepFree quality.adapterSlug)
    (hreasons : ∀ note ∈ quality.notes, SepFree note.reasonCode) :
    checkMarkGrammar (deriveMark quality).reasonCode (deriveMark quality).provenance case = [] ↔
      ∀ note ∈ quality.notes, SepFree note.provenance := by
  obtain ⟨-, -, hne, -, hprovenance⟩ := deriveMark_rest quality
  have hnormalized : SepFree "normalized" := by decide
  have hsuspect : SepFree "time-suspect" := by decide
  have hreason : SepFree (deriveMark quality).reasonCode := by
    unfold deriveMark
    split
    · exact hnormalized
    · refine sepFree_join (by decide) fun reason hmem => ?_
      rcases List.mem_append.mp hmem with hmem | hmem
      · split at hmem
        · rw [List.mem_singleton.mp hmem]
          exact hsuspect
        · cases hmem
      · obtain ⟨note, hnote, rfl⟩ := List.mem_map.mp hmem
        exact hreasons note (List.mem_of_mem_filter hnote)
  rw [checkMarkGrammar_eq_nil_iff, hprovenance, and_iff_right hne, and_iff_right hreason,
    and_iff_right (List.cons_ne_nil _ _), List.forall_mem_cons, List.forall_mem_cons,
    List.forall_mem_map, sepFree_append, sepFree_append]
  refine (and_iff_right ⟨by decide, hsource⟩).trans (and_iff_right ⟨by decide, hslug⟩)

/-- A derived mark is OK or DEGRADED, never INVALID: a derivation has no branch for what an
adapter could not read.  So a mark that was derived is one that an adapter may emit. -/
theorem isAdapterEmittable_deriveMark (quality : ObservationQuality) :
    isAdapterEmittable (deriveMark quality).status = true := by
  unfold deriveMark
  split <;> rfl

/-- An error that keeps its source and has a well-formed mark is checked for its status alone. -/
theorem checkError_eq {err : NormalizeError} {case : ConformanceCase}
    (hsource : err.sourceId = case.raw.sourceId)
    (hgrammar : checkMarkGrammar err.mark.reasonCode err.mark.provenance case = []) :
    checkError err case =
      pushIf (err.mark.status ≠ .invalid) case "C-ERR-INVALID"
        (.rejectionStatus err.mark.status) := by
  rw [checkError, hgrammar, pushIf_neg (not_not.mpr hsource), List.append_nil, List.append_nil]

/-- A freshly sealed envelope passes the digest check.  The digest is taken of the envelope
without its seal, so sealing does not change what is hashed. -/
theorem checkSealed_sealDigest (env : EvidenceEnvelope) (case : ConformanceCase) :
    checkSealed sha256 (sealDigest sha256 env) case = [] := by
  have hok : (verifyDigest sha256 (sealDigest sha256 env)).status = .ok :=
    verifyDigest_ok_iff.mpr rfl
  unfold checkSealed
  rw [if_neg (by simp [sealDigest])]
  exact pushIf_neg (not_not.mpr hok) case _ _

theorem checkError_eq_nil_iff {err : NormalizeError} {case : ConformanceCase} :
    checkError err case = [] ↔ err.mark.status = .invalid ∧ err.sourceId = case.raw.sourceId ∧
      checkMarkGrammar err.mark.reasonCode err.mark.provenance case = [] := by
  unfold checkError
  simp only [List.append_eq_nil_iff, pushIf_eq_nil_iff, not_not, and_assoc, ne_eq]

/-- **A freshly sealed envelope passes** when its mark, its observation and its claim do. -/
theorem checkEnvelope_sealDigest_iff {env : EvidenceEnvelope} {case : ConformanceCase} :
    checkEnvelope sha256 (sealDigest sha256 env) case = [] ↔
      isAdapterEmittable env.claim.mark.status = true ∧
        checkMarkGrammar env.claim.mark.reasonCode env.claim.mark.provenance case = [] ∧
        checkObservation case env.observation = [] ∧ isBlank env.claim.claimId = false ∧
        inUnit env.claim.confidence = true := by
  have hclaim : (sealDigest sha256 env).claim = env.claim := rfl
  have hobservation : (sealDigest sha256 env).observation = env.observation := rfl
  unfold checkEnvelope
  rw [checkSealed_sealDigest, hclaim, hobservation]
  simp only [List.append_eq_nil_iff, pushIf_eq_nil_iff, and_assoc, true_and, Bool.not_eq_true,
    Bool.not_eq_false]

/-- A platform with a position passes when each of its fields does. -/
theorem checkObservation_platformState_iff {ps : PlatformState} {pos : Position}
    {case : ConformanceCase} (h : ps.position = some pos) :
    checkObservation case (.platformState ps) = [] ↔
      isBlank ps.platformId = false ∧ positionInRange pos = true ∧
        ps.timestamps.receivedAt = case.raw.receivedAt ∧
        inUnit ps.timestamps.timeConfidence = true := by
  unfold checkObservation
  dsimp only
  rw [h]
  simp only [List.append_eq_nil_iff, pushIf_eq_nil_iff, and_assoc, not_not, ne_eq,
    Bool.not_eq_true, Bool.not_eq_false]

theorem mem_dropWhile_of_neg {α : Type} {p : α → Bool} {a : α} {l : List α} (h : a ∈ l)
    (ha : p a = false) : a ∈ l.dropWhile p := by
  rw [← List.takeWhile_append_dropWhile (p := p) (l := l), List.mem_append] at h
  rcases h with h | h
  · rw [List.mem_takeWhile_imp h] at ha
    cases ha
  · exact h

/-- A text with a visible character in it is not blank, because trimming stops at that character
from either side. -/
theorem isBlank_eq_false {s : String} {c : Char} (hmem : c ∈ s.toList)
    (hc : Northbound.WirePolicy.isWhitespace c = false) : isBlank s = false := by
  have h1 := mem_dropWhile_of_neg hmem hc
  have h2 := mem_dropWhile_of_neg (List.mem_reverse.mpr h1) hc
  unfold isBlank Northbound.WirePolicy.trim
  rw [List.isEmpty_reverse, List.isEmpty_eq_false_iff]
  exact List.ne_nil_of_mem h2

end Musubi.Conformance
