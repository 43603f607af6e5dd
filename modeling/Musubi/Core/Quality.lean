/-
# From a raw observation to a mark

What an adapter works with before an envelope exists: the raw observation, the quarantine checks
it runs first, the quality facts it collects on the way, and the two things it can return: an
envelope whose mark is derived from those facts, or an error with a mark of its own.

Provenance and reasons are texts whose parts are joined by semicolons, and the source asks of
every part that it holds none.  `SepFree` is that condition; whether the adapters keep it is a
question of `Conformance`.
-/
import Musubi.Floats
import Musubi.Lib.Checked
import Musubi.Lib.Text

namespace Musubi.Core

open Lib

/-! ## 1. Observations and errors (`lib.rs`) -/

structure RawObservation where
  sourceId : String
  payload : List UInt8
  receivedAt : Int64
deriving DecidableEq

structure NormalizeError where
  sourceId : String
  mark : Mark
deriving DecidableEq, Repr

/-! ## 2. Quarantine (`quarantine.rs`) -/

def quarantineReasonCode : String := "quarantine-rejected"

/-- The two rejections a binary frame can draw. -/
inductive QuarantineReject
  | payloadOversize (maxBytes actualBytes : ℕ)
  | frameLengthMismatch (expectedBytes actualBytes : ℕ)
deriving DecidableEq, Repr

/-- `Display`. -/
def QuarantineReject.display : QuarantineReject → String
  | .payloadOversize maxBytes actualBytes =>
    "payload-oversize:max=" ++ maxBytes.repr ++ ":actual=" ++ actualBytes.repr
  | .frameLengthMismatch expectedBytes actualBytes =>
    "frame-length-ambiguous:expected=" ++ expectedBytes.repr ++ ":actual=" ++ actualBytes.repr

def quarantinePayloadSize (payload : List UInt8) (maxBytes : ℕ) : Checked QuarantineReject Unit :=
  if maxBytes < payload.length then
    Checked.fail (.payloadOversize maxBytes payload.length)
  else pure ()

/-! ## 3. Quality and the mark derived from it (`lib.rs`) -/

structure QualityNote where
  provenance : String
  degrades : Bool
  reasonCode : String

def QualityNote.neutral (provenance : String) : QualityNote := ⟨provenance, false, ""⟩

def QualityNote.degraded (provenance reasonCode : String) : QualityNote :=
  ⟨provenance, true, reasonCode⟩

structure ObservationQuality where
  sourceId : String
  adapterSlug : String
  timeConfidence : F32
  notes : List QualityNote

/-- `0.5`. -/
def timeConfidenceDegradedThreshold : F32 := .ofRat (5 / 10)

/-- Source and adapter first, then what every note has to say. -/
def ObservationQuality.provenance (quality : ObservationQuality) : List String :=
  ("source:" ++ quality.sourceId) :: ("adapter:" ++ quality.adapterSlug) ::
    quality.notes.map QualityNote.provenance

/-- The reasons for degrading, the time first. -/
def ObservationQuality.reasons (quality : ObservationQuality) : List String :=
  (if quality.timeConfidence.le timeConfidenceDegradedThreshold then ["time-suspect"] else []) ++
    (quality.notes.filter fun note => note.degrades && !note.reasonCode.isEmpty).map
      QualityNote.reasonCode

def deriveMark (quality : ObservationQuality) : Mark :=
  if quality.reasons.isEmpty then
    { status := .ok, reasonCode := "normalized", provenance := quality.provenance }
  else
    { status := .degraded
      reasonCode := join "|" quality.reasons
      provenance := quality.provenance }

/-! ## 4. Texts without the field separator

The readers of a mark split it at `;`, so no reason code and no provenance token may have one. -/

/-- The text has no `;`. -/
def SepFree (s : String) : Prop := ';' ∉ s.toList

instance (s : String) : Decidable (SepFree s) := inferInstanceAs (Decidable (';' ∉ s.toList))

@[simp] theorem sepFree_append {s t : String} : SepFree (s ++ t) ↔ SepFree s ∧ SepFree t := by
  unfold SepFree
  rw [String.toList_append, List.mem_append, not_or]

@[simp] theorem sepFree_repr (n : ℕ) : SepFree n.repr := semicolon_notMem_repr n

@[simp] theorem sepFree_hexLower (bytes : List UInt8) : SepFree (hexLower bytes) :=
  semicolon_notMem_hexLower bytes

theorem sepFree_join {sep : String} {parts : List String} (hsep : SepFree sep)
    (hparts : ∀ s ∈ parts, SepFree s) : SepFree (join sep parts) := by
  intro h
  rcases mem_join h with h | ⟨s, hs, h⟩
  · exact hsep h
  · exact hparts s hs h

@[simp] theorem QuarantineReject.sepFree_display (reject : QuarantineReject) :
    SepFree reject.display := by
  cases reject with
  | payloadOversize maxBytes actualBytes =>
    exact sepFree_append.mpr ⟨sepFree_append.mpr ⟨sepFree_append.mpr ⟨by decide,
      sepFree_repr maxBytes⟩, by decide⟩, sepFree_repr actualBytes⟩
  | frameLengthMismatch expectedBytes actualBytes =>
    exact sepFree_append.mpr ⟨sepFree_append.mpr ⟨sepFree_append.mpr ⟨by decide,
      sepFree_repr expectedBytes⟩, by decide⟩, sepFree_repr actualBytes⟩

end Musubi.Core
