/-
# The rule of a derived mark

`derive_mark` is documented to answer OK for a time confidence above the threshold and no
degrading note, and DEGRADED otherwise.  It decides by the reasons that it has collected, and a
reason is left out where it is empty: a degrading note without a reason code degrades nothing, and
neither does a time confidence that is not a number.

The two deviations are of different kinds.  A note whose code is empty passes the filter that
joins the reasons, so the list of reasons is empty although a note degrades.  A NaN is below no
threshold and above none, so the comparison that would add the reason of the time fails, while the
documentation asks for a time confidence ABOVE the threshold.

What the module proves is where the two agree (`deriveMark_documented_iff`): wherever one reason
is listed the mark is DEGRADED and the documentation asks for it; and where none is listed, they
agree when there was nothing to list and the confidence is a number.  The adapters of the
repository always give a code, so what they report is as documented; the interface lets a caller
do otherwise.
-/
import Musubi.Core.Quality
import Musubi.FloatArith

namespace Musubi.Core

open Lib

/-! ## 1. Comparisons of single precision -/

/-- A number is at most another or above it, so for numbers the code's `<` is the negation of `≤`.
-/
theorem lt_eq_not_le {a b : F32} (ha : a.isNan = false) (hb : b.isNan = false) :
    a.lt b = !b.le a := by
  rw [F32.lt, F32.le, ha, hb, Bool.eq_iff_iff]
  simp

theorem threshold_isNan : timeConfidenceDegradedThreshold.isNan = false := by decide +kernel

/-- What is not a number is neither: every comparison with it is false, and a threshold it should
fall below does not stop it. -/
theorem le_eq_false_of_isNan {a b : F32} (ha : a.isNan = true) : a.le b = false := by
  rw [F32.le, ha]
  rfl

theorem lt_eq_false_of_isNan {a b : F32} (hb : b.isNan = true) : a.lt b = false := by
  rw [F32.lt, hb]
  simp

/-! ## 2. The rule -/

/-- The time first when it is suspect, then the degrading notes in order; a note without a reason
code is left out of the list. -/
def listedReasons (quality : ObservationQuality) : List String :=
  (if quality.timeConfidence.le timeConfidenceDegradedThreshold then ["time-suspect"] else []) ++
    quality.notes.filterMap fun note =>
      if note.degrades ∧ note.reasonCode ≠ "" then some note.reasonCode else none

/-- **The documented rule.** OK is for an observation whose time is trusted and that no note
degrades; everything else is DEGRADED, with a reason, which lists the degrading notes if there are
any; the provenance names the source, the adapter and all notes. -/
structure Documented (quality : ObservationQuality) (mark : Mark) : Prop where
  ok_iff : mark.status = .ok ↔
    timeConfidenceDegradedThreshold.lt quality.timeConfidence = true ∧
      ∀ note ∈ quality.notes, note.degrades = false
  degraded : mark.status ≠ .ok → mark.status = .degraded
  reason_ne : mark.reasonCode ≠ ""
  reason : listedReasons quality ≠ [] → mark.reasonCode = join "|" (listedReasons quality)
  provenance : mark.provenance = ("source:" ++ quality.sourceId) ::
    ("adapter:" ++ quality.adapterSlug) :: quality.notes.map QualityNote.provenance

theorem reasons_eq (quality : ObservationQuality) : quality.reasons = listedReasons quality := by
  unfold ObservationQuality.reasons listedReasons
  congr 1
  induction quality.notes with
  | nil => rfl
  | cons note notes ih =>
    cases hdegrades : note.degrades with
    | false => simpa [hdegrades] using ih
    | true =>
      by_cases hcode : note.reasonCode = ""
      · simpa [hdegrades, hcode] using ih
      · simpa [hdegrades, hcode] using ih

/-- A listed reason is not empty.  Fixed reasons are texts of the program, and a note's reason is
only listed when there is one. -/
theorem reason_ne_of_mem {quality : ObservationQuality} {reason : String}
    (h : reason ∈ listedReasons quality) : reason ≠ "" := by
  rcases List.mem_append.mp h with h | h
  · split at h
    · rw [List.mem_singleton.mp h]
      decide
    · cases h
  · obtain ⟨note, -, hnote⟩ := List.mem_filterMap.mp h
    split at hnote
    · next hcode =>
      rw [← Option.some.inj hnote]
      exact hcode.2
    · cases hnote

theorem listedReasons_eq_nil_iff {quality : ObservationQuality} : listedReasons quality = [] ↔
    quality.timeConfidence.le timeConfidenceDegradedThreshold = false ∧
      ∀ note ∈ quality.notes, note.degrades = true → note.reasonCode = "" := by
  simp [listedReasons]

/-- What a mark holds whatever the notes are. -/
theorem deriveMark_rest (quality : ObservationQuality) :
    ((deriveMark quality).status = .ok ↔ listedReasons quality = []) ∧
      ((deriveMark quality).status ≠ .ok → (deriveMark quality).status = .degraded) ∧
      (deriveMark quality).reasonCode ≠ "" ∧
      (listedReasons quality ≠ [] →
        (deriveMark quality).reasonCode = join "|" (listedReasons quality)) ∧
      (deriveMark quality).provenance = ("source:" ++ quality.sourceId) ::
        ("adapter:" ++ quality.adapterSlug) :: quality.notes.map QualityNote.provenance := by
  unfold deriveMark
  rw [reasons_eq]
  cases hlisted : listedReasons quality with
  | nil => exact ⟨by simp, by simp, by simp, by simp, rfl⟩
  | cons reason reasons =>
    have hne : reason ≠ "" := reason_ne_of_mem (hlisted ▸ List.mem_cons_self)
    exact ⟨by simp, by simp, join_cons_ne_empty reasons hne, fun _ => rfl, rfl⟩

/-- **When the rule holds**: a reason is listed, or there is none to list and the time confidence
is a number.  The first two cases are those of a list that is not empty, from a low time
confidence or from a degrading note with a code.  In the third no note degrades, and then the
confidence must be comparable for the documentation to call it high. -/
theorem deriveMark_documented_iff (quality : ObservationQuality) :
    Documented quality (deriveMark quality) ↔
      quality.timeConfidence.le timeConfidenceDegradedThreshold = true ∨
      (∃ note ∈ quality.notes, note.degrades = true ∧ note.reasonCode ≠ "") ∨
      quality.timeConfidence.isNan = false ∧ ∀ note ∈ quality.notes, note.degrades = false := by
  obtain ⟨hok, hdegraded, hne, hreason, hprovenance⟩ := deriveMark_rest quality
  have hrule : Documented quality (deriveMark quality) ↔ (listedReasons quality = [] ↔
      timeConfidenceDegradedThreshold.lt quality.timeConfidence = true ∧
        ∀ note ∈ quality.notes, note.degrades = false) :=
    ⟨fun h => hok.symm.trans h.ok_iff, fun h => ⟨hok.trans h, hdegraded, hne, hreason, hprovenance⟩⟩
  have hunnamed : (∃ note ∈ quality.notes, note.degrades = true ∧ note.reasonCode ≠ "") ↔
      ¬ ∀ note ∈ quality.notes, note.degrades = true → note.reasonCode = "" := by
    push Not
    rfl
  have hnone : (∀ note ∈ quality.notes, note.degrades = false) →
      ∀ note ∈ quality.notes, note.degrades = true → note.reasonCode = "" := by
    intro h note hnote hdegrades
    rw [h note hnote] at hdegrades
    cases hdegrades
  rw [hrule, listedReasons_eq_nil_iff, hunnamed]
  cases hnan : quality.timeConfidence.isNan with
  | true =>
    rw [le_eq_false_of_isNan hnan, lt_eq_false_of_isNan hnan]
    simp
  | false =>
    rw [lt_eq_not_le threshold_isNan hnan]
    cases quality.timeConfidence.le timeConfidenceDegradedThreshold with
    | true => simp
    | false =>
      simp only [Bool.not_false, true_and, Bool.false_eq_true, false_or]
      constructor
      · intro h
        by_cases hall : ∀ note ∈ quality.notes, note.degrades = true → note.reasonCode = ""
        · exact .inr (h.mp hall)
        · exact .inl hall
      · rintro (h | h)
        · exact ⟨fun hall => absurd hall h, hnone⟩
        · exact ⟨fun _ => h, hnone⟩

/-- A time that is trusted, and a loss that has no name. -/
def unnamedLoss : ObservationQuality where
  sourceId := "uav-01"
  adapterSlug := "mavlink/global_position_int"
  timeConfidence := .ofRat (9 / 10)
  notes := [.degraded "alt-missing" ""]

/-- **The loss degrades nothing.** -/
theorem unnamedLoss_ok : ¬ Documented unnamedLoss (deriveMark unnamedLoss) := by
  intro h
  have hok : (deriveMark unnamedLoss).status = .ok := by decide +kernel
  have hnotes := (h.ok_iff.mp hok).2 (.degraded "alt-missing" "") List.mem_cons_self
  cases hnotes

end Musubi.Core
