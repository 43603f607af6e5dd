/-
# Times that may not fit

`northbound/src/lib.rs` once more, with an eye on the 64-bit arithmetic of its times.  The
functions are those of the serializers, where every sum, difference and product on `i64` is a
checked operation: a build that checks overflow panics there, one that does not goes on with
another time.  Quotients and remainders by the positive constants of the calendar always fit.

A calendar date never overflows, whatever the time.  The stale time of CoT and the bound of a late
delivery do, near the ends of the range and under a large time to live: a product by a thousand
and a sum, both of which have to fit (`StaleFits`).

Publishing computes the stale time late, after the observation, the digest and the position have
been looked at, so an envelope that is refused before that never overflows.  `PublishFits` says
this in the order of the code, and the equivalence is exact.
-/
import Musubi.Lib.Calendar
import Musubi.Lib.CheckedInt
import Musubi.Northbound.CotFidelity
import Musubi.Northbound.NvgPublisher

namespace Musubi.Northbound

open Lib Lib.Checked Xml WirePolicy

variable {ε : Type}

/-! ## 1. The calendar -/

/-- What is divided to find the era: `z`, or `z - 146_096` below zero. -/
def eraDividend (z : ℤ) : Checked ε ℤ := if 0 ≤ z then .ok z else i64 (z - 146096)

/-- The month of a year that begins in March. -/
def monthOf (mp : ℤ) : Checked ε ℤ := if mp < 10 then i64 (mp + 3) else i64 (mp - 9)

/-- The year of a month, when years begin in March. -/
def yearOf (month y : ℤ) : Checked ε ℤ := if month ≤ 2 then i64 (y + 1) else .ok y

/-- `civil_from_days`. -/
def civilFromDaysChecked (days : ℤ) : Checked ε (ℤ × ℕ × ℕ) := do
  let z ← i64 (days + 719468)
  let dividend ← eraDividend z
  let era := dividend.tdiv 146097
  let eraDays ← i64 (era * 146097)
  let doe ← i64 (z - eraDays)
  let doe1 ← i64 (doe - doe.tdiv 1460)
  let doe2 ← i64 (doe1 + doe.tdiv 36524)
  let doe3 ← i64 (doe2 - doe.tdiv 146096)
  let yoe := doe3.tdiv 365
  let eraYears ← i64 (era * 400)
  let y ← i64 (yoe + eraYears)
  let yearDays ← i64 (365 * yoe)
  let yearDays1 ← i64 (yearDays + yoe.tdiv 4)
  let yearDays2 ← i64 (yearDays1 - yoe.tdiv 100)
  let doy ← i64 (doe - yearDays2)
  let fiveDays ← i64 (5 * doy)
  let fiveDays2 ← i64 (fiveDays + 2)
  let mp := fiveDays2.tdiv 153
  let monthDays ← i64 (153 * mp)
  let monthDays2 ← i64 (monthDays + 2)
  let day ← i64 (doy - monthDays2.tdiv 5)
  let day1 ← i64 (day + 1)
  let month ← monthOf mp
  let year ← yearOf month y
  return (year, month.toNat, day1.toNat)

/-- `iso8601_utc_from_epoch_ms`. -/
def iso8601Checked (epochMs : ℤ) : Checked ε Text := do
  let ms := epochMs % 1000
  let totalSecs := epochMs / 1000
  let secsOfDay := totalSecs % 86400
  let days := totalSecs / 86400
  let hour := secsOfDay.tdiv 3600
  let minute := (secsOfDay.tmod 3600).tdiv 60
  let second := secsOfDay.tmod 60
  let (year, month, day) ← civilFromDaysChecked days
  return zeroPadInt 4 year ++ '-' :: (zeroPad 2 month ++ '-' :: (zeroPad 2 day ++
    'T' :: (zeroPadInt 2 hour ++ ':' :: (zeroPadInt 2 minute ++ ':' :: (zeroPadInt 2 second ++
      '.' :: (zeroPadInt 3 ms ++ ['Z']))))))

/-- Rounding towards zero below zero and plainly above it is the floor of the era. -/
theorem era_eq (z : ℤ) : (if 0 ≤ z then z else z - 146096).tdiv 146097 = z / 146097 :=
  Calendar.tdiv_eq_floor (n := 146097) (by decide) z

/-- A quotient is no larger than what is divided. -/
theorem natAbs_tdiv_le (a b : ℤ) : (a.tdiv b).natAbs ≤ a.natAbs := by
  rw [Int.natAbs_tdiv]
  exact Nat.div_le_self _ _

theorem eraDividend_eq {z : ℤ} (h : -2 ^ 41 ≤ z) :
    (eraDividend z : Checked ε ℤ) = .ok (if 0 ≤ z then z else z - 146096) := by
  unfold eraDividend
  split
  · rfl
  · exact i64_eq ⟨by omega, by omega⟩

theorem monthOf_eq {mp : ℤ} (h : mp.natAbs ≤ 2 ^ 21) :
    (monthOf mp : Checked ε ℤ) = .ok (if mp < 10 then mp + 3 else mp - 9) := by
  unfold monthOf
  split
  · exact i64_eq ⟨by omega, by omega⟩
  · exact i64_eq ⟨by omega, by omega⟩

theorem yearOf_eq {month y : ℤ} (h0 : -2 ^ 50 ≤ y) (h1 : y ≤ 2 ^ 50) :
    (yearOf month y : Checked ε ℤ) = .ok (if month ≤ 2 then y + 1 else y) := by
  unfold yearOf
  split
  · exact i64_eq ⟨by omega, by omega⟩
  · rfl

/-- **A date never overflows** on the days that an `i64` of milliseconds reaches, and on many
more. -/
theorem civilFromDaysChecked_eq {days : ℤ} (hlow : -2 ^ 40 ≤ days) (hhigh : days ≤ 2 ^ 40) :
    (civilFromDaysChecked days : Checked ε (ℤ × ℕ × ℕ)) = .ok (civilFromDays days) := by
  unfold civilFromDaysChecked civilFromDays
  rw [i64_eq ⟨by omega, by omega⟩, ok_bind, eraDividend_eq (by omega), ok_bind]
  simp only [era_eq]
  -- the day of the era is one of 146097 days
  obtain ⟨era, hera⟩ : ∃ era, (days + 719468) / 146097 = era := ⟨_, rfl⟩
  obtain ⟨doe, hdoe⟩ : ∃ doe, days + 719468 - era * 146097 = doe := ⟨_, rfl⟩
  have h0 : 0 ≤ doe := by omega
  have h1 : doe ≤ 146096 := by omega
  rw [hera, i64_eq ⟨by omega, by omega⟩, ok_bind, hdoe, i64_eq ⟨by omega, by omega⟩, ok_bind]
  simp only [Int.tdiv_eq_ediv_of_nonneg h0]
  rw [i64_eq ⟨by omega, by omega⟩, ok_bind, i64_eq ⟨by omega, by omega⟩, ok_bind,
    i64_eq ⟨by omega, by omega⟩, ok_bind, Int.tdiv_eq_ediv_of_nonneg (by omega)]
  -- and its year one of 400
  obtain ⟨yoe, hyoe⟩ : ∃ yoe, (doe - doe / 1460 + doe / 36524 - doe / 146096) / 365 = yoe :=
    ⟨_, rfl⟩
  have h2 : 0 ≤ yoe := by omega
  have h3 : yoe ≤ 400 := by omega
  rw [hyoe, i64_eq ⟨by omega, by omega⟩, ok_bind, i64_eq ⟨by omega, by omega⟩, ok_bind,
    i64_eq ⟨by omega, by omega⟩, ok_bind]
  simp only [Int.tdiv_eq_ediv_of_nonneg h2]
  rw [i64_eq ⟨by omega, by omega⟩, ok_bind, i64_eq ⟨by omega, by omega⟩, ok_bind]
  -- the day of the year, and the month, are small
  obtain ⟨doy, hdoy⟩ : ∃ doy, doe - (365 * yoe + yoe / 4 - yoe / 100) = doy := ⟨_, rfl⟩
  have h4 : doy.natAbs ≤ 2 ^ 18 := by omega
  rw [hdoy, i64_eq ⟨by omega, by omega⟩, ok_bind, i64_eq ⟨by omega, by omega⟩, ok_bind,
    i64_eq ⟨by omega, by omega⟩, ok_bind]
  obtain ⟨mp, hmp⟩ : ∃ mp, (5 * doy + 2).tdiv 153 = mp := ⟨_, rfl⟩
  have h5 : mp.natAbs ≤ 2 ^ 21 := by
    have := natAbs_tdiv_le (5 * doy + 2) 153
    omega
  have h6 := natAbs_tdiv_le (153 * mp + 2) 5
  rw [hmp, i64_eq ⟨by omega, by omega⟩, ok_bind, i64_eq ⟨by omega, by omega⟩, ok_bind,
    i64_eq ⟨by omega, by omega⟩, ok_bind, i64_eq ⟨by omega, by omega⟩, ok_bind, monthOf_eq h5,
    ok_bind, yearOf_eq (by omega) (by omega), ok_bind]
  rfl

/-- A time is written without overflow, and as the serializers write it. -/
theorem iso8601Checked_eq (t : Int64) :
    (iso8601Checked t.toInt : Checked ε Text) = .ok (iso8601UtcFromEpochMs t) := by
  have hlow := Int64.le_toInt t
  have hhigh := Int64.toInt_lt t
  have hdate : (civilFromDaysChecked (t.toInt / 1000 / 86400) : Checked ε (ℤ × ℕ × ℕ)) =
      .ok (civilFromDays (t.toInt / 1000 / 86400)) :=
    civilFromDaysChecked_eq (by omega) (by omega)
  unfold iso8601Checked iso8601UtcFromEpochMs
  simp only [hdate, ok_bind]
  rfl

/-! ## 2. Stale times -/

/-- `time_ms + ttl_secs * 1000`. -/
def staleMs (timeMs ttlSecs : Int64) : Checked ε ℤ := do
  let ttlMs ← i64 (ttlSecs.toInt * 1000)
  i64 (timeMs.toInt + ttlMs)

/-- The time to live and the time after it fit: the product by a thousand, and its sum with the
time. -/
def StaleFits (timeMs ttlSecs : Int64) : Prop :=
  InI64 (ttlSecs.toInt * 1000) ∧ InI64 (timeMs.toInt + ttlSecs.toInt * 1000)

instance (timeMs ttlSecs : Int64) : Decidable (StaleFits timeMs ttlSecs) :=
  inferInstanceAs (Decidable (_ ∧ _))

theorem staleMs_eq {timeMs ttlSecs : Int64} (h : StaleFits timeMs ttlSecs) :
    (staleMs timeMs ttlSecs : Checked ε ℤ) = .ok (timeMs.toInt + ttlSecs.toInt * 1000) := by
  rw [staleMs, i64_eq h.1, ok_bind, i64_eq h.2]

theorem staleMs_panics {timeMs ttlSecs : Int64} (h : ¬ StaleFits timeMs ttlSecs) :
    (staleMs timeMs ttlSecs : Checked ε ℤ) = .error .panic := by
  unfold staleMs
  by_cases hmul : InI64 (ttlSecs.toInt * 1000)
  · rw [i64_eq hmul, ok_bind]
    exact i64_panics fun hadd => h ⟨hmul, hadd⟩
  · rw [i64_panics hmul]
    rfl

/-- Where a stale time fits, it is the one that wraps around. -/
theorem toInt_stale {timeMs ttlSecs : Int64} (h : StaleFits timeMs ttlSecs) :
    (timeMs + ttlSecs * 1000).toInt = timeMs.toInt + ttlSecs.toInt * 1000 := by
  have hmul : (ttlSecs * 1000).toInt = ttlSecs.toInt * 1000 := by
    rw [Int64.toInt_mul]
    exact Int.bmod_eq_of_le (by have := h.1.1; simp; omega) (by have := h.1.2; simp; omega)
  rw [Int64.toInt_add, hmul]
  exact Int.bmod_eq_of_le (by have := h.2.1; simp; omega) (by have := h.2.2; simp; omega)

/-- `is_late_delivery`. -/
def isLateDelivery (effectiveTimeMs ttlSecs deliveredAtMs : Int64) : Checked ε Bool := do
  let bound ← staleMs effectiveTimeMs ttlSecs
  return decide (bound < deliveredAtMs.toInt)

/-! ## 3. Publishing -/

/-- The attributes of an event. -/
def eventAttrsChecked (ttlSecs : Int64) (ps : PlatformState) :
    Checked ε (List (String × Text)) := do
  let tMs := effectiveTimeMs ps.timestamps
  let time ← iso8601Checked tMs.toInt
  let stale ← staleMs tMs ttlSecs
  let stale ← iso8601Checked stale
  return [("version", "2.0".toList), ("uid", xmlEscapeAttr ps.platformId.toList),
    ("type", cotType ps.platformDomain), ("how", "m-g".toList), ("time", time), ("start", time),
    ("stale", stale)]

/-- The event with its attributes. -/
def cotEventWith (attrs : List (String × Text)) (pos : Position) (claim : Claim) : Text :=
  xmlDecl ++ ("\n".toList ++ (startTagText "event" attrs .open_ ++
    ("\n  ".toList ++ (startTagText "point" (pointAttrs pos) .empty ++
      ("\n  ".toList ++ (startTagText "detail" [] .open_ ++
        ("\n    ".toList ++ (startTagText "remarks" [] .open_ ++
          (xmlEscapeAttr (remarksText claim) ++ (endTagText "remarks" ++
        ("\n  ".toList ++ (endTagText "detail" ++
    ("\n".toList ++ (endTagText "event" ++ "\n".toList))))))))))))))

/-- `CotPublisher::publish`. -/
def cotPublishChecked (ttl : StaleTtlConfig) (envelope : EvidenceEnvelope) :
    Checked PublishError (List UInt8) :=
  match envelope.observation with
  | .hostStateObservation _ =>
    fail (cotError "unsupported host-state observation for positional CoT".toList)
  | .platformState ps =>
    if ps.platformDomain = .subsurface then
      fail (cotError "subsurface domain has no qualified CoT mapping".toList)
    else match ps.position with
      | none => fail (cotError "missing position (lat/lon required by CoT point)".toList)
      | some pos => do
        let attrs ← eventAttrsChecked (ttl.secsFor envelope.observation) ps
        let xml := cotEventWith attrs pos envelope.claim
        match CotPolicy.checkCotEventBytes (String.ofList xml).toUTF8 with
        | .error violation => fail (cotError ("cot-policy:".toList ++ violation.display))
        | .ok () => return textBytes xml

/-- The attributes of the time stamp. -/
def timeStampAttrsChecked (ps : PlatformState) : Checked ε (List (String × Text)) := do
  let time ← iso8601Checked (effectiveTimeMs ps.timestamps).toInt
  return [("when", time)]

/-- The document with its time stamp. -/
def nvgDocumentWith (timeStamp : List (String × Text)) (ps : PlatformState) (pos : Position)
    (claim : Claim) : Text :=
  xmlDecl ++ ("\n".toList ++ (startTagText "nvg" nvgAttrs .open_ ++
    ("\n  ".toList ++ (startTagText "point" (nvgPointAttrs ps pos claim) .open_ ++
      ("\n    ".toList ++ (startTagText "TimeStamp" timeStamp .empty ++
    ("\n  ".toList ++ (endTagText "point" ++
    ("\n".toList ++ (endTagText "nvg" ++ "\n".toList))))))))))

/-- `NvgPublisher::publish`. -/
def nvgPublishChecked (envelope : EvidenceEnvelope) : Checked PublishError (List UInt8) :=
  match envelope.observation with
  | .hostStateObservation _ =>
    fail (nvgError "unsupported host-state observation for positional NVG".toList)
  | .platformState ps =>
    if ps.platformDomain = .subsurface then
      fail (nvgError "subsurface domain has no qualified NVG mapping".toList)
    else match ps.position with
      | none => fail (nvgError "missing position (x/y required by NVG point)".toList)
      | some pos => do
        let timeStamp ← timeStampAttrsChecked ps
        let xml := nvgDocumentWith timeStamp ps pos envelope.claim
        match NvgPolicy.checkNvgDocumentBytes (String.ofList xml).toUTF8 with
        | .error violation => fail (nvgError ("nvg-policy:".toList ++ violation.display))
        | .ok () => return textBytes xml

/-! ## 4. Where nothing overflows -/

/-- What was computed without overflow. -/
def ofExcept {α : Type} : Except ε α → Checked ε α
  | .ok a => .ok a
  | .error e => fail e

theorem safe_ofExcept {α : Type} (x : Except ε α) : Safe (ofExcept x) fun _ => True := by
  cases x with
  | ok a => exact trivial
  | error e => exact trivial

theorem eventAttrsChecked_eq {ttlSecs : Int64} {ps : PlatformState}
    (h : StaleFits (effectiveTimeMs ps.timestamps) ttlSecs) :
    (eventAttrsChecked ttlSecs ps : Checked ε _) = .ok (eventAttrs ttlSecs ps) := by
  unfold eventAttrsChecked
  simp only [iso8601Checked_eq, ok_bind, staleMs_eq h]
  rw [← toInt_stale h, iso8601Checked_eq]
  rfl

theorem eventAttrsChecked_panics {ttlSecs : Int64} {ps : PlatformState}
    (h : ¬ StaleFits (effectiveTimeMs ps.timestamps) ttlSecs) :
    (eventAttrsChecked ttlSecs ps : Checked ε _) = .error .panic := by
  unfold eventAttrsChecked
  simp only [iso8601Checked_eq, ok_bind, staleMs_panics h]
  rfl

/-- The stale time of the observation fits, where publishing gets as far as to compute it.  An
observation of another kind, from below the surface or without a position is refused before that.
-/
def PublishFits (ttl : StaleTtlConfig) (envelope : EvidenceEnvelope) : Prop :=
  ∀ ps, envelope.observation = .platformState ps → ps.platformDomain ≠ .subsurface →
    ps.position.isSome = true → StaleFits (effectiveTimeMs ps.timestamps) ttl.platformStateSecs

/-- Where it fits, publishing does what it does with times that wrap around. -/
theorem cotPublishChecked_eq {ttl : StaleTtlConfig} {envelope : EvidenceEnvelope}
    (h : PublishFits ttl envelope) :
    cotPublishChecked ttl envelope = ofExcept (cotPublish ttl envelope) := by
  unfold cotPublishChecked cotPublish
  cases hobs : envelope.observation with
  | hostStateObservation observation => rfl
  | platformState ps =>
    by_cases hdomain : ps.platformDomain = .subsurface
    · simp only [if_pos hdomain]
      rfl
    · simp only [if_neg hdomain]
      cases hpos : ps.position with
      | none => rfl
      | some pos =>
        have hfits := h ps hobs hdomain (by rw [hpos]; rfl)
        simp only [StaleTtlConfig.secsFor, eventAttrsChecked_eq hfits, ok_bind]
        have hevent : cotEventWith (eventAttrs ttl.platformStateSecs ps) pos envelope.claim =
            cotEvent ttl.platformStateSecs ps pos envelope.claim := rfl
        rw [hevent]
        cases CotPolicy.checkCotEventBytes (String.ofList
          (cotEvent ttl.platformStateSecs ps pos envelope.claim)).toUTF8 with
        | error violation => rfl
        | ok _ => rfl

theorem cotPublishChecked_panics {ttl : StaleTtlConfig} {envelope : EvidenceEnvelope}
    (h : ¬ PublishFits ttl envelope) : cotPublishChecked ttl envelope = .error .panic := by
  simp only [PublishFits, not_forall, exists_prop] at h
  obtain ⟨ps, hobs, hdomain, hpos, hfits⟩ := h
  obtain ⟨pos, hpos⟩ := Option.isSome_iff_exists.mp hpos
  unfold cotPublishChecked
  simp only [hobs, if_neg hdomain, hpos, StaleTtlConfig.secsFor, eventAttrsChecked_panics hfits]
  rfl

/-- NVG has no stale time. -/
theorem nvgPublishChecked_eq (envelope : EvidenceEnvelope) :
    nvgPublishChecked envelope = ofExcept (nvgPublish envelope) := by
  have hstamp (ps : PlatformState) :
      (timeStampAttrsChecked ps : Checked PublishError _) = .ok (timeStampAttrs ps) := by
    unfold timeStampAttrsChecked
    rw [iso8601Checked_eq]
    rfl
  unfold nvgPublishChecked nvgPublish
  cases hobs : envelope.observation with
  | hostStateObservation observation => rfl
  | platformState ps =>
    by_cases hdomain : ps.platformDomain = .subsurface
    · simp only [if_pos hdomain]
      rfl
    · simp only [if_neg hdomain]
      cases hpos : ps.position with
      | none => rfl
      | some pos =>
        simp only [hstamp, ok_bind]
        have hdocument : nvgDocumentWith (timeStampAttrs ps) ps pos envelope.claim =
            nvgDocument ps pos envelope.claim := rfl
        rw [hdocument]
        cases NvgPolicy.checkNvgDocumentBytes (String.ofList
          (nvgDocument ps pos envelope.claim)).toUTF8 with
        | error violation => rfl
        | ok _ => rfl

/-- **Times are exact where the stale time fits, and only there**: CoT publishes without overflow,
and a delivery is late by the clock that does not wrap.  NVG never overflows.  `Safe` with a
trivial postcondition says that nothing panics; refusals are allowed.  The times to live are
arbitrary, since they are read from a configuration that bounds them by nothing, and the
observation's time comes from the envelope. -/
theorem times_exact_iff (ttl : StaleTtlConfig) (envelope : EvidenceEnvelope)
    (effective ttlSecs delivered : Int64) :
    (Safe (cotPublishChecked ttl envelope) (fun _ => True) ↔ PublishFits ttl envelope) ∧
      Safe (nvgPublishChecked envelope) (fun _ => True) ∧
      ((isLateDelivery effective ttlSecs delivered : Checked PublishError Bool) =
          .ok (decide (effective.toInt + 1000 * ttlSecs.toInt < delivered.toInt)) ↔
        StaleFits effective ttlSecs) := by
  refine ⟨⟨?_, ?_⟩, ?_, ⟨?_, ?_⟩⟩
  · intro hsafe
    by_contra hfits
    rw [cotPublishChecked_panics hfits] at hsafe
    exact hsafe
  · intro hfits
    rw [cotPublishChecked_eq hfits]
    exact safe_ofExcept _
  · rw [nvgPublishChecked_eq]
    exact safe_ofExcept _
  · intro hlate
    by_contra hfits
    unfold isLateDelivery at hlate
    rw [staleMs_panics hfits] at hlate
    cases hlate
  · intro hfits
    unfold isLateDelivery
    rw [staleMs_eq hfits, ok_bind, Int.mul_comm 1000]
    rfl

/-- An observation received at the end of time. -/
def endOfTimeEnvelope : EvidenceEnvelope :=
  { markupEnvelope with
    observation := .platformState
      { markupPlatform with timestamps := ⟨none, Int64.maxValue, ⟨0⟩⟩ } }

/-- Its event is not written, and its delivery at that very moment is not judged. -/
theorem endOfTime_overflows :
    cotPublishChecked .recommended endOfTimeEnvelope = .error .panic ∧
      (isLateDelivery Int64.maxValue 15 Int64.maxValue : Checked PublishError Bool) =
        .error .panic := by
  constructor
  · refine cotPublishChecked_panics fun h => ?_
    have hfits := h _ (show endOfTimeEnvelope.observation = .platformState _ from rfl)
      (by decide) rfl
    exact absurd hfits (by decide)
  · unfold isLateDelivery
    rw [staleMs_panics (by decide)]
    rfl

end Musubi.Northbound
