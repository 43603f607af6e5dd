/-
# The wall axis and the axis of a recording

Three conversions meet on one absence: `wall_to_axis` takes the observation window to the axis of
the recording, `SourceRun::to_wall_ms` takes what was detected there back, and `neg_wall` does the
same once more for the cues.  Here each is computed in machine integers that stop where a product
or a difference does not fit.

A time of the axis that is not before boot comes back within a millisecond (`wall_within_one`).
Each way truncates towards zero, one of them a difference and the other a sum, so the two errors
do not cancel and do not add up to more.  A time before boot is taken to boot
(`checkedToWallMs_before_boot`): the way back clamps it at zero before it multiplies.

The product by a thousand decides where the ways back are exact.  A time of the axis is an `i64`
of milliseconds and its microseconds are a `u64`, so everything up to `lastBootMs` fits, and what
is below zero is clamped.  Behind it the product is beyond the word.

On absences whose times a `u64` holds in microseconds nothing overflows, and the two ways back
agree except where a recording with a clock of its own holds an absence of a host clock
(`negWall_eq`).  There `neg_wall` leaves the times alone, as they are wall times already, and
`to_wall_ms` asks about the recording only, so the two put one absence at two times.
-/
import Musubi.Pipeline.Analyze
import Musubi.Reference.AbsenceExact
import Musubi.Reference.AlignmentBound
import Musubi.Lib.CheckedInt

namespace Musubi.Pipeline

open Lib Lib.Checked Reference

/-! ## 1. The conversions with their overflows -/

/-- `(wall_ms * 1000 - o.offset_us) / 1000`, the product and the difference in `i64`. -/
def checkedWallToAxis (al : TimeAlignment) (hostAxis : Bool) (wallMs : Int64) :
    Checked Empty (Option Int64) :=
  if hostAxis then return some wallMs
  else match al.offset with
  | none => return none
  | some o => do
    let wallUs ← i64 (wallMs.toInt * 1000)
    let axisUs ← i64 (wallUs - o.offsetUs.toInt)
    return some (.ofInt (axisUs.tdiv 1000))

/-- `(native_ms.max(0) as u64) * 1000`. -/
def checkedBootUs (ms : Int64) : Checked Empty UInt64 := do
  let us ← unwrap (checkedU64 ((max ms 0).toUInt64.toNat * 1000))
  return .ofNat us

def SourceRun.checkedToWallMs (s : SourceRun) (nativeMs : Int64) :
    Checked Empty (Option (Int64 × Int64)) :=
  if s.hostAxis then return some (nativeMs, 0)
  else do
    let tBootUs ← checkedBootUs nativeMs
    let wall ← checkedToWallUs s.alignment tBootUs
    return wall.map fun w => (w.1 / 1000, w.2 / 1000)

def checkedNegWall (n : NegativeObservation) (al : TimeAlignment) (hostAxis : Bool) :
    Checked Empty (Option (Int64 × Int64)) :=
  if hostAxis || isHostAxis n.clockBasis then return some (n.absentSinceMs, n.expectedByMs)
  else do
    let sinceUs ← checkedBootUs n.absentSinceMs
    let since ← checkedToWallUs al sinceUs
    match since with
    | none => return none
    | some (a, _) => do
      let byUs ← checkedBootUs n.expectedByMs
      let by_ ← checkedToWallUs al byUs
      match by_ with
      | none => return none
      | some (b, _) => return some (a / 1000, b / 1000)

/-! ## 2. Quotients towards zero -/

/-- What is left over is smaller than the divisor, and not negative if the dividend is not. -/
theorem exists_tdiv_remainder (n : ℤ) :
    ∃ r, n = n.tdiv 1000 * 1000 + r ∧ -1000 < r ∧ r < 1000 ∧ (0 ≤ n → 0 ≤ r) := by
  refine ⟨n.tmod 1000, ?_, ?_, ?_, ?_⟩
  · rw [Int.mul_comm, Int.mul_tdiv_add_tmod]
  · exact Int.lt_tmod_of_pos n (by decide)
  · exact Int.tmod_lt_of_pos n (by decide)
  · exact Int.tmod_nonneg 1000

/-- **There and back, from the wall time `w` on an axis that is `o` behind.** All in integers: the
bound is that of two truncations by a thousand, of which the first is multiplied up again. -/
theorem wall_within_one (w o : ℤ) :
    |((w * 1000 - o).tdiv 1000 * 1000 + o).tdiv 1000 - w| ≤ 1 := by
  obtain ⟨r, hr, hr1, hr2, -⟩ := exists_tdiv_remainder (w * 1000 - o)
  obtain ⟨q, hq, hq1, hq2, -⟩ :=
    exists_tdiv_remainder ((w * 1000 - o).tdiv 1000 * 1000 + o)
  rw [abs_le]
  constructor
  · omega
  · omega

/-- On the way back nothing leaves the range: the sum lies between the offset and the time. -/
theorem inI64_wall {w o : ℤ} (hw : InI64 (w * 1000)) (ho : InI64 o)
    (h : 0 ≤ (w * 1000 - o).tdiv 1000) : InI64 ((w * 1000 - o).tdiv 1000 * 1000 + o) := by
  obtain ⟨r, hr, hr1, hr2, hr3⟩ := exists_tdiv_remainder (w * 1000 - o)
  unfold InI64 at hw ho ⊢
  by_cases hr0 : 0 ≤ r
  · constructor
    · omega
    · omega
  · have hzero : (w * 1000 - o).tdiv 1000 = 0 := by omega
    rw [hzero]
    constructor
    · omega
    · omega

/-! ## 3. The conversions where nothing overflows -/

/-- The last time of a recording that a `u64` holds in microseconds. -/
def lastBootMs : Int64 := 18446744073709551

theorem toNat_max_zero (ms : Int64) : ((max ms 0).toUInt64.toNat : ℤ) = max ms.toInt 0 := by
  have hle : (0 : Int64) ≤ max ms 0 := by
    rw [Int64.le_iff_toInt_le, toInt_max]
    exact le_max_right _ _
  rw [Int64.toNat_toUInt64_of_le hle, Int64.cast_toNatClampNeg _ hle, toInt_max]
  rfl

theorem boot_product_lt {ms : Int64} (h : ms ≤ lastBootMs) :
    (max ms 0).toUInt64.toNat * 1000 < 2 ^ 64 := by
  have hms : ms.toInt ≤ 18446744073709551 := Int64.le_iff_toInt_le.mp h
  have hnat := toNat_max_zero ms
  omega

theorem toNat_bootUs {ms : Int64} (h : ms ≤ lastBootMs) :
    (bootUs ms).toNat = (max ms 0).toUInt64.toNat * 1000 := by
  unfold bootUs
  rw [UInt64.toNat_mul]
  exact Nat.mod_eq_of_lt (boot_product_lt h)

/-- **The product fits up to the last time.** There is no lower bound, since a negative time is
clamped. -/
theorem checkedBootUs_eq {ms : Int64} (h : ms ≤ lastBootMs) :
    checkedBootUs ms = .ok (bootUs ms) := by
  unfold checkedBootUs
  rw [checkedU64_eq (boot_product_lt h), ← toNat_bootUs h]
  exact congrArg Except.ok UInt64.ofNat_toNat

theorem SourceRun.checkedToWallMs_eq (s : SourceRun) {ms : Int64} (h : ms ≤ lastBootMs) :
    s.checkedToWallMs ms = .ok (s.toWallMs ms) := by
  unfold SourceRun.checkedToWallMs SourceRun.toWallMs
  by_cases hhost : s.hostAxis = true
  · rw [if_pos hhost, if_pos hhost]
    rfl
  · rw [if_neg hhost, if_neg hhost, checkedBootUs_eq h]
    rw [ok_bind, checkedToWallUs_eq, ok_bind]
    rfl

theorem checkedNegWall_eq (al : TimeAlignment) (hostAxis : Bool) {n : NegativeObservation}
    (hsince : n.absentSinceMs ≤ lastBootMs) (hby : n.expectedByMs ≤ lastBootMs) :
    checkedNegWall n al hostAxis = .ok (negWall n al hostAxis) := by
  unfold checkedNegWall negWall
  by_cases hhost : (hostAxis || isHostAxis n.clockBasis) = true
  · rw [if_pos hhost, if_pos hhost]
    rfl
  · rw [if_neg hhost, if_neg hhost, checkedBootUs_eq hsince, checkedBootUs_eq hby,
      ok_bind, checkedToWallUs_eq, ok_bind]
    cases toWallUs al (bootUs n.absentSinceMs) with
    | none => rfl
    | some a =>
      rw [Option.bind_eq_bind, Option.bind_some]
      dsimp only
      rw [ok_bind, checkedToWallUs_eq, ok_bind]
      cases toWallUs al (bootUs n.expectedByMs) with
      | none => rfl
      | some b => rfl

/-- **The two ways back**: both take the times of an absence through the alignment, unless a
recording with a clock of its own holds an absence of a host clock, whose times the cues keep. -/
theorem negWall_eq (s : SourceRun) (n : NegativeObservation) :
    negWall n s.alignment s.hostAxis =
      if s.hostAxis = false ∧ isHostAxis n.clockBasis = true then
        some (n.absentSinceMs, n.expectedByMs)
      else do
        let since ← s.toWallMs n.absentSinceMs
        let by_ ← s.toWallMs n.expectedByMs
        return (since.1, by_.1) := by
  unfold negWall SourceRun.toWallMs
  cases hhost : s.hostAxis with
  | true => rfl
  | false =>
    cases hbasis : isHostAxis n.clockBasis with
    | true => rfl
    | false =>
      cases ha : toWallUs s.alignment (bootUs n.absentSinceMs) with
      | none => rfl
      | some a =>
        cases hb : toWallUs s.alignment (bootUs n.expectedByMs) with
        | none => rfl
        | some b => rfl

/-! ## 4. There and back -/

variable {al : TimeAlignment} {o : OffsetEstimate}

theorem checkedWallToAxis_eq (ho : al.offset = some o) {w : Int64} (hw : InI64 (w.toInt * 1000))
    (haxis : InI64 (w.toInt * 1000 - o.offsetUs.toInt)) :
    ∃ v : Int64, checkedWallToAxis al false w = .ok (some v) ∧
      v.toInt = (w.toInt * 1000 - o.offsetUs.toInt).tdiv 1000 := by
  refine ⟨.ofInt ((w.toInt * 1000 - o.offsetUs.toInt).tdiv 1000), ?_, ?_⟩
  · unfold checkedWallToAxis
    rw [if_neg Bool.false_ne_true, ho]
    dsimp only
    rw [i64_eq hw, ok_bind, i64_eq haxis, ok_bind]
    rfl
  · obtain ⟨r, hr, hr1, hr2, -⟩ := exists_tdiv_remainder (w.toInt * 1000 - o.offsetUs.toInt)
    refine toInt_ofInt64 ?_
    unfold InI64 at haxis ⊢
    constructor
    · omega
    · omega

/-- A quotient by a thousand is that of the integers. -/
theorem toInt_div_thousand (a : Int64) : (a / 1000).toInt = a.toInt.tdiv 1000 :=
  Int64.toInt_div_of_ne_right a 1000 (by decide)

/-- A reading that the alignment takes to a wall time that fits. -/
theorem toWallMs_eq {s : SourceRun} (hhost : s.hostAxis = false) (ho : s.alignment.offset = some o)
    {v : Int64} (hv : v ≤ lastBootMs)
    (hfits : InI64 (max v.toInt 0 * 1000 + o.offsetUs.toInt)) :
    ∃ wall : Int64, s.toWallMs v = some (wall, o.boundUs / 1000) ∧
      wall.toInt = (max v.toInt 0 * 1000 + o.offsetUs.toInt).tdiv 1000 := by
  have hboot : ((bootUs v).toNat : ℤ) = max v.toInt 0 * 1000 := by
    rw [toNat_bootUs hv, Nat.cast_mul, toNat_max_zero]
    rfl
  refine ⟨.ofInt (max v.toInt 0 * 1000 + o.offsetUs.toInt) / 1000, ?_, ?_⟩
  · unfold SourceRun.toWallMs toWallUs
    rw [if_neg (by rw [hhost]; exact Bool.false_ne_true), ho, Option.bind_eq_bind,
      Option.bind_some, hboot]
    dsimp only
    rw [if_pos hfits]
    rfl
  · rw [toInt_div_thousand, toInt_ofInt64 hfits]

/-- **A wall time goes to the axis and comes back** within a millisecond, or, from before boot, to
the time of boot.  The two range hypotheses are the two operations of the way there; the way back
adds none, because what it multiplies has just been divided. -/
theorem exists_round_trip {s : SourceRun} (hhost : s.hostAxis = false)
    (ho : s.alignment.offset = some o) {w : Int64} (hw : InI64 (w.toInt * 1000))
    (haxis : InI64 (w.toInt * 1000 - o.offsetUs.toInt)) :
    ∃ v wall : Int64, checkedWallToAxis s.alignment s.hostAxis w = .ok (some v) ∧
      s.checkedToWallMs v = .ok (some (wall, o.boundUs / 1000)) ∧
      (0 ≤ v.toInt → |wall.toInt - w.toInt| ≤ 1) ∧
      (v.toInt < 0 → wall.toInt = o.offsetUs.toInt.tdiv 1000) := by
  obtain ⟨v, haxisOk, hv⟩ := checkedWallToAxis_eq ho hw haxis
  have hlast : v ≤ lastBootMs := by
    obtain ⟨r, hr, hr1, hr2, -⟩ := exists_tdiv_remainder (w.toInt * 1000 - o.offsetUs.toInt)
    rw [Int64.le_iff_toInt_le, hv]
    change _ ≤ (18446744073709551 : ℤ)
    unfold InI64 at haxis
    omega
  have hboot : InI64 (max v.toInt 0 * 1000 + o.offsetUs.toInt) := by
    by_cases h0 : 0 ≤ v.toInt
    · rw [max_eq_left h0, hv]
      exact inI64_wall hw (inI64_toInt _) (hv ▸ h0)
    · rw [max_eq_right (by omega), Int.zero_mul, Int.zero_add]
      exact inI64_toInt _
  obtain ⟨wall, hback, hwall⟩ := toWallMs_eq hhost ho hlast hboot
  refine ⟨v, wall, hhost ▸ haxisOk, ?_, ?_, ?_⟩
  · rw [s.checkedToWallMs_eq hlast, hback]
  · intro h0
    rw [hwall, max_eq_left h0, hv]
    exact wall_within_one _ _
  · intro h0
    rw [hwall, max_eq_right h0.le, Int.zero_mul, Int.zero_add]

/-- **The conversions of a recording.** On a host axis a wall time stays what it is, and nothing
is asked of it.  On an axis of its own a time that is not before boot comes back within a
millisecond, and one before boot comes to boot; that the window's microseconds and their
difference to the offset fit in an `i64` is needed for the way there to return at all, and the way
back then needs nothing more (`exists_round_trip`).  Of an absence whose times a `u64` holds in
microseconds `to_wall_ms` and `neg_wall` make the same wall times, but for an absence that a clock
of the host dated in a recording that has one of its own; the hypothesis keeps the product in its
word, and beyond it both ways overflow alike.  The last part is read off `negWall_eq`, where the
two definitions are compared branch by branch. -/
theorem axis_conversions (s : SourceRun) :
    (∀ w : Int64, s.hostAxis = true →
      checkedWallToAxis s.alignment s.hostAxis w = .ok (some w) ∧
        s.checkedToWallMs w = .ok (some (w, 0))) ∧
    (∀ (offset : OffsetEstimate) (w : Int64), s.hostAxis = false →
      s.alignment.offset = some offset → InI64 (w.toInt * 1000) →
      InI64 (w.toInt * 1000 - offset.offsetUs.toInt) →
      ∃ v wall : Int64, checkedWallToAxis s.alignment s.hostAxis w = .ok (some v) ∧
        s.checkedToWallMs v = .ok (some (wall, offset.boundUs / 1000)) ∧
        (0 ≤ v.toInt → |wall.toInt - w.toInt| ≤ 1) ∧
        (v.toInt < 0 → wall.toInt = offset.offsetUs.toInt.tdiv 1000)) ∧
    ∀ n : NegativeObservation, n.absentSinceMs ≤ lastBootMs → n.expectedByMs ≤ lastBootMs →
      s.checkedToWallMs n.absentSinceMs = .ok (s.toWallMs n.absentSinceMs) ∧
      s.checkedToWallMs n.expectedByMs = .ok (s.toWallMs n.expectedByMs) ∧
      checkedNegWall n s.alignment s.hostAxis = .ok
        (if s.hostAxis = false ∧ isHostAxis n.clockBasis = true then
          some (n.absentSinceMs, n.expectedByMs)
        else do
          let since ← s.toWallMs n.absentSinceMs
          let by_ ← s.toWallMs n.expectedByMs
          return (since.1, by_.1)) := by
  refine ⟨?_, ?_, ?_⟩
  · intro w hhost
    unfold checkedWallToAxis SourceRun.checkedToWallMs
    rw [if_pos hhost, if_pos hhost]
    exact ⟨rfl, rfl⟩
  · intro offset w hhost ho hw haxis
    exact exists_round_trip hhost ho hw haxis
  · intro n hsince hby
    rw [s.checkedToWallMs_eq hsince, s.checkedToWallMs_eq hby,
      checkedNegWall_eq s.alignment s.hostAxis hsince hby, negWall_eq]
    exact ⟨rfl, rfl, rfl⟩

/-! ## 5. A recording that boots ten seconds into the wall clock -/

def bootSource : SourceRun where
  profile := { heartbeatProfile with defaultClockBasis := .bootRelative }
  fileName := "ugv.csv"
  obs := []
  negatives := []
  gapBounds := []
  alignment := {
    basis := .bootRelativeOffsetEstimated
    offset := some {
      offsetUs := 10000000
      boundUs := 1000
      source := .inLogAnchor
      anchors := 1
      discontinuity := false } }
  clockRate := none

/-- A heartbeat that the recording dates by a clock that nothing is known of. -/
def undatedHeartbeat : Observation := { heartbeatAt 1000 with clockBasis := .unknown }

/-- Twelve seconds of wall clock are two of the recording, and back. -/
theorem axis_conversions_example :
    ∃ v wall : Int64, checkedWallToAxis bootSource.alignment bootSource.hostAxis 12000 =
        .ok (some v) ∧
      bootSource.checkedToWallMs v = .ok (some (wall, 1)) ∧
      (0 ≤ v.toInt → |wall.toInt - 12000| ≤ 1) ∧ (v.toInt < 0 → wall.toInt = 10000) :=
  (axis_conversions bootSource).2.1 _ 12000 rfl rfl (by decide) (by decide)

/-- The wall time 0 is before boot and comes back ten seconds late; the end of an unbounded window
overflows; and of an absence after an undated heartbeat the pipeline and the cues make different
times. -/
theorem axis_conversions_differ :
    checkedWallToAxis bootSource.alignment bootSource.hostAxis 0 = .ok (some (-10000)) ∧
    bootSource.checkedToWallMs (-10000) = .ok (some (10000, 1)) ∧
    checkedWallToAxis bootSource.alignment bootSource.hostAxis Int64.maxValue = .error .panic ∧
    ∃ rows, detectAbsencesInDeclaredWindow Sha256.hash bootSource.profile "asset"
        [undatedHeartbeat] (0, 9000) (0, 9000) = some rows ∧
      ∃ n ∈ rows.map Prod.fst,
        checkedNegWall n bootSource.alignment bootSource.hostAxis = .ok (some (1000, 3000)) ∧
        bootSource.checkedToWallMs n.absentSinceMs = .ok (some (11000, 1)) ∧
        bootSource.checkedToWallMs n.expectedByMs = .ok (some (13000, 1)) := by
  refine ⟨by decide, by decide, by decide, ?_⟩
  have hrows : ∃ rows ∈ (detectAbsencesInDeclaredWindow Sha256.hash bootSource.profile "asset"
        [undatedHeartbeat] (0, 9000) (0, 9000)).toList,
      ∃ n ∈ rows.map Prod.fst,
        checkedNegWall n bootSource.alignment bootSource.hostAxis = .ok (some (1000, 3000)) ∧
        bootSource.checkedToWallMs n.absentSinceMs = .ok (some (11000, 1)) ∧
        bootSource.checkedToWallMs n.expectedByMs = .ok (some (13000, 1)) := by
    decide +kernel
  obtain ⟨rows, hmem, n, hn⟩ := hrows
  exact ⟨rows, Option.mem_toList.mp hmem, n, hn⟩

end Musubi.Pipeline
