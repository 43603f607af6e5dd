/-
# The order of fixes in written logs

`order_with_bounds` of `reference-types/src/lib.rs` and `order` of
`reference-readers/src/time_align.rs`: two wall times with their bounds, one before the other only
where their bands are apart.

Two DataFlash logs of one timeline are each aligned by their own fixes.  What the order says of a
fix of the one and a fix of the other is then true of the events that were written
(`written_fixes_ordered`): both alignments carry a bound that covers their fixes.

Four results come together.  The writer's log has an anchor for each of its fixes whose time can
be written (`anchor_mem_body`); the reader finds it (`bin_read_back`); the alignment covers every
anchor that it was made of (`alignment_sound`), also if other anchors are wrong; and two times
whose bands are apart are in the order of the bands (`orderWithBounds_sound`).  Saturation at the
ends of the range only makes bands wider.

Of the log's other fixes nothing is asked.  One whose week does not fit is read as a fix of
another time and widens the bound, and with a wider bound the order says less.
-/
import Musubi.Reference.AlignmentBound
import Musubi.Writers.BinReadBack

namespace Musubi.Writers.Bin

open Lib Lib.Checked Musubi.Core Reference Scenario
open Reference.Bin (ReadReport)

/-! ## 1. Order with bounds -/

inductive OrderRelation
  | before
  | after
  | orderUnknown
deriving DecidableEq, Repr

def orderWithBounds (aUs aBoundUs bUs bBoundUs : Int64) : OrderRelation :=
  if satAdd64 aUs aBoundUs < satSub64 bUs bBoundUs then .before
  else if satAdd64 bUs bBoundUs < satSub64 aUs aBoundUs then .after
  else .orderUnknown

/-- `order`. -/
def order (aUs aBound bUs bBound : Int64) : OrderRelation := orderWithBounds aUs aBound bUs bBound

theorem lt_of_clamp64_lt {v w : ℤ} (h : clamp64 v < clamp64 w) : v < w := by
  by_contra hle
  rw [not_lt] at hle
  have hfits (u : ℤ) : (clamp64 u).toInt = max (-2 ^ 63) (min u (2 ^ 63 - 1)) :=
    toInt_ofInt64 ⟨by omega, by omega⟩
  rw [Int64.lt_iff_toInt_lt, hfits, hfits] at h
  omega

/-- **An order that is told holds of any two times within the bounds.** -/
theorem orderWithBounds_sound {aUs aBound bUs bBound : Int64} {a b : ℤ}
    (ha : |aUs.toInt - a| ≤ aBound.toInt) (hb : |bUs.toInt - b| ≤ bBound.toInt) :
    (orderWithBounds aUs aBound bUs bBound = .before → a < b) ∧
      (orderWithBounds aUs aBound bUs bBound = .after → b < a) := by
  rw [abs_le] at ha hb
  unfold orderWithBounds
  split
  · next h =>
    have hlt := lt_of_clamp64_lt h
    exact ⟨fun _ => by omega, nofun⟩
  split
  · next h =>
    have hlt := lt_of_clamp64_lt h
    exact ⟨nofun, fun _ => by omega⟩
  · exact ⟨nofun, nofun⟩

/-! ## 2. Fixes -/

section Fixes

variable {timeline : Timeline} {assetId : String} {input : Slice} {report : ReadReport}
  {sha256 : List UInt8 → Digest} {profile : FamilyProfile}

/-- **A dated fix is an anchor of its log**, whatever the fixes before and after it are. -/
theorem anchor_mem_body {e : Event} (hdate : Dateable (timeline.wallUs e)) {fix : Int64}
    (hfix : fixTime timeline e = some fix) {events : List Event} (he : e ∈ events) :
    ∀ msgSeq lastHdgCdeg, ∃ r ∈ body timeline msgSeq lastHdgCdeg events,
      r.anchor = some fix ∧ r.timeUs = e.tBootUs := by
  induction events with
  | nil => cases he
  | cons first more ih =>
    intro msgSeq lastHdgCdeg
    rw [body]
    rcases List.mem_cons.mp he with rfl | hmore
    · have hmem : (e.tBootUs, fix) ∈ (recs timeline msgSeq lastHdgCdeg e).filterMap
          (fun r => r.anchor.map (r.timeUs, ·)) := by
        rw [anchors_recs fun _ => hdate, hfix]
        exact List.mem_singleton_self _
      obtain ⟨r, hr, hpair⟩ := List.mem_filterMap.mp hmem
      obtain ⟨anchor, hanchor, hpair⟩ := Option.map_eq_some_iff.mp hpair
      obtain ⟨htime, rfl⟩ := Prod.mk.inj hpair
      exact ⟨r, List.mem_append_left _ hr, hanchor, htime⟩
    · obtain ⟨r, hr, hanchor⟩ := ih hmore (nextSeq msgSeq first) (nextHdg lastHdgCdeg first)
      exact ⟨r, List.mem_append_right _ hr, hanchor⟩

/-- It is among the anchors that the alignment goes by. -/
theorem anchor_mem_recorded (hrender : render timeline assetId = .ok input.bytes)
    (hread : Reference.Bin.readReport sha256 profile input = .ok report)
    {e : Event} (he : e ∈ firstBoot (eventsFor timeline assetId .fc))
    (hdate : Dateable (timeline.wallUs e)) {fix : Int64} (hfix : fixTime timeline e = some fix) :
    ((e.tBootUs.toNat : ℤ), fix.toInt) ∈ recordedAnchors report.observations := by
  have hprofile := (Reference.Bin.readReportImpl_eq_ok.mp hread).1
  obtain ⟨-, rfl⟩ := (readReport_log sha256 hprofile hrender).mp hread
  have hlog : ∃ r ∈ log timeline assetId, r.anchor = some fix ∧ r.timeUs = e.tBootUs := by
    unfold log
    revert he
    cases eventsFor timeline assetId .fc with
    | nil => exact fun he => nomatch he
    | cons first more =>
      intro he
      obtain ⟨r, hr, hanchor⟩ := anchor_mem_body hdate hfix he 2 0
      exact ⟨r, List.mem_append_right _ hr, hanchor⟩
  obtain ⟨r, hr, hanchor, htime⟩ := hlog
  refine List.mem_filterMap.mpr ⟨r.observed sha256 profile, List.mem_map_of_mem hr, ?_⟩
  rw [Reference.anchorOf, Rec.observed, hanchor, htime]

/-- **A fix of a written log is covered by the alignment of the log.**  The bound that comes with an
offset covers every anchor, and the fix is one of them; fixes that are not dated move the offset
and widen the bound, but take nothing from this. -/
theorem abs_fix_sub_le (hrender : render timeline assetId = .ok input.bytes)
    (hread : Reference.Bin.readReport sha256 profile input = .ok report)
    {e : Event} (he : e ∈ firstBoot (eventsFor timeline assetId .fc))
    (hdate : Dateable (timeline.wallUs e)) {fix : Int64}
    (hfix : fixTime timeline e = some fix) {basis : ClockBasis} {wall bound : Int64}
    (hwall : toWallUs (estimateAlignment report.observations basis) e.tBootUs =
      some (wall, bound)) :
    |wall.toInt - fix.toInt| ≤ bound.toInt := by
  have hanchor := anchor_mem_recorded hrender hread he hdate hfix
  cases hoffset : (estimateAlignment report.observations basis).offset with
  | none =>
    rw [toWallUs, hoffset] at hwall
    cases hwall
  | some o =>
    obtain ⟨hsum, rfl⟩ := toWallUs_eq_some hoffset hwall
    obtain ⟨first, rest, hsorted, hresult⟩ :=
      exists_anchors (checkedAlignment_driftBound report.observations basis) hoffset
    rw [hresult] at hoffset
    have hcovered := abs_toWall_sub_le nonnegDrift_driftBound hsorted hoffset hanchor
    rw [hsum]
    exact hcovered

/-- The time of a dated fix is its wall time, cut to the millisecond. -/
theorem exists_fix {e : Event} (hdate : Dateable (timeline.wallUs e))
    (hfix : fixTime timeline e ≠ none) :
    ∃ fix, fixTime timeline e = some fix ∧
      fix.toInt = timeline.wallUs e / 1000 * 1000 := by
  obtain ⟨hpos, hlt⟩ := hdate
  obtain ⟨fix, hsome⟩ := Option.ne_none_iff_exists'.mp hfix
  refine ⟨fix, hsome, ?_⟩
  unfold gpsMs at hpos hlt
  have hwall : 0 ≤ timeline.wallUs e := by
    have hsplit := Int.mul_tdiv_add_tmod (timeline.wallUs e) 1000
    have hmod := Int.lt_tmod_of_pos (timeline.wallUs e) (by decide : (0 : ℤ) < 1000)
    omega
  rw [← Int.tdiv_eq_ediv_of_nonneg hwall]
  unfold fixTime at hsome
  split at hsome
  · split at hsome
    · obtain rfl := Option.some.inj hsome
      exact toInt_ofInt64 ⟨by omega, by omega⟩
    · cases hsome
  · cases hsome

/-- **What is said of the order of two fixes is true.**  Each log is aligned by its own anchors,
whatever these are, and each wall time has a bound of its own.  Of the two fixes themselves
the wall time must lie in the weeks that a `u16` counts: a time behind them is written as one of
the first weeks, and the order would be that of the times in the logs. -/
theorem written_fixes_ordered {timeline : Timeline} {a b : String} {inputA inputB : Slice}
    {reportA reportB : ReadReport} {profileA profileB : FamilyProfile}
    (hrenderA : render timeline a = .ok inputA.bytes)
    (hrenderB : render timeline b = .ok inputB.bytes)
    (hreadA : Reference.Bin.readReport sha256 profileA inputA = .ok reportA)
    (hreadB : Reference.Bin.readReport sha256 profileB inputB = .ok reportB)
    {e f : Event} (he : e ∈ firstBoot (eventsFor timeline a .fc))
    (hf : f ∈ firstBoot (eventsFor timeline b .fc))
    (hfixE : fixTime timeline e ≠ none) (hfixF : fixTime timeline f ≠ none)
    (hdateE : Dateable (timeline.wallUs e)) (hdateF : Dateable (timeline.wallUs f))
    {basisA basisB : ClockBasis} {wallA boundA wallB boundB : Int64}
    (hwallA : toWallUs (estimateAlignment reportA.observations basisA) e.tBootUs =
      some (wallA, boundA))
    (hwallB : toWallUs (estimateAlignment reportB.observations basisB) f.tBootUs =
      some (wallB, boundB)) :
    (order wallA boundA wallB boundB = .before → timeline.wallUs e < timeline.wallUs f) ∧
      (order wallA boundA wallB boundB = .after → timeline.wallUs f < timeline.wallUs e) := by
  obtain ⟨fixE, hsomeE, hE⟩ := exists_fix hdateE hfixE
  obtain ⟨fixF, hsomeF, hF⟩ := exists_fix hdateF hfixF
  have hcoverE := abs_fix_sub_le hrenderA hreadA he hdateE hsomeE hwallA
  have hcoverF := abs_fix_sub_le hrenderB hreadB hf hdateF hsomeF hwallB
  obtain ⟨hbefore, hafter⟩ := orderWithBounds_sound hcoverE hcoverF
  constructor
  · intro h
    have hlt := hbefore h
    omega
  · intro h
    have hlt := hafter h
    omega

end Fixes

/-- A rover with two fixes, and a plane that has its own a minute later, soon after its start.  The
boot times of either are apart by some more than the wall times, as clocks drift. -/
def roverFix : Event :=
  ⟨1000, 38000000, 0, "ugv-01", .ugv, .fc, .gpsEkf,
    .gpsRawInt 3 12 90 350000000 1390000000 10000 0 true⟩

def laterRoverFix : Event :=
  ⟨3000, 40000300, 0, "ugv-01", .ugv, .fc, .gpsEkf,
    .gpsRawInt 3 12 90 350000100 1390000200 10000 0 true⟩

def planeFix : Event :=
  ⟨61000, 5000000, 0, "plane-01", .fixedWing, .fc, .gpsEkf,
    .gpsRawInt 3 10 110 350100000 1390200000 90000 0 true⟩

def laterPlaneFix : Event :=
  ⟨62000, 6000150, 0, "plane-01", .fixedWing, .fc, .gpsEkf,
    .gpsRawInt 4 10 110 350100300 1390200400 90000 0 true⟩

def twoVehicles : Timeline where
  t0UnixUs := 1788166800000000
  assets := [⟨"ugv-01", [.fc], .arduPilotBin⟩, ⟨"plane-01", [.fc], .arduPilotBin⟩]
  events := [roverFix, planeFix, laterPlaneFix, laterRoverFix]

def vehicleLog (id : String) : List UInt8 :=
  (defs.map fmtRec).flatMap Rec.buf ++ (log twoVehicles id).flatMap Rec.buf

def roverLog : Slice := ⟨vehicleLog "ugv-01", by decide +kernel⟩

def planeLog : Slice := ⟨vehicleLog "plane-01", by decide +kernel⟩

def observationsOf (id : String) : List Observation :=
  (log twoVehicles id).map (Rec.observed (fun _ => .replicate 32 0) exampleProfile)

theorem twoVehicles_ordered :
    order 1788166803000300 300 1788166861000000 150 = .before ∧
      twoVehicles.wallUs laterRoverFix < twoVehicles.wallUs planeFix := by
  have hread (id : String) (input : Slice) (hrender : render twoVehicles id = .ok input.bytes)
      (hreadable : ∀ r ∈ log twoVehicles id, r.Readable) :
      Reference.Bin.readReport (fun _ => .replicate 32 0) exampleProfile input =
        .ok ⟨observationsOf id, [], (log twoVehicles id).length⟩ :=
    (readReport_log _ rfl hrender).mpr ⟨hreadable, rfl⟩
  have hrover : render twoVehicles "ugv-01" = .ok roverLog.bytes := by decide +kernel
  have hplane : render twoVehicles "plane-01" = .ok planeLog.bytes := by decide +kernel
  have hreadRover := hread "ugv-01" roverLog hrover (by decide +kernel)
  have hreadPlane := hread "plane-01" planeLog hplane (by decide +kernel)
  have hwallRover : toWallUs (estimateAlignment (observationsOf "ugv-01") .bootRelative)
      laterRoverFix.tBootUs = some (1788166803000300, 300) := by decide +kernel
  have hwallPlane : toWallUs (estimateAlignment (observationsOf "plane-01") .bootRelative)
      planeFix.tBootUs = some (1788166861000000, 150) := by decide +kernel
  have horder : order 1788166803000300 300 1788166861000000 150 = .before := by decide
  have hmemRover : laterRoverFix ∈ firstBoot (eventsFor twoVehicles "ugv-01" .fc) := by
    decide +kernel
  have hmemPlane : planeFix ∈ firstBoot (eventsFor twoVehicles "plane-01" .fc) := by
    decide +kernel
  exact ⟨horder, (written_fixes_ordered hrover hplane hreadRover hreadPlane hmemRover hmemPlane
    (by decide) (by decide) (by decide) (by decide) hwallRover hwallPlane).1 horder⟩

end Musubi.Writers.Bin
