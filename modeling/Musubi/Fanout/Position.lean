/-
# Positions of an asset

`reference-fanout/src/lib.rs`: the position in one record, by the fields of the formats that carry
one, and the position of an asset at a time: the last one recorded until then, or else the first
one after.

There is one as soon as some record of the asset has a wall time and a position, whatever the time
is (`positionAt_isSome_iff`).  The loop keeps the nearest fix on either side; the one before is
preferred and the one after stands in for it, so between them they miss no fix.
-/
import Musubi.FloatText
import Musubi.Northbound.WirePolicy
import Musubi.Pipeline.Analyze

namespace Musubi.Fanout

open Lib Reference Pipeline

/-! ## 1. One record -/

/-- The unit of the fields of a position. -/
inductive Scale
  | e7Mm
  | e7Cm
  | degM
deriving DecidableEq, Repr

def Scale.divisor : Scale → F64
  | .degM => .ofRat 1
  | _ => .ofRat 10000000

def Scale.altitude : Scale → F64 → F64
  | .e7Mm, v => v.div (.ofRat 1000)
  | .e7Cm, v => v.div (.ofRat 100)
  | .degM, v => v

/-- Latitude, longitude, altitude. -/
def positionFields : List (String × String × Option String × Scale) :=
  [("GLOBAL_POSITION_INT.lat", "GLOBAL_POSITION_INT.lon", some "GLOBAL_POSITION_INT.alt", .e7Mm),
    ("GPS_RAW_INT.lat", "GPS_RAW_INT.lon", none, .e7Mm),
    ("GPS.Lat", "GPS.Lng", some "GPS.Alt", .e7Cm),
    ("sensor_gps.lat", "sensor_gps.lon", some "sensor_gps.alt", .e7Mm),
    ("vehicle_global_position.lat", "vehicle_global_position.lon",
      some "vehicle_global_position.alt", .degM),
    ("GPS_coord[0]", "GPS_coord[1]", none, .degM)]

/-- Out of range, and the place that a writer without a fix writes, are no positions. -/
def finitePosition (latDeg lonDeg : F64) (altM : Option F64) : Option Position :=
  if ¬ latDeg.isFinite ∨ ¬ lonDeg.isFinite ∨
      ¬ F64.within (.ofRat (-90)) (.ofRat 90) latDeg ∨
      ¬ F64.within (.ofRat (-180)) (.ofRat 180) lonDeg ∨
      latDeg.eq (.ofRat 0) ∧ lonDeg.eq (.ofRat 0) then none
  else some { latDeg, lonDeg, altM := altM.filter F64.isFinite }

/-- The position in one group of fields, if the record has the group. -/
def groupPosition (o : Observation) (group : String × String × Option String × Scale) :
    Option (Option Position) := do
  let (latF, lonF, altF, scale) := group
  let la ← Reference.num o latF
  let lo ← Reference.num o lonF
  let alt := (altF.bind (Reference.num o)).map scale.altitude
  return finitePosition (la.div scale.divisor) (lo.div scale.divisor) alt

/-- `split_whitespace`. -/
def splitWhitespace (s : String) : List String :=
  ((s.toList.splitOnP Northbound.WirePolicy.isWhitespace).filter (· ≠ [])).map String.ofList

/-- The column that holds `"lat lon"`. -/
def textPosition (o : Observation) : Option Position :=
  match field o "GPS" with
  | some (.text s) =>
    match splitWhitespace s with
    | la :: lo :: _ =>
      match F64.parse la, F64.parse lo with
      | some la, some lo => finitePosition la lo none
      | _, _ => none
    | _ => none
  | _ => none

/-- The first group that the record has decides. -/
def positionOf (o : Observation) : Option Position :=
  match positionFields.findSome? (groupPosition o) with
  | some p => p
  | none => textPosition o

/-! ## 2. One asset -/

/-- A position, when it was recorded, and by which source. -/
structure Fix where
  position : Position
  wallMs : Int64
  sourceIndex : ℕ
deriving DecidableEq

/-- The last fix until a time and the first one after it, so far. -/
structure Nearest where
  before : Option Fix
  after : Option Fix

def fixStep (atWallMs : Int64) (si : ℕ) (n : Nearest) (o : Observation) : Nearest :=
  match o.wallMs, positionOf o with
  | some w, some p =>
    if w ≤ atWallMs then
      if n.before.all fun b => b.wallMs ≤ w then { n with before := some ⟨p, w, si⟩ } else n
    else if n.after.all fun a => w < a.wallMs then { n with after := some ⟨p, w, si⟩ }
    else n
  | _, _ => n

def nearest (sources : List SourceRun) (atWallMs : Int64) : Nearest :=
  sources.zipIdx.foldl (fun n entry => entry.1.obs.foldl (fixStep atWallMs entry.2) n) ⟨none, none⟩

def positionAt (sources : List SourceRun) (atWallMs : Int64) : Option Fix :=
  let n := nearest sources atWallMs
  n.before.or n.after

/-- The record has a wall time and a position. -/
def Places (o : Observation) : Prop := o.wallMs.isSome ∧ (positionOf o).isSome

instance (o : Observation) : Decidable (Places o) := inferInstanceAs (Decidable (_ ∧ _))

/-- Some record of the sources is placed. -/
def Placed (sources : List SourceRun) : Prop := ∃ s ∈ sources, ∃ o ∈ s.obs, Places o

instance (sources : List SourceRun) : Decidable (Placed sources) :=
  inferInstanceAs (Decidable (∃ s ∈ sources, ∃ o ∈ s.obs, Places o))

/-- There is a fix. -/
def Nearest.Found (n : Nearest) : Prop := n.before.isSome ∨ n.after.isSome

theorem found_fixStep (atWallMs : Int64) (si : ℕ) (n : Nearest) (o : Observation) :
    (fixStep atWallMs si n o).Found ↔ n.Found ∨ Places o := by
  unfold fixStep Places Nearest.Found
  cases o.wallMs with
  | none => simp
  | some w =>
    cases positionOf o with
    | none => simp
    | some p =>
      rcases n with ⟨_ | b, _ | a⟩ <;> dsimp only <;> split_ifs <;> simp_all

theorem found_foldl (atWallMs : Int64) (si : ℕ) (obs : List Observation) : ∀ (n : Nearest),
    (obs.foldl (fixStep atWallMs si) n).Found ↔ n.Found ∨ ∃ o ∈ obs, Places o := by
  induction obs with
  | nil => simp
  | cons o obs ih =>
    intro n
    rw [List.foldl_cons, ih, found_fixStep, List.exists_mem_cons_iff, or_assoc]

/-- **An asset has a position at every time or at none.** A fix is on one of the two sides of any
time, and either side will do. -/
theorem positionAt_isSome_iff (sources : List SourceRun) (atWallMs : Int64) :
    (positionAt sources atWallMs).isSome ↔ Placed sources := by
  have hrun (l : List SourceRun) : ∀ (start : ℕ) (n : Nearest),
      ((l.zipIdx start).foldl
          (fun n entry => entry.1.obs.foldl (fixStep atWallMs entry.2) n) n).Found ↔
        n.Found ∨ ∃ s ∈ l, ∃ o ∈ s.obs, Places o := by
    induction l with
    | nil => simp
    | cons s l ih =>
      intro start n
      rw [List.zipIdx_cons, List.foldl_cons, ih, found_foldl, List.exists_mem_cons_iff, or_assoc]
  have hfound := hrun sources 0 ⟨none, none⟩
  have hnone : ¬ (⟨none, none⟩ : Nearest).Found := by simp [Nearest.Found]
  rw [or_iff_right hnone] at hfound
  rw [positionAt, Option.isSome_or, Bool.or_eq_true]
  exact hfound

end Musubi.Fanout
