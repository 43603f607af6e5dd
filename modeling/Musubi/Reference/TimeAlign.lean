/-
# Time alignment

`reference-readers/src/time_align.rs`: how the clock of a recording is placed on the wall clock by
the anchors found in it, and how far the two clocks drifted apart between the first anchor and the
last.

An anchor pairs a reading of the device clock with a reading of the wall clock, both in
microseconds.  The source widens them to `i128` before any arithmetic; here they are integers from
the start, and the operations on them panic where `i128` would overflow.  The differences and the
spread that an alignment is estimated from cannot: they stay below 2^66.

The estimate and the rate are two computations on the same anchors, with different questions:
where the clock stands, up to a bound, and how fast it goes, up to an interval.  Their results are
in `AlignmentBound` and `RelativeRate`.
-/
import Musubi.FloatArith
import Musubi.Lib.Gaps
import Musubi.Lib.Int128
import Musubi.Lib.Saturating
import Musubi.Reference.Observation
import Mathlib.Data.List.Destutter
import Mathlib.Data.List.Sort

namespace Musubi.Reference

open Lib Lib.Checked

/-! ## 1. Types -/

inductive OffsetSource
  | inLogAnchor
  | crossLogEvent
  | interpolated
deriving DecidableEq, Repr

structure OffsetEstimate where
  offsetUs : Int64
  boundUs : Int64
  source : OffsetSource
  anchors : UInt32
  discontinuity : Bool
deriving DecidableEq

structure TimeAlignment where
  basis : ClockBasis
  offset : Option OffsetEstimate
deriving DecidableEq

inductive ClockRateClass
  | withinDeclaredLimit
  | outsideDeclaredLimit
  | indeterminate
deriving DecidableEq, Repr

inductive ClockRateGap
  | fewerThanTwoAnchors
  | spanShorterThanDeclaredMinimum
  | uncertaintyNotSmallerThanSpan
  | offsetDiscontinuity
  | deviceClockNotMonotonic
  | offsetSourceNotInLogAnchor
  | clockBasisNotDeviceClock
  | outOfRepresentableRange
deriving DecidableEq, Repr

inductive ClockRateOutcome
  | observed (lowPpm highPpm : Int64) (cls : ClockRateClass)
  | insufficientBasis (gap : ClockRateGap)
deriving DecidableEq

structure ClockRateReport where
  outcome : ClockRateOutcome
  anchors : UInt32
  spanUs : Int64
  config : ClockRateConfig
deriving DecidableEq

/-! ## 2. Anchors -/

/-- Device clock, wall clock. -/
abbrev Anchor := ℤ × ℤ

def anchorOf (o : Observation) : Option Anchor :=
  match o.tBootUs, o.anchorUnixUs with
  | some boot, some wall => some (boot.toNat, wall.toInt)
  | _, _ => none

/-- In the order of the recording. -/
def recordedAnchors (obs : List Observation) : List Anchor := obs.filterMap anchorOf

/-- The order of tuples. -/
def anchorLe (p q : Anchor) : Prop := p.1 < q.1 ∨ p.1 = q.1 ∧ p.2 ≤ q.2

instance : DecidableRel anchorLe := fun _ _ => inferInstanceAs (Decidable (_ ∨ _ ∧ _))

/-- `sort_unstable`, then `dedup`. -/
def sortedAnchors (obs : List Observation) : List Anchor :=
  ((recordedAnchors obs).insertionSort anchorLe).destutter (· ≠ ·)

/-! ## 3. Alignments -/

/-- The clock is not one of the device. -/
def isHostAxis (basis : ClockBasis) : Bool := basis = .hostReceived || basis = .unknown

def discontinuityUs : ℤ := 1000000

def anchorTailGapMs : ℤ := 5000

/-- The largest, from `start` on. -/
def largest (start : ℤ) (values : List ℤ) : ℤ := values.foldl max start

/-- The uncertainty that drift adds over the stretch without an anchor, at 100 ppm:
`(extrapolated_us * 100.0 * 1e-6).ceil() as i128`. -/
def driftBound (beyond sinceFirst : ℤ) : ℤ :=
  let extrapolated := F64.add (.ofInt beyond) (.ofInt sinceFirst)
  F64.ceilAsI128 (.mul (.mul extrapolated (.ofRat 100)) (.ofRat (1 / 1000000)))

def estimatedBasis (defaultBasis : ClockBasis) (discontinuity : Bool) (tailGapMs innerGapMs : ℤ) :
    ClockBasis :=
  if defaultBasis = .hostReceived then .hostReceived
  else if discontinuity then .gpsSuspect
  else if tailGapMs ≤ anchorTailGapMs ∧ innerGapMs ≤ anchorTailGapMs then .gpsLocked
  else .bootRelativeOffsetEstimated

/-- The alignment of a recording with anchors, the first of them `first`. -/
def anchoredAlignment (obs : List Observation) (defaultBasis : ClockBasis) (first : Anchor)
    (rest : List Anchor) : TimeAlignment :=
  let anchors := first :: rest
  let offsets := anchors.map fun p => p.2 - p.1
  let discontinuity := (consecutive anchors).any fun (p, q) =>
    decide (discontinuityUs ≤ |(q.2 - q.1) - (p.2 - p.1)|)
  let median := (offsets.insertionSort (· ≤ ·)).getD (offsets.length / 2) 0
  let spread := largest 0 (offsets.map fun o => |o - median|)
  let lastBoot := (rest.getLastD first).1
  let logLastBoot := largest lastBoot (obs.filterMap fun o => o.tBootUs.map fun b => (b.toNat : ℤ))
  let bound := spread +
    driftBound (logLastBoot - lastBoot) (if rest.isEmpty then logLastBoot - first.1 else 0)
  if InI64 median ∧ InI64 bound then
    let innerGapMs := largest 0 ((consecutive anchors).map fun (p, q) => (q.1 - p.1) / 1000)
    { basis :=
        estimatedBasis defaultBasis discontinuity ((logLastBoot - lastBoot) / 1000) innerGapMs
      offset := some {
        offsetUs := .ofInt median
        boundUs := max (.ofInt bound) 1
        source := .inLogAnchor
        anchors := .ofNat anchors.length
        discontinuity } }
  else
    { basis := if defaultBasis = .hostReceived then .hostReceived else .gpsSuspect, offset := none }

def estimateAlignment (obs : List Observation) (defaultBasis : ClockBasis) : TimeAlignment :=
  match sortedAnchors obs with
  | [] =>
    { basis := if isHostAxis defaultBasis then defaultBasis else .bootRelative, offset := none }
  | first :: rest => anchoredAlignment obs defaultBasis first rest

/-- The smallest of a list. -/
def smallest : List ℤ → Option ℤ
  | [] => none
  | v :: values => some (values.foldl min v)

/-- Both recordings are taken to have started together. -/
def alignByStart (obs : List Observation) (referenceStartWallMs boundUs : Int64) :
    Option TimeAlignment := do
  let firstBoot ← smallest (obs.filterMap fun o => o.tBootUs.map fun b => (b.toNat : ℤ))
  let offsetUs := referenceStartWallMs.toInt * 1000 - firstBoot
  if InI64 offsetUs then
    some {
      basis := .bootRelativeOffsetEstimated
      offset := some {
        offsetUs := .ofInt offsetUs
        boundUs
        source := .crossLogEvent
        anchors := 1
        discontinuity := false } }
  else none

/-- A reading of the device clock on the wall clock, with the bound of the offset. -/
def toWallUs (al : TimeAlignment) (tBootUs : UInt64) : Option (Int64 × Int64) := do
  let o ← al.offset
  let wall := (tBootUs.toNat : ℤ) + o.offsetUs.toInt
  if InI64 wall then some (.ofInt wall, o.boundUs) else none

/-- Observations on the device clock take the basis of the alignment and their wall time. -/
def promote (obs : List Observation) (al : TimeAlignment) : List Observation :=
  obs.map fun o =>
    if isHostAxis o.clockBasis then o
    else
      { o with
        clockBasis := al.basis
        timeConfidence := defaultTimeConfidence al.basis
        wallMs := (o.tBootUs.bind (toWallUs al)).map fun w => w.1 / 1000 }

/-! ## 4. Relative clock rate -/

/-- What the rate is computed from: the change of the offset, the span of the device clock,
both with the same uncertainty, and the number of anchors. -/
structure RateBaseline where
  dOffset : ℤ
  span : ℤ
  twoU : ℤ
  anchors : ℕ
deriving DecidableEq

/-- `windows(2).any(|w| w[1].0 < w[0].0)`. -/
def runsBackwards : List Anchor → Bool
  | p :: q :: rest => decide (q.1 < p.1) || runsBackwards (q :: rest)
  | _ => false

/-- How the offset changed.  Each offset is formed first: the epoch cancels here. -/
def offsetChange {ε : Type} (first last : Anchor) : Checked ε ℤ := do
  let offsetLast ← sub128 last.2 last.1
  let offsetFirst ← sub128 first.2 first.1
  sub128 offsetLast offsetFirst

/-- The checks, in the order in which they are made. -/
def rateBaseline (obs : List Observation) (al : TimeAlignment) (cfg : ClockRateConfig) :
    Checked ClockRateGap RateBaseline :=
  if al.basis = .hostReceived ∨ al.basis = .unknown then fail .clockBasisNotDeviceClock else
  match al.offset with
  | none => fail .fewerThanTwoAnchors
  | some o =>
    if o.source ≠ .inLogAnchor then fail .offsetSourceNotInLogAnchor else
    if o.discontinuity then fail .offsetDiscontinuity else
    if runsBackwards (recordedAnchors obs) then fail .deviceClockNotMonotonic else
    match (sortedAnchors obs).head?, (sortedAnchors obs).getLast? with
    | some first, some last =>
      if (sortedAnchors obs).length < 2 ∨ last.1 = first.1 then fail .fewerThanTwoAnchors else do
      let span ← sub128 last.1 first.1
      if span < cfg.minSpanUs.toInt then fail .spanShorterThanDeclaredMinimum else do
      let twoU ← mul128 2 cfg.anchorUncertaintyUs.toInt
      let narrow ← sub128 span twoU
      if narrow ≤ 0 then fail .uncertaintyNotSmallerThanSpan else do
      let dOffset ← offsetChange first last
      return ⟨dOffset, span, twoU, (sortedAnchors obs).length⟩
    | _, _ => fail .fewerThanTwoAnchors

/-- One corner: the floor of the quotient in ppm into the minimum, its ceiling into the
maximum. -/
def rateCorner {ε : Type} (acc : ℤ × ℤ) (n d : ℤ) : Checked ε (ℤ × ℤ) := do
  let scaled ← mul128 n 1000000
  let below ← divEuclid128 scaled d
  let negated ← neg128 scaled
  let quotient ← divEuclid128 negated d
  let above ← neg128 quotient
  return (min acc.1 below, max acc.2 above)

def rateCorners {ε : Type} (b : RateBaseline) : Checked ε (ℤ × ℤ) := do
  let nLow ← sub128 b.dOffset b.twoU
  let nHigh ← add128 b.dOffset b.twoU
  let dLow ← sub128 b.span b.twoU
  let dHigh ← add128 b.span b.twoU
  let acc ← rateCorner (2 ^ 127 - 1, -2 ^ 127) nLow dLow
  let acc ← rateCorner acc nLow dHigh
  let acc ← rateCorner acc nHigh dLow
  rateCorner acc nHigh dHigh

def rateClass (t negT low high : ℤ) : ClockRateClass :=
  if negT ≤ low ∧ high ≤ t then .withinDeclaredLimit
  else if t < low ∨ high < negT then .outsideDeclaredLimit
  else .indeterminate

def rateReport (obs : List Observation) (al : TimeAlignment) (cfg : ClockRateConfig) :
    Checked ClockRateGap ClockRateReport := do
  let b ← rateBaseline obs al cfg
  let (low, high) ← rateCorners b
  let negT ← neg128 cfg.maxAbsRatePpm.toInt
  let cls := rateClass cfg.maxAbsRatePpm.toInt negT low high
  if InI64 b.span ∧ InI64 low ∧ InI64 high then
    return {
      outcome := .observed (.ofInt low) (.ofInt high) cls
      anchors := .ofNat b.anchors
      spanUs := .ofInt b.span
      config := cfg }
  else fail .outOfRepresentableRange

/-- A gap is reported, not raised: nothing is guessed or filled in. -/
def estimateRelativeRate (obs : List Observation) (al : TimeAlignment) (cfg : ClockRateConfig) :
    Checked Empty ClockRateReport :=
  recover (fun gap => ⟨.insufficientBasis gap, 0, 0, cfg⟩) (rateReport obs al cfg)

end Musubi.Reference
