/-
# Absence detection

`reference-readers/src/absence.rs`: values that do not change for too long are marked stale, the
remaining observations of a channel are put in order, and every stretch between two of them, or
between one and the end of the window, that is longer than the expectation allows is reported.
`sort_by_key` is stable, as insertion is.

The loop over the gaps carries the last good observation, and a gap names the two points that it
lies between; at the ends these are the ends of the window.  An expectation may ask for the
declared window only, and then its time line is that of the declared window and not that of what
was scanned.

The assertion inside `join_reason_tokens` is a `none` of the row it would have made, and one row
without an answer makes the whole detection one.  That it never happens is shown in
`Fanout.ReasonTokens`.
-/
import Mathlib.Data.List.Sort
import Musubi.Lib.Saturating
import Musubi.Reference.Observation

namespace Musubi.Reference

open Lib

/-! ## 1. Rows -/

inductive GapEnd
  | nextObservation
  | nextObservationClockUnresolved
  | openEnd
deriving DecidableEq, Repr

def GapEnd.asLabel : GapEnd → String
  | .nextObservation => "next_observation"
  | .nextObservationClockUnresolved => "next_observation_clock_unresolved"
  | .openEnd => "open_end"

structure GapBounds where
  stop : GapEnd
  nextGood : Option Digest
  nextGoodMs : Option Int64
  nextGoodClockBasis : Option ClockBasis
deriving DecidableEq

abbrev Row := NegativeObservation × GapBounds

inductive GapContent
  | noRecordInGap
  | requiredFieldAbsent
  | recordMarkedStale
deriving DecidableEq, Repr

def GapContent.asLabel : GapContent → String
  | .noRecordInGap => "gap-content:no-record-in-gap"
  | .requiredFieldAbsent => "gap-content:required-field-absent"
  | .recordMarkedStale => "gap-content:record-marked-stale"

/-! ## 2. Selected values -/

/-- The value of the one field of that name, unless it is blank or not finite. -/
def selectedValue (o : Observation) (name : String) : Option (String × FieldValue) :=
  match o.fields.filter fun field => field.1 = name with
  | [(_, value)] =>
    match value with
    | .blank => none
    | .f64 n => if n.isFinite then some (name, value) else none
    | _ => some (name, value)
  | _ => none

def selectedValues (o : Observation) (names : List String) : Option Fields :=
  names.mapM (selectedValue o)

/-! ## 3. The frozen rule -/

variable (sha256 : List UInt8 → Digest)

/-- The digest by which two observations have the same value, if there is one. -/
def frozenDigest (channel : ChannelId) (names : Option (List String)) (o : Observation) :
    Option Digest :=
  match names with
  | none => some (valueDigest sha256 o.fields)
  | some names =>
    match selectedValues o names with
    | none => none
    | some [] => none
    | some values => some (observationDigest sha256 0 channel values)

/-- The state of the loop: the run of equal values so far, and the indices marked stale. -/
structure FrozenRun where
  startT : Option Int64
  digest : Option Digest
  stale : List ℕ

/-- `i64::try_from(v).unwrap_or(i64::MAX)`. -/
def i64OrMax (v : ℕ) : Int64 := clamp64 v

/-- `start` began a run that lasts long enough at `t`. -/
def frozenAt (frozenMs : UInt64) (startT : Option Int64) (t : Int64) : Bool :=
  match startT with
  | none => false
  | some start => decide (i64OrMax frozenMs.toNat ≤ satSub64 t start)

def frozenStep (channel : ChannelId) (frozenMs : UInt64) (names : Option (List String))
    (run : FrozenRun) (entry : Observation × ℕ) : FrozenRun :=
  match frozenDigest sha256 channel names entry.1 with
  | none => { run with startT := none, digest := none }
  | some d =>
    if run.digest = some d then
      if frozenAt frozenMs run.startT entry.1.tMs then { run with stale := entry.2 :: run.stale }
      else run
    else { run with startT := some entry.1.tMs, digest := some d }

/-- The observations of the channel in time order, with their places. -/
def channelEntries (obs : List Observation) (channel : ChannelId) : List (Observation × ℕ) :=
  (obs.zipIdx.filter fun entry => entry.1.channel = channel).insertionSort
    fun a b => a.1.tMs ≤ b.1.tMs

def applyFrozenFieldsRule (obs : List Observation) (channel : ChannelId) (frozenMs : UInt64)
    (names : Option (List String)) : List Observation :=
  let run := (channelEntries obs channel).foldl (frozenStep sha256 channel frozenMs names)
    { startT := none, digest := none, stale := [] }
  obs.zipIdx.map fun entry =>
    if entry.2 ∈ run.stale then { entry.1 with stale := true } else entry.1

/-! ## 4. Gaps -/

/-- A stretch without a good observation. -/
structure Gap where
  since : Int64
  last : Option Observation
  next : Option Observation
  until_ : Int64

/-- The loop over the good observations and the open end after it. -/
def findGaps (threshold windowStart windowEnd : Int64) :
    Option Observation → List Observation → List Gap
  | prev, [] =>
    let since := (prev.map Observation.tMs).getD windowStart
    if threshold < windowEnd - since then [⟨since, prev, none, windowEnd⟩] else []
  | prev, o :: good =>
    let since := (prev.map Observation.tMs).getD windowStart
    (if threshold < o.tMs - since then [⟨since, prev, some o, o.tMs⟩] else []) ++
      findGaps threshold windowStart windowEnd (some o) good

def gapContent (src : List Observation) (channel : ChannelId) (names : List String)
    (since until_ : Int64) : GapContent :=
  let inGap := src.filter fun o => o.channel = channel ∧ since ≤ o.tMs ∧ o.tMs < until_
  if inGap.any fun o => !o.stale && (selectedValues o names).isNone then .requiredFieldAbsent
  else if inGap.any Observation.stale then .recordMarkedStale
  else .noRecordInGap

def absenceMark (basis : ClockBasis) (profile : FamilyProfile) (content : Option GapContent) :
    Option Mark :=
  let tokens := ["absence-expected-cadence", basis.reasonToken] ++
    (content.map GapContent.asLabel).toList
  (joinReasonTokens tokens).map fun reasonCode =>
    { status := .degraded
      reasonCode
      provenance :=
        ["musubi-reference-readers/" ++ profile.profileId ++ "@" ++ profile.version] }

/-! ## 5. Detection -/

/-- `cadence_ms.saturating_mul(grace_k)`, as an `i64` or the largest one. -/
def threshold (exp : ExpectationModel) : Int64 :=
  i64OrMax (min (exp.cadenceMs.toNat * exp.graceK.toNat) (2 ^ 64 - 1))

/-- The window that the expectation looks at. -/
def expWindow (exp : ExpectationModel) (scan declared : Int64 × Int64) : Int64 × Int64 :=
  if exp.declaredWindowOnly then declared else scan

/-- What the expectation sees: inside the declared window where it says so, and with the
frozen rule applied where it has one. -/
def expSource (exp : ExpectationModel) (obs : List Observation) (window : Int64 × Int64) :
    List Observation :=
  let obs := if exp.declaredWindowOnly then
    obs.filter fun o => window.1 ≤ o.tMs ∧ o.tMs ≤ window.2 else obs
  match exp.frozenMs with
  | some f => applyFrozenFieldsRule sha256 obs exp.channel f exp.frozenFields
  | none => obs

/-- The observation counts: of the channel, not stale, and with its fields selectable. -/
def admits (exp : ExpectationModel) (o : Observation) : Bool :=
  o.channel = exp.channel && !o.stale &&
    ((exp.requiredFields.or exp.frozenFields).all fun names => (selectedValues o names).isSome)

def goodObservations (exp : ExpectationModel) (src : List Observation) : List Observation :=
  (src.filter (admits exp)).insertionSort fun a b => a.tMs ≤ b.tMs

def goodBasis (profile : FamilyProfile) (good : List Observation) : ClockBasis :=
  (good.head?.map Observation.clockBasis).getD profile.defaultClockBasis

def minTimeConfidence (profile : FamilyProfile) (good : List Observation) : F32 :=
  (good.map Observation.timeConfidence).foldl F32.min
    (defaultTimeConfidence profile.defaultClockBasis)

/-- What follows a gap. -/
def bounds (basis : ClockBasis) : Option Observation → GapBounds
  | none => { stop := .openEnd, nextGood := none, nextGoodMs := none, nextGoodClockBasis := none }
  | some o =>
    let comparable := o.clockBasis = basis ∧ o.clockBasis ≠ .unknown
    { stop := if comparable then .nextObservation else .nextObservationClockUnresolved
      nextGood := some o.digest
      nextGoodMs := if comparable then some o.tMs else none
      nextGoodClockBasis := some o.clockBasis }

def makeRow (profile : FamilyProfile) (assetId : String) (exp : ExpectationModel)
    (src good : List Observation) (gap : Gap) : Option Row :=
  let basis := goodBasis profile good
  let content := exp.requiredFields.map fun names =>
    gapContent src exp.channel names gap.since gap.until_
  (absenceMark basis profile content).map fun mark =>
    ({ subject := { family := profile.family, assetId, channel := exp.channel }
       expectationId := exp.expectationId ++ "@" ++ profile.version
       absentSinceMs := gap.since
       expectedByMs := satAdd64 gap.since (threshold exp)
       lastGood := gap.last.map Observation.digest
       clockBasis := basis
       timeConfidenceMin := minTimeConfidence profile good
       mark },
     bounds basis gap.next)

def detectExpectation (profile : FamilyProfile) (assetId : String) (obs : List Observation)
    (scan declared : Int64 × Int64) (exp : ExpectationModel) : Option (List Row) :=
  let window := expWindow exp scan declared
  let src := expSource sha256 exp obs window
  let good := goodObservations exp src
  (findGaps (threshold exp) window.1 window.2 none good).mapM
    (makeRow profile assetId exp src good)

def detectAbsencesInDeclaredWindow (profile : FamilyProfile) (assetId : String)
    (obs : List Observation) (scan declared : Int64 × Int64) : Option (List Row) :=
  (profile.expectations.mapM (detectExpectation sha256 profile assetId obs scan declared)).map
    List.flatten

def detectAbsencesWithBounds (profile : FamilyProfile) (assetId : String)
    (obs : List Observation) (windowStartMs windowEndMs : Int64) : Option (List Row) :=
  detectAbsencesInDeclaredWindow sha256 profile assetId obs (windowStartMs, windowEndMs)
    (windowStartMs, windowEndMs)

end Musubi.Reference
