/-
# Evaluation of a run

`reference-readers/src/eval.rs`: what a run noticed and claimed is held against the incidents that
were injected into it.  A claim names the candidates that it ranks highest (`topKCandidates`), the
time to a plausible cause is that of the first claim that names the kind of the incident
(`causeTiming`), and `evaluateWith` counts and divides.  The text of a report is left out.

An incident without a claim that names it is censored: instead of a time it contributes the bound
that it was observed for.  Times are differences of 64-bit integers and wrap around as in the
source; ratios are floats of the model, with the nearest quotient, and an empty denominator gives
what the source returns for it.

Injected time is merged asset by asset, so that incidents that overlap are not counted twice.
-/
import Musubi.FloatArith
import Musubi.Pipeline.Analyze
import Mathlib.Data.List.Sort

namespace Musubi.Pipeline.Eval

open Lib Reference

/-! ## 1. Incidents -/

inductive FailureKind
  | rcLinkLoss
  | telemetryLinkLoss
  | fiberBreak
  | fcFailure
  | cameraStop
  | gnssDegradation
  | gnssInconsistency
  | storageFailure
  | configurationError
deriving DecidableEq, Repr

structure Incident where
  assetId : String
  family : Family
  kind : FailureKind
  tInjectMs : Int64
  tEndMs : Int64
  tDetectableMs : Int64
  affectedChannels : List ChannelId
  indistinguishable : Bool
  channelComplete : Bool
deriving DecidableEq

structure NoticedAbsence where
  assetId : String
  channel : ChannelId
  absentSinceWallMs : Int64
  expectedByWallMs : Int64
deriving DecidableEq

inductive AttributionWindow
  | injectEndPlusTMax
  | injectStartPlusTMax
deriving DecidableEq

def AttributionWindow.endMs (w : AttributionWindow) (inc : Incident) (tMaxMs : Int64) : Int64 :=
  match w with
  | .injectEndPlusTMax => inc.tEndMs + tMaxMs
  | .injectStartPlusTMax => inc.tInjectMs + tMaxMs

inductive CauseStamp
  | windowEnd
  | windowStart
deriving DecidableEq

def CauseStamp.stampOf (s : CauseStamp) (c : ClaimRecord) : Int64 :=
  match s with
  | .windowEnd => c.claim.generatedAtMs
  | .windowStart => c.windowStartMs

structure EvalConfig where
  tMaxMs : Int64 := 30000
  attributionWindow : AttributionWindow := .injectEndPlusTMax
  causeStamp : CauseStamp := .windowEnd
deriving DecidableEq

/-- The end of an incident's attribution window. -/
def EvalConfig.windowEnd (cfg : EvalConfig) (inc : Incident) : Int64 :=
  cfg.attributionWindow.endMs inc cfg.tMaxMs

/-- The kinds of failure that the signatures of the catalog stand for. -/
abbrev CatalogKinds := BTreeMap String FailureKind

def kindOf (signatureId : String) (catalogKinds : CatalogKinds) : Option FailureKind :=
  catalogKinds.get? signatureId

/-! ## 2. Candidates -/

theorem logicConfidence_ctorIdx_injective : Function.Injective LogicConfidence.ctorIdx := by
  intro a b h
  cases a <;> cases b <;> first | rfl | cases h

/-- The order in which the confidences are declared. -/
instance : LinearOrder LogicConfidence :=
  { LinearOrder.lift' LogicConfidence.ctorIdx logicConfidence_ctorIdx_injective with
    toDecidableEq := inferInstance }

/-- The share of the required cues that are matched. -/
def ratio (c : CauseCandidate) : F64 :=
  (F64.ofInt c.signatureMatch.matchedCues.length).div
    (.ofInt (max c.signatureMatch.requiredCues.length 1 : ℕ))

/-- `a` need not give way to `b`: `b` has no more confidence, and with as much no larger share. -/
def rankLe (a b : CauseCandidate) : Prop :=
  ¬ (a.logicConfidence < b.logicConfidence ∨
    a.logicConfidence = b.logicConfidence ∧ (ratio a).lt (ratio b) = true)

instance : DecidableRel rankLe := fun _ _ => inferInstanceAs (Decidable (¬ (_ ∨ _)))

/-- The candidates of an outcome, and whether they are ambiguous. -/
def candidatesOf : CauseOutcome → List CauseCandidate × Bool
  | .consistent candidates => (candidates, false)
  | .ambiguous candidates _ => (candidates, true)
  | .unknown _ => ([], false)

def topKCandidates (outcome : CauseOutcome) (k : ℕ) : List (String × LogicConfidence × Bool) :=
  let (candidates, ambiguous) := candidatesOf outcome
  ((candidates.insertionSort rankLe).take k).map fun c =>
    (c.signatureId, c.logicConfidence, ambiguous)

def topCandidate (outcome : CauseOutcome) : Option (String × LogicConfidence × Bool) :=
  (topKCandidates outcome 1).head?

def candidateLen (outcome : CauseOutcome) : ℕ := (candidatesOf outcome).1.length

/-- Whether one of the candidates is of the kind of the incident. -/
def names (named : List (String × LogicConfidence × Bool)) (catalogKinds : CatalogKinds)
    (inc : Incident) : Bool :=
  named.any fun c => kindOf c.1 catalogKinds = some inc.kind

/-! ## 3. Times -/

def medianOf (sorted : List Int64) : Option Int64 := sorted[sorted.length / 2]?

def quantile (sorted : List Int64) (q : F64) : Option Int64 :=
  let place := min ((F64.ofInt sorted.length).mul q).ceilAsI128.toNat (2 ^ 64 - 1)
  sorted[min (place - 1) (sorted.length - 1)]?

structure CauseTiming where
  k : ℕ
  samplesMs : List Int64
  medianMs : Option Int64
  p90Ms : Option Int64
  p90WithCensoredAtBoundMs : Option Int64
  censored : ℕ
  earlyTrue : ℕ

def claimIsRelevant (c : ClaimRecord) (inc : Incident) (wEnd : Int64) : Bool :=
  c.assetId = inc.assetId ∧ c.windowStartMs < wEnd ∧ inc.tInjectMs < c.windowEndMs

/-- The claims about an incident. -/
def relevant (claims : List ClaimRecord) (cfg : EvalConfig) (inc : Incident) : List ClaimRecord :=
  claims.filter fun c => claimIsRelevant c inc (cfg.windowEnd inc)

/-- One claim about an incident: the time of the first one that names its kind. -/
def firstStep (k : ℕ) (catalogKinds : CatalogKinds) (cfg : EvalConfig) (inc : Incident)
    (first : Option Int64) (c : ClaimRecord) : Option Int64 :=
  let stamp := cfg.causeStamp.stampOf c
  if stamp < inc.tInjectMs ∨ cfg.windowEnd inc < stamp then first
  else if names (topKCandidates c.claim.outcome k) catalogKinds inc then
    some (first.elim stamp (min · stamp))
  else first

def firstNamed (k : ℕ) (claims : List ClaimRecord) (catalogKinds : CatalogKinds)
    (cfg : EvalConfig) (inc : Incident) : Option Int64 :=
  (relevant claims cfg inc).foldl (firstStep k catalogKinds cfg inc) none

/-- The samples so far, the bounds of the incidents without one, and how many samples lie before
their incidents can be detected. -/
structure Timed where
  samples : List Int64
  censoredBounds : List Int64
  earlyTrue : ℕ

def timingStep (k : ℕ) (claims : List ClaimRecord) (catalogKinds : CatalogKinds)
    (cfg : EvalConfig) (t : Timed) (inc : Incident) : Timed :=
  match firstNamed k claims catalogKinds cfg inc with
  | some first =>
    let d := first - inc.tDetectableMs
    { t with
      samples := t.samples ++ [d]
      earlyTrue := if d < 0 then t.earlyTrue + 1 else t.earlyTrue }
  | none =>
    { t with censoredBounds := t.censoredBounds ++ [cfg.windowEnd inc - inc.tDetectableMs] }

def causeTiming (k : ℕ) (incidents : List Incident) (claims : List ClaimRecord)
    (catalogKinds : CatalogKinds) (cfg : EvalConfig) : CauseTiming :=
  let t := incidents.foldl (timingStep k claims catalogKinds cfg) ⟨[], [], 0⟩
  let sorted := t.samples.insertionSort (· ≤ ·)
  let withCensored := (sorted ++ t.censoredBounds).insertionSort (· ≤ ·)
  { k
    medianMs := medianOf sorted
    p90Ms := quantile sorted (.ofRat (9 / 10))
    p90WithCensoredAtBoundMs := quantile withCensored (.ofRat (9 / 10))
    censored := t.censoredBounds.length
    earlyTrue := t.earlyTrue
    samplesMs := t.samples }

/-! ## 4. Injected time -/

abbrev Span := Int64 × Int64

def Span.le (p q : Span) : Prop := p.1 < q.1 ∨ p.1 = q.1 ∧ p.2 ≤ q.2

instance : DecidableRel Span.le := fun _ _ => inferInstanceAs (Decidable (_ ∨ _ ∧ _))

/-- `by_asset`: the attribution windows of each asset. -/
def byAsset (incidents : List Incident) (cfg : EvalConfig) : BTreeMap String (List Span) :=
  incidents.foldl (fun m inc =>
    m.insert inc.assetId ((m.get? inc.assetId).getD [] ++ [(inc.tInjectMs, cfg.windowEnd inc)]))
    .empty

/-- The time of the spans that are closed, and the open one. -/
structure Merging where
  perAsset : Int64
  cur : Option Span

def mergeStep (m : Merging) (span : Span) : Merging :=
  let (a, b) := span
  match m.cur with
  | some (s, e) =>
    if a ≤ e then { m with cur := some (s, max e b) }
    else ⟨m.perAsset + (e - s), some (a, b)⟩
  | none => { m with cur := some (a, b) }

def Merging.close (m : Merging) : Int64 :=
  match m.cur with
  | some (s, e) => m.perAsset + (e - s)
  | none => m.perAsset

def assetMs (spans : List Span) : Int64 :=
  ((spans.insertionSort Span.le).foldl mergeStep ⟨0, none⟩).close

def injectedMs (incidents : List Incident) (durationMs : Int64) (cfg : EvalConfig) : Int64 :=
  (byAsset incidents cfg).entries.foldl (fun total entry =>
    total + min (assetMs entry.2) durationMs) 0

/-! ## 5. What was noticed -/

/-- Whether an absence lies in the attribution window of an incident. -/
def notices (inc : Incident) (wEnd : Int64) (n : NoticedAbsence) : Bool :=
  n.assetId = inc.assetId ∧ n.channel ∈ inc.affectedChannels ∧
    inc.tInjectMs ≤ n.expectedByWallMs ∧ n.absentSinceWallMs ≤ wEnd

structure Noticing where
  ttn : List Int64
  missed : ℕ
  earlyTrue : ℕ
  matchedNeg : List Bool

/-- The first absence of an incident, or the first window of a claim. -/
def firstNotice (noticed : List NoticedAbsence) (claims : List ClaimRecord) (cfg : EvalConfig)
    (inc : Incident) : Option Int64 :=
  let wEnd := cfg.windowEnd inc
  match ((noticed.filter (notices inc wEnd)).map NoticedAbsence.expectedByWallMs).min? with
  | some first => some first
  | none =>
    ((claims.filter fun c => c.assetId = inc.assetId ∧ inc.tInjectMs ≤ c.windowStartMs ∧
      c.windowStartMs ≤ wEnd).map ClaimRecord.windowStartMs).min?

def noticeStep (noticed : List NoticedAbsence) (claims : List ClaimRecord) (cfg : EvalConfig)
    (s : Noticing) (inc : Incident) : Noticing :=
  let wEnd := cfg.windowEnd inc
  let matchedNeg := List.zipWith (fun m n => m || notices inc wEnd n) s.matchedNeg noticed
  match firstNotice noticed claims cfg inc with
  | some f =>
    if f ≤ wEnd then
      let d := f - inc.tDetectableMs
      { s with
        ttn := s.ttn ++ [d]
        earlyTrue := if d < 0 ∧ inc.tInjectMs ≤ f then s.earlyTrue + 1 else s.earlyTrue
        matchedNeg }
    else { s with missed := s.missed + 1, matchedNeg }
  | none => { s with missed := s.missed + 1, matchedNeg }

/-! ## 6. What was claimed -/

structure Tally where
  abstained : ℕ
  abstainedExclCno : ℕ
  abstainedS : ℕ
  claimedS : ℕ
  unknownByReason : BTreeMap String ℕ
  hits : ℕ
  hits3 : ℕ
  total : ℕ
  candidateListLen : BTreeMap ℕ ℕ
  falseCertainty : ℕ
  ambTotal : ℕ
  ambHonest : ℕ
  missingChannelIncidents : ℕ

def Tally.zero : Tally := ⟨0, 0, 0, 0, .empty, 0, 0, 0, .empty, 0, 0, 0, 0⟩

/-- One more of `key`. -/
def countAt {κ : Type} [LinearOrder κ] (m : BTreeMap κ ℕ) (key : κ) : BTreeMap κ ℕ :=
  m.insert key ((m.get? key).getD 0 + 1)

def tallyReason (t : Tally) (c : ClaimRecord) : Tally :=
  match c.claim.outcome with
  | .unknown reason =>
    { t with
      unknownByReason := countAt t.unknownByReason reason.asLabel
      missingChannelIncidents := if reason = .channelNotObserved
        then t.missingChannelIncidents + 1 else t.missingChannelIncidents }
  | _ => t

def tallyUnknown (rel : List ClaimRecord) (t : Tally) : Tally := rel.foldl tallyReason t

def isUnknown : CauseOutcome → Bool
  | .unknown _ => true
  | _ => false

/-- A claim about an incident that no claim can tell from another. -/
def isHonest : CauseOutcome → Bool
  | .consistent candidates => candidates.all fun k => k.logicConfidence ≤ .leadingIndicator
  | _ => true

/-- No claim names a candidate. -/
def Tally.abstain (t : Tally) (rel : List ClaimRecord) : Tally :=
  { t with
    abstained := t.abstained + 1
    abstainedExclCno := if rel.all (·.claim.outcome = .unknown .channelNotObserved)
      then t.abstainedExclCno else t.abstainedExclCno + 1 }

def tallyIndistinguishable (t : Tally) (rel : List ClaimRecord) : Tally :=
  let t := { t with
    ambTotal := t.ambTotal + 1
    ambHonest := if rel.all (isHonest ·.claim.outcome) then t.ambHonest + 1 else t.ambHonest }
  tallyUnknown rel (if rel.all (isUnknown ·.claim.outcome) then t.abstain rel else t)

/-- The first claim that names a candidate, and its candidate. -/
def topClaim (rel : List ClaimRecord) :
    Option (ClaimRecord × String × LogicConfidence × Bool) :=
  (rel.filterMap fun c => (topCandidate c.claim.outcome).map fun top => (c, top)).head?

/-- The claim that names a candidate. -/
def tallyTop (catalogKinds : CatalogKinds) (inc : Incident) (t : Tally) (c : ClaimRecord)
    (sig : String) (logic : LogicConfidence) (ambiguous : Bool) : Tally :=
  let hit : Bool := kindOf sig catalogKinds = some inc.kind
  { t with
    total := t.total + 1
    candidateListLen := countAt t.candidateListLen (min (candidateLen c.claim.outcome) 4)
    hits := if hit then t.hits + 1 else t.hits
    falseCertainty := if !hit ∧ !ambiguous ∧ .directEvidence ≤ logic
      then t.falseCertainty + 1 else t.falseCertainty
    hits3 := if names (topKCandidates c.claim.outcome 3) catalogKinds inc
      then t.hits3 + 1 else t.hits3 }

def tallyStep (claims : List ClaimRecord) (catalogKinds : CatalogKinds) (cfg : EvalConfig)
    (t : Tally) (inc : Incident) : Tally :=
  let rel := relevant claims cfg inc
  if rel.isEmpty then t
  else if inc.indistinguishable then tallyIndistinguishable t rel
  else
    let t := if inc.channelComplete then { t with claimedS := t.claimedS + 1 } else t
    match topClaim rel with
    | none =>
      let t := t.abstain rel
      tallyUnknown rel
        (if inc.channelComplete then { t with abstainedS := t.abstainedS + 1 } else t)
    | some (c, sig, logic, ambiguous) => tallyTop catalogKinds inc t c sig logic ambiguous

/-! ## 7. Metrics -/

structure CorpusCounts where
  c1Incidents : ℕ
  c2SLayer : ℕ
  c3Indistinguishable : ℕ
  c4MissingChannel : ℕ
  c5GnssValueDegradation : ℕ
  c5VideoPresenceOnly : ℕ
  c6FpvIncidents : ℕ
  c7CleanAssetHours : F64
  c8CandidateListLen : BTreeMap ℕ ℕ
  c10AbstentionLowerBoundClaimed : Option F64
  c10AbstentionLowerBoundNoticed : Option F64

structure Metrics where
  incidents : ℕ
  noticed : ℕ
  missed : ℕ
  timeToNoticeMs : List Int64
  timeToNoticeMedianMs : Option Int64
  timeToNoticeP90Ms : Option Int64
  earlyTrue : ℕ
  falseAlarms : ℕ
  assetHours : F64
  falseAlarmRatePerAssetHour : F64
  claims : ℕ
  abstained : ℕ
  abstentionRate : Option F64
  unknownByReason : BTreeMap String ℕ
  precisionAt1 : Option F64
  precisionAt1Hits : ℕ
  precisionAt1Total : ℕ
  falseCertainty : ℕ
  ambiguousClassTotal : ℕ
  ambiguousClassHonest : ℕ
  missingChannelIncidents : ℕ
  causeAt1 : CauseTiming
  causeAt3 : CauseTiming
  precisionAt3 : Option F64
  precisionAt3Hits : ℕ
  missedRate : Option F64
  ambiguityHonestyRate : Option F64
  abstainedExclChannelNotObserved : ℕ
  abstentionRateExclChannelNotObserved : Option F64
  abstainedS : ℕ
  claimedS : ℕ
  abstentionRateS : Option F64
  cleanAssetHours : F64
  falseAlarmRatePerCleanAssetHour : F64
  corpus : CorpusCounts
  config : EvalConfig

/-- A quotient of counts. -/
def share (count total : ℕ) : Option F64 :=
  if 0 < total then some ((F64.ofInt count).div (.ofInt total)) else none

/-- So many in so many hours. -/
def perHour (count : ℕ) (hours : F64) : F64 :=
  if (F64.ofRat 0).lt hours then (F64.ofInt count).div hours else .ofRat 0

def msPerHour : F64 := .ofRat 3600000

def corpusCounts (incidents : List Incident) (t : Tally) (noticed : ℕ)
    (cleanAssetHours : F64) : CorpusCounts :=
  let c3 := incidents.countP (·.indistinguishable)
  { c1Incidents := incidents.length
    c2SLayer := incidents.countP fun i => !i.indistinguishable && i.channelComplete
    c3Indistinguishable := c3
    c4MissingChannel := incidents.countP (!·.channelComplete)
    c5GnssValueDegradation := incidents.countP fun i =>
      i.kind = .gnssDegradation ∨ i.kind = .gnssInconsistency
    c5VideoPresenceOnly := incidents.countP fun i =>
      i.affectedChannels ≠ [] ∧ ∀ c ∈ i.affectedChannels, c = .video ∨ c = .osd
    c6FpvIncidents := incidents.countP (·.family = .fpv)
    c7CleanAssetHours := cleanAssetHours
    c8CandidateListLen := t.candidateListLen
    c10AbstentionLowerBoundClaimed := share c3 (t.total + t.abstained)
    c10AbstentionLowerBoundNoticed := share c3 noticed }

def evaluateWith (incidents : List Incident) (noticed : List NoticedAbsence)
    (claims : List ClaimRecord) (catalogKinds : CatalogKinds) (assetCount : ℕ)
    (durationMs : Int64) (cfg : EvalConfig) : Metrics :=
  let s := incidents.foldl (noticeStep noticed claims cfg)
    ⟨[], 0, 0, List.replicate noticed.length false⟩
  let falseAlarms := s.matchedNeg.countP (!·)
  let assetHours := ((F64.ofInt assetCount).mul (.ofInt durationMs.toInt)).div msPerHour
  let cleanMs := max (.ofNat assetCount * durationMs - injectedMs incidents durationMs cfg) 0
  let cleanAssetHours := (F64.ofInt cleanMs.toInt).div msPerHour
  let sorted := s.ttn.insertionSort (· ≤ ·)
  let t := incidents.foldl (tallyStep claims catalogKinds cfg) .zero
  let noticedN := incidents.length - s.missed
  { incidents := incidents.length
    noticed := noticedN
    missed := s.missed
    timeToNoticeMs := s.ttn
    timeToNoticeMedianMs := medianOf sorted
    timeToNoticeP90Ms := quantile sorted (.ofRat (9 / 10))
    earlyTrue := s.earlyTrue
    falseAlarms
    assetHours
    falseAlarmRatePerAssetHour := perHour falseAlarms assetHours
    claims := claims.length
    abstained := t.abstained
    abstentionRate := share t.abstained (t.total + t.abstained)
    unknownByReason := t.unknownByReason
    precisionAt1 := share t.hits t.total
    precisionAt1Hits := t.hits
    precisionAt1Total := t.total
    falseCertainty := t.falseCertainty
    ambiguousClassTotal := t.ambTotal
    ambiguousClassHonest := t.ambHonest
    missingChannelIncidents := t.missingChannelIncidents
    causeAt1 := causeTiming 1 incidents claims catalogKinds cfg
    causeAt3 := causeTiming 3 incidents claims catalogKinds cfg
    precisionAt3 := share t.hits3 t.total
    precisionAt3Hits := t.hits3
    missedRate := share s.missed incidents.length
    ambiguityHonestyRate := share t.ambHonest t.ambTotal
    abstainedExclChannelNotObserved := t.abstainedExclCno
    abstentionRateExclChannelNotObserved :=
      share t.abstainedExclCno (t.total + t.abstainedExclCno)
    abstainedS := t.abstainedS
    claimedS := t.claimedS
    abstentionRateS := share t.abstainedS t.claimedS
    cleanAssetHours
    falseAlarmRatePerCleanAssetHour := perHour falseAlarms cleanAssetHours
    corpus := corpusCounts incidents t noticedN cleanAssetHours
    config := cfg }

def evaluate (incidents : List Incident) (noticed : List NoticedAbsence)
    (claims : List ClaimRecord) (catalogKinds : CatalogKinds) (assetCount : ℕ)
    (durationMs tMaxMs : Int64) : Metrics :=
  evaluateWith incidents noticed claims catalogKinds assetCount durationMs { tMaxMs }

end Musubi.Pipeline.Eval
