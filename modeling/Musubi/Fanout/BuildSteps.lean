/-
# From an analysis to steps

`reference-fanout/src/lib.rs`: `build_steps` shows each asset where it was every half minute, and
makes a marker of each absence that was noticed and of each claim, at the position that the asset
had at the time.  The steps are then put in order, and those of one gap get slots.

The loop over the half minutes runs for a number of rounds, and times wrap around as in `analyze`:
where the next half minute is past the last time there is, it goes on from the first.  So the loop
need not end, and the rounds are the fuel of the model; results about `build_steps` say when some
number of rounds suffices.  The assertion of `join_reason_tokens` is a panic.

A row or a claim of an asset that has no position anywhere adds no step.  The source says so with
a `continue`, and it is modelled as it stands.
-/
import Musubi.Fanout.Position
import Musubi.Fanout.Step
import Musubi.Pipeline.Timefmt

namespace Musubi.Fanout

open Lib Lib.Checked Musubi.Core Reference Pipeline

/-! ## 1. Freshness and cadence -/

def observationStrideMs : Int64 := 30000

def stalenessK : F64 := .ofRat 2

/-- The age of a fix, the cadence, and whether the fix is stale. -/
def freshnessOf (atWallMs observedAtWallMs cadenceMs : Int64) : Int64 × Int64 × Bool :=
  let cadence := max cadenceMs 1
  let age := max (atWallMs - observedAtWallMs) 0
  (age, cadence, stalenessK.lt (F64.div (.ofInt age.toInt) (.ofInt cadence.toInt)))

/-- The smallest, or a default. -/
def minimumOr (default : Int64) : List Int64 → Int64
  | [] => default
  | v :: values => values.foldl min v

def minCadenceMs (s : SourceRun) : Int64 :=
  max (minimumOr 1000 (s.profile.expectations.map fun e => e.cadenceMs.toInt64)) 1

/-- The expectation is named before the first `@`. -/
def cadenceForExpectation (s : SourceRun) (expectationId : String) : Int64 :=
  let base := String.ofList (expectationId.toList.takeWhile (· ≠ '@'))
  match s.profile.expectations.find? fun e => e.expectationId = base with
  | none => minCadenceMs s
  | some e => max e.cadenceMs.toInt64 1

def selfAsserted (basis : ClockBasis) : Bool := basis ≠ .hostReceived

/-! ## 2. Marks -/

def provenanceOf (source : Option SourceRun) (assetId : String) : List String :=
  ("musubi-reference/" ++ assetId) :: match source with
    | none => []
    | some s => ["profile/" ++ s.profile.profileId ++ "@" ++ s.profile.version,
        "record/" ++ s.fileName]

/-- The reasons of an observation. -/
def observationTokens (stale : Bool) (basis : ClockBasis) (lastObserved : String) (ageMs : Int64)
    (fromLater : Bool) : List String :=
  [if stale then "observation-stale" else "observation-fresh", basis.reasonToken,
    "last-observed:" ++ lastObserved, "age-ms:" ++ toString ageMs] ++
    if fromLater then ["position-from-later-fix"] else []

/-- The reasons of an absence. -/
def absenceTokens (n : NegativeObservation) (sinceWallMs byWallMs : Int64) : List String :=
  [n.mark.reasonCode, "absent-channel:" ++ n.subject.channel.asStr,
    "absent-since:" ++ isoUtcMs sinceWallMs, "expected-by:" ++ isoUtcMs byWallMs,
    "expectation:" ++ n.expectationId] ++ (n.lastGood.map fun d => "last-good:" ++ hex8 d).toList

def absenceMark (n : NegativeObservation) (sinceWallMs byWallMs : Int64) (source : SourceRun) :
    Option Mark :=
  (joinReasonTokens (absenceTokens n sinceWallMs byWallMs)).map fun reasonCode =>
    { status := n.mark.status
      reasonCode
      provenance := n.mark.provenance ++ provenanceOf (some source) n.subject.assetId }

/-- The first of the candidates, which are not ranked. -/
def headSignature (candidates : List CauseCandidate) : String :=
  (candidates.head?.map CauseCandidate.signatureId).getD "none"

def outcomeToken : CauseOutcome → String
  | .consistent candidates =>
    headSignature candidates ++ "+alt" ++ (candidates.length - 1).repr
  | .ambiguous candidates _ =>
    "ambiguous:" ++ join "/" (candidates.map CauseCandidate.signatureId)
  | .unknown reason => "unknown:" ++ reason.asLabel

def outcomeHeadline : CauseOutcome → String
  | .consistent candidates =>
    let alt := candidates.length - 1
    "consistent with " ++ headSignature candidates ++ " (" ++ alt.repr ++ " alternative" ++
      (if alt = 1 then "" else "s") ++ ", shown without ranking)"
  | .ambiguous candidates _ =>
    "ambiguous between " ++ candidates.length.repr ++ " signatures (no ranking)"
  | .unknown reason => "unknown: " ++ reason.asLabel

/-- The reasons of a claim. -/
def causeTokens (claim : CauseClaim) : List String :=
  [claim.mark.reasonCode, "trigger-channel:" ++ claim.subject.channel.asStr,
    "cause:" ++ outcomeToken claim.outcome, "candidate-not-verdict",
    "catalog:" ++ claim.generator.catalogVersion]

def causeMark (claim : CauseClaim) : Option Mark :=
  (joinReasonTokens (causeTokens claim)).map fun reasonCode =>
    { status := claim.mark.status
      reasonCode
      provenance := claim.mark.provenance ++
        ["generator/" ++ claim.generator.buildId, "claim/" ++ claim.claimId] }

/-! ## 3. One step -/

structure AssetDomain where
  domain : PlatformDomain
  provenance : List String

def assetPlatformDomain (asset : AssetRun) : AssetDomain :=
  let (domain, provenance) := asset.configuredPlatformDomain
  { domain, provenance }

variable (sha256 : List UInt8 → Digest)

/-- `v.saturating_mul(1000)`. -/
def satMul1000 (v : Int64) : Int64 := clamp64 (v.toInt * 1000)

/-- A step, its envelope sealed. -/
def step (kind : StepKind) (asset : AssetRun) (atWallMs observedAtWallMs expectedCadenceMs : Int64)
    (selfAssertedTime : Bool) (markerId lineageGroupId : String) (distinctRenderSlot : ℕ)
    (headline : String) (position : Position) (mark : Mark) (confidence : F32) : DemoStep :=
  let domain := assetPlatformDomain asset
  let ps : PlatformState := {
    platformId := markerId
    position := some position
    mode := none
    timestamps := {
      observedAt := some (satMul1000 observedAtWallMs)
      receivedAt := atWallMs
      timeConfidence := if selfAssertedTime then .ofRat (1 / 2) else .ofRat 1 }
    platformDomain := domain.domain }
  { seq := 0
    kind
    assetId := asset.assetId
    family := asset.family
    atWallMs
    observedAtWallMs
    expectedCadenceMs
    selfAssertedTime
    markerId
    lineageGroupId
    distinctRenderSlot
    headline
    envelope := sealDigest sha256 {
      observation := .platformState ps
      claim := {
        claimId := kind.asStr ++ ":" ++ markerId
        confidence
        mark := { mark with provenance := mark.provenance ++ domain.provenance }
        confidenceBasis := some .adapterAssigned }
      classification := none
      signature := none
      contentDigest := none
      signerId := none
      signedAt := none
      revocationProof := none
      trustAnnotations := none } }

def lineageOf (asset : AssetRun) : String := "lg-" ++ asset.assetId

def assetCadence (asset : AssetRun) : Int64 := minimumOr 1000 (asset.sources.map minCadenceMs)

def observationHeadline (asset : AssetRun) (stale : Bool) (ageMs : Int64) (at_ : String) : String :=
  if stale then
    asset.assetId ++ " last known position, " ++ toString (ageMs / 1000) ++ " s old at " ++ at_ ++
      " — the source stopped reporting"
  else
    asset.assetId ++ " position at " ++ at_ ++ " (from " ++ asset.sources.length.repr ++ " record"
      ++ (if asset.sources.length = 1 then "" else "s") ++ ")"

/-- What an asset shows at a time of the grid. -/
def observationStep (asset : AssetRun) (shiftMs t : Int64) : Checked Empty (Option DemoStep) :=
  let sh (ms : Int64) := satAdd64 ms shiftMs
  match positionAt asset.sources t with
  | none => return none
  | some fix =>
    let source := asset.sources[fix.sourceIndex]?
    let basis := (source.map fun s => s.profile.defaultClockBasis).getD .unknown
    let cadenceSrc := (source.map minCadenceMs).getD (assetCadence asset)
    let (ageMs, _, stale) := freshnessOf t fix.wallMs cadenceSrc
    let tokens := observationTokens stale basis (isoUtcMs (sh fix.wallMs)) ageMs
      (decide (t < fix.wallMs))
    match joinReasonTokens tokens with
    | none => .error .panic
    | some reasonCode =>
      let mark : Mark := {
        status := if stale then .degraded else .ok
        reasonCode
        provenance := provenanceOf source asset.assetId }
      return some (step sha256 .observation asset (sh t) (sh fix.wallMs) cadenceSrc
        (selfAsserted basis) asset.assetId (lineageOf asset) 0
        (observationHeadline asset stale ageMs (isoUtcMs (sh t))) fix.position mark
        (.ofRat (6 / 10)))

def absenceMarkerId (assetId : String) (channel : ChannelId) (role : SourceRole)
    (sinceWallMs : Int64) : String :=
  assetId ++ "#absence:" ++ channel.asStr ++ "." ++ role.asStr ++ "@" ++ toString sinceWallMs

def causeMarkerId (assetId : String) (windowStartMs : Int64) : String :=
  assetId ++ "#cause:" ++ toString windowStartMs

/-- The marker of a row.  Without its source or without a position there is none. -/
def absenceStep (asset : AssetRun) (shiftMs : Int64) (row : NoticedRow) :
    Checked Empty (Option DemoStep) :=
  let since := satAdd64 row.sinceWallMs shiftMs
  let by_ := satAdd64 row.byWallMs shiftMs
  match asset.sources[row.sourceIndex]? with
  | none => return none
  | some source =>
    match positionAt asset.sources row.sinceWallMs with
    | none => return none
    | some fix =>
      match absenceMark row.negative since by_ source with
      | none => .error .panic
      | some mark =>
        return some (step sha256 .absence asset by_ since
          (cadenceForExpectation source row.negative.expectationId)
          (selfAsserted row.negative.clockBasis)
          (absenceMarkerId asset.assetId row.negative.subject.channel source.profile.sourceRole
            since)
          (lineageOf asset ++ "-g" ++ toString since) 0
          (asset.assetId ++ " channel " ++ row.negative.subject.channel.asStr ++ " absent since "
            ++ isoUtcMs since ++ " (expected by " ++ isoUtcMs by_
            ++ ") — anchored on the last good position")
          fix.position mark (.ofRat 0))

/-- The marker of a claim.  Without a position there is none. -/
def causeStep (asset : AssetRun) (shiftMs : Int64) (claim : ClaimRecord) :
    Checked Empty (Option DemoStep) :=
  let start := satAdd64 claim.windowStartMs shiftMs
  match positionAt asset.sources claim.windowStartMs with
  | none => return none
  | some fix =>
    match causeMark claim.claim with
    | none => .error .panic
    | some mark =>
      return some (step sha256 .cause asset start (satAdd64 fix.wallMs shiftMs) (assetCadence asset)
        (F32.lt claim.claim.inputConfidence.timeConfidenceMin (.ofRat 1))
        (causeMarkerId asset.assetId start)
        (lineageOf asset ++ "-g" ++ toString start) 0
        (asset.assetId ++ " cause candidate for the window at " ++ isoUtcMs start ++ " — "
          ++ outcomeHeadline claim.claim.outcome ++ " (candidate, not a verdict)")
        fix.position mark claim.claim.inputConfidence.minConfidence)

/-! ## 4. All steps -/

/-- The steps so far, and what an entry adds to them. -/
def addStep {α : Type} (f : α → Checked Empty (Option DemoStep)) (steps : List DemoStep)
    (entry : α) : Checked Empty (List DemoStep) := do
  let added ← f entry
  return steps ++ added.toList

/-- One round of the loop over the grid. -/
def tick (asset : AssetRun) (shiftMs endMs : Int64) (state : Int64 × List DemoStep) :
    Checked Empty ((Int64 × List DemoStep) ⊕ List DemoStep) :=
  let (t, steps) := state
  if t ≤ endMs then do
    let steps ← addStep (observationStep sha256 asset shiftMs) steps t
    return .inl (t + observationStrideMs, steps)
  else return .inr steps

def assetSteps (rounds : ℕ) (out : PipelineOut) (shiftMs : Int64) (steps : List DemoStep)
    (asset : AssetRun) : Checked Empty (List DemoStep) := do
  let steps ← loop (tick sha256 asset shiftMs out.endMs) rounds (out.t0Ms, steps)
  let steps ← (out.noticed.filter fun n => n.assetId = asset.assetId).foldlM
    (addStep (absenceStep sha256 asset shiftMs)) steps
  (out.claims.filter fun c => c.assetId = asset.assetId).foldlM
    (addStep (causeStep sha256 asset shiftMs)) steps

/-- By time, asset, kind and marker. -/
def stepLe (a b : DemoStep) : Prop :=
  a.atWallMs < b.atWallMs ∨ a.atWallMs = b.atWallMs ∧
    (a.assetId < b.assetId ∨ a.assetId = b.assetId ∧
      (a.kind.ctorIdx < b.kind.ctorIdx ∨ a.kind = b.kind ∧ a.markerId ≤ b.markerId))

instance : DecidableRel stepLe := fun _ _ => inferInstanceAs (Decidable (_ ∨ _))

/-- The slots given so far in each group, and the steps with theirs. -/
structure Slots where
  counter : BTreeMap String ℕ
  steps : List DemoStep

/-- A step other than an observation takes the next slot of its group. -/
def slotStep (slots : Slots) (s : DemoStep) : Slots :=
  if s.kind = .observation then { slots with steps := slots.steps ++ [s] }
  else
    let n := (slots.counter.get? s.lineageGroupId).getD 0
    { counter := slots.counter.insert s.lineageGroupId (n + 1)
      steps := slots.steps ++ [{ s with distinctRenderSlot := n }] }

def assignSlots (steps : List DemoStep) : List DemoStep :=
  (steps.foldl slotStep ⟨BTreeMap.empty, []⟩).steps

def buildStepsWith (rounds : ℕ) (out : PipelineOut) (shiftMs : Int64) :
    Checked Empty (List DemoStep) := do
  let steps ← out.assets.foldlM (assetSteps sha256 rounds out shiftMs) []
  return (assignSlots (steps.insertionSort stepLe)).zipIdx.map fun entry =>
    { entry.1 with seq := entry.2 }

def buildSteps (rounds : ℕ) (out : PipelineOut) : Checked Empty (List DemoStep) :=
  buildStepsWith sha256 rounds out 0

end Musubi.Fanout
