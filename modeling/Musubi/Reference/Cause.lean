/-
# Causes of absences

`reference-readers/src/cause.rs`: the cues that the sources give around an absence, the signatures
of a catalog that the cues match, the claim that is built from both, and the windows that absences
and events are gathered in.

A claim names candidates and never a verdict.  Its outcome is consistent with its candidates, or
ambiguous between them, or unknown with a reason, and where times cannot be trusted it has leading
indicators only.

The two ordered sets of a `CueSet` are only asked for membership and are finite sets here; where a
set is read in order it is sorted.  Times are signed 64-bit integers that wrap around, as a
release build adds them; `neg_wall` and `to_wall_us` belong to the conversions that
`Pipeline.AxisConversion` looks at with their overflows.
-/
import Mathlib.Data.Finset.Sort
import Musubi.Lib.Substr
import Musubi.Reference.TimeAlign

namespace Musubi.Reference

open Lib Lib.Checked Musubi.Core

/-! ## 1. Claims (`reference-types/src/lib.rs`) -/

theorem ctorIdx_injective : Function.Injective ChannelId.ctorIdx := by
  intro a b h
  cases a <;> cases b <;> first | rfl | cases h

/-- The order in which the channels are declared. -/
instance : LinearOrder ChannelId :=
  { LinearOrder.lift' ChannelId.ctorIdx ctorIdx_injective with
    toDecidableEq := inferInstance }

inductive LogicConfidence
  | noBasis
  | leadingIndicator
  | directEvidence
  | deterministicFact
deriving DecidableEq, Repr

inductive UnknownReason
  | insufficientEvidence
  | channelNotObserved
  | timeUntrusted
  | noSignatureMatch
  | selfLivenessLost
deriving DecidableEq, Repr

def UnknownReason.asLabel : UnknownReason → String
  | .insufficientEvidence => "insufficient-evidence"
  | .channelNotObserved => "channel-not-observed"
  | .timeUntrusted => "time-untrusted"
  | .noSignatureMatch => "no-signature-match"
  | .selfLivenessLost => "self-liveness-lost"

structure SignatureMatch where
  matchedCues : List String
  requiredCues : List String
  optionalCuesMatched : List String
  contradictingCues : List String
deriving DecidableEq, Repr

structure CauseCandidate where
  signatureId : String
  signatureMatch : SignatureMatch
  logicConfidence : LogicConfidence
  supporting : List Digest
  contradicting : List Digest
  discriminatingMissing : List String
deriving DecidableEq

inductive CauseOutcome
  | consistent (candidates : List CauseCandidate)
  | ambiguous (candidates : List CauseCandidate) (indistinguishableBy : List String)
  | unknown (reason : UnknownReason)
deriving DecidableEq

structure BasisMix where
  adapterAssigned : UInt32
  measured : UInt32
  unspecified : UInt32
deriving DecidableEq

def BasisMix.count (mix : BasisMix) : Option ConfidenceBasis → BasisMix
  | some .adapterAssigned => { mix with adapterAssigned := mix.adapterAssigned + 1 }
  | some (.measured _) => { mix with measured := mix.measured + 1 }
  | none => { mix with unspecified := mix.unspecified + 1 }

structure ChannelCoverage where
  required : List ChannelId
  present : List ChannelId
deriving DecidableEq, Repr

structure InputConfidenceRef where
  envelopeDigests : List Digest
  minConfidence : F32
  basisMix : BasisMix
  timeConfidenceMin : F32
  channelCoverage : ChannelCoverage
deriving DecidableEq

structure GeneratorRef where
  catalogVersion : String
  profileVersion : String
  buildId : String
deriving DecidableEq, Repr

/-- A candidate, never a verdict. -/
structure CauseClaim where
  claimId : String
  subject : Subject
  absence : List Digest
  outcome : CauseOutcome
  inputConfidence : InputConfidenceRef
  evidence : List Digest
  generator : GeneratorRef
  generatedAtMs : Int64
  mark : Mark
deriving DecidableEq

structure Cue where
  channel : ChannelId
  cueId : String
deriving DecidableEq, Repr

/-- What a signature asks of the cues: all that are required, none that contradicts it; the
optional ones only speak for it. -/
structure FailureSignature where
  signatureId : String
  families : List Family
  requiredCues : List Cue
  optionalCues : List Cue
  contradictingCues : List Cue
deriving DecidableEq, Repr

structure SignatureCatalog where
  version : String
  signatures : List FailureSignature
deriving DecidableEq, Repr

/-! ## 2. Reading observations -/

structure Window where
  startMs : Int64
  endMs : Int64
deriving DecidableEq

structure SourceInput where
  profile : FamilyProfile
  obs : List Observation
  negatives : List NegativeObservation
  alignment : TimeAlignment
deriving DecidableEq

structure CueSet where
  present : Finset (ChannelId × String)
  observedChannels : Finset ChannelId
  evidence : List Digest
  weakestBasis : ClockBasis
  timeConfidenceMin : F32
  timeUntrusted : Bool
deriving DecidableEq

def CueSet.empty : CueSet where
  present := ∅
  observedChannels := ∅
  evidence := []
  weakestBasis := .gpsLocked
  timeConfidenceMin := .ofRat 1
  timeUntrusted := false

/-- A cue, with the observations that show it. -/
def CueSet.add (c : CueSet) (channel : ChannelId) (id : String) (ev : List Observation) :
    CueSet :=
  { c with
    present := insert (channel, id) c.present
    evidence := c.evidence ++ ev.map Observation.digest }

/-- A cue that is added when there is reason to. -/
def CueSet.addIf (condition : Bool) (channel : ChannelId) (id : String) (ev : List Observation)
    (c : CueSet) : CueSet :=
  if condition then c.add channel id ev else c

/-- A reading of a boot clock in milliseconds, in microseconds. -/
def bootUs (ms : Int64) : UInt64 := (max ms 0).toUInt64 * 1000

def negWall (n : NegativeObservation) (al : TimeAlignment) (hostAxis : Bool) :
    Option (Int64 × Int64) :=
  if hostAxis || isHostAxis n.clockBasis then some (n.absentSinceMs, n.expectedByMs)
  else do
    let (a, _) ← toWallUs al (bootUs n.absentSinceMs)
    let (b, _) ← toWallUs al (bootUs n.expectedByMs)
    return (a / 1000, b / 1000)

def inWindow (w : Window) (o : Observation) : Bool :=
  o.wallMs.any fun t => decide (w.startMs ≤ t) && decide (t < w.endMs)

def FieldValue.asF64 : FieldValue → Option F64
  | .i64 v => some (.ofInt v.toInt)
  | .f64 v => some v
  | .text _ => none
  | .blank => none

def field (o : Observation) (name : String) : Option FieldValue :=
  (o.fields.find? fun entry => entry.1 = name).map Prod.snd

def num (o : Observation) (name : String) : Option F64 := (field o name).bind FieldValue.asF64

/-- `num(o, name).is_some_and(p)`. -/
def numIs (o : Observation) (name : String) (p : F64 → Bool) : Bool := (num o name).any p

/-- `v >= bound`. -/
def atLeast (bound : ℚ) (v : F64) : Bool := (F64.ofRat bound).le v

/-- `v > 0.0`. -/
def isPositive (v : F64) : Bool := (F64.ofRat 0).lt v

/-- `v == value`. -/
def equals (value : ℚ) (v : F64) : Bool := v.eq (.ofRat value)

def textHas (needle : String) (o : Observation) : Bool :=
  o.fields.any fun entry =>
    match entry.2 with
    | .text s => contains needle.toList s.toList
    | _ => false

def basisRank : ClockBasis → ℕ
  | .unknown => 0
  | .gpsSuspect => 1
  | .bootRelative => 2
  | .hostReceived => 3
  | .bootRelativeOffsetEstimated => 4
  | .rtcSetOnce => 5
  | .gpsLocked => 6

/-! ## 3. Cues -/

/-- What a source says about itself: its channels, its clock, the confidence in its times. -/
def sourceCues (w : Window) (c : CueSet) (s : SourceInput) : CueSet :=
  let basis := s.alignment.basis
  let confidences := (s.obs.filter (inWindow w)).map Observation.timeConfidence
  let noOffset := !isHostAxis s.profile.defaultClockBasis && s.alignment.offset.isNone
  { c with
    observedChannels := c.observedChannels ∪ s.profile.channels.toFinset
    weakestBasis := if basisRank basis < basisRank c.weakestBasis then basis else c.weakestBasis
    timeConfidenceMin :=
      confidences.foldl (fun low v => if v.lt low then v else low) c.timeConfidenceMin
    timeUntrusted := c.timeUntrusted || noOffset || basis = .gpsSuspect || basis = .unknown }

def onsetToleranceMs : Int64 := 10000

/-- The cue of an absence on a channel. -/
def absenceCue (s : SourceInput) (since : Int64) : ChannelId → Option String
  | .heartbeat => some "heartbeat_stop"
  | .linkStats => some "link_stats_stop"
  | .rc => some "rc_stop"
  | .video => some "video_stop"
  | .onboard =>
    if s.obs.any fun o => !o.stale && o.wallMs.any fun t => decide (since + 1 < t) then
      some "onboard_stop"
    else some "onboard_truncated"
  | .gpsEkf => none
  | .event => none
  | .tlog => none
  | .osd => none
  | .fiber => none

/-- The cues so far, and whether a heartbeat has stopped. -/
abbrev Stopped := CueSet × Bool

/-- One absence: it counts when it overlaps the window and starts where the window starts. -/
def absenceCues (w : Window) (s : SourceInput) (c : Stopped) (n : NegativeObservation) :
    Stopped :=
  match negWall n s.alignment (isHostAxis s.profile.defaultClockBasis) with
  | none => c
  | some (since, by_) =>
    if ¬ (since < w.endMs ∧ w.startMs < by_) then c
    else if onsetToleranceMs < (since - w.startMs).abs then c
    else
      let handset := n.subject.channel = .linkStats ∧ s.profile.sourceRole = .handset
      match absenceCue s since n.subject.channel with
      | none => c
      | some id =>
        ((c.1.addIf handset .linkStats "handset_link_dead" []).add n.subject.channel id [],
          c.2 || n.subject.channel = .heartbeat)

/-- The channel shows at least two fresh observations, one of them in the second half. -/
def isAlive (w : Window) (inW : List Observation) (channel : ChannelId) : Bool :=
  let half := w.startMs + (w.endMs - w.startMs) / 2
  let alive := inW.filter fun o => o.channel = channel && !o.stale
  decide (2 ≤ alive.length) && alive.any fun o => o.wallMs.any fun t => decide (half ≤ t)

def aliveCues (w : Window) (heartbeatStop : Bool) (s : SourceInput) (inW : List Observation)
    (c : CueSet) : CueSet :=
  let alive := isAlive w inW
  let link := alive .linkStats
  let ev := inW.filter fun o => o.channel = .linkStats
  c |> .addIf (alive .heartbeat) .heartbeat "heartbeat_continue" []
    |> .addIf (alive .rc) .rc "rc_continue" []
    |> .addIf (alive .video) .video "video_continue" []
    |> .addIf (alive .onboard) .onboard "onboard_continue" []
    |> .addIf link .linkStats "link_stats_continue" []
    |> .addIf (link && s.profile.sourceRole = .handset) .linkStats "handset_link_alive" []
    |> .addIf (link && s.profile.sourceRole = .gcs && heartbeatStop) .linkStats
        "radio_remote_alive" ev

/-- The numbers in those fields, with the names of the fields. -/
def series (pre : List Observation) (names : List String) : List (String × F64) :=
  pre.flatMap fun o => names.filterMap fun name => (num o name).map fun v => (name, v)

def lqFields : List String := ["RQly(%)", "RSSI.RXLQ", "input_rc.link_quality", "RC_CHANNELS.rssi"]

def rssiFields : List String := ["RADIO_STATUS.rssi", "RAD.RSSI", "rssi", "RSSI.RXRSSI"]

def dbmFields : List String := ["1RSS(dB)", "input_rc.rssi_dbm"]

def noiseFields : List String := ["RADIO_STATUS.noise", "RAD.Noise"]

/-- The field whose 255 says that there is no reading. -/
def isRcRssi (name : String) : Bool := name = "RC_CHANNELS.rssi"

def linkQualityDegraded (pre : List Observation) : Bool :=
  let lq := (series pre lqFields).filter fun p => !(isRcRssi p.1 && atLeast 255 p.2)
  let rssi := (series pre rssiFields).map Prod.snd
  let largestFinite : F64 := ⟨0x7FEFFFFFFFFFFFFF⟩
  let mx := rssi.foldl F64.max largestFinite.neg
  let mn := rssi.foldl F64.min largestFinite
  lq.any (fun p => p.2.lt (.ofRat (if isRcRssi p.1 then 228 else 90))) ||
    (!rssi.isEmpty && isPositive mx && (mn.div mx).lt (.ofRat (3 / 4))) ||
    (series pre dbmFields).any (fun p => p.2.le (.ofRat (-100))) ||
    (series pre noiseFields).any fun p => atLeast 100 p.2

def preludeCues (w : Window) (s : SourceInput) (c : CueSet) : CueSet :=
  let prelude : Window := ⟨w.startMs - 15000, w.startMs⟩
  let pre := s.obs.filter fun o => o.channel = .linkStats && !o.stale && inWindow prelude o
  if pre.isEmpty then c
  else if linkQualityDegraded pre then c.add .linkStats "prelude_link_stats" pre
  else c.addIf (decide (3 ≤ pre.length)) .linkStats "no_prelude" pre

/-- `MODE.Rsn` is one of these. -/
def modeReason (reasons : List ℚ) (o : Observation) : Bool :=
  numIs o "MODE.Rsn" fun r => reasons.any fun reason => equals reason r

def isRcFailsafe (o : Observation) : Bool :=
  textHas "Radio Failsafe" o || textHas "RC Short Failsafe" o || textHas "RC Long Failsafe" o ||
    textHas "RC LINK LOST" o || modeReason [3, 48] o ||
    numIs o "failsafe_flags.manual_control_signal_lost" isPositive ||
    numIs o "failsafePhase" (atLeast 1)

def isGcsFailsafe (o : Observation) : Bool :=
  textHas "GCS Failsafe" o || modeReason [5] o ||
    numIs o "failsafe_flags.gcs_connection_lost" isPositive ||
    numIs o "vehicle_status.gcs_connection_lost" isPositive

def isEkfFailsafe (o : Observation) : Bool :=
  textHas "EKF" o || modeReason [6] o ||
    numIs o "ERR.Subsys" fun v => equals 16 v || equals 17 v

/-- The boot clock of the later observation is more than a second behind. -/
def rewinds : List Observation → Bool
  | p :: q :: rest =>
    (match p.tBootUs, q.tBootUs with
      | some a, some b => decide (b + 1000000 < a)
      | _, _ => false) || rewinds (q :: rest)
  | _ => false

def eventCues (inW : List Observation) (c : CueSet) : CueSet :=
  let ev := inW.filter fun o => o.channel = .event || o.channel = .rc
  let rcFs := ev.filter isRcFailsafe
  let gcsFs := ev.filter isGcsFailsafe
  let roverFs := ev.filter (modeReason [25])
  let ekfFs := ev.filter isEkfFailsafe
  let glitch := ev.filter fun o => textHas "GPS Glitch" o || numIs o "ERR.Subsys" (equals 11)
  let glitchFlag := inW.filter fun o =>
    numIs o "EKF_STATUS_REPORT.flags" fun v => (v.asU32 &&& 32768) != 0
  let wdg := ev.filter fun o => textHas "WDG" o || textHas "atchdog" o
  c |> .addIf (!rcFs.isEmpty || (!roverFs.isEmpty && gcsFs.isEmpty)) .event
        "rc_failsafe_event" rcFs
    |> .addIf (!gcsFs.isEmpty || (!roverFs.isEmpty && rcFs.isEmpty)) .event
        "gcs_failsafe_event" gcsFs
    |> .addIf (!ekfFs.isEmpty) .event "ekf_failsafe_event" ekfFs
    |> .addIf (!glitch.isEmpty || !glitchFlag.isEmpty) .event "gps_glitch_event" glitch
    |> .addIf (!wdg.isEmpty || rewinds inW) .event "reboot_marker" wdg

def satsFields : List String :=
  ["GPS.NSats", "GPS_RAW_INT.satellites_visible", "sensor_gps.satellites_used", "GPS_numSat",
    "Sats"]

def fixFields : List String :=
  ["GPS.Status", "GPS_RAW_INT.fix_type", "sensor_gps.fix_type", "GPS_fixType"]

def latE7Fields : List String :=
  ["GPS.Lat", "GLOBAL_POSITION_INT.lat", "GPS_RAW_INT.lat", "sensor_gps.lat"]

def latDegFields : List String := ["vehicle_global_position.lat", "GPS_coord[0]"]

/-- A fix type of MAVLink. -/
def isFixType (v : F64) : Bool := F64.within (.ofRat 0) (.ofRat 8) v

/-- Numbers that two fields use for "unknown" are left out. -/
def gpsPick (obs : List Observation) (names : List String) : List F64 :=
  ((series obs names).filter fun p =>
    if p.1 = "GPS_RAW_INT.satellites_visible" then !equals 255 p.2
    else if p.1 = "GPS_RAW_INT.fix_type" then isFixType p.2
    else true).map Prod.snd

/-- The latitudes with their times, in the order in which they are read. -/
def latitudes (obs : List Observation) : List (Int64 × F64) :=
  (obs.flatMap fun o =>
    let t := o.wallMs.getD o.tMs
    latE7Fields.filterMap (fun name => (num o name).map fun v => (t, v.div (.ofRat 10000000))) ++
      latDegFields.filterMap fun name => (num o name).map fun v => (t, v)).filter
    fun p => (F64.ofRat (1 / 10000)).lt p.2.abs

def jumps : List (Int64 × F64) → Bool
  | p :: q :: rest =>
    (atLeast (18 / 100000) (q.2.sub p.2).abs && decide ((q.1 - p.1).abs ≤ 3000)) ||
      jumps (q :: rest)
  | _ => false

def gpsCues (w b : List Observation) (c : CueSet) : CueSet :=
  let satsW := gpsPick w satsFields
  let satsB := gpsPick b satsFields
  let fixW := gpsPick w fixFields
  let least := List.foldl F64.min (.infinity false)
  let most := List.foldl F64.max (.infinity true)
  let satsDrop := !satsW.isEmpty && !satsB.isEmpty && (least satsW).le (.ofRat 6) &&
    atLeast 10 (most satsB)
  let fixDrop := !fixW.isEmpty && (least fixW).lt (.ofRat 3)
  let fixGood := !fixW.isEmpty && (satsW.isEmpty || atLeast 10 (least satsW)) &&
    !w.any fun o => numIs o "GPS_RAW_INT.satellites_visible" (equals 255) ||
      numIs o "GPS_RAW_INT.fix_type" fun v => !isFixType v
  let hdop := w.any fun o => numIs o "GPS.HDop" (atLeast 200) ||
    numIs o "GPS_RAW_INT.eph" (fun v => atLeast 200 v && !equals 65535 v) ||
    numIs o "sensor_gps.hdop" (atLeast 2) || numIs o "GPS_hdop" (atLeast 2)
  let variance := w.any fun o => numIs o "XKF4.SP" (atLeast 100) ||
    numIs o "EKF_STATUS_REPORT.pos_horiz_variance" (atLeast 1) ||
    numIs o "estimator_status.pos_test_ratio" (atLeast 1)
  let jam := w.any fun o => numIs o "UBX1.jamInd" (atLeast 80) ||
    numIs o "sensor_gps.jamming_indicator" (atLeast 80) ||
    numIs o "sensor_gps.jamming_state" (equals 3)
  let reset := w.any fun o => numIs o "XKF4.OFN" (fun v => (F64.ofRat (1 / 2)).lt v.abs) ||
    numIs o "estimator_status.reset_count_pos_ne" isPositive
  c |> .addIf satsDrop .gpsEkf "gps_sats_drop" w
    |> .addIf fixDrop .gpsEkf "gps_fix_drop" w
    |> .addIf (!fixDrop && fixGood) .gpsEkf "gps_fix_good" w
    |> .addIf hdop .gpsEkf "gps_hdop_rise" w
    |> .addIf variance .gpsEkf "ekf_variance_rise" w
    |> .addIf jam .gpsEkf "jam_indicator_rise" w
    |> .addIf reset .gpsEkf "ekf_position_reset" w
    |> .addIf (jumps (latitudes (b ++ w))) .gpsEkf "position_jump" w

/-- What a source shows in the window and before it. -/
def observedCues (w : Window) (heartbeatStop : Bool) (c : CueSet) (s : SourceInput) : CueSet :=
  let inW := s.obs.filter (inWindow w)
  let baseline : Window := ⟨w.startMs - 30000, w.startMs⟩
  let gpsW := inW.filter fun o => o.channel = .gpsEkf
  let gpsB := s.obs.filter fun o => o.channel = .gpsEkf && inWindow baseline o
  c |> aliveCues w heartbeatStop s inW
    |> preludeCues w s
    |> eventCues inW
    |> gpsCues gpsW gpsB

/-- Digests in order, each once. -/
def sortedDigests (digests : List Digest) : List Digest :=
  (digests.insertionSort fun a b => a.toList ≤ b.toList).destutter (· ≠ ·)

def extractCues (sources : List SourceInput) (w : Window) : CueSet :=
  let c := sources.foldl (sourceCues w) .empty
  let (c, heartbeatStop) := sources.foldl
    (fun c s => s.negatives.foldl (absenceCues w s) c) (c, false)
  let c := sources.foldl (observedCues w heartbeatStop) c
  { c with evidence := sortedDigests c.evidence }

/-! ## 4. Signatures -/

def Cue.label (c : Cue) : String := c.channel.asStr ++ ":" ++ c.cueId

/-- A cue that says that something goes on. -/
def isStateCue (label : String) : Bool :=
  label.endsWith "_good" || label.endsWith "_continue" || label.endsWith "_alive" ||
    label.endsWith ":no_prelude"

def CueSet.has (cues : CueSet) (c : Cue) : Bool := decide ((c.channel, c.cueId) ∈ cues.present)

def CueSet.observes (cues : CueSet) (c : Cue) : Bool := decide (c.channel ∈ cues.observedChannels)

def FailureSignature.appliesTo (sig : FailureSignature) (family : Family) : Bool :=
  sig.families.isEmpty || sig.families.contains family

/-- The labels of the required cues whose channel is not observed. -/
def FailureSignature.missing (sig : FailureSignature) (cues : CueSet) : List String :=
  (sig.requiredCues.filter fun c => !cues.observes c).map Cue.label

/-- All required cues are there. -/
def FailureSignature.isFull (sig : FailureSignature) (cues : CueSet) : Bool :=
  (sig.requiredCues.filter cues.has).length = sig.requiredCues.length

def logicConfidence (sig : FailureSignature) (cues : CueSet) : LogicConfidence :=
  let explicitEvent := (sig.requiredCues ++ sig.optionalCues).any fun c =>
    c.channel = .event && cues.has c
  if sig.isFull cues && !cues.timeUntrusted then
    if explicitEvent then .deterministicFact else .directEvidence
  else .leadingIndicator

/-- The candidate of a signature whose channels are all observed, if it is one. -/
def candidateOf (cues : CueSet) (sig : FailureSignature) : Option CauseCandidate :=
  let labels (which : Cue → Bool) (among : List Cue) := (among.filter which).map Cue.label
  let matched := labels cues.has sig.requiredCues
  let contradicting := labels cues.has sig.contradictingCues
  if matched.isEmpty || !contradicting.isEmpty then none
  else if !sig.isFull cues && matched.all isStateCue then none
  else some {
    signatureId := sig.signatureId
    signatureMatch := {
      matchedCues := matched
      requiredCues := sig.requiredCues.map Cue.label
      optionalCuesMatched := labels cues.has sig.optionalCues
      contradictingCues := contradicting }
    logicConfidence := logicConfidence sig cues
    supporting := cues.evidence
    contradicting := []
    discriminatingMissing :=
      labels (fun c => !cues.observes c) (sig.optionalCues ++ sig.contradictingCues) }

/-- A set of texts, in order. -/
def orderedTexts (texts : List String) : List String := texts.toFinset.sort (· ≤ ·)

def unmatchedRequired (c : CauseCandidate) : List String :=
  c.signatureMatch.requiredCues.filter fun r => !c.signatureMatch.matchedCues.contains r

def matchSignatures (catalog : SignatureCatalog) (family : Family) (cues : CueSet) :
    CauseOutcome :=
  let applicable := catalog.signatures.filter fun sig => sig.appliesTo family
  let undefinedMissing := applicable.flatMap fun sig => sig.missing cues
  let defined := applicable.filter fun sig => (sig.missing cues).isEmpty
  let full := (defined.filter fun sig => sig.isFull cues).filterMap (candidateOf cues)
  let partial_ := (defined.filter fun sig => !sig.isFull cues).filterMap (candidateOf cues)
  if applicable.isEmpty then .unknown .noSignatureMatch
  else match full, partial_ with
    | [_], _ => .consistent (full ++ partial_)
    | _ :: _ :: _, _ => .ambiguous full (orderedTexts (full.flatMap (·.discriminatingMissing)))
    | [], [_] => .consistent partial_
    | [], _ :: _ :: _ =>
      .ambiguous partial_ (orderedTexts (partial_.flatMap (·.discriminatingMissing) ++
        partial_.flatMap unmatchedRequired))
    | [], [] =>
      if cues.present = ∅ then .unknown .insufficientEvidence
      else if !undefinedMissing.isEmpty then .unknown .channelNotObserved
      else .unknown .noSignatureMatch

/-! ## 5. Claims -/

/-- The observation is an event that starts a window. -/
def isEventTrigger (o : Observation) : Bool :=
  (o.channel = .event || o.channel = .rc) &&
  !(textHas "Cleared" o || textHas "restored" o || modeReason [48] o) &&
  (["Failsafe", "failsafe", "FAILSAFE", "GPS Glitch", "EKF", "WDG", "atchdog"].any
      (textHas · o) ||
    (num o "ERR.Subsys").isSome || numIs o "MODE.Rsn" (atLeast 3) ||
    numIs o "failsafePhase" (atLeast 1) ||
    ["failsafe_flags.manual_control_signal_lost", "failsafe_flags.gcs_connection_lost",
      "failsafe_flags.gnss_lost", "vehicle_status.failsafe"].any fun name =>
        numIs o name isPositive)

def eventTriggerTimes (obs : List Observation) : List Int64 :=
  (obs.filter isEventTrigger).filterMap Observation.wallMs

variable (sha256 : List UInt8 → Digest)

def negativeDigest (n : NegativeObservation) : Digest :=
  sha256 (utf8 n.expectationId ++ utf8 n.subject.assetId ++ utf8 n.subject.channel.asStr ++
    leBytes 8 n.absentSinceMs.toUInt64.toNat ++ leBytes 8 n.expectedByMs.toUInt64.toNat)

def outcomeReason : CauseOutcome → String
  | .consistent _ => "cause-candidate"
  | .ambiguous _ _ => "cause-ambiguous"
  | .unknown reason => "cause-unknown:" ++ reason.asLabel

/-- The reasons of the mark. -/
def claimTokens (outcome : CauseOutcome) (cues : CueSet) : List String :=
  [outcomeReason outcome, cues.weakestBasis.reasonToken] ++
    if cues.timeUntrusted then ["time-untrusted"] else []

def causeClaimId (assetId : String) (w : Window) (tokens : List String) : String :=
  let digest := sha256 (utf8 assetId ++ leBytes 8 w.startMs.toUInt64.toNat ++
    leBytes 8 w.endMs.toUInt64.toNat ++ utf8 (join "|" tokens))
  "cause-" ++ hexLower (digest.toList.take 8)

def channelCoverage (catalog : SignatureCatalog) (family : Family) (cues : CueSet) :
    ChannelCoverage :=
  let applicable := catalog.signatures.filter fun sig => sig.appliesTo family
  let required := (applicable.flatMap fun sig => sig.requiredCues.map Cue.channel).toFinset.sort
    (· ≤ ·)
  { required, present := required.filter (· ∈ cues.observedChannels) }

/-- The assertion of `join_reason_tokens` is the panic. -/
def buildClaim {ε : Type} (catalog : SignatureCatalog) (sources : List SourceInput)
    (family : Family) (assetId : String) (triggerChannel : ChannelId)
    (absences : List NegativeObservation) (w : Window) (generatedAtMs : Int64) :
    Checked ε CauseClaim :=
  let cues := extractCues sources w
  let outcome := matchSignatures catalog family cues
  let tokens := claimTokens outcome cues
  match joinReasonTokens tokens with
  | none => .error .panic
  | some reasonCode => return {
      claimId := causeClaimId sha256 assetId w tokens
      subject := { family, assetId, channel := triggerChannel }
      absence := absences.map (negativeDigest sha256)
      outcome
      inputConfidence := {
        envelopeDigests := cues.evidence
        minConfidence := .ofRat 0
        basisMix := cues.evidence.foldl (fun mix _ => mix.count none) ⟨0, 0, 0⟩
        timeConfidenceMin := cues.timeConfidenceMin
        channelCoverage := channelCoverage catalog family cues }
      evidence := cues.evidence
      generator := {
        catalogVersion := catalog.version
        profileVersion :=
          join "," (sources.map fun s => s.profile.profileId ++ "@" ++ s.profile.version)
        buildId := "musubi-reference-readers@0.0.0" }
      generatedAtMs
      mark := {
        status := .degraded
        reasonCode
        provenance := ["musubi-reference-readers/cause@" ++ catalog.version] } }

/-! ## 6. Windows -/

/-- The place of a row in the list of the rows, or `⊤` for an event: no list is that long. -/
abbrev TriggerId := WithTop ℕ

def TriggerId.place (id : TriggerId) : Option ℕ := id

/-- The order of tuples. -/
def triggerLe (p q : Int64 × TriggerId) : Prop :=
  p.1.toInt < q.1.toInt ∨ p.1.toInt = q.1.toInt ∧ p.2 ≤ q.2

instance : DecidableRel triggerLe := fun _ _ => inferInstanceAs (Decidable (_ ∨ _ ∧ _))

/-- The windows so far, newest last, and the time of the last trigger. -/
structure Clustering where
  windows : List (Window × List TriggerId)
  lastT : Int64

/-- One trigger, in order of time: near the last one it joins the newest window. -/
def clusterStep (gapMs spanMs : Int64) (c : Clustering) (trigger : Int64 × TriggerId) :
    Clustering :=
  let (t, i) := trigger
  match c.windows.getLast? with
  | some (w, ids) =>
    if t - c.lastT ≤ gapMs then ⟨c.windows.dropLast ++ [(w, ids ++ [i])], t⟩
    else ⟨c.windows ++ [(⟨t, t + spanMs⟩, [i])], t⟩
  | none => ⟨c.windows ++ [(⟨t, t + spanMs⟩, [i])], t⟩

def windowsFromTriggers (triggers : List (Int64 × TriggerId)) (gapMs spanMs : Int64) :
    List (Window × List TriggerId) :=
  ((triggers.insertionSort triggerLe).foldl (clusterStep gapMs spanMs)
    ⟨[], Int64.minValue⟩).windows

end Musubi.Reference
