/-
# Records

`field-contracts/src/contracts.rs`, `registry.rs` and the enumeration of `ndjson.rs`: the records
that come on lines of their own, with what each of them checks of itself.  Manifests, reports and
seals stand in `IntegrationCase`.

The checks are translated in the order of the source, since the first that fails is the one that
is reported.  Optional fields are checked when they are there.  Two fields often exclude one
another, a value and the reason why it is missing, an operator and independent evidence, and those
checks are definitions of their own under the name of what they ask for.
-/
import Musubi.Contracts.IntegrationCase
import Musubi.FloatArith

namespace Musubi.Contracts

open Lib

/-! ## 1. Numbers -/

def requireFinite (value : F64) (field : String) : ContractResult Unit :=
  ensure value.isFinite (.invalidField field "number must be finite")

/-- The check of a field that may be missing. -/
def checkOption {α : Type} (check : α → ContractResult Unit) : Option α → ContractResult Unit
  | none => .ok ()
  | some x => check x

/-! ## 2. Observations -/

inductive PrimitiveValueKindV1
  | bool
  | i64
  | u64
  | f64
  | text
deriving DecidableEq, Repr

inductive ObservationValueV1
  | bool (value : Bool)
  | i64 (value : Int64)
  | u64 (value : UInt64)
  | f64 (value : F64)
  | text (value : String)
deriving DecidableEq

def ObservationValueV1.kind : ObservationValueV1 → PrimitiveValueKindV1
  | bool _ => .bool
  | i64 _ => .i64
  | u64 _ => .u64
  | f64 _ => .f64
  | text _ => .text

def ObservationValueV1.validate : ObservationValueV1 → ContractResult Unit
  | f64 value => requireFinite value "observation.value"
  | text value => requireNonEmpty value "observation.value"
  | bool _ | i64 _ | u64 _ => .ok ()

inductive MissingValueV1
  | notObserved
  | sensorUnavailable
  | clockUntrusted
  | redacted
  | sentinel (encodedValue : String)
  | unknown (detail : String)
deriving DecidableEq, Repr

def MissingValueV1.validate : MissingValueV1 → ContractResult Unit
  | sentinel encodedValue => requireNonEmpty encodedValue "observation.missing.encoded_value"
  | unknown detail => requireNonEmpty detail "observation.missing.detail"
  | notObserved | sensorUnavailable | clockUntrusted | redacted => .ok ()

inductive QualityStatusV1
  | good
  | suspect
  | bad
  | unknown
deriving DecidableEq, Repr

inductive QualityFlagV1
  | clockSkew
  | saturated
  | calibrationUnknown
  | observerDegraded
  | interpolated
  | outOfDeclaredRange
deriving DecidableEq, Repr

structure QualityV1 where
  status : QualityStatusV1
  score : Option F64
  flags : List QualityFlagV1
deriving DecidableEq

/-- Flags that are sorted and rid of repetitions are counted as a finite set. -/
def QualityV1.validate (q : QualityV1) : ContractResult Unit := do
  checkOption (fun score => do
    requireFinite score "quality.score"
    ensure (F64.within (.ofRat 0) (.ofRat 1) score)
      (.invalidField "quality.score" "must be in [0, 1]")) q.score
  ensure (q.flags.toFinset.card = q.flags.length)
    (.invalidField "quality.flags" "duplicate quality flag")

structure NumericRangeV1 where
  minimum : F64
  maximum : F64
deriving DecidableEq

def NumericRangeV1.validate (r : NumericRangeV1) : ContractResult Unit := do
  requireFinite r.minimum "valid_range.minimum"
  requireFinite r.maximum "valid_range.maximum"
  ensure (¬ r.maximum.lt r.minimum)
    (.invalidField "valid_range" "minimum must not exceed maximum")

structure SourceReferenceV1 where
  sourceId : String
  sensorLocation : String
deriving DecidableEq, Repr

def SourceReferenceV1.validate (s : SourceReferenceV1) : ContractResult Unit := do
  requireNonEmpty s.sourceId "source.source_id"
  requireNonEmpty s.sensorLocation "source.sensor_location"

inductive ClockBasisV1
  | gpsLocked
  | gpsSuspect
  | rtcSetOnce
  | bootRelativeOffsetEstimated
  | hostReceived
  | bootRelative
  | unknown
deriving DecidableEq, Repr

structure TransformerReferenceV1 where
  transformerId : String
  transformerVersion : String
  configurationDigest : DigestV1
deriving DecidableEq

def TransformerReferenceV1.validate (t : TransformerReferenceV1) : ContractResult Unit := do
  lintIdentifier t.transformerId
  requireNonEmpty t.transformerVersion "transformer.transformer_version"

inductive ObservationKindV1
  | raw
  | derived
deriving DecidableEq, Repr

structure ObservationExtensionV1 where
  schemaVersion : String
  namespace_ : String
  semanticId : String
  semanticVersion : String
  eventTimeNs : Int64
  clockBasis : ClockBasisV1
  source : SourceReferenceV1
  observationKind : ObservationKindV1
  valueKind : PrimitiveValueKindV1
  value : Option ObservationValueV1
  missing : Option MissingValueV1
  unit : Option String
  resolution : Option F64
  validRange : Option NumericRangeV1
  quality : QualityV1
  rawArtifacts : List ArtifactReferenceV1
  transformer : Option TransformerReferenceV1
deriving DecidableEq

namespace ObservationExtensionV1

/-- Exactly one of value and missing is present. -/
def checkValue (o : ObservationExtensionV1) : ContractResult Unit :=
  match o.value, o.missing with
  | some value, none => do
    value.validate
    ensure (value.kind = o.valueKind) (.invalidField "observation.value_kind"
      "must match the encoded primitive value")
  | none, some missing => missing.validate
  | some _, some _ | none, none =>
    .error (.invalidField "observation.value/missing"
      "exactly one of value and missing must be present")

/-- What is derived names what derived it. -/
def checkTransformer (o : ObservationExtensionV1) : ContractResult Unit :=
  match o.observationKind, o.transformer with
  | .raw, none => .ok ()
  | .derived, some transformer => transformer.validate
  | .raw, some _ =>
    .error (.invalidField "observation.transformer" "raw observations must not name a transformer")
  | .derived, none => .error (.missingField "observation.transformer")

def validate (o : ObservationExtensionV1) : ContractResult Unit := do
  requireSchemaV1 o.schemaVersion
  lintIdentifier o.namespace_
  lintIdentifier o.semanticId
  requireNonEmpty o.semanticVersion "semantic_version"
  o.source.validate
  o.checkValue
  checkOption (requireNonEmpty · "observation.unit") o.unit
  checkOption (fun resolution => do
    requireFinite resolution "observation.resolution"
    ensure (¬ resolution.le (.ofRat 0))
      (.invalidField "observation.resolution" "must be greater than zero")) o.resolution
  checkOption NumericRangeV1.validate o.validRange
  o.quality.validate
  ensure (o.rawArtifacts ≠ []) (.missingField "observation.raw_artifacts")
  checkAll ArtifactReferenceV1.validate o.rawArtifacts
  o.checkTransformer

end ObservationExtensionV1

/-! ## 3. Annotations -/

inductive AnnotationKindV1
  | observation
  | causeCandidate
  | groundTruth
deriving DecidableEq, Repr

inductive AnnotationCertaintyV1
  | suspected
  | ambiguous
  | unknown
  | confirmed
deriving DecidableEq, Repr

inductive AnnotationSourceV1
  | controlledFixture
  | operatorAnnotation
  | postRunInspection
  | video
  | motionCapture
  | continuityTest
  | deterministicInjection
  | modelOutput (modelId modelVersion : String)
  | otherIndependentEvidence (description : String)
deriving DecidableEq, Repr

namespace AnnotationSourceV1

def validate : AnnotationSourceV1 → ContractResult Unit
  | modelOutput modelId modelVersion => do
    lintIdentifier modelId
    requireNonEmpty modelVersion "annotation.label_source.model_version"
  | otherIndependentEvidence description =>
    requireNonEmpty description "annotation.label_source.description"
  | controlledFixture | operatorAnnotation | postRunInspection | video | motionCapture
  | continuityTest | deterministicInjection => .ok ()

/-- The sources that may confirm: no operator and no model. -/
def isIndependent : AnnotationSourceV1 → Bool
  | controlledFixture | postRunInspection | video | motionCapture | continuityTest
  | deterministicInjection | otherIndependentEvidence _ => true
  | operatorAnnotation | modelOutput _ _ => false

end AnnotationSourceV1

structure EpisodeAnnotationV1 where
  schemaVersion : String
  episodeId : String
  windowStartNs : Int64
  windowEndNs : Int64
  taxonomyNamespace : String
  taxonomyVersion : String
  label : String
  annotationKind : AnnotationKindV1
  certainty : AnnotationCertaintyV1
  labelSource : AnnotationSourceV1
  annotatorId : String
  evidence : List ArtifactReferenceV1
deriving DecidableEq

namespace EpisodeAnnotationV1

/-- What is confirmed is ground truth with independent evidence. -/
def checkConfirmed (a : EpisodeAnnotationV1) : ContractResult Unit := do
  ensure (a.annotationKind = .groundTruth) (.invalidField "annotation.annotation_kind"
    "confirmed annotations must be ground_truth")
  ensure (a.evidence ≠ []) (.missingField "annotation.evidence")
  ensure a.labelSource.isIndependent (.invalidField "annotation.label_source"
    ("confirmed ground truth requires an independent non-operator, non-model evidence " ++
      "source"))
  ensure (a.evidence.any fun artifact => artifact.role = .evidence || artifact.role = .fixture)
    (.invalidField "annotation.evidence"
      "confirmed ground truth requires at least one evidence or fixture artifact role")

def validate (a : EpisodeAnnotationV1) : ContractResult Unit := do
  requireSchemaV1 a.schemaVersion
  lintIdentifier a.episodeId
  lintIdentifier a.taxonomyNamespace
  requireNonEmpty a.taxonomyVersion "annotation.taxonomy_version"
  lintIdentifier a.label
  requireNonEmpty a.annotatorId "annotation.annotator_id"
  ensure (¬ a.windowEndNs < a.windowStartNs) (.invalidField "annotation.window"
    "window_start_ns must not exceed window_end_ns")
  a.labelSource.validate
  checkAll ArtifactReferenceV1.validate a.evidence
  ensure (¬ ("confirmed_".toList <+: a.label.toList ∧ a.certainty ≠ .confirmed))
    (.invalidField "annotation.label"
      "labels in the reserved confirmed_* namespace require confirmed certainty")
  if a.certainty = .confirmed then a.checkConfirmed else .ok ()

end EpisodeAnnotationV1

/-! ## 4. Profiles of cables -/

inductive MeasurementEndV1
  | vehicle
  | reel
  | both
  | unknown
deriving DecidableEq, Repr

inductive ReelDirectionV1
  | positivePaysOut
  | positiveRecoils
  | notInstrumented
deriving DecidableEq, Repr

structure SensorCalibrationV1 where
  semanticId : String
  scale : F64
  offset : F64
  unit : String
  calibrationArtifact : ArtifactReferenceV1
deriving DecidableEq

/-- A scale is zero where it is neither above nor below it. -/
def SensorCalibrationV1.validate (c : SensorCalibrationV1) : ContractResult Unit := do
  lintIdentifier c.semanticId
  requireFinite c.scale "calibration.scale"
  requireFinite c.offset "calibration.offset"
  ensure (¬ (c.scale.le (.ofRat 0) ∧ F64.le (.ofRat 0) c.scale))
    (.invalidField "calibration.scale" "must be non-zero")
  requireNonEmpty c.unit "calibration.unit"
  c.calibrationArtifact.validate

structure BaselineStatisticV1 where
  semanticId : String
  mean : F64
  standardDeviation : F64
  sampleCount : UInt64
deriving DecidableEq

def BaselineStatisticV1.validate (b : BaselineStatisticV1) : ContractResult Unit := do
  lintIdentifier b.semanticId
  requireFinite b.mean "baseline.mean"
  requireFinite b.standardDeviation "baseline.standard_deviation"
  ensure (¬ b.standardDeviation.lt (.ofRat 0))
    (.invalidField "baseline.standard_deviation" "must be non-negative")
  ensure (b.sampleCount ≠ 0) (.invalidField "baseline.sample_count" "must be greater than zero")

inductive ThresholdComparisonV1
  | greaterThan
  | greaterThanOrEqual
  | lessThan
  | lessThanOrEqual
  | outsideInclusiveRange
deriving DecidableEq, Repr

structure FeatureThresholdV1 where
  featureSemanticId : String
  comparison : ThresholdComparisonV1
  primaryValue : F64
  secondaryValue : Option F64
  minimumDurationMs : UInt64
  applicability : String
  provenance : ArtifactReferenceV1
deriving DecidableEq

namespace FeatureThresholdV1

/-- A range has two values and any other comparison one. -/
def checkValues (t : FeatureThresholdV1) : ContractResult Unit :=
  match t.secondaryValue with
  | some upper =>
    if t.comparison = .outsideInclusiveRange then
      ensure (¬ upper.lt t.primaryValue)
        (.invalidField "threshold" "range lower bound must not exceed upper bound")
    else
      .error (.invalidField "threshold.secondary_value"
        "only outside_inclusive_range accepts a second value")
  | none =>
    ensure (t.comparison ≠ .outsideInclusiveRange) (.missingField "threshold.secondary_value")

def validate (t : FeatureThresholdV1) : ContractResult Unit := do
  lintIdentifier t.featureSemanticId
  requireFinite t.primaryValue "threshold.primary_value"
  checkOption (requireFinite · "threshold.secondary_value") t.secondaryValue
  t.checkValues
  requireNonEmpty t.applicability "threshold.applicability"
  t.provenance.validate

end FeatureThresholdV1

structure CableInteractionProfileV1 where
  schemaVersion : String
  profileId : String
  semanticVersion : String
  tetherType : String
  nominalLengthM : F64
  measurementEnd : MeasurementEndV1
  reelDirection : ReelDirectionV1
  calibrations : List SensorCalibrationV1
  baseline : List BaselineStatisticV1
  featureTransformer : TransformerReferenceV1
  thresholds : List FeatureThresholdV1
  applicabilityDimensions : BTreeMap String String
deriving DecidableEq

def CableInteractionProfileV1.validate (p : CableInteractionProfileV1) : ContractResult Unit := do
  requireSchemaV1 p.schemaVersion
  lintIdentifier p.profileId
  requireNonEmpty p.semanticVersion "profile.semantic_version"
  requireNonEmpty p.tetherType "profile.tether_type"
  requireFinite p.nominalLengthM "profile.nominal_length_m"
  ensure (¬ p.nominalLengthM.le (.ofRat 0))
    (.invalidField "profile.nominal_length_m" "must be greater than zero")
  ensure (p.calibrations ≠ []) (.missingField "profile.calibrations")
  checkAll SensorCalibrationV1.validate p.calibrations
  ensure (p.baseline ≠ []) (.missingField "profile.baseline")
  checkAll BaselineStatisticV1.validate p.baseline
  p.featureTransformer.validate
  checkAll FeatureThresholdV1.validate p.thresholds
  checkAll (fun entry => do
    lintIdentifier entry.1
    requireNonEmpty entry.2 "profile.applicability_dimensions.value")
    p.applicabilityDimensions.entries

/-! ## 5. Registries -/

inductive RegistryKindV1
  | observation
  | derivedFeature
  | annotationLabel
deriving DecidableEq, Repr

def RegistryKindV1.display : RegistryKindV1 → String
  | observation => "observation"
  | derivedFeature => "derived_feature"
  | annotationLabel => "annotation_label"

structure RegistryKeyV1 where
  kind : RegistryKindV1
  namespace_ : String
  semanticId : String
  semanticVersion : String
deriving DecidableEq, Repr

def RegistryKeyV1.display (k : RegistryKeyV1) : String :=
  k.kind.display ++ "|" ++ k.namespace_ ++ "|" ++ k.semanticId ++ "|" ++ k.semanticVersion

def RegistryKeyV1.validate (k : RegistryKeyV1) : ContractResult Unit := do
  lintIdentifier k.namespace_
  lintIdentifier k.semanticId
  requireNonEmpty k.semanticVersion "registry.semantic_version"

structure RegistryEntryV1 where
  key : RegistryKeyV1
  valueKind : PrimitiveValueKindV1
  unit : Option String
  description : String
  provenance : ArtifactReferenceV1
  deprecated : Bool
deriving DecidableEq

def RegistryEntryV1.validate (e : RegistryEntryV1) : ContractResult Unit := do
  e.key.validate
  checkOption (requireNonEmpty · "registry.unit") e.unit
  requireNonEmpty e.description "registry.description"
  e.provenance.validate

inductive RegistryScopeV1
  | public_
  | clientOverlay (tenantId : String) (rightsDigest : DigestV1)
deriving DecidableEq

def RegistryScopeV1.validate : RegistryScopeV1 → ContractResult Unit
  | public_ => .ok ()
  | clientOverlay tenantId _ => requireNonEmpty tenantId "registry.scope.tenant_id"

structure RegistryV1 where
  schemaVersion : String
  scope : RegistryScopeV1
  entries : List RegistryEntryV1
deriving DecidableEq

/-- The entries whose keys have been seen; the error names the key that comes again. -/
def RegistryV1.checkEntries : List RegistryKeyV1 → List RegistryEntryV1 → ContractResult Unit
  | _, [] => .ok ()
  | keys, entry :: entries => do
    entry.validate
    ensure (entry.key ∉ keys) (.duplicateRegistryKey entry.key.display)
    checkEntries (entry.key :: keys) entries

def RegistryV1.validate (r : RegistryV1) : ContractResult Unit := do
  requireSchemaV1 r.schemaVersion
  r.scope.validate
  RegistryV1.checkEntries [] r.entries

/-! ## 6. Any of them -/

inductive RecordV1
  | observationExtension (value : ObservationExtensionV1)
  | episodeAnnotation (value : EpisodeAnnotationV1)
  | cableInteractionProfile (value : CableInteractionProfileV1)
  | integrationCaseManifest (value : IntegrationCaseManifestV1)
  | verificationReport (value : VerificationReportV1)
  | humanSeal (value : HumanSealV1)
  | registry (value : RegistryV1)
deriving DecidableEq

def RecordV1.validate : RecordV1 → ContractResult Unit
  | observationExtension value => value.validate
  | episodeAnnotation value => value.validate
  | cableInteractionProfile value => value.validate
  | integrationCaseManifest value => value.validate
  | verificationReport value => value.validate
  | humanSeal value => value.validate
  | registry value => value.validate

end Musubi.Contracts
