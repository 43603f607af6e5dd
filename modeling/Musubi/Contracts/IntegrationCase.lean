/-
# Integration cases

`field-contracts/src/contracts.rs`: the manifest of an integration case, the report that a
verifier makes of a candidate, and the seal that a person puts on a report.  Each validates by
itself, a report against its manifest and a seal against its report; the binding goes through
digests of canonical JSON.

Validation of a report computes the disposition again from the checks and compares, so a report
cannot claim more than its checks say.  Checks and write paths are ordered sets in the source.
They are compared as finite sets here, since nothing depends on their order but the JSON, which
writes the sorted list.

What a seal says is in `Contracts.SealChain`, and that the JSON of these records decides them is
in section 5, field by field.
-/
import Musubi.Contracts.Canonical
import Mathlib.Data.Finset.Card

namespace Musubi.Contracts

open Lib Musubi.Core

/-! ## 1. The data boundary -/

inductive DataClassificationV1
  | public_
  | synthetic
  | anonymized
  | clientConfidential
deriving DecidableEq, Repr

inductive ArtifactResidencyV1
  | notApplicable
  | clientLocalOnly
deriving DecidableEq, Repr

inductive ExecutionEnvironmentV1
  | isolatedSynthetic
  | governedIsolated
  | clientLocal
deriving DecidableEq, Repr

inductive ExternalInferencePolicyV1
  | denied
  | contractAuthorized (authorizationDigest : DigestV1)
deriving DecidableEq

inductive ExportPolicyV1
  | denied
  | genericSchemaAggregateAndReceiptOnly
deriving DecidableEq, Repr

structure RetentionPolicyV1 where
  maximumDays : Option UInt32
  deletionAuthorityId : String
deriving DecidableEq

def RetentionPolicyV1.validate (r : RetentionPolicyV1) : ContractResult Unit := do
  requireNonEmpty r.deletionAuthorityId "data_boundary.retention.deletion_authority_id"
  ensure (r.maximumDays ≠ some 0) (.invalidField "data_boundary.retention.maximum_days"
    "must be greater than zero when present")

structure DataBoundaryV1 where
  classification : DataClassificationV1
  tenantId : Option String
  rightsDigest : Option DigestV1
  executionEnvironment : ExecutionEnvironmentV1
  externalInference : ExternalInferencePolicyV1
  exportPolicy : ExportPolicyV1
  rawLogsResidency : ArtifactResidencyV1
  labelsResidency : ArtifactResidencyV1
  modelWeightsResidency : ArtifactResidencyV1
  retention : RetentionPolicyV1
deriving DecidableEq

namespace DataBoundaryV1

/-- Data of a client names its tenant and the rights it is used under. -/
def requireClient (b : DataBoundaryV1) : ContractResult Unit := do
  match b.tenantId with
  | none => .error (.missingField "data_boundary.tenant_id")
  | some tenant => requireNonEmpty tenant "data_boundary.tenant_id"
  ensure b.rightsDigest.isSome (.missingField "data_boundary.rights_digest")

/-- The artifacts stay with the client. -/
def requireClientLocal (b : DataBoundaryV1) (reason : String) : ContractResult Unit :=
  checkAll (fun x : String × ArtifactResidencyV1 =>
      ensure (x.2 = .clientLocalOnly) (.invalidField x.1 reason))
    [("data_boundary.raw_logs_residency", b.rawLogsResidency),
      ("data_boundary.labels_residency", b.labelsResidency),
      ("data_boundary.model_weights_residency", b.modelWeightsResidency)]

def ExternalInference.isAuthorized : ExternalInferencePolicyV1 → Bool
  | .denied => false
  | .contractAuthorized _ => true

def validate (b : DataBoundaryV1) : ContractResult Unit := do
  b.retention.validate
  match b.classification with
  | .clientConfidential => do
    b.requireClient
    ensure (b.executionEnvironment = .clientLocal) (.invalidField
      "data_boundary.execution_environment" "client-confidential input must execute client-locally")
    b.requireClientLocal "client-confidential artifacts must remain client-local"
  | .anonymized => do
    b.requireClient
    match b.executionEnvironment with
    | .clientLocal =>
      b.requireClientLocal "client-local anonymized artifacts must remain client-local"
    | .governedIsolated =>
      ensure (ExternalInference.isAuthorized b.externalInference ∧
          b.exportPolicy = .genericSchemaAggregateAndReceiptOnly)
        (.invalidField "data_boundary.anonymized_external_use"
          ("governed isolated use of anonymized client-derived data requires an explicit " ++
            "inference authorization digest and bounded generic-schema/aggregate/receipt-only " ++
            "export"))
    | .isolatedSynthetic =>
      .error (.invalidField "data_boundary.execution_environment"
        "anonymized client-derived data is not synthetic")
  | .public_ | .synthetic =>
    ensure (¬ (b.tenantId.isSome ∨ b.rightsDigest.isSome)) (.invalidField "data_boundary"
      "non-client input must not imply a tenant or client rights grant")

end DataBoundaryV1

inductive NetworkPolicyV1
  | denyAll
  | allowlisted (hosts : List String) (authorizationDigest : DigestV1)
deriving DecidableEq

def NetworkPolicyV1.validate : NetworkPolicyV1 → ContractResult Unit
  | .denyAll => .ok ()
  | .allowlisted hosts _ => do
    ensure (hosts ≠ []) (.missingField "network_policy.hosts")
    checkAll (fun host => requireNonEmpty host "network_policy.host") hosts

/-! ## 2. The manifest -/

inductive CandidateKindV1
  | profile
  | adapter
deriving DecidableEq, Repr

inductive VerificationCheckIdV1
  | manifestValid
  | declaredBasePinMatch
  | inputDigestMatch
  | oracleDigestMatch
  | candidateArtifactSetWithinAllowlist
  | profileParse
  | profileAgainstSample
  | profileScore
  | adapterConformance
  | architectureFitness
  | runtimeEgressZero
  | generatorVerifierDistinct
deriving DecidableEq, Repr

def commonRequiredChecks : List VerificationCheckIdV1 :=
  [.manifestValid, .declaredBasePinMatch, .inputDigestMatch, .oracleDigestMatch,
    .candidateArtifactSetWithinAllowlist, .generatorVerifierDistinct]

def kindRequiredChecks : CandidateKindV1 → List VerificationCheckIdV1
  | .profile => [.profileParse, .profileAgainstSample, .profileScore]
  | .adapter => [.adapterConformance, .architectureFitness, .runtimeEgressZero]

/-- The fixed checks of a kind of candidate. -/
def fixedChecks (kind : CandidateKindV1) : List VerificationCheckIdV1 :=
  commonRequiredChecks ++ kindRequiredChecks kind

inductive CandidateLoadPolicyV1
  | nextStartAfterHumanSeal
deriving DecidableEq, Repr

inductive ClaimCeilingV1
  | simSelfAttest
deriving DecidableEq, Repr

structure OracleReferenceV1 where
  oracleId : String
  semanticOwnerId : String
  oracleDigest : DigestV1
deriving DecidableEq

def OracleReferenceV1.validate (o : OracleReferenceV1) : ContractResult Unit := do
  lintIdentifier o.oracleId
  requireNonEmpty o.semanticOwnerId "oracle.semantic_owner_id"

structure IntegrationCaseManifestV1 where
  schemaVersion : String
  caseId : String
  caseVersion : String
  candidateKind : CandidateKindV1
  requirementsCommit : String
  implementationCommit : String
  dataBoundary : DataBoundaryV1
  oracle : OracleReferenceV1
  acceptanceOwnerId : String
  inputArtifacts : List ArtifactReferenceV1
  candidateWriteAllowlist : List String
  allowedTools : List String
  generatorActorId : String
  verifierActorId : String
  requiredChecks : List VerificationCheckIdV1
  networkPolicy : NetworkPolicyV1
  loadPolicy : CandidateLoadPolicyV1
  claimCeiling : ClaimCeilingV1
deriving DecidableEq

/-- An ordered set of check ids is compared as a finite set. -/
def IntegrationCaseManifestV1.validate (m : IntegrationCaseManifestV1) : ContractResult Unit := do
  requireSchemaV1 m.schemaVersion
  lintIdentifier m.caseId
  requireNonEmpty m.caseVersion "integration_case.case_version"
  requireCommitPin m.requirementsCommit "integration_case.requirements_commit"
  requireCommitPin m.implementationCommit "integration_case.implementation_commit"
  m.dataBoundary.validate
  m.oracle.validate
  requireNonEmpty m.acceptanceOwnerId "integration_case.acceptance_owner_id"
  ensure (m.inputArtifacts ≠ []) (.missingField "integration_case.input_artifacts")
  checkAll ArtifactReferenceV1.validate m.inputArtifacts
  ensure (m.candidateWriteAllowlist ≠ [])
    (.missingField "integration_case.candidate_write_allowlist")
  checkDistinct (fun path => requireRelativePath path "integration_case.candidate_write_allowlist")
    id (.invalidField "integration_case.candidate_write_allowlist" "duplicate path") []
    m.candidateWriteAllowlist
  ensure (m.allowedTools ≠ []) (.missingField "integration_case.allowed_tools")
  checkDistinct lintIdentifier id
    (.invalidField "integration_case.allowed_tools" "duplicate tool identifier") [] m.allowedTools
  requireNonEmpty m.generatorActorId "integration_case.generator_actor_id"
  requireNonEmpty m.verifierActorId "integration_case.verifier_actor_id"
  ensure (m.generatorActorId ≠ m.verifierActorId) (.invalidField
    "integration_case.verifier_actor_id" "generator and verifier must be distinct")
  ensure (m.requiredChecks.toFinset.card = m.requiredChecks.length) (.invalidField
    "integration_case.required_checks" "duplicate fixed check id")
  ensure (m.requiredChecks.toFinset = (fixedChecks m.candidateKind).toFinset) (.invalidField
    "integration_case.required_checks" "must equal the fixed check set for candidate_kind")
  m.networkPolicy.validate

/-! ## 3. The report -/

inductive CheckStatusV1
  | pass
  | fail
  | hold
deriving DecidableEq, Repr

structure VerificationCheckV1 where
  checkId : VerificationCheckIdV1
  status : CheckStatusV1
  detailCode : String
  evidence : ArtifactReferenceV1
deriving DecidableEq

def VerificationCheckV1.validate (c : VerificationCheckV1) : ContractResult Unit := do
  requireNonEmpty c.detailCode "verification.check.detail_code"
  ensure (c.detailCode.toList.all (Xml.inRanges [(0x41, 0x5A), (0x30, 0x39), (0x5F, 0x5F)]))
    (.invalidField "verification.check.detail_code"
      "must contain only uppercase ASCII, digits, and underscore")
  c.evidence.validate

inductive VerificationDispositionV1
  | fail
  | hold
  | awaitingHumanSeal
deriving DecidableEq, Repr

structure VerificationReportV1 where
  schemaVersion : String
  caseId : String
  candidateKind : CandidateKindV1
  generatorActorId : String
  verifierActorId : String
  inputManifestDigest : DigestV1
  candidateDigest : DigestV1
  checks : List VerificationCheckV1
  abstentionReasons : List String
  disposition : VerificationDispositionV1
  hotReloadApplied : Bool
  runtimeLoadAuthorized : Bool
  claimCeiling : ClaimCeilingV1
deriving DecidableEq

namespace VerificationReportV1

/-- The disposition that the checks and the reasons to abstain call for. -/
def expectedDisposition (r : VerificationReportV1) : VerificationDispositionV1 :=
  if r.checks.any fun check => check.status = .fail then .fail
  else if (r.checks.any fun check => check.status = .hold) || !r.abstentionReasons.isEmpty then
    .hold
  else .awaitingHumanSeal

def validate (r : VerificationReportV1) : ContractResult Unit := do
  requireSchemaV1 r.schemaVersion
  lintIdentifier r.caseId
  requireNonEmpty r.generatorActorId "verification.generator_actor_id"
  requireNonEmpty r.verifierActorId "verification.verifier_actor_id"
  ensure (r.generatorActorId ≠ r.verifierActorId) (.invalidField
    "verification.verifier_actor_id" "generator and verifier must be distinct")
  ensure (r.checks ≠ []) (.missingField "verification.checks")
  checkDistinct VerificationCheckV1.validate VerificationCheckV1.checkId
    (.invalidField "verification.checks" "duplicate fixed check id") [] r.checks
  ensure ((r.checks.map VerificationCheckV1.checkId).toFinset =
      (fixedChecks r.candidateKind).toFinset)
    (.invalidField "verification.checks" "must equal the fixed check set for candidate_kind")
  checkAll (fun reason => requireNonEmpty reason "verification.abstention_reasons")
    r.abstentionReasons
  ensure (r.hotReloadApplied = false) (.invalidField "verification.hot_reload_applied"
    "runtime hot reload is forbidden")
  ensure (r.runtimeLoadAuthorized = false) (.invalidField "verification.runtime_load_authorized"
    "machine verification never authorizes runtime loading")
  ensure (r.disposition = r.expectedDisposition) (.invalidField "verification.disposition"
    "must match check failures, holds, and abstention state")

end VerificationReportV1

/-! ## 4. The seal -/

inductive IdentityBasisV1
  | selfAttested
deriving DecidableEq, Repr

inductive HumanSealDecisionV1
  | approveForNextStart
  | reject
deriving DecidableEq, Repr

structure HumanSealV1 where
  schemaVersion : String
  reportDigest : DigestV1
  candidateDigest : DigestV1
  approverId : String
  identityBasis : IdentityBasisV1
  decision : HumanSealDecisionV1
  sealedAtNs : Int64
  runtimeLoadAuthorized : Bool
deriving DecidableEq

def HumanSealV1.validate (s : HumanSealV1) : ContractResult Unit := do
  requireSchemaV1 s.schemaVersion
  requireNonEmpty s.approverId "human_seal.approver_id"
  ensure (s.runtimeLoadAuthorized = false) (.invalidField "human_seal.runtime_load_authorized"
    "a detached self-attested seal never authorizes runtime loading")

/-! ## 5. JSON -/

def DigestV1.json (d : DigestV1) : Json := .string d.text

def ArtifactRoleV1.name : ArtifactRoleV1 → String
  | .rawInput => "raw_input"
  | .evidence => "evidence"
  | .fixture => "fixture"
  | .candidate => "candidate"
  | .receipt => "receipt"

def ArtifactReferenceV1.json (a : ArtifactReferenceV1) : Json :=
  .object [("digest", a.digest.json), ("media_type", .string a.mediaType),
    ("role", .string a.role.name)]

def DataClassificationV1.name : DataClassificationV1 → String
  | .public_ => "public"
  | .synthetic => "synthetic"
  | .anonymized => "anonymized"
  | .clientConfidential => "client_confidential"

def ArtifactResidencyV1.name : ArtifactResidencyV1 → String
  | .notApplicable => "not_applicable"
  | .clientLocalOnly => "client_local_only"

def ExecutionEnvironmentV1.name : ExecutionEnvironmentV1 → String
  | .isolatedSynthetic => "isolated_synthetic"
  | .governedIsolated => "governed_isolated"
  | .clientLocal => "client_local"

def ExternalInferencePolicyV1.json : ExternalInferencePolicyV1 → Json
  | .denied => .object [("policy", .string "denied")]
  | .contractAuthorized authorizationDigest =>
    .object [("policy", .string "contract_authorized"),
      ("authorization_digest", authorizationDigest.json)]

def ExportPolicyV1.json : ExportPolicyV1 → Json
  | .denied => .object [("policy", .string "denied")]
  | .genericSchemaAggregateAndReceiptOnly =>
    .object [("policy", .string "generic_schema_aggregate_and_receipt_only")]

def RetentionPolicyV1.json (r : RetentionPolicyV1) : Json :=
  .object [("maximum_days", optionJson (fun days : UInt32 => .number days.toNat) r.maximumDays),
    ("deletion_authority_id", .string r.deletionAuthorityId)]

def DataBoundaryV1.json (b : DataBoundaryV1) : Json :=
  .object [("classification", .string b.classification.name),
    ("tenant_id", optionJson .string b.tenantId),
    ("rights_digest", optionJson DigestV1.json b.rightsDigest),
    ("execution_environment", .string b.executionEnvironment.name),
    ("external_inference", b.externalInference.json), ("export_policy", b.exportPolicy.json),
    ("raw_logs_residency", .string b.rawLogsResidency.name),
    ("labels_residency", .string b.labelsResidency.name),
    ("model_weights_residency", .string b.modelWeightsResidency.name),
    ("retention", b.retention.json)]

def NetworkPolicyV1.json : NetworkPolicyV1 → Json
  | .denyAll => .object [("policy", .string "deny_all")]
  | .allowlisted hosts authorizationDigest =>
    .object [("policy", .string "allowlisted"), ("hosts", .array (hosts.map .string)),
      ("authorization_digest", authorizationDigest.json)]

def CandidateKindV1.name : CandidateKindV1 → String
  | .profile => "profile"
  | .adapter => "adapter"

def VerificationCheckIdV1.name : VerificationCheckIdV1 → String
  | .manifestValid => "MANIFEST_VALID"
  | .declaredBasePinMatch => "DECLARED_BASE_PIN_MATCH"
  | .inputDigestMatch => "INPUT_DIGEST_MATCH"
  | .oracleDigestMatch => "ORACLE_DIGEST_MATCH"
  | .candidateArtifactSetWithinAllowlist => "CANDIDATE_ARTIFACT_SET_WITHIN_ALLOWLIST"
  | .profileParse => "PROFILE_PARSE"
  | .profileAgainstSample => "PROFILE_AGAINST_SAMPLE"
  | .profileScore => "PROFILE_SCORE"
  | .adapterConformance => "ADAPTER_CONFORMANCE"
  | .architectureFitness => "ARCHITECTURE_FITNESS"
  | .runtimeEgressZero => "RUNTIME_EGRESS_ZERO"
  | .generatorVerifierDistinct => "GENERATOR_VERIFIER_DISTINCT"

def CandidateLoadPolicyV1.name : CandidateLoadPolicyV1 → String
  | .nextStartAfterHumanSeal => "next_start_after_human_seal"

def ClaimCeilingV1.name : ClaimCeilingV1 → String
  | .simSelfAttest => "SIM_SELF_ATTEST"

def OracleReferenceV1.json (o : OracleReferenceV1) : Json :=
  .object [("oracle_id", .string o.oracleId), ("semantic_owner_id", .string o.semanticOwnerId),
    ("oracle_digest", o.oracleDigest.json)]

def IntegrationCaseManifestV1.json (m : IntegrationCaseManifestV1) : Json :=
  .object [("schema_version", .string m.schemaVersion), ("case_id", .string m.caseId),
    ("case_version", .string m.caseVersion), ("candidate_kind", .string m.candidateKind.name),
    ("requirements_commit", .string m.requirementsCommit),
    ("implementation_commit", .string m.implementationCommit),
    ("data_boundary", m.dataBoundary.json), ("oracle", m.oracle.json),
    ("acceptance_owner_id", .string m.acceptanceOwnerId),
    ("input_artifacts", .array (m.inputArtifacts.map ArtifactReferenceV1.json)),
    ("candidate_write_allowlist", .array (m.candidateWriteAllowlist.map .string)),
    ("allowed_tools", .array (m.allowedTools.map .string)),
    ("generator_actor_id", .string m.generatorActorId),
    ("verifier_actor_id", .string m.verifierActorId),
    ("required_checks", .array (m.requiredChecks.map fun check => .string check.name)),
    ("network_policy", m.networkPolicy.json), ("load_policy", .string m.loadPolicy.name),
    ("claim_ceiling", .string m.claimCeiling.name)]

def CheckStatusV1.name : CheckStatusV1 → String
  | .pass => "pass"
  | .fail => "fail"
  | .hold => "hold"

def VerificationCheckV1.json (c : VerificationCheckV1) : Json :=
  .object [("check_id", .string c.checkId.name), ("status", .string c.status.name),
    ("detail_code", .string c.detailCode), ("evidence", c.evidence.json)]

def VerificationDispositionV1.name : VerificationDispositionV1 → String
  | .fail => "fail"
  | .hold => "hold"
  | .awaitingHumanSeal => "awaiting_human_seal"

def VerificationReportV1.json (r : VerificationReportV1) : Json :=
  .object [("schema_version", .string r.schemaVersion), ("case_id", .string r.caseId),
    ("candidate_kind", .string r.candidateKind.name),
    ("generator_actor_id", .string r.generatorActorId),
    ("verifier_actor_id", .string r.verifierActorId),
    ("input_manifest_digest", r.inputManifestDigest.json),
    ("candidate_digest", r.candidateDigest.json),
    ("checks", .array (r.checks.map VerificationCheckV1.json)),
    ("abstention_reasons", .array (r.abstentionReasons.map .string)),
    ("disposition", .string r.disposition.name),
    ("hot_reload_applied", .bool r.hotReloadApplied),
    ("runtime_load_authorized", .bool r.runtimeLoadAuthorized),
    ("claim_ceiling", .string r.claimCeiling.name)]

/-! ## 6. Binding -/

section Binding

variable (sha256 : List UInt8 → Digest)

def IntegrationCaseManifestV1.manifestDigest (m : IntegrationCaseManifestV1) :
    ContractResult DigestV1 := do
  m.validate
  return canonicalSha256 sha256 m.json

def VerificationReportV1.receiptDigest (r : VerificationReportV1) : ContractResult DigestV1 := do
  r.validate
  return canonicalSha256 sha256 r.json

def VerificationReportV1.validateAgainstManifest (r : VerificationReportV1)
    (manifest : IntegrationCaseManifestV1) : ContractResult Unit := do
  r.validate
  manifest.validate
  let mismatch := ContractError.invalidField "verification.manifest_binding"
    "case, actors, or manifest digest do not match"
  ensure (r.caseId = manifest.caseId ∧ r.candidateKind = manifest.candidateKind ∧
    r.generatorActorId = manifest.generatorActorId ∧
    r.verifierActorId = manifest.verifierActorId) mismatch
  let manifestDigest ← manifest.manifestDigest sha256
  ensure (r.inputManifestDigest = manifestDigest) mismatch
  ensure ((r.checks.map VerificationCheckV1.checkId).toFinset = manifest.requiredChecks.toFinset)
    (.invalidField "verification.checks"
      "report check set must exactly equal the frozen manifest check set")

def HumanSealV1.validateAgainstReport (s : HumanSealV1) (report : VerificationReportV1) :
    ContractResult Unit := do
  s.validate
  report.validate
  let receiptDigest ← report.receiptDigest sha256
  ensure (s.reportDigest = receiptDigest ∧ s.candidateDigest = report.candidateDigest)
    (.invalidField "human_seal.report_binding"
      "seal does not cover the exact report and candidate digests")
  ensure (¬ (s.decision = .approveForNextStart ∧ report.disposition ≠ .awaitingHumanSeal))
    (.invalidField "human_seal.decision"
      "approve_for_next_start requires an all-pass report awaiting human seal")

end Binding

end Musubi.Contracts
