/-
# The chain from a manifest to a seal

What a seal that approves says, once the report it is on has been validated against its manifest:
every fixed check of the kind of candidate has been made once and has passed, nobody abstained,
and the digests bind the three records together.  A seal is on one report: the canonical JSON of a
report decides the report, so a second report under the same seal would be a collision of the
hash.

The chain has three links, and each is a lemma that says exactly when its validation succeeds: of
a report by itself (`VerificationReportV1.Valid`), of a report against a manifest (`Binds`), of a
seal against a report (`Covers`).  `validate` of a report compares its disposition with the one
that its checks lead to; an approving seal is accepted on a report that awaits one, and from these
two everything about the checks follows.

That nothing is loaded while the program runs is in the records as two flags, which validation
wants to be false.  The checks that must be there are those of the kind of candidate, a profile or
an adapter, as a set; that none is there twice is a check of its own, and both together give a
list without repetitions that holds exactly the fixed checks.
-/
import Musubi.Contracts.IntegrationCase
import Mathlib.Data.Set.Function

namespace Musubi.Contracts

open Lib Musubi.Core Northbound.WirePolicy

/-! ## 1. What validation says -/

/-- A report as `validate` lets it through.  The fields stand in the order of the checks, and the
last says that the disposition is the one that the checks and the reasons to abstain lead to. -/
structure VerificationReportV1.Valid (r : VerificationReportV1) : Prop where
  schema : requireSchemaV1 r.schemaVersion = .ok ()
  caseId : lintIdentifier r.caseId = .ok ()
  generator : requireNonEmpty r.generatorActorId "verification.generator_actor_id" = .ok ()
  verifier : requireNonEmpty r.verifierActorId "verification.verifier_actor_id" = .ok ()
  distinct : r.generatorActorId ≠ r.verifierActorId
  some_check : r.checks ≠ []
  each : ∀ check ∈ r.checks, check.validate = .ok ()
  once : (r.checks.map VerificationCheckV1.checkId).Nodup
  fixed : (r.checks.map VerificationCheckV1.checkId).toFinset =
    (fixedChecks r.candidateKind).toFinset
  reasons : ∀ reason ∈ r.abstentionReasons,
    requireNonEmpty reason "verification.abstention_reasons" = .ok ()
  no_hot_reload : r.hotReloadApplied = false
  no_runtime_load : r.runtimeLoadAuthorized = false
  disposition : r.disposition = r.expectedDisposition

/-- **`validate` lets exactly the valid reports through.** -/
theorem VerificationReportV1.validate_eq_ok {r : VerificationReportV1} :
    r.validate = .ok () ↔ r.Valid := by
  unfold validate
  simp only [seq_eq_ok, ensure_eq_ok, checkAll_eq_ok, checkDistinct_eq_ok, List.not_mem_nil,
    not_false_eq_true, implies_true, and_true]
  constructor
  · rintro ⟨h1, h2, h3, h4, h5, h6, ⟨h7, h8⟩, h9, h10, h11, h12, h13⟩
    exact ⟨h1, h2, h3, h4, h5, h6, h7, h8, h9, h10, h11, h12, h13⟩
  · rintro ⟨h1, h2, h3, h4, h5, h6, h7, h8, h9, h10, h11, h12, h13⟩
    exact ⟨h1, h2, h3, h4, h5, h6, ⟨h7, h8⟩, h9, h10, h11, h12, h13⟩

/-- What a validated manifest says of its checks: none comes twice, and together they are exactly
the fixed ones of its kind. -/
theorem IntegrationCaseManifestV1.requiredChecks_of_validate {m : IntegrationCaseManifestV1}
    (h : m.validate = .ok ()) : m.requiredChecks.Nodup ∧
      m.requiredChecks.toFinset = (fixedChecks m.candidateKind).toFinset := by
  unfold validate at h
  simp only [seq_eq_ok, ensure_eq_ok] at h
  obtain ⟨-, -, -, -, -, -, -, -, -, -, -, -, -, -, -, -, -, hcard, hfixed, -⟩ := h
  rw [List.card_toFinset] at hcard
  have hdedup := (List.dedup_sublist m.requiredChecks).eq_of_length hcard
  exact ⟨hdedup ▸ List.nodup_dedup _, hfixed⟩

/-- What a validated manifest says of its case and its actors: both are named, and the one who
verifies is not the one who generated. -/
theorem IntegrationCaseManifestV1.identity_of_validate {m : IntegrationCaseManifestV1}
    (h : m.validate = .ok ()) : lintIdentifier m.caseId = .ok () ∧
      trim m.generatorActorId.toList ≠ [] ∧ trim m.verifierActorId.toList ≠ [] ∧
      m.generatorActorId ≠ m.verifierActorId := by
  unfold validate requireNonEmpty at h
  simp only [seq_eq_ok, ensure_eq_ok] at h
  obtain ⟨-, hcase, -, -, -, -, -, -, -, -, -, -, -, -, hgenerator, hverifier, hdistinct, -⟩ := h
  exact ⟨hcase, hgenerator, hverifier, hdistinct⟩

/-- A list without repetitions of the fixed checks lists each of them once. -/
theorem perm_fixedChecks {checks : List VerificationCheckIdV1} {kind : CandidateKindV1}
    (hnodup : checks.Nodup) (h : checks.toFinset = (fixedChecks kind).toFinset) :
    checks.Perm (fixedChecks kind) := by
  have hfixed : (fixedChecks kind).Nodup := by
    cases kind
    all_goals decide
  refine (List.perm_ext_iff_of_nodup hnodup hfixed).mpr ?_
  intro check
  rw [← List.mem_toFinset, h, List.mem_toFinset]

/-- A report that awaits a seal has passed every check and abstains from none. -/
theorem VerificationReportV1.Valid.all_pass {r : VerificationReportV1} (h : r.Valid)
    (hawaiting : r.disposition = .awaitingHumanSeal) :
    (∀ check ∈ r.checks, check.status = .pass) ∧ r.abstentionReasons = [] := by
  have hexpected := h.disposition
  rw [hawaiting, expectedDisposition] at hexpected
  split at hexpected
  · cases hexpected
  · rename_i hfail
    split at hexpected
    · cases hexpected
    · rename_i hhold
      rw [Bool.or_eq_true, not_or] at hhold
      constructor
      · intro check hcheck
        cases hstatus : check.status with
        | pass => rfl
        | fail => exact absurd (List.any_eq_true.mpr ⟨check, hcheck, decide_eq_true hstatus⟩) hfail
        | hold =>
          exact absurd (List.any_eq_true.mpr ⟨check, hcheck, decide_eq_true hstatus⟩) hhold.1
      · simpa using hhold.2

section Binding

variable {sha256 : List UInt8 → Digest}

/-- The digest of a validated manifest is that of its canonical JSON. -/
theorem IntegrationCaseManifestV1.manifestDigest_of_validate {m : IntegrationCaseManifestV1}
    (h : m.validate = .ok ()) : m.manifestDigest sha256 = .ok (canonicalSha256 sha256 m.json) := by
  unfold manifestDigest
  rw [h]
  rfl

/-- The digest of a valid report is that of its canonical JSON. -/
theorem VerificationReportV1.Valid.receiptDigest {r : VerificationReportV1} (h : r.Valid) :
    r.receiptDigest sha256 = .ok (canonicalSha256 sha256 r.json) := by
  unfold VerificationReportV1.receiptDigest
  rw [validate_eq_ok.mpr h]
  rfl

/-- What the report and the manifest have in common: the case, the kind of candidate, who
generated it and who verified it, the digest of the manifest's canonical JSON, and the set of the
checks that are asked for. -/
structure VerificationReportV1.Binds (sha256 : List UInt8 → Digest) (r : VerificationReportV1)
    (m : IntegrationCaseManifestV1) : Prop where
  caseId : r.caseId = m.caseId
  candidateKind : r.candidateKind = m.candidateKind
  generator : r.generatorActorId = m.generatorActorId
  verifier : r.verifierActorId = m.verifierActorId
  digest : r.inputManifestDigest = canonicalSha256 sha256 m.json
  checks : (r.checks.map VerificationCheckV1.checkId).toFinset = m.requiredChecks.toFinset

/-- **A report validates against a manifest** when both are valid and it binds the manifest. -/
theorem VerificationReportV1.validateAgainstManifest_eq_ok {r : VerificationReportV1}
    {m : IntegrationCaseManifestV1} : r.validateAgainstManifest sha256 m = .ok () ↔
      r.Valid ∧ m.validate = .ok () ∧ r.Binds sha256 m := by
  unfold validateAgainstManifest
  rw [seq_eq_ok, seq_eq_ok, seq_eq_ok, ensure_eq_ok, validate_eq_ok]
  constructor
  · rintro ⟨hreport, hmanifest, ⟨hcase, hkind, hgenerator, hverifier⟩, h⟩
    rw [IntegrationCaseManifestV1.manifestDigest_of_validate hmanifest] at h
    obtain ⟨hdigest, hchecks⟩ := seq_eq_ok.mp h
    exact ⟨hreport, hmanifest, hcase, hkind, hgenerator, hverifier, ensure_eq_ok.mp hdigest,
      ensure_eq_ok.mp hchecks⟩
  · rintro ⟨hreport, hmanifest, hbinds⟩
    refine ⟨hreport, hmanifest,
      ⟨hbinds.caseId, hbinds.candidateKind, hbinds.generator, hbinds.verifier⟩, ?_⟩
    rw [IntegrationCaseManifestV1.manifestDigest_of_validate hmanifest]
    exact seq_eq_ok.mpr ⟨ensure_eq_ok.mpr hbinds.digest, ensure_eq_ok.mpr hbinds.checks⟩

/-- What a seal says of a report: its digest, the candidate, and, if it approves, that the report
has been waiting for a person. -/
structure HumanSealV1.Covers (sha256 : List UInt8 → Digest) (s : HumanSealV1)
    (r : VerificationReportV1) : Prop where
  report : s.reportDigest = canonicalSha256 sha256 r.json
  candidate : s.candidateDigest = r.candidateDigest
  decision : s.decision = .approveForNextStart → r.disposition = .awaitingHumanSeal

/-- **A seal validates against a report** when both are valid and it covers the report. -/
theorem HumanSealV1.validateAgainstReport_eq_ok {s : HumanSealV1} {r : VerificationReportV1} :
    s.validateAgainstReport sha256 r = .ok () ↔
      s.validate = .ok () ∧ r.Valid ∧ s.Covers sha256 r := by
  unfold validateAgainstReport
  rw [seq_eq_ok, seq_eq_ok, VerificationReportV1.validate_eq_ok]
  constructor
  · rintro ⟨hseal, hreport, h⟩
    rw [hreport.receiptDigest] at h
    obtain ⟨hdigests, hdecision⟩ := seq_eq_ok.mp h
    obtain ⟨hdigest, hcandidate⟩ := ensure_eq_ok.mp hdigests
    refine ⟨hseal, hreport, hdigest, hcandidate, ?_⟩
    intro happrove
    by_contra hdisposition
    exact ensure_eq_ok.mp hdecision ⟨happrove, hdisposition⟩
  · rintro ⟨hseal, hreport, hcovers⟩
    refine ⟨hseal, hreport, ?_⟩
    rw [hreport.receiptDigest]
    refine seq_eq_ok.mpr ⟨ensure_eq_ok.mpr ⟨hcovers.report, hcovers.candidate⟩, ?_⟩
    refine ensure_eq_ok.mpr ?_
    rintro ⟨happrove, hdisposition⟩
    exact hdisposition (hcovers.decision happrove)

end Binding

/-! ## 2. The JSON of a report decides the report -/

theorem DigestV1.text_injective : Function.Injective DigestV1.text := by
  rintro ⟨text, _⟩ ⟨_, _⟩ rfl
  rfl

theorem DigestV1.json_injective : CanonicallyInjective DigestV1.json :=
  canonicallyInjective_string DigestV1.text_injective

/-- A function that is different on each item of a list of all values is injective. -/
theorem injective_of_nodup_map {α β : Type} {f : α → β} (all : List α) (hall : ∀ x, x ∈ all)
    (h : (all.map f).Nodup) : Function.Injective f := by
  intro x y heq
  exact List.inj_on_of_nodup_map h (hall x) (hall y) heq

theorem ArtifactRoleV1.name_injective : Function.Injective ArtifactRoleV1.name := by
  refine injective_of_nodup_map [.rawInput, .evidence, .fixture, .candidate, .receipt] ?_
    (by decide)
  intro x
  cases x
  all_goals decide

theorem CandidateKindV1.name_injective : Function.Injective CandidateKindV1.name := by
  refine injective_of_nodup_map [.profile, .adapter] ?_ (by decide)
  intro x
  cases x
  all_goals decide

theorem CheckStatusV1.name_injective : Function.Injective CheckStatusV1.name := by
  refine injective_of_nodup_map [.pass, .fail, .hold] ?_ (by decide)
  intro x
  cases x
  all_goals decide

theorem VerificationDispositionV1.name_injective :
    Function.Injective VerificationDispositionV1.name := by
  refine injective_of_nodup_map [.fail, .hold, .awaitingHumanSeal] ?_ (by decide)
  intro x
  cases x
  all_goals decide

theorem VerificationCheckIdV1.name_injective : Function.Injective VerificationCheckIdV1.name := by
  refine injective_of_nodup_map (fixedChecks .profile ++ kindRequiredChecks .adapter) ?_
    (by decide)
  intro x
  cases x
  all_goals decide

theorem ArtifactReferenceV1.json_injective : CanonicallyInjective ArtifactReferenceV1.json := by
  rintro ⟨digest, mediaType, role⟩ ⟨digest', mediaType', role'⟩ h
  unfold ArtifactReferenceV1.json at h
  have hfields := canonicalize_object_inj h ["digest", "media_type", "role"]
    (by decide) rfl rfl
  simp only [List.map_cons, List.map_nil, List.cons.injEq, and_true] at hfields
  obtain ⟨hdigest, hmediaType, hrole⟩ := hfields
  cases DigestV1.json_injective _ _ hdigest
  cases canonicallyInjective_string Function.injective_id _ _ hmediaType
  cases canonicallyInjective_string ArtifactRoleV1.name_injective _ _ hrole
  rfl

theorem VerificationCheckV1.json_injective : CanonicallyInjective VerificationCheckV1.json := by
  rintro ⟨checkId, status, detailCode, evidence⟩ ⟨checkId', status', detailCode', evidence'⟩ h
  unfold VerificationCheckV1.json at h
  have hfields := canonicalize_object_inj h
    ["check_id", "status", "detail_code", "evidence"]
    (by decide) rfl rfl
  simp only [List.map_cons, List.map_nil, List.cons.injEq, and_true] at hfields
  obtain ⟨hcheckId, hstatus, hdetailCode, hevidence⟩ := hfields
  cases canonicallyInjective_string VerificationCheckIdV1.name_injective _ _ hcheckId
  cases canonicallyInjective_string CheckStatusV1.name_injective _ _ hstatus
  cases canonicallyInjective_string Function.injective_id _ _ hdetailCode
  cases ArtifactReferenceV1.json_injective _ _ hevidence
  rfl

/-- **The canonical JSON of a report decides the report.** -/
theorem VerificationReportV1.json_injective :
    CanonicallyInjective VerificationReportV1.json := by
  intro r r' h
  unfold VerificationReportV1.json at h
  have hfields := canonicalize_object_inj h
    ["schema_version", "case_id", "candidate_kind", "generator_actor_id", "verifier_actor_id",
      "input_manifest_digest", "candidate_digest", "checks", "abstention_reasons", "disposition",
      "hot_reload_applied", "runtime_load_authorized", "claim_ceiling"]
    (by decide) rfl rfl
  simp only [List.map_cons, List.map_nil, List.cons.injEq, and_true] at hfields
  obtain ⟨hschema, hcase, hkind, hgenerator, hverifier, hmanifest, hcandidate, hchecks, hreasons,
    hdisposition, hreload, hload⟩ := hfields
  have hstring := canonicallyInjective_string Function.injective_id
  -- there is one ceiling of claims
  have hceiling : r.claimCeiling = r'.claimCeiling := by
    cases r.claimCeiling
    cases r'.claimCeiling
    rfl
  cases r
  cases r'
  cases hstring _ _ hschema
  cases hstring _ _ hcase
  cases canonicallyInjective_string CandidateKindV1.name_injective _ _ hkind
  cases hstring _ _ hgenerator
  cases hstring _ _ hverifier
  cases DigestV1.json_injective _ _ hmanifest
  cases DigestV1.json_injective _ _ hcandidate
  cases canonicallyInjective_array VerificationCheckV1.json_injective _ _ hchecks
  cases canonicallyInjective_array hstring _ _ hreasons
  cases canonicallyInjective_string VerificationDispositionV1.name_injective _ _ hdisposition
  cases canonicallyInjective_bool _ _ hreload
  cases canonicallyInjective_bool _ _ hload
  cases hceiling
  rfl

/-! ## 3. The chain -/

/-- What stands behind a seal that approves: the checks of the manifest's kind of candidate,
all passed, by actors that differ, bound by digests, and nothing loaded. -/
structure Approved (sha256 : List UInt8 → Digest) (m : IntegrationCaseManifestV1)
    (r : VerificationReportV1) (s : HumanSealV1) : Prop where
  checks : (r.checks.map VerificationCheckV1.checkId).Perm (fixedChecks m.candidateKind)
  once : (r.checks.map VerificationCheckV1.checkId).Nodup
  pass : ∀ check ∈ r.checks, check.status = .pass
  no_abstention : r.abstentionReasons = []
  distinct : r.generatorActorId ≠ r.verifierActorId
  generator : r.generatorActorId = m.generatorActorId
  verifier : r.verifierActorId = m.verifierActorId
  manifest : m.manifestDigest sha256 = .ok r.inputManifestDigest
  report : r.receiptDigest sha256 = .ok s.reportDigest
  candidate : s.candidateDigest = r.candidateDigest
  no_runtime_load : r.runtimeLoadAuthorized = false ∧ s.runtimeLoadAuthorized = false
  no_hot_reload : r.hotReloadApplied = false

/-- **A seal is on one report**, as far as the hash has no collision. -/
theorem HumanSealV1.report_unique {sha256 : List UInt8 → Digest} {s : HumanSealV1}
    {r r' : VerificationReportV1} {S : Set (List UInt8)} (hS : Set.InjOn sha256 S)
    (hr : canonicalJsonBytes r.json ∈ S) (hr' : canonicalJsonBytes r'.json ∈ S)
    (h : s.validateAgainstReport sha256 r = .ok ())
    (h' : s.validateAgainstReport sha256 r' = .ok ()) : r' = r := by
  obtain ⟨-, -, hcovers⟩ := validateAgainstReport_eq_ok.mp h
  obtain ⟨-, -, hcovers'⟩ := validateAgainstReport_eq_ok.mp h'
  have hdigest : canonicalSha256 sha256 r'.json = canonicalSha256 sha256 r.json :=
    hcovers'.report.symm.trans hcovers.report
  have hbytes := hS hr' hr (DigestV1.ofBytes_injective hdigest)
  exact VerificationReportV1.json_injective _ _ (canonicalJsonBytes_inj hbytes)

/-- **An approving seal stands on a passed report**, and on no other.  The hypotheses are the two
validations that the program makes before it accepts a seal.  The second half is about any other
report `r'`: on a set of messages where the hash does not collide, and that holds the canonical
JSON of both reports, the seal validates against `r` alone. -/
theorem approved_of_seal (sha256 : List UInt8 → Digest) (m : IntegrationCaseManifestV1)
    (r : VerificationReportV1) (s : HumanSealV1)
    (hr : r.validateAgainstManifest sha256 m = .ok ())
    (hs : s.validateAgainstReport sha256 r = .ok ())
    (happrove : s.decision = .approveForNextStart) :
    Approved sha256 m r s ∧
      ∀ S : Set (List UInt8), Set.InjOn sha256 S → canonicalJsonBytes r.json ∈ S →
        ∀ r' : VerificationReportV1, canonicalJsonBytes r'.json ∈ S →
          s.validateAgainstReport sha256 r' = .ok () → r' = r := by
  obtain ⟨hvalid, hmanifest, hbinds⟩ :=
    VerificationReportV1.validateAgainstManifest_eq_ok.mp hr
  obtain ⟨hseal, -, hcovers⟩ := HumanSealV1.validateAgainstReport_eq_ok.mp hs
  obtain ⟨hpass, habstain⟩ := hvalid.all_pass (hcovers.decision happrove)
  have hload : s.runtimeLoadAuthorized = false := by
    unfold HumanSealV1.validate at hseal
    simp only [seq_eq_ok, ensure_eq_ok] at hseal
    exact hseal.2.2
  constructor
  · constructor
    · rw [← hbinds.candidateKind]
      exact perm_fixedChecks hvalid.once hvalid.fixed
    · exact hvalid.once
    · exact hpass
    · exact habstain
    · exact hvalid.distinct
    · exact hbinds.generator
    · exact hbinds.verifier
    · rw [hbinds.digest]
      exact IntegrationCaseManifestV1.manifestDigest_of_validate hmanifest
    · rw [hcovers.report]
      exact hvalid.receiptDigest
    · exact hcovers.candidate
    · exact ⟨hvalid.no_runtime_load, hload⟩
    · exact hvalid.no_hot_reload
  · intro S hS hmem r' hmem' hs'
    exact HumanSealV1.report_unique hS hmem hmem' hs hs'

namespace Sample

/-- Synthetic data, which leaves no client behind. -/
def dataBoundary : DataBoundaryV1 where
  classification := .synthetic
  tenantId := none
  rightsDigest := none
  executionEnvironment := .isolatedSynthetic
  externalInference := .denied
  exportPolicy := .denied
  rawLogsResidency := .notApplicable
  labelsResidency := .notApplicable
  modelWeightsResidency := .notApplicable
  retention := ⟨some 30, "fixture_owner"⟩

def artifact (bytes : List UInt8) : ArtifactReferenceV1 :=
  ⟨.sha256 Sha256.hash bytes, "text/csv", .fixture⟩

/-- A case for a profile, over a sample and an oracle. -/
def manifest (sample oracle : List UInt8) : IntegrationCaseManifestV1 where
  schemaVersion := "1"
  caseId := "profile_synth_v1"
  caseVersion := "1.0.0"
  candidateKind := .profile
  requirementsCommit := "1111111"
  implementationCommit := "2222222"
  dataBoundary := dataBoundary
  oracle := ⟨"profile_oracle", "semantic_owner", .sha256 Sha256.hash oracle⟩
  acceptanceOwnerId := "acceptance_owner"
  inputArtifacts := [artifact sample]
  candidateWriteAllowlist := ["profile.toml"]
  allowedTools := ["profile_verify"]
  generatorActorId := "generator"
  verifierActorId := "independent_verifier"
  requiredChecks := fixedChecks .profile
  networkPolicy := .denyAll
  loadPolicy := .nextStartAfterHumanSeal
  claimCeiling := .simSelfAttest

def report : VerificationReportV1 where
  schemaVersion := "1"
  caseId := "profile_synth_v1"
  candidateKind := .profile
  generatorActorId := "generator"
  verifierActorId := "independent_verifier"
  inputManifestDigest := canonicalSha256 Sha256.hash (manifest [] []).json
  candidateDigest := .sha256 Sha256.hash []
  checks := (fixedChecks .profile).map fun checkId => ⟨checkId, .pass, "PASSED", artifact []⟩
  abstentionReasons := []
  disposition := .awaitingHumanSeal
  hotReloadApplied := false
  runtimeLoadAuthorized := false
  claimCeiling := .simSelfAttest

def humanSeal : HumanSealV1 where
  schemaVersion := "1"
  reportDigest := canonicalSha256 Sha256.hash report.json
  candidateDigest := report.candidateDigest
  approverId := "approver"
  identityBasis := .selfAttested
  decision := .approveForNextStart
  sealedAtNs := 1
  runtimeLoadAuthorized := false

/-- The seal approves the report, and stands on it alone. -/
theorem humanSeal_approved : Approved Sha256.hash (manifest [] []) report humanSeal ∧
    ∀ S : Set (List UInt8), Set.InjOn Sha256.hash S → canonicalJsonBytes report.json ∈ S →
      ∀ r' : VerificationReportV1, canonicalJsonBytes r'.json ∈ S →
        humanSeal.validateAgainstReport Sha256.hash r' = .ok () → r' = report := by
  have hvalid : report.Valid := VerificationReportV1.validate_eq_ok.mp (by decide)
  have hmanifest : (manifest [] []).validate = .ok () := by decide
  refine approved_of_seal Sha256.hash (manifest [] []) report humanSeal ?_ ?_ rfl
  · refine VerificationReportV1.validateAgainstManifest_eq_ok.mpr ⟨hvalid, hmanifest, ?_⟩
    exact ⟨rfl, rfl, rfl, rfl, rfl, rfl⟩
  · refine HumanSealV1.validateAgainstReport_eq_ok.mpr ⟨by decide, hvalid, ?_⟩
    exact ⟨rfl, rfl, fun _ => rfl⟩

end Sample

end Musubi.Contracts
