/-
# The report on an adapter

`adapter_hold_report` of `integration-case/src/report.rs`: an adapter is not run, so the report on
it says for most checks that they are held, and the report is validated before it is returned.
The disposition is written down as held; what validation expects of it comes from the checks, and
one of them fails when the declared commits are not those of the manifest.

So where the commits differ the function builds a report with a failed check and the disposition
of a held one, its own validation refuses it, and the caller gets an error.  The documentation of
the function promises an error for an invalid manifest and for another kind of case, and for
nothing else; a report that says what was found would carry the disposition of a failure.
`PinsMatch` is the condition, and `adapter_report_truthful_iff` says that it is exact.

What is in the report otherwise is as promised: of the checks that would need the adapter to run
none passes (`mem_performed_of_pass`), and those that are made without running it are made once
each.
-/
import Musubi.IntegrationCase.Verdict

namespace Musubi.IntegrationCase

open Lib Musubi.Core Contracts Northbound.WirePolicy

/-! ## 1. The report -/

/-- What the checks are made of.  An adapter candidate is never loaded, so there are no more than
three digests and the comparison of the commits. -/
structure AdapterFindings where
  manifestDigest : DigestV1
  oracleDigest : DigestV1
  candidateDigest : DigestV1
  baseMatch : Bool

def AdapterFindings.checkOf (f : AdapterFindings) (checkId : VerificationCheckIdV1) :
    VerificationCheckV1 :=
  match checkId with
  | .manifestValid => check checkId .pass "MANIFEST_VALIDATED" f.manifestDigest
  | .declaredBasePinMatch =>
    booleanCheck checkId f.baseMatch "DECLARED_BASE_PINS_MATCH" "DECLARED_BASE_PINS_MISMATCH"
      f.manifestDigest
  | .generatorVerifierDistinct => check checkId .pass "ACTORS_DISTINCT" f.manifestDigest
  | .inputDigestMatch => check checkId .hold "HOLD_FROZEN_INPUT_RUNNER" f.manifestDigest
  | .oracleDigestMatch => check checkId .hold "HOLD_FROZEN_ORACLE_RUNNER" f.oracleDigest
  | .candidateArtifactSetWithinAllowlist =>
    check checkId .hold "HOLD_EXTERNAL_ARTIFACT_SET_AUDIT" f.candidateDigest
  | .adapterConformance => check checkId .hold "HOLD_EXTERNAL_FROZEN_RUNNER" f.candidateDigest
  | .architectureFitness => check checkId .hold "HOLD_EXTERNAL_FITNESS_RUNNER" f.candidateDigest
  | .runtimeEgressZero => check checkId .hold "HOLD_LINUX_EGRESS_COUNTER" f.candidateDigest
  | .profileParse | .profileAgainstSample | .profileScore =>
    check checkId .fail "WRONG_CHECK_FOR_ADAPTER_CASE" f.manifestDigest

def adapterReportOf (manifest : IntegrationCaseManifestV1) (f : AdapterFindings) :
    VerificationReportV1 where
  schemaVersion := schemaVersionV1
  caseId := manifest.caseId
  candidateKind := .adapter
  generatorActorId := manifest.generatorActorId
  verifierActorId := manifest.verifierActorId
  inputManifestDigest := f.manifestDigest
  candidateDigest := f.candidateDigest
  checks := manifest.requiredChecks.map f.checkOf
  abstentionReasons := ["HOLD_ADAPTER_EXECUTION_REQUIRES_FROZEN_EXTERNAL_RUNNER"]
  disposition := .hold
  hotReloadApplied := false
  runtimeLoadAuthorized := false
  claimCeiling := .simSelfAttest

variable (sha256 : List UInt8 → Digest)

def adapterFindings (manifest : IntegrationCaseManifestV1) (manifestDigest : DigestV1)
    (requirementsCommit implementationCommit : String) (candidateBytes : List UInt8) :
    AdapterFindings where
  manifestDigest
  oracleDigest := manifest.oracle.oracleDigest
  candidateDigest := .sha256 sha256 candidateBytes
  baseMatch := manifest.requirementsCommit = requirementsCommit &&
    manifest.implementationCommit = implementationCommit

def adapterHoldReport (manifest : IntegrationCaseManifestV1)
    (requirementsCommit implementationCommit : String) (candidateBytes : List UInt8) :
    ContractResult VerificationReportV1 := do
  manifest.validate
  ensure (manifest.candidateKind = .adapter) (.invalidField "integration_case.candidate_kind"
    "adapter report requires candidate_kind=adapter")
  let manifestDigest ← manifest.manifestDigest sha256
  let report := adapterReportOf manifest (adapterFindings sha256 manifest manifestDigest
    requirementsCommit implementationCommit candidateBytes)
  report.validateAgainstManifest sha256 manifest
  return report

/-! ## 2. The checks -/

namespace AdapterFindings

variable (f : AdapterFindings) (checkId : VerificationCheckIdV1)

/-- The checks that are made without running the adapter. -/
def performed : List VerificationCheckIdV1 :=
  [.manifestValid, .declaredBasePinMatch, .generatorVerifierDistinct]

theorem checkOf_checkId : (f.checkOf checkId).checkId = checkId := by
  cases checkId
  all_goals rfl

theorem checkOf_validate : (f.checkOf checkId).validate = .ok () := by
  cases checkId with
  | declaredBasePinMatch =>
    unfold checkOf booleanCheck
    cases f.baseMatch with
    | true => exact check_validate (by decide)
    | false => exact check_validate (by decide)
  | _ => exact check_validate (by decide)

/-- **Nothing passes that was not checked.** -/
theorem mem_performed_of_pass (h : (f.checkOf checkId).status = .pass) : checkId ∈ performed := by
  cases checkId with
  | manifestValid => decide
  | declaredBasePinMatch => decide
  | generatorVerifierDistinct => decide
  | _ => cases h

/-- Of the checks of an adapter the one of the commits may fail. -/
theorem any_fail_iff : ((fixedChecks .adapter).map f.checkOf).any (fun c => c.status = .fail) =
    !f.baseMatch := by
  cases hbase : f.baseMatch
  all_goals
    simp [fixedChecks, commonRequiredChecks, kindRequiredChecks, checkOf, booleanCheck_status,
      check, hbase]

end AdapterFindings

/-! ## 3. Validation -/

section Report

variable {sha256} {manifest : IntegrationCaseManifestV1} {f : AdapterFindings}

/-- The disposition that validation expects: the reason to abstain holds what does not fail. -/
theorem expectedDisposition_adapterReportOf (hmanifest : manifest.validate = .ok ())
    (hkind : manifest.candidateKind = .adapter) :
    (adapterReportOf manifest f).expectedDisposition = if f.baseMatch then .hold else .fail := by
  obtain ⟨hnodup, hfixed⟩ := IntegrationCaseManifestV1.requiredChecks_of_validate hmanifest
  rw [hkind] at hfixed
  have hany : (manifest.requiredChecks.map f.checkOf).any (fun c => c.status = .fail) =
      !f.baseMatch := by
    rw [← f.any_fail_iff]
    exact ((perm_fixedChecks hnodup hfixed).map f.checkOf).any_eq
  unfold VerificationReportV1.expectedDisposition adapterReportOf
  dsimp only
  rw [hany]
  cases f.baseMatch with
  | true => rw [if_neg (by decide), if_pos (by simp), if_pos rfl]
  | false => rfl

/-- **The report is valid exactly if the commits match.** -/
theorem adapterReportOf_validates_iff (hmanifest : manifest.validate = .ok ())
    (hkind : manifest.candidateKind = .adapter)
    (hdigest : f.manifestDigest = canonicalSha256 sha256 manifest.json) :
    (adapterReportOf manifest f).validateAgainstManifest sha256 manifest = .ok () ↔
      f.baseMatch = true := by
  have hexpected := expectedDisposition_adapterReportOf (f := f) hmanifest hkind
  constructor
  · intro h
    have hdisposition := (VerificationReportV1.validateAgainstManifest_eq_ok.mp h).1.disposition
    rw [hexpected] at hdisposition
    by_contra hbase
    rw [if_neg hbase] at hdisposition
    cases hdisposition
  · intro hbase
    obtain ⟨hnodup, hfixed⟩ := IntegrationCaseManifestV1.requiredChecks_of_validate hmanifest
    obtain ⟨hcase, hgenerator, hverifier, hdistinct⟩ :=
      IntegrationCaseManifestV1.identity_of_validate hmanifest
    have hids : (manifest.requiredChecks.map f.checkOf).map VerificationCheckV1.checkId =
        manifest.requiredChecks := by
      rw [List.map_map]
      exact List.map_id'' f.checkOf_checkId _
    refine VerificationReportV1.validateAgainstManifest_eq_ok.mpr ⟨?_, hmanifest, ?_⟩
    · constructor
      · exact ensure_eq_ok.mpr rfl
      · exact hcase
      · exact ensure_eq_ok.mpr hgenerator
      · exact ensure_eq_ok.mpr hverifier
      · exact hdistinct
      · intro hnil
        rw [List.map_eq_nil_iff.mp hnil, hkind] at hfixed
        exact absurd hfixed (by decide)
      · exact List.forall_mem_map.mpr fun checkId _ => f.checkOf_validate checkId
      · rw [adapterReportOf, hids]
        exact hnodup
      · rw [adapterReportOf, hids, hfixed, hkind]
      · intro reason hreason
        rw [List.mem_singleton.mp hreason]
        exact ensure_eq_ok.mpr (by decide)
      · rfl
      · rfl
      · rw [hexpected, if_pos hbase]
        rfl
    · constructor
      · rfl
      · exact hkind.symm
      · rfl
      · rfl
      · exact hdigest
      · rw [adapterReportOf, hids]

end Report

/-! ## 4. What is reported -/

/-- The declared commits are those of the manifest: the one of the requirements and the one of the
implementation. -/
def PinsMatch (manifest : IntegrationCaseManifestV1)
    (requirementsCommit implementationCommit : String) : Prop :=
  manifest.requirementsCommit = requirementsCommit ∧
    manifest.implementationCommit = implementationCommit

instance (manifest : IntegrationCaseManifestV1) (requirementsCommit implementationCommit : String) :
    Decidable (PinsMatch manifest requirementsCommit implementationCommit) :=
  inferInstanceAs (Decidable (_ ∧ _))

/-- A report that says what was found out: it validates, its check of the commits passes exactly
if they match, it fails when they do not and is held when they do. -/
structure TruthfulReport (manifest : IntegrationCaseManifestV1)
    (requirementsCommit implementationCommit : String) (report : VerificationReportV1) : Prop where
  valid : report.validateAgainstManifest sha256 manifest = .ok ()
  pins : ∃ item ∈ report.checks, item.checkId = .declaredBasePinMatch ∧
    (item.status = .pass ↔ PinsMatch manifest requirementsCommit implementationCommit)
  disposition : report.disposition =
    if PinsMatch manifest requirementsCommit implementationCommit then .hold else .fail
  passed : ∀ item ∈ report.checks, item.status = .pass → item.checkId ∈ AdapterFindings.performed

variable {sha256} {manifest : IntegrationCaseManifestV1}
  {requirementsCommit implementationCommit : String} {candidateBytes : List UInt8}

/-- What is left of the function for an adapter case with a valid manifest: it returns the report
that it has built where the pins match, and nothing otherwise, since the report is not valid then.
-/
theorem adapterHoldReport_eq_ok {report : VerificationReportV1}
    (hmanifest : manifest.validate = .ok ()) (hkind : manifest.candidateKind = .adapter) :
    adapterHoldReport sha256 manifest requirementsCommit implementationCommit candidateBytes =
        .ok report ↔
      PinsMatch manifest requirementsCommit implementationCommit ∧
        report = adapterReportOf manifest (adapterFindings sha256 manifest
          (canonicalSha256 sha256 manifest.json) requirementsCommit implementationCommit
          candidateBytes) := by
  have hiff := @adapterReportOf_validates_iff sha256 manifest (adapterFindings sha256 manifest
    (canonicalSha256 sha256 manifest.json) requirementsCommit implementationCommit candidateBytes)
    hmanifest hkind rfl
  have hbase : (adapterFindings sha256 manifest (canonicalSha256 sha256 manifest.json)
      requirementsCommit implementationCommit candidateBytes).baseMatch = true ↔
      PinsMatch manifest requirementsCommit implementationCommit := by
    simp [adapterFindings, PinsMatch]
  have hpure {r : VerificationReportV1} :
      (pure r : ContractResult VerificationReportV1) = .ok report ↔ report = r :=
    ⟨fun h => (Except.ok.inj h).symm, fun h => congrArg Except.ok h.symm⟩
  unfold adapterHoldReport
  rw [hmanifest, IntegrationCaseManifestV1.manifestDigest_of_validate hmanifest,
    ensure_eq_ok.mpr hkind]
  rw [hbase] at hiff
  rw [← hiff, ← hpure]
  show (VerificationReportV1.validateAgainstManifest sha256 _ manifest >>= fun _ => pure _) = _ ↔ _
  rw [bind_eq_ok]
  constructor
  · rintro ⟨⟨⟩, hvalid, hreport⟩
    exact ⟨hvalid, hreport⟩
  · rintro ⟨hvalid, hreport⟩
    exact ⟨(), hvalid, hreport⟩

/-- **An adapter case is reported on truthfully exactly if the declared commits match.** When they
do not, the report with its failed check is one that validation refuses, and there is none.  The
hypotheses are the two things that the function checks first, that the manifest is valid and that
its candidate is an adapter; the commits and the bytes of the candidate are arbitrary. -/
theorem adapter_report_truthful_iff (hmanifest : manifest.validate = .ok ())
    (hkind : manifest.candidateKind = .adapter) :
    (∃ report, adapterHoldReport sha256 manifest requirementsCommit implementationCommit
        candidateBytes = .ok report ∧
      TruthfulReport sha256 manifest requirementsCommit implementationCommit report) ↔
    PinsMatch manifest requirementsCommit implementationCommit := by
  constructor
  · rintro ⟨report, hreport, -⟩
    exact ((adapterHoldReport_eq_ok hmanifest hkind).mp hreport).1
  · intro hpins
    have hbase : (adapterFindings sha256 manifest (canonicalSha256 sha256 manifest.json)
        requirementsCommit implementationCommit candidateBytes).baseMatch = true := by
      simpa [adapterFindings, PinsMatch] using hpins
    refine ⟨_, (adapterHoldReport_eq_ok hmanifest hkind).mpr ⟨hpins, rfl⟩, ?_⟩
    obtain ⟨hnodup, hfixed⟩ := IntegrationCaseManifestV1.requiredChecks_of_validate hmanifest
    rw [hkind] at hfixed
    have hpin : VerificationCheckIdV1.declaredBasePinMatch ∈ manifest.requiredChecks :=
      (perm_fixedChecks hnodup hfixed).mem_iff.mpr (by decide)
    constructor
    · exact (adapterReportOf_validates_iff hmanifest hkind rfl).mpr hbase
    · refine ⟨_, List.mem_map_of_mem hpin, rfl, iff_of_true ?_ hpins⟩
      show (if _ then CheckStatusV1.pass else .fail) = _
      rw [if_pos hbase]
    · rw [if_pos hpins]
      rfl
    · refine List.forall_mem_map.mpr fun checkId _ hpass => ?_
      rw [AdapterFindings.checkOf_checkId]
      exact AdapterFindings.mem_performed_of_pass _ checkId hpass

namespace Sample

/-- A case for an adapter. -/
def adapterManifest : IntegrationCaseManifestV1 :=
  { Contracts.Sample.manifest [] [] with
    candidateKind := .adapter
    requiredChecks := fixedChecks .adapter }

theorem adapterManifest_validate : adapterManifest.validate = .ok () := by decide +kernel

/-- The commits of the manifest. -/
theorem adapter_held : ∃ report,
    adapterHoldReport Sha256.hash adapterManifest "1111111" "2222222" [0x7F] = .ok report ∧
      TruthfulReport Sha256.hash adapterManifest "1111111" "2222222" report :=
  (adapter_report_truthful_iff adapterManifest_validate rfl).mpr ⟨rfl, rfl⟩

/-- Another commit: the report that says so is never returned. -/
theorem adapter_mismatch_unreported :
    ¬ ∀ (manifest : IntegrationCaseManifestV1) (requirementsCommit implementationCommit : String)
        (candidateBytes : List UInt8),
      manifest.validate = .ok () → manifest.candidateKind = .adapter →
      ∃ report, adapterHoldReport Sha256.hash manifest requirementsCommit implementationCommit
          candidateBytes = .ok report ∧
        TruthfulReport Sha256.hash manifest requirementsCommit implementationCommit report := by
  intro hclaim
  obtain ⟨report, hreport, -⟩ :=
    hclaim adapterManifest "3333333" "2222222" [0x7F] adapterManifest_validate rfl
  have hpins := ((adapterHoldReport_eq_ok adapterManifest_validate rfl).mp hreport).1
  exact absurd hpins (by decide +kernel)

end Sample

end Musubi.IntegrationCase
