/-
# The verdict on a profile

A profile case that is reported at all awaits the human seal exactly when nothing that is asked of
it is missing (`CaseMet`), and has failed otherwise.  No check of a profile is ever held, so there
is no third outcome.

The proof goes through what the verifier has found out when it makes its checks (`Findings`).  On
one side a check passes, fails, and is never held (section 2), so all of them pass exactly when
one conjunction of findings is true (`forall_checkOf_pass`), and the disposition is computed from
the statuses alone (`dispositionOf_eq`).  On the other side the findings say of the case what
`CaseMet` says of it (section 4): a digest that fits, a write allowlist with the one path of the
candidate, a profile that parses and whose counters are zero where they have to be
(`IntegrationCase.Score`).

That a report has this disposition does not say that it is a VALID report.  Section 3 shows that
it is, with one check for each fixed id, and that it binds its manifest, whatever the candidate.

The oracle is assumed to list no field under two roles.  Without it the scorer calls an acceptable
binding a mismap, and the case fails although it meets what is asked (`IntegrationCase.Overlap`).
-/
import Musubi.Contracts.SealChain
import Musubi.IntegrationCase.Score

namespace Musubi.IntegrationCase

open Lib Musubi.Core Contracts Reference Northbound.WirePolicy

/-! ## 1. What is asked of a case -/

/-- The reader has used the field: an observation has it, or it is what a handset profile reads
its time from. -/
def Consumed (profile : FamilyProfile) (observations : List Observation) (field : String) : Prop :=
  (∃ observation ∈ observations, field ∈ observation.fields.map Prod.fst) ∨
    observations ≠ [] ∧ profile.format = "edgetx_csv" ∧ field = profile.fields.time

/-- What is asked of a profile, of its reading of the sample and of its fit to the oracle.  The
reader returns something and uses every field that is bound; no field is bound that the sample
lacks or the oracle does not accept, unless no sample can show it; every required role has a
field; and units and expectations are those of the oracle. -/
structure ProfileMet (lib : Libraries) (oracle : ProfileOracleV1) (headers : Finset String)
    (sampleCsv : List UInt8) (profile : FamilyProfile) : Prop where
  read : ∃ observations, readerRun lib profile sampleCsv = some observations ∧ observations ≠ [] ∧
    ∀ role field, Binds profile.fields role field → Consumed profile observations field
  bound : ∀ role field, Binds profile.fields role field →
    oracle.Unreachable field ∨ field ∈ headers ∧ oracle.Accepts role field
  required : ∀ binding ∈ oracle.bindings, binding.required = true →
    ∃ field ∈ binding.acceptableFields, Binds profile.fields binding.role field ∧
      ¬ oracle.Unreachable field ∧ field ∈ headers
  units : profile.fieldUnits = oracle.fieldUnits
  expectations : actualCadence profile = expectedCadence oracle

/-- What is asked of a case: the commits and the three digests are those of the manifest, the
candidate is the one file that may be written, and the profile in it meets what is asked of a
profile. -/
structure CaseMet (lib : Libraries) (manifest : IntegrationCaseManifestV1)
    (requirementsCommit implementationCommit : String) (candidate : ProfileCandidateArtifactV1)
    (sampleCsv oracleJson : List UInt8) (oracle : ProfileOracleV1) (headers : Finset String) :
    Prop where
  base : manifest.requirementsCommit = requirementsCommit ∧
    manifest.implementationCommit = implementationCommit
  input : ∃ artifact, manifest.inputArtifacts = [artifact] ∧
    artifact.digest = .sha256 lib.sha256 sampleCsv
  oracle_digest : manifest.oracle.oracleDigest = .sha256 lib.sha256 oracleJson
  allowlist : manifest.candidateWriteAllowlist = [candidate.relativePath]
  profile : ∃ profile, parsedProfile lib candidate = some profile ∧
    ProfileMet lib oracle headers sampleCsv profile

/-! ## 2. Checks -/

theorem booleanCheck_status {checkId : VerificationCheckIdV1} {pass : Bool}
    {passCode failCode : String} {digest : DigestV1} :
    (booleanCheck checkId pass passCode failCode digest).status = if pass then .pass else .fail :=
  rfl

/-- **A check is valid** when its code is of capitals, digits and underscores: its evidence is
JSON.  The codes are literals of the source, so each use discharges this by computation. -/
theorem check_validate {checkId : VerificationCheckIdV1} {status : CheckStatusV1}
    {digest : DigestV1} {code : String} (hcode : trim code.toList ≠ [] ∧
      code.toList.all (Xml.inRanges [(0x41, 0x5A), (0x30, 0x39), (0x5F, 0x5F)])) :
    (check checkId status code digest).validate = .ok () := by
  have htext : trim "application/json".toList ≠ [] ∧ '/' ∈ "application/json".toList := by
    decide
  have hevidence : ArtifactReferenceV1.validate ⟨digest, "application/json", .receipt⟩ = .ok () :=
    seq_eq_ok.mpr ⟨ensure_eq_ok.mpr htext.1, ensure_eq_ok.mpr htext.2⟩
  exact seq_eq_ok.mpr ⟨ensure_eq_ok.mpr hcode.1,
    seq_eq_ok.mpr ⟨ensure_eq_ok.mpr hcode.2, hevidence⟩⟩

namespace Findings

variable (f : Findings) (checkId : VerificationCheckIdV1)

/-- What was found out about the profile fails no check. -/
def profilePass : Bool := f.parsePass && f.againstPass && f.scorePass

/-- What was found out fails no check. -/
def allPass : Bool :=
  f.baseMatch && f.inputMatch && f.oracleMatch && f.candidateAllowed && f.profilePass

theorem checkOf_checkId : (f.checkOf checkId).checkId = checkId := by
  cases checkId
  all_goals rfl

/-- **No check is held.** Every check of a profile is made from a condition that is true or false.
-/
theorem checkOf_ne_hold : (f.checkOf checkId).status ≠ .hold := by
  have hboolean (pass : Bool) : (if pass then CheckStatusV1.pass else .fail) ≠ .hold := by
    cases pass
    all_goals decide
  cases checkId with
  | manifestValid => exact (nomatch ·)
  | declaredBasePinMatch => exact hboolean f.baseMatch
  | inputDigestMatch => exact hboolean f.inputMatch
  | oracleDigestMatch => exact hboolean f.oracleMatch
  | candidateArtifactSetWithinAllowlist => exact hboolean f.candidateAllowed
  | profileParse => exact hboolean f.parsePass
  | profileAgainstSample => exact hboolean f.againstPass
  | profileScore => exact hboolean f.scorePass
  | adapterConformance => exact (nomatch ·)
  | architectureFitness => exact (nomatch ·)
  | runtimeEgressZero => exact (nomatch ·)
  | generatorVerifierDistinct => exact (nomatch ·)

/-- **All checks of a profile pass** when nothing that was found out fails them.  The fixed ids
are a list of the source, and each has its finding. -/
theorem forall_checkOf_pass :
    (∀ checkId ∈ fixedChecks .profile, (f.checkOf checkId).status = .pass) ↔
      f.allPass = true := by
  have hboolean (pass : Bool) :
      (if pass then CheckStatusV1.pass else .fail) = .pass ↔ pass = true := by
    cases pass
    all_goals decide
  simp only [fixedChecks, commonRequiredChecks, kindRequiredChecks, List.cons_append,
    List.nil_append, List.forall_mem_cons, List.not_mem_nil, false_imp_iff, implies_true, and_true,
    checkOf, booleanCheck_status, hboolean, check, true_and, allPass, profilePass,
    Bool.and_eq_true, and_assoc]

/-- The checks of a profile are valid. -/
theorem checkOf_validate : (f.checkOf checkId).validate = .ok () := by
  have hboolean (pass : Bool) (digest : DigestV1) {passCode failCode : String}
      (hpass : trim passCode.toList ≠ [] ∧
        passCode.toList.all (Xml.inRanges [(0x41, 0x5A), (0x30, 0x39), (0x5F, 0x5F)]))
      (hfail : trim failCode.toList ≠ [] ∧
        failCode.toList.all (Xml.inRanges [(0x41, 0x5A), (0x30, 0x39), (0x5F, 0x5F)])) :
      (booleanCheck checkId pass passCode failCode digest).validate = .ok () := by
    cases pass with
    | true => exact check_validate hpass
    | false => exact check_validate hfail
  cases checkId with
  | manifestValid => exact check_validate (by decide)
  | declaredBasePinMatch => exact hboolean _ _ (by decide) (by decide)
  | inputDigestMatch => exact hboolean _ _ (by decide) (by decide)
  | oracleDigestMatch => exact hboolean _ _ (by decide) (by decide)
  | candidateArtifactSetWithinAllowlist =>
    exact hboolean _ _ (by decide) (by decide)
  | profileParse => exact hboolean _ _ (by decide) (by decide)
  | profileAgainstSample => exact hboolean _ _ (by decide) (by decide)
  | profileScore => exact hboolean _ _ (by decide) (by decide)
  | adapterConformance => exact check_validate (by decide)
  | architectureFitness => exact check_validate (by decide)
  | runtimeEgressZero => exact check_validate (by decide)
  | generatorVerifierDistinct => exact check_validate (by decide)

end Findings

/-- **Without held checks** the disposition is to await the seal or to fail: a failed check
outweighs all others, and only a held one could lead elsewhere. -/
theorem dispositionOf_eq {checks : List VerificationCheckV1}
    (h : ∀ item ∈ checks, item.status ≠ .hold) : dispositionOf checks =
      if ∀ item ∈ checks, item.status = .pass then .awaitingHumanSeal else .fail := by
  unfold dispositionOf
  split
  · rename_i hfail
    obtain ⟨item, hitem, hstatus⟩ := List.any_eq_true.mp hfail
    rw [if_neg]
    intro hpass
    rw [hpass item hitem] at hstatus
    cases of_decide_eq_true hstatus
  · rename_i hfail
    rw [if_neg, if_pos]
    · intro item hitem
      cases hstatus : item.status with
      | pass => rfl
      | fail => exact absurd (List.any_eq_true.mpr ⟨item, hitem, decide_eq_true hstatus⟩) hfail
      | hold => exact absurd hstatus (h item hitem)
    · intro hhold
      obtain ⟨item, hitem, hstatus⟩ := List.any_eq_true.mp hhold
      exact h item hitem (of_decide_eq_true hstatus)

/-! ## 3. Reports -/

section Report

variable {sha256 : List UInt8 → Digest} {manifest : IntegrationCaseManifestV1} {f : Findings}

/-- The disposition of a report about a validated profile case. -/
theorem reportOf_disposition (hmanifest : manifest.validate = .ok ())
    (hkind : manifest.candidateKind = .profile) :
    (reportOf manifest f).disposition = if f.allPass then .awaitingHumanSeal else .fail := by
  obtain ⟨hnodup, hfixed⟩ := IntegrationCaseManifestV1.requiredChecks_of_validate hmanifest
  rw [hkind] at hfixed
  have hforall {P : VerificationCheckV1 → Prop} :
      (∀ item ∈ manifest.requiredChecks.map f.checkOf, P item) ↔
        ∀ checkId ∈ fixedChecks .profile, P (f.checkOf checkId) := by
    rw [List.forall_mem_map]
    exact forall_congr' fun checkId => by rw [(perm_fixedChecks hnodup hfixed).mem_iff]
  have hhold : ∀ item ∈ manifest.requiredChecks.map f.checkOf, item.status ≠ .hold :=
    hforall.mpr fun checkId _ => f.checkOf_ne_hold checkId
  rw [reportOf, dispositionOf_eq hhold]
  simp only [hforall, f.forall_checkOf_pass]

/-- **The report of a validated profile case is valid**, and binds its manifest.  Nothing is asked
of the candidate, so a failed case is reported as validly as one that awaits its seal. -/
theorem reportOf_validates (hmanifest : manifest.validate = .ok ())
    (hkind : manifest.candidateKind = .profile)
    (hdigest : f.manifestDigest = canonicalSha256 sha256 manifest.json) :
    (reportOf manifest f).validateAgainstManifest sha256 manifest = .ok () := by
  obtain ⟨hnodup, hfixed⟩ := IntegrationCaseManifestV1.requiredChecks_of_validate hmanifest
  obtain ⟨hcase, hgenerator, hverifier, hdistinct⟩ :=
    IntegrationCaseManifestV1.identity_of_validate hmanifest
  have hids : (manifest.requiredChecks.map f.checkOf).map VerificationCheckV1.checkId =
      manifest.requiredChecks := by
    rw [List.map_map]
    exact List.map_id'' f.checkOf_checkId _
  refine VerificationReportV1.validateAgainstManifest_eq_ok.mpr ⟨?_, hmanifest, ?_⟩
  · constructor
    · exact ensure_eq_ok.mpr rfl
    · exact hcase
    · exact ensure_eq_ok.mpr hgenerator
    · exact ensure_eq_ok.mpr hverifier
    · exact hdistinct
    · -- a kind of candidate has some fixed check
      intro hnil
      rw [List.map_eq_nil_iff.mp hnil, hkind] at hfixed
      exact absurd hfixed (by decide)
    · exact List.forall_mem_map.mpr fun checkId _ => f.checkOf_validate checkId
    · rw [reportOf, hids]
      exact hnodup
    · rw [reportOf, hids, hfixed, hkind]
    · exact fun reason h => nomatch h
    · rfl
    · rfl
    · simp only [reportOf, VerificationReportV1.expectedDisposition, dispositionOf,
        List.isEmpty_nil, Bool.not_true, Bool.or_false]
  · constructor
    · rfl
    · exact hkind.symm
    · rfl
    · rfl
    · exact hdigest
    · rw [reportOf, hids]

end Report

/-! ## 4. The verdict -/

theorem mem_consumedFields {profile : FamilyProfile} {observations : List Observation}
    {field : String} : field ∈ consumedFields profile observations ↔
      Consumed profile observations field := by
  unfold consumedFields Consumed
  rw [← List.length_pos_iff_ne_nil]
  split
  · rename_i h
    rw [Finset.mem_insert, List.mem_toFinset, List.mem_flatMap]
    constructor
    · rintro (htime | hread)
      · exact Or.inr ⟨h.1, h.2, htime⟩
      · exact Or.inl hread
    · rintro (hread | ⟨-, -, htime⟩)
      · exact Or.inr hread
      · exact Or.inl htime
  · rename_i h
    rw [List.mem_toFinset, List.mem_flatMap]
    constructor
    · exact Or.inl
    · rintro (hread | ⟨hsome, hformat, -⟩)
      · exact hread
      · exact absurd ⟨hsome, hformat⟩ h

section Verdict

variable (lib : Libraries) (manifest : IntegrationCaseManifestV1)
  (requirementsCommit implementationCommit : String) (candidate : ProfileCandidateArtifactV1)
  (sampleCsv oracleJson : List UInt8) (oracle : ProfileOracleV1) (headers : Finset String)

/-- What is found out about a case with a validated manifest. -/
def caseFindings : Findings :=
  let scored := scoreCandidate lib candidate sampleCsv oracle headers
  findings lib manifest (canonicalSha256 lib.sha256 manifest.json) requirementsCommit
    implementationCommit candidate sampleCsv oracleJson scored.1 scored.2

/-- The bundle of a case with a validated manifest. -/
def caseBundle : ProfileVerificationBundleV1 :=
  .new lib.sha256
    (reportOf manifest (caseFindings lib manifest requirementsCommit implementationCommit candidate
      sampleCsv oracleJson oracle headers))
    (scoreCandidate lib candidate sampleCsv oracle headers).2

/-- **The verifier returns a bundle** when the manifest is one of a profile case and validates,
the oracle is read and validates, and the sample has a header.  The candidate is not among the
reasons to return none. -/
theorem verifyProfileCase_eq_ok {bundle : ProfileVerificationBundleV1} :
    verifyProfileCase lib manifest requirementsCommit implementationCommit candidate sampleCsv
        oracleJson = .ok bundle ↔
      manifest.validate = .ok () ∧ manifest.candidateKind = .profile ∧
        ∃ oracle headers, lib.oracleFromSlice oracleJson = .ok oracle ∧
          validateOracle oracle = .ok () ∧ parseCsvHeader sampleCsv = .ok headers ∧
          bundle = caseBundle lib manifest requirementsCommit implementationCommit candidate
            sampleCsv oracleJson oracle headers := by
  unfold verifyProfileCase displayed
  constructor
  · intro h
    obtain ⟨⟨⟩, hmanifest, h⟩ := bind_eq_ok.mp h
    obtain ⟨⟨⟩, hkind, h⟩ := bind_eq_ok.mp h
    obtain ⟨manifestDigest, hdigest, h⟩ := bind_eq_ok.mp h
    obtain ⟨oracle, horacle, h⟩ := bind_eq_ok.mp h
    obtain ⟨⟨⟩, hvalid, h⟩ := bind_eq_ok.mp h
    obtain ⟨headers, hheaders, h⟩ := bind_eq_ok.mp h
    obtain ⟨⟨⟩, -, h⟩ := bind_eq_ok.mp h
    rw [mapError_eq_ok] at hmanifest hdigest horacle
    rw [IntegrationCaseManifestV1.manifestDigest_of_validate hmanifest] at hdigest
    cases hdigest
    cases h
    exact ⟨hmanifest, orError_eq_ok.mp hkind, oracle, headers, horacle, hvalid, hheaders, rfl⟩
  · rintro ⟨hmanifest, hkind, oracle, headers, horacle, hvalid, hheaders, rfl⟩
    refine bind_eq_ok.mpr ⟨(), mapError_eq_ok.mpr hmanifest, ?_⟩
    refine bind_eq_ok.mpr ⟨(), orError_eq_ok.mpr hkind, ?_⟩
    refine bind_eq_ok.mpr ⟨_, mapError_eq_ok.mpr
      (IntegrationCaseManifestV1.manifestDigest_of_validate hmanifest), ?_⟩
    refine bind_eq_ok.mpr ⟨oracle, mapError_eq_ok.mpr horacle, ?_⟩
    refine bind_eq_ok.mpr ⟨(), hvalid, ?_⟩
    refine bind_eq_ok.mpr ⟨headers, hheaders, ?_⟩
    exact bind_eq_ok.mpr ⟨(), mapError_eq_ok.mpr (reportOf_validates hmanifest hkind rfl), rfl⟩

variable {lib candidate sampleCsv oracle headers}

/-- **A reading without faults in its counters** is what is asked of a profile.  Each counter
stands for the field of `ProfileMet` that it counts; the number of observations is the one that
has to be positive. -/
theorem profileMet_iff (honeRole : oracle.OneRole) {profile : FamilyProfile} {n : UInt32}
    {observations : List Observation}
    (hread : (readerRun lib profile sampleCsv).getD [] = observations) {score : ProfileScoreV1}
    (hscore : scoreProfile profile headers oracle n (consumedFields profile observations) = score) :
    ProfileMet lib oracle headers sampleCsv profile ↔ 0 < observations.length ∧
      score.missed = 0 ∧ score.misMapped = 0 ∧ score.phantom = 0 ∧ score.inert = 0 ∧
      score.unitMismatched = 0 ∧ score.cadenceMismatched = 0 := by
  subst hscore
  constructor
  · rintro ⟨⟨observations', hrun, hsome, hconsumed⟩, hbound, hrequired, hunits, hexpectations⟩
    obtain rfl : observations = observations' := by
      rw [← hread, hrun]
      rfl
    have hfaults : ∀ role field, Binds profile.fields role field →
        oracle.Unreachable field ∨ classify headers oracle role field = .match_ := by
      intro role field hbinds
      by_cases hunreachable : oracle.Unreachable field
      · exact Or.inl hunreachable
      · rcases hbound role field hbinds with h | ⟨hheader, haccepts⟩
        · exact absurd h hunreachable
        · exact Or.inr ((classify_eq_match honeRole).mpr ⟨hunreachable, hheader, haccepts⟩)
    have hmissed : ∀ binding ∈ oracle.bindings, binding.required = true →
        ∃ field ∈ binding.acceptableFields, Binds profile.fields binding.role field ∧
          classify headers oracle binding.role field = .match_ := by
      intro binding hbinding hreq
      obtain ⟨field, hfield, hbinds, hreachable, hheader⟩ := hrequired binding hbinding hreq
      have haccepts : oracle.Accepts binding.role field := ⟨binding, hbinding, rfl, hfield⟩
      exact ⟨field, hfield, hbinds,
        (classify_eq_match honeRole).mpr ⟨hreachable, hheader, haccepts⟩⟩
    refine ⟨List.length_pos_iff_ne_nil.mpr hsome, missed_eq_zero.mpr hmissed,
      (faults_eq_zero.mpr hfaults).1, (faults_eq_zero.mpr hfaults).2, inert_eq_zero.mpr ?_,
      unitMismatched_eq_zero.mpr hunits, cadenceMismatched_eq_zero.mpr hexpectations⟩
    intro role field hbinds
    exact mem_consumedFields.mpr (hconsumed role field hbinds)
  · rintro ⟨hsome, hmissed, hmapped, hphantom, hinert, hunits, hcadence⟩
    have hne := List.length_pos_iff_ne_nil.mp hsome
    have hfaults := faults_eq_zero.mp ⟨hmapped, hphantom⟩
    constructor
    · refine ⟨observations, ?_, hne, ?_⟩
      · cases hrun : readerRun lib profile sampleCsv with
        | none =>
          rw [hrun] at hread
          exact absurd hread.symm hne
        | some observations' =>
          rw [← hread, hrun]
          rfl
      · intro role field hbinds
        exact mem_consumedFields.mp (inert_eq_zero.mp hinert role field hbinds)
    · intro role field hbinds
      rcases hfaults role field hbinds with hunreachable | hmatch
      · exact Or.inl hunreachable
      · obtain ⟨-, hheader, haccepts⟩ := (classify_eq_match honeRole).mp hmatch
        exact Or.inr ⟨hheader, haccepts⟩
    · intro binding hbinding hreq
      obtain ⟨field, hfield, hbinds, hmatch⟩ := missed_eq_zero.mp hmissed binding hbinding hreq
      obtain ⟨hreachable, hheader, -⟩ := (classify_eq_match honeRole).mp hmatch
      exact ⟨field, hfield, hbinds, hreachable, hheader⟩
    · exact unitMismatched_eq_zero.mp hunits
    · exact cadenceMismatched_eq_zero.mp hcadence

/-- **The checks of the profile itself pass** when the profile meets what is asked of it.  A
candidate that does not parse meets nothing, and fails the check that says so. -/
theorem profile_checks_pass (honeRole : oracle.OneRole) :
    (caseFindings lib manifest requirementsCommit implementationCommit candidate sampleCsv
      oracleJson oracle headers).profilePass = true ↔
      ∃ profile, parsedProfile lib candidate = some profile ∧
        ProfileMet lib oracle headers sampleCsv profile := by
  unfold Findings.profilePass caseFindings findings scoreCandidate
  cases hprofile : parsedProfile lib candidate with
  | none =>
    refine iff_of_false ?_ ?_
    · intro hpass
      cases hpass
    · rintro ⟨profile, h, -⟩
      cases h
  | some profile =>
    simp only [Option.isSome_some, Option.bind_some, Option.map_some, Option.any_some,
      Bool.and_eq_true, decide_eq_true_eq, true_and, Option.some.injEq, exists_eq_left']
    rw [profileMet_iff honeRole rfl rfl]
    constructor
    · rintro ⟨-, ⟨⟨⟨⟨⟨⟨hread, hmissed⟩, hmapped⟩, hphantom⟩, hinert⟩, hunits⟩, hcadence⟩⟩
      exact ⟨hread, hmissed, hmapped, hphantom, hinert, hunits, hcadence⟩
    · rintro ⟨hread, hmissed, hmapped, hphantom, hinert, hunits, hcadence⟩
      exact ⟨⟨hread, hphantom⟩,
        ⟨⟨⟨⟨⟨hread, hmissed⟩, hmapped⟩, hphantom⟩, hinert⟩, hunits⟩, hcadence⟩

/-- **The findings of a case pass every check** when the case meets what is asked of it. -/
theorem caseMet_iff (honeRole : oracle.OneRole) :
    CaseMet lib manifest requirementsCommit implementationCommit candidate sampleCsv oracleJson
        oracle headers ↔
      (caseFindings lib manifest requirementsCommit implementationCommit candidate sampleCsv
        oracleJson oracle headers).allPass = true := by
  have hbase : (caseFindings lib manifest requirementsCommit implementationCommit candidate
      sampleCsv oracleJson oracle headers).baseMatch = true ↔
      manifest.requirementsCommit = requirementsCommit ∧
        manifest.implementationCommit = implementationCommit := by
    simp only [caseFindings, findings, Bool.and_eq_true, decide_eq_true_eq]
  have hinput : (caseFindings lib manifest requirementsCommit implementationCommit candidate
      sampleCsv oracleJson oracle headers).inputMatch = true ↔
      ∃ artifact, manifest.inputArtifacts = [artifact] ∧
        artifact.digest = .sha256 lib.sha256 sampleCsv := by
    simp only [caseFindings, findings, single_iff, decide_eq_true_eq]
  have horacle : (caseFindings lib manifest requirementsCommit implementationCommit candidate
      sampleCsv oracleJson oracle headers).oracleMatch = true ↔
      manifest.oracle.oracleDigest = .sha256 lib.sha256 oracleJson := by
    simp only [caseFindings, findings, decide_eq_true_eq]
  have hallowed : (caseFindings lib manifest requirementsCommit implementationCommit candidate
      sampleCsv oracleJson oracle headers).candidateAllowed = true ↔
      manifest.candidateWriteAllowlist = [candidate.relativePath] := by
    simp only [caseFindings, findings, decide_eq_true_eq]
  rw [Findings.allPass, Bool.and_eq_true, Bool.and_eq_true, Bool.and_eq_true, Bool.and_eq_true,
    hbase, hinput, horacle, hallowed, profile_checks_pass _ _ _ _ honeRole]
  constructor
  · rintro ⟨hbase, hinput, horacle, hallowed, hprofile⟩
    exact ⟨⟨⟨⟨hbase, hinput⟩, horacle⟩, hallowed⟩, hprofile⟩
  · rintro ⟨⟨⟨⟨hbase, hinput⟩, horacle⟩, hallowed⟩, hprofile⟩
    exact ⟨hbase, hinput, horacle, hallowed, hprofile⟩

/-- **The verdict of the profile verifier.** A case that is reported awaits its human seal exactly
when it meets all that is asked of it, and has failed otherwise.  `hbundle` says that it is
reported; `horacle` and `hheaders` name the oracle and the header that the verifier has then read,
so that `CaseMet` can speak of them.  `honeRole` is about the frozen oracle and not about the
candidate: the scorer keeps one role for a field, and what the oracle accepts has to be that. -/
theorem awaitingHumanSeal_iff {bundle : ProfileVerificationBundleV1}
    (hbundle : verifyProfileCase lib manifest requirementsCommit implementationCommit candidate
      sampleCsv oracleJson = .ok bundle)
    (horacle : lib.oracleFromSlice oracleJson = .ok oracle)
    (hheaders : parseCsvHeader sampleCsv = .ok headers) (honeRole : oracle.OneRole) :
    (bundle.verification.disposition = .awaitingHumanSeal ↔
      CaseMet lib manifest requirementsCommit implementationCommit candidate sampleCsv oracleJson
        oracle headers) ∧
    (¬ CaseMet lib manifest requirementsCommit implementationCommit candidate sampleCsv oracleJson
        oracle headers → bundle.verification.disposition = .fail) := by
  obtain ⟨hmanifest, hkind, oracle', headers', horacle', -, hheaders', rfl⟩ :=
    (verifyProfileCase_eq_ok _ _ _ _ _ _ _).mp hbundle
  cases horacle.symm.trans horacle'
  cases hheaders.symm.trans hheaders'
  have hdisposition := reportOf_disposition hmanifest hkind (f := caseFindings lib manifest
    requirementsCommit implementationCommit candidate sampleCsv oracleJson oracle headers)
  rw [caseMet_iff _ _ _ _ honeRole]
  show ((reportOf _ _).disposition = _ ↔ _) ∧ (_ → (reportOf _ _).disposition = _)
  rw [hdisposition]
  split
  · rename_i hmet
    exact ⟨iff_of_true rfl hmet, fun hunmet => absurd hmet hunmet⟩
  · rename_i hunmet
    exact ⟨iff_of_false (nomatch ·) hunmet, fun _ => rfl⟩

end Verdict

namespace Sample

open Contracts.Sample (manifest)

def profileToml : String :=
  "\nprofile_id = \"synthetic_profile\"\nversion = \"1\"\nfamily = \"fpv\"\n" ++
  "source_role = \"handset\"\nformat = \"edgetx_csv\"\nextensions = [\".csv\"]\n" ++
  "default_clock_basis = \"host_received\"\nchannels = [\"link_stats\"]\n[fields]\n" ++
  "time = \"tmr10ms\"\nstatus = [\"Mode\"]\nlink = [\"RQly(%)\"]\n\n[units]\n" ++
  "tmr10ms = \"10_ms_tick\"\nMode = \"enum\"\n\"RQly(%)\" = \"percent\"\n\n[[expectations]]\n" ++
  "id = \"synthetic_link_100ms\"\nchannel = \"link_stats\"\ncadence_ms = 100\ngrace_k = 3\n"

def units : BTreeMap String String :=
  .ofList [("tmr10ms", "10_ms_tick"), ("Mode", "enum"), ("RQly(%)", "percent")]

def profile : FamilyProfile where
  profileId := "synthetic_profile"
  version := "1"
  family := .fpv
  sourceRole := .handset
  format := "edgetx_csv"
  extensions := ["csv"]
  fields := ⟨"tmr10ms", ["Mode"], ["RQly(%)"], [], [], []⟩
  fieldUnits := units
  channels := [.linkStats]
  expectations := [⟨"synthetic_link_100ms", .linkStats, 100, 3, none, none, none, false⟩]
  defaultClockBasis := .hostReceived
  declaredPlatformDomain := none
  declaredSender := none
  declaredClockRate := none
  origin := "candidate"

def sampleCsv : List UInt8 := utf8 "tmr10ms,Mode,RQly(%)\n0,AUTO,90\n10,GUIDED,88\n"

def observation (tMs : Int64) (fields : Fields) : Observation where
  tMs := tMs
  clockBasis := .bootRelative
  timeConfidence := defaultTimeConfidence .bootRelative
  sourceRole := .handset
  channel := .linkStats
  fields := fields
  stale := false
  digest := observationDigest Sha256.hash tMs .linkStats fields
  tBootUs := none
  anchorUnixUs := none
  wallMs := none

def observations : List Observation :=
  [observation 0 [("tmr10ms", .i64 0), ("Mode", .text "AUTO"), ("RQly(%)", .i64 90)],
    observation 100 [("tmr10ms", .i64 10), ("Mode", .text "GUIDED"), ("RQly(%)", .i64 88)]]

def oracle : ProfileOracleV1 where
  schemaVersion := 1
  bindings := [⟨"time", ["tmr10ms"], [], true⟩, ⟨"status", ["Mode"], [], true⟩,
    ⟨"link", ["RQly(%)"], [], true⟩]
  fieldUnits := units
  expectations := [⟨"link_stats", 100, 3, none⟩]

def oracleJson : List UInt8 :=
  utf8 (r#"{"schema_version":1,"bindings":["# ++
    r#"{"role":"time","acceptable_fields":["tmr10ms"]},"# ++
    r#"{"role":"status","acceptable_fields":["Mode"]},"# ++
    r#"{"role":"link","acceptable_fields":["RQly(%)"]}],"# ++
    r#""field_units":{"tmr10ms":"10_ms_tick","Mode":"enum","# ++
    r#""RQly(%)":"percent"},"# ++
    r#""expectations":[{"channel":"link_stats","cadence_ms":100,"grace_k":3,"# ++
    r#""frozen_ms":null}]}"#)

/-- The libraries, as far as the sample calls them. -/
def lib : Libraries where
  sha256 := Sha256.hash
  parseProfile text origin :=
    if text = profileToml ∧ origin = "candidate" then some profile else none
  readerFor format :=
    if format = "edgetx_csv" then
      some fun _ bytes => if bytes = sampleCsv then some observations else none
    else none
  oracleFromSlice bytes :=
    if bytes = oracleJson then .ok oracle else .error "expected value at line 1 column 1"

def candidate : ProfileCandidateArtifactV1 where
  relativePath := "profile.toml"
  bytes := utf8 profileToml
  candidateDigest := .sha256 Sha256.hash (utf8 profileToml)
  artifactSetDigest := canonicalSha256 Sha256.hash
    (.array [.object [("relative_path", .string "profile.toml"),
      ("digest", (DigestV1.sha256 Sha256.hash (utf8 profileToml)).json)]])

def headers : Finset String := {"tmr10ms", "Mode", "RQly(%)"}

theorem oracle_oneRole : oracle.OneRole := by
  rintro field role role' ⟨binding, hbinding, rfl, hfield⟩ ⟨binding', hbinding', rfl, hfield'⟩
  simp only [oracle, List.mem_cons, List.not_mem_nil, or_false] at hbinding hbinding'
  rcases hbinding with rfl | rfl | rfl
  all_goals
    rcases hbinding' with rfl | rfl | rfl
    all_goals first
      | rfl
      | exact absurd ((List.mem_singleton.mp hfield).symm.trans (List.mem_singleton.mp hfield'))
          (by decide)

theorem parsedProfile_candidate : parsedProfile lib candidate = some profile := by
  have htext : String.fromUTF8? ⟨candidate.bytes.toArray⟩ = some profileToml :=
    fromUTF8?_toUTF8 profileToml
  unfold parsedProfile
  rw [htext, Option.bind_some]
  simp only [lib, and_self, if_true]

theorem readerRun_profile : readerRun lib profile sampleCsv = some observations := by
  simp only [readerRun, lib, profile, if_true, Option.bind_some]

theorem profileMet : ProfileMet lib oracle headers sampleCsv profile := by
  have hbinds : ∀ {role field}, Binds profile.fields role field →
      (role, field) ∈ [("time", "tmr10ms"), ("status", "Mode"), ("link", "RQly(%)")] := by
    intro role field h
    simpa [Binds, profile] using h
  have hconsumed : ∀ pair ∈ [("time", "tmr10ms"), ("status", "Mode"), ("link", "RQly(%)")],
      Consumed profile observations pair.2 := by
    unfold Consumed
    decide
  have hbound : ∀ pair ∈ [("time", "tmr10ms"), ("status", "Mode"), ("link", "RQly(%)")],
      pair.2 ∈ headers ∧ oracle.Accepts pair.1 pair.2 := by
    unfold ProfileOracleV1.Accepts
    decide
  have hrequired : ∀ binding ∈ oracle.bindings, ∃ field ∈ binding.acceptableFields,
      Binds profile.fields binding.role field ∧ ¬ oracle.Unreachable field ∧ field ∈ headers := by
    unfold Binds ProfileOracleV1.Unreachable
    decide
  constructor
  · refine ⟨observations, readerRun_profile, List.cons_ne_nil _ _, ?_⟩
    intro role field h
    exact hconsumed (role, field) (hbinds h)
  · intro role field h
    exact Or.inr (hbound (role, field) (hbinds h))
  · intro binding hbinding _
    exact hrequired binding hbinding
  · rfl
  · rfl

theorem verifyProfileCase_sample : verifyProfileCase lib (manifest sampleCsv oracleJson) "1111111"
    "2222222" candidate sampleCsv oracleJson = .ok (caseBundle lib (manifest sampleCsv oracleJson)
      "1111111" "2222222" candidate sampleCsv oracleJson oracle headers) := by
  have horacle : lib.oracleFromSlice oracleJson = .ok oracle := by
    simp only [lib, if_true]
  exact (verifyProfileCase_eq_ok _ _ _ _ _ _ _).mpr ⟨by decide, rfl, oracle, headers,
    horacle, by decide, by decide, rfl⟩

/-- **The sample case awaits its seal.** -/
theorem case_awaits_seal : ∃ bundle,
    verifyProfileCase lib (manifest sampleCsv oracleJson) "1111111" "2222222" candidate sampleCsv
        oracleJson = .ok bundle ∧
      bundle.verification.disposition = .awaitingHumanSeal := by
  have horacle : lib.oracleFromSlice oracleJson = .ok oracle := by
    simp only [lib, if_true]
  have hheaders : parseCsvHeader sampleCsv = .ok headers := by decide
  refine ⟨_, verifyProfileCase_sample, ?_⟩
  refine (awaitingHumanSeal_iff _ _ _ _ verifyProfileCase_sample horacle hheaders
    oracle_oneRole).1.mpr ?_
  exact ⟨⟨rfl, rfl⟩, ⟨_, rfl, rfl⟩, rfl, rfl, profile, parsedProfile_candidate, profileMet⟩

end Sample

end Musubi.IntegrationCase
