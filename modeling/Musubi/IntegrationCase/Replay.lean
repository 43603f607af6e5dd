/-
# The replay gate

`verified_profile_report_from_json` of `integration-case/src/report.rs`, and how a stored bundle
is read back in `profile.rs`.  A bundle that is consistent in itself proves nothing: its digests
can be made again by whoever changes it.  The gate runs the verifier on the frozen inputs and lets
the stored bundle through if its canonical JSON is that of the bundle produced.

Comparing texts instead of records costs nothing, because canonical JSON decides every field
(`json_injective`): the records of a bundle write their fields under fixed keys, a list as an
array, an optional field as `null` or its value, so each of them is `CanonicallyInjective` if its
fields are, and section 3 goes up from the smallest record to the bundle.

The other half is that the gate does not refuse what it should let through.  Before the comparison
a stored bundle is checked against itself and against the manifest, and a produced bundle passes
these checks by its construction (`verifyAgainstManifest_of_produced`), so the comparison alone
decides (`replay_eq_ok`).

The reader of stored bundles is a parameter of which nothing is assumed.  Where the main result
speaks of a bundle that is written and read back, that it is read back as itself is a premise of
that part.
-/
import Musubi.IntegrationCase.Verdict

namespace Musubi.IntegrationCase

open Lib Musubi.Core Contracts Reference

/-! ## 1. Stored bundles -/

structure ProfileVerificationBundleWireV1 where
  schemaVersion : String
  verification : VerificationReportV1
  profileScore : Option ProfileScoreV1
  bundleDigest : DigestV1
deriving DecidableEq

/-- The bundle with the fields that were read. -/
def ProfileVerificationBundleWireV1.value (wire : ProfileVerificationBundleWireV1) :
    ProfileVerificationBundleV1 :=
  ⟨wire.schemaVersion, wire.verification, wire.profileScore, wire.bundleDigest⟩

namespace ProfileVerificationBundleV1

def json (b : ProfileVerificationBundleV1) : Json :=
  .object [("schema_version", .string b.schemaVersion), ("verification", b.verification.json),
    ("profile_score", optionJson ProfileScoreV1.json b.profileScore),
    ("bundle_digest", b.bundleDigest.json)]

/-- `serde_json::to_vec`: the compact text, fields in the order of the record. -/
def toVec (b : ProfileVerificationBundleV1) : List UInt8 := utf8 (String.ofList b.json.write)

variable (sha256 : List UInt8 → Digest)

/-- One turn of the loop over the checks whose evidence is the score. -/
def requireScoreBound (b : ProfileVerificationBundleV1) (expectedScoreDigest : DigestV1)
    (checkId : VerificationCheckIdV1) : Except String Unit :=
  match b.verification.checks.find? fun check => check.checkId = checkId with
  | none => .error "profile bundle is missing a score-bound check"
  | some check =>
    orError (check.evidence.digest = expectedScoreDigest) "profile score evidence digest mismatch"

def verify (b : ProfileVerificationBundleV1) : Except String Unit := do
  orError (b.schemaVersion = schemaVersionV1) "profile verification bundle schema_version must be 1"
  displayed b.verification.validate
  let expectedScoreDigest :=
    match b.profileScore with
    | some score => canonicalSha256 sha256 score.json
    | none => b.verification.candidateDigest
  b.requireScoreBound expectedScoreDigest .profileAgainstSample
  b.requireScoreBound expectedScoreDigest .profileScore
  orError (¬ (b.verification.disposition = .awaitingHumanSeal ∧ b.profileScore = none))
    "all-pass profile bundle must include its bound score"
  let expected :=
    canonicalSha256 sha256 (bundlePayloadJson b.schemaVersion b.verification b.profileScore)
  orError (expected = b.bundleDigest) "profile verification bundle digest mismatch"

def verifyAgainstManifest (b : ProfileVerificationBundleV1)
    (manifest : IntegrationCaseManifestV1) : Except String Unit := do
  b.verify sha256
  displayed (b.verification.validateAgainstManifest sha256 manifest)

/-- What reading gives goes through `verify` before anyone sees it. -/
def fromJson (bundleFromSlice : List UInt8 → Except String ProfileVerificationBundleWireV1)
    (bytes : List UInt8) : Except String ProfileVerificationBundleV1 := do
  let wire ← (bundleFromSlice bytes).mapError ("profile report JSON: " ++ ·)
  wire.value.verify sha256
  return wire.value

end ProfileVerificationBundleV1

/-! ## 2. The gate -/

structure VerifiedReportArtifactV1 where
  report : VerificationReportV1
  artifactKind : String
deriving DecidableEq

def verifiedProfileReportFromJson (lib : Libraries)
    (bundleFromSlice : List UInt8 → Except String ProfileVerificationBundleWireV1)
    (bytes : List UInt8) (manifest : IntegrationCaseManifestV1)
    (requirementsCommit implementationCommit : String) (candidate : ProfileCandidateArtifactV1)
    (sampleCsv oracleJson : List UInt8) : Except String VerifiedReportArtifactV1 := do
  orError (manifest.candidateKind = .profile) "profile replay requires candidate_kind=profile"
  let received ← ProfileVerificationBundleV1.fromJson lib.sha256 bundleFromSlice bytes
  received.verifyAgainstManifest lib.sha256 manifest
  let receivedCanonical := canonicalJsonBytes received.json
  let replayed ← verifyProfileCase lib manifest requirementsCommit implementationCommit candidate
    sampleCsv oracleJson
  let replayedCanonical := canonicalJsonBytes replayed.json
  orError (receivedCanonical = replayedCanonical)
    "profile verification bundle differs from deterministic replay of frozen inputs"
  return ⟨replayed.verification, "profile_verification_bundle"⟩

/-! ## 3. The JSON of a bundle decides the bundle -/

theorem BindingClass.name_injective : Function.Injective BindingClass.name := by
  refine injective_of_nodup_map [.match_, .miss, .misMap, .phantom, .unreachable] ?_
    (by decide)
  intro x
  cases x
  all_goals decide

theorem BindingResultV1.json_injective : CanonicallyInjective BindingResultV1.json := by
  rintro ⟨role, field, class_, consumed⟩ ⟨role', field', class_', consumed'⟩ h
  unfold BindingResultV1.json at h
  have hfields := canonicalize_object_inj h ["role", "field", "class", "consumed"]
    (by decide) rfl rfl
  simp only [List.map_cons, List.map_nil, List.cons.injEq, and_true] at hfields
  obtain ⟨hrole, hfield, hclass, hconsumed⟩ := hfields
  cases canonicallyInjective_string Function.injective_id _ _ hrole
  cases canonicallyInjective_string Function.injective_id _ _ hfield
  cases canonicallyInjective_string BindingClass.name_injective _ _ hclass
  cases canonicallyInjective_bool _ _ hconsumed
  rfl

theorem ProfileScoreV1.json_injective : CanonicallyInjective ProfileScoreV1.json := by
  intro s s' h
  unfold ProfileScoreV1.json at h
  have hfields := canonicalize_object_inj h
    ["reader_format", "reader_observation_count", "unit_matched", "unit_mismatched",
      "cadence_matched", "cadence_mismatched", "matched", "missed", "mis_mapped", "phantom",
      "unreachable", "consumed", "inert", "bindings"]
    (by decide) rfl rfl
  simp only [List.map_cons, List.map_nil, List.cons.injEq, and_true] at hfields
  obtain ⟨hformat, hcount, hunits, hnotUnits, hcadence, hnotCadence, hmatched, hmissed, hmapped,
    hphantom, hunreachable, hconsumed, hinert, hbindings⟩ := hfields
  have hnumber : CanonicallyInjective fun x : UInt32 => .number x.toNat :=
    canonicallyInjective_number fun x y => UInt32.toNat.inj
  cases s
  cases s'
  cases canonicallyInjective_string Function.injective_id _ _ hformat
  cases hnumber _ _ hcount
  cases hnumber _ _ hunits
  cases hnumber _ _ hnotUnits
  cases hnumber _ _ hcadence
  cases hnumber _ _ hnotCadence
  cases hnumber _ _ hmatched
  cases hnumber _ _ hmissed
  cases hnumber _ _ hmapped
  cases hnumber _ _ hphantom
  cases hnumber _ _ hunreachable
  cases hnumber _ _ hconsumed
  cases hnumber _ _ hinert
  cases canonicallyInjective_array BindingResultV1.json_injective _ _ hbindings
  rfl

/-- **The canonical JSON of a bundle decides the bundle.** The digests inside it are texts like
any other here; nothing is assumed of the hash. -/
theorem ProfileVerificationBundleV1.json_injective :
    CanonicallyInjective ProfileVerificationBundleV1.json := by
  rintro ⟨schemaVersion, verification, profileScore, bundleDigest⟩
    ⟨schemaVersion', verification', profileScore', bundleDigest'⟩ h
  unfold ProfileVerificationBundleV1.json at h
  have hfields := canonicalize_object_inj h
    ["schema_version", "verification", "profile_score", "bundle_digest"]
    (by decide) rfl rfl
  simp only [List.map_cons, List.map_nil, List.cons.injEq, and_true] at hfields
  obtain ⟨hschema, hverification, hscore, hdigest⟩ := hfields
  -- a score is an object, and no object is `null`
  have hnull : ∀ score, canonicalize (ProfileScoreV1.json score) ≠ .null := by
    intro score heq
    rw [ProfileScoreV1.json, canonicalize] at heq
    cases heq
  cases canonicallyInjective_string Function.injective_id _ _ hschema
  cases VerificationReportV1.json_injective _ _ hverification
  cases canonicallyInjective_option ProfileScoreV1.json_injective hnull _ _ hscore
  cases DigestV1.json_injective _ _ hdigest
  rfl

/-! ## 4. Produced bundles are consistent -/

/-- The check under an id is found among the checks made. -/
theorem Findings.find?_checkOf (f : Findings) {checkId : VerificationCheckIdV1}
    {ids : List VerificationCheckIdV1} (h : checkId ∈ ids) :
    (ids.map f.checkOf).find? (fun item => item.checkId = checkId) = some (f.checkOf checkId) := by
  induction ids with
  | nil => cases h
  | cons id ids ih =>
    rw [List.map_cons, List.find?_cons, f.checkOf_checkId]
    by_cases heq : id = checkId
    · rw [decide_eq_true heq, heq]
    · rw [decide_eq_false heq]
      exact ih ((List.mem_cons.mp h).resolve_left (Ne.symm heq))

section Produced

variable {lib : Libraries} {manifest : IntegrationCaseManifestV1}
  {requirementsCommit implementationCommit : String} {candidate : ProfileCandidateArtifactV1}
  {sampleCsv oracleJson : List UInt8} {oracle : ProfileOracleV1} {headers : Finset String}
  {bundle : ProfileVerificationBundleV1}

/-- The evidence of a score-bound check of a case is the score. -/
theorem requireScoreBound_caseBundle (hmanifest : manifest.validate = .ok ())
    (hkind : manifest.candidateKind = .profile) {checkId : VerificationCheckIdV1}
    (hcheckId : checkId ∈ fixedChecks .profile) {f : Findings} {score : Option ProfileScoreV1}
    (hevidence : (f.checkOf checkId).evidence.digest = f.scoreDigest) :
    (ProfileVerificationBundleV1.new lib.sha256 (reportOf manifest f) score).requireScoreBound
      f.scoreDigest checkId = .ok () := by
  obtain ⟨hnodup, hfixed⟩ := IntegrationCaseManifestV1.requiredChecks_of_validate hmanifest
  rw [hkind] at hfixed
  have hmem := (perm_fixedChecks hnodup hfixed).mem_iff.mpr hcheckId
  unfold ProfileVerificationBundleV1.requireScoreBound
  show (match (manifest.requiredChecks.map f.checkOf).find? _ with
    | none => _
    | some check => _) = _
  rw [f.find?_checkOf hmem]
  exact orError_eq_ok.mpr hevidence

/-- A case that awaits its seal has a score. -/
theorem isSome_score_of_awaiting (hmanifest : manifest.validate = .ok ())
    (hkind : manifest.candidateKind = .profile)
    (hawaiting : (caseBundle lib manifest requirementsCommit implementationCommit candidate
      sampleCsv oracleJson oracle headers).verification.disposition = .awaitingHumanSeal) :
    (scoreCandidate lib candidate sampleCsv oracle headers).2 ≠ none := by
  intro hnone
  have hdisposition := reportOf_disposition hmanifest hkind (f := caseFindings lib manifest
    requirementsCommit implementationCommit candidate sampleCsv oracleJson oracle headers)
  have hscore : (caseFindings lib manifest requirementsCommit implementationCommit candidate
      sampleCsv oracleJson oracle headers).allPass = false := by
    simp only [Findings.allPass, Findings.profilePass, caseFindings, findings, hnone,
      Option.any_none, Bool.and_false]
  rw [hscore] at hdisposition
  cases hawaiting.symm.trans hdisposition

/-- **A produced bundle is consistent in itself and with its manifest**: the verifier made its
digests from the very records that the check makes them from again. -/
theorem verifyAgainstManifest_of_produced (hbundle : verifyProfileCase lib manifest
      requirementsCommit implementationCommit candidate sampleCsv oracleJson = .ok bundle) :
    bundle.verifyAgainstManifest lib.sha256 manifest = .ok () := by
  obtain ⟨hmanifest, hkind, oracle, headers, -, -, -, rfl⟩ :=
    (verifyProfileCase_eq_ok _ _ _ _ _ _ _).mp hbundle
  have hvalidates := reportOf_validates hmanifest hkind (f := caseFindings lib manifest
    requirementsCommit implementationCommit candidate sampleCsv oracleJson oracle headers) rfl
  have hvalid := (VerificationReportV1.validateAgainstManifest_eq_ok.mp hvalidates).1
  refine bind_eq_ok.mpr ⟨(), ?_, mapError_eq_ok.mpr hvalidates⟩
  refine bind_eq_ok.mpr ⟨(), orError_eq_ok.mpr rfl, ?_⟩
  refine bind_eq_ok.mpr
    ⟨(), mapError_eq_ok.mpr (VerificationReportV1.validate_eq_ok.mpr hvalid), ?_⟩
  refine bind_eq_ok.mpr
    ⟨(), requireScoreBound_caseBundle hmanifest hkind (by decide) rfl, ?_⟩
  refine bind_eq_ok.mpr
    ⟨(), requireScoreBound_caseBundle hmanifest hkind (by decide) rfl, ?_⟩
  refine bind_eq_ok.mpr ⟨(), orError_eq_ok.mpr ?_, orError_eq_ok.mpr rfl⟩
  rintro ⟨hawaiting, hnone⟩
  exact isSome_score_of_awaiting hmanifest hkind hawaiting hnone

end Produced

/-! ## 5. The gate lets through what is produced -/

/-- What a report is frozen to: everything that the verifier is called with, as records and as
bytes. -/
structure FrozenInputs where
  manifest : IntegrationCaseManifestV1
  requirementsCommit : String
  implementationCommit : String
  candidate : ProfileCandidateArtifactV1
  sampleCsv : List UInt8
  oracleJson : List UInt8

section Gate

variable (lib : Libraries)
  (bundleFromSlice : List UInt8 → Except String ProfileVerificationBundleWireV1)

/-- The bundle that the verifier produces on the inputs. -/
def FrozenInputs.produce (i : FrozenInputs) : Except String ProfileVerificationBundleV1 :=
  verifyProfileCase lib i.manifest i.requirementsCommit i.implementationCommit i.candidate
    i.sampleCsv i.oracleJson

/-- The gate on the inputs. -/
def FrozenInputs.replay (i : FrozenInputs) (bytes : List UInt8) :
    Except String VerifiedReportArtifactV1 :=
  verifiedProfileReportFromJson lib bundleFromSlice bytes i.manifest i.requirementsCommit
    i.implementationCommit i.candidate i.sampleCsv i.oracleJson

/-- The bundle that bytes are read as. -/
def readBundle (bytes : List UInt8) : Except String ProfileVerificationBundleV1 :=
  (bundleFromSlice bytes).map ProfileVerificationBundleWireV1.value

/-- What is let through, and as what. -/
def artifactOf (bundle : ProfileVerificationBundleV1) : VerifiedReportArtifactV1 :=
  ⟨bundle.verification, "profile_verification_bundle"⟩

variable {lib bundleFromSlice} {i : FrozenInputs} {bytes : List UInt8}

theorem readBundle_eq_ok {wire : ProfileVerificationBundleWireV1}
    (h : bundleFromSlice bytes = .ok wire) :
    readBundle bundleFromSlice bytes = .ok wire.value := by
  unfold readBundle
  rw [h]
  rfl

theorem fromJson_eq_ok {bundle : ProfileVerificationBundleV1} :
    ProfileVerificationBundleV1.fromJson lib.sha256 bundleFromSlice bytes = .ok bundle ↔
      readBundle bundleFromSlice bytes = .ok bundle ∧ bundle.verify lib.sha256 = .ok () := by
  unfold ProfileVerificationBundleV1.fromJson
  rw [bind_eq_ok]
  constructor
  · rintro ⟨wire, hwire, h⟩
    obtain ⟨⟨⟩, hverify, h⟩ := bind_eq_ok.mp h
    cases h
    exact ⟨readBundle_eq_ok (mapError_eq_ok.mp hwire), hverify⟩
  · rintro ⟨hread, hverify⟩
    cases hslice : bundleFromSlice bytes with
    | error e =>
      rw [readBundle, hslice] at hread
      cases hread
    | ok wire =>
      rw [readBundle_eq_ok hslice] at hread
      cases hread
      exact ⟨wire, rfl, bind_eq_ok.mpr ⟨(), hverify, rfl⟩⟩

/-- **The gate accepts** the bytes of the produced bundle, and no others.  The checks before the
comparison drop out: they hold of the produced bundle, and what has passed the comparison is that
bundle. -/
theorem replay_eq_ok {artifact : VerifiedReportArtifactV1} :
    i.replay lib bundleFromSlice bytes = .ok artifact ↔
      ∃ bundle, i.produce lib = .ok bundle ∧ readBundle bundleFromSlice bytes = .ok bundle ∧
        artifact = artifactOf bundle := by
  unfold FrozenInputs.replay verifiedProfileReportFromJson
  constructor
  · intro h
    obtain ⟨⟨⟩, -, h⟩ := bind_eq_ok.mp h
    obtain ⟨received, hreceived, h⟩ := bind_eq_ok.mp h
    obtain ⟨⟨⟩, -, h⟩ := bind_eq_ok.mp h
    obtain ⟨replayed, hreplayed, h⟩ := bind_eq_ok.mp h
    obtain ⟨⟨⟩, hcanonical, h⟩ := bind_eq_ok.mp h
    cases h
    have hsame : received = replayed := ProfileVerificationBundleV1.json_injective _ _
      (canonicalJsonBytes_inj (orError_eq_ok.mp hcanonical))
    subst hsame
    exact ⟨received, hreplayed, (fromJson_eq_ok.mp hreceived).1, rfl⟩
  · rintro ⟨bundle, hproduced, hread, rfl⟩
    have hmanifest := verifyAgainstManifest_of_produced hproduced
    obtain ⟨⟨⟩, hverify, -⟩ := bind_eq_ok.mp hmanifest
    obtain ⟨-, hkind, -⟩ := (verifyProfileCase_eq_ok _ _ _ _ _ _ _).mp hproduced
    refine bind_eq_ok.mpr ⟨(), orError_eq_ok.mpr hkind, ?_⟩
    refine bind_eq_ok.mpr ⟨bundle, fromJson_eq_ok.mpr ⟨hread, hverify⟩, ?_⟩
    refine bind_eq_ok.mpr ⟨(), hmanifest, ?_⟩
    refine bind_eq_ok.mpr ⟨bundle, hproduced, ?_⟩
    exact bind_eq_ok.mpr ⟨(), orError_eq_ok.mpr rfl, rfl⟩

/-- A bundle that is consistent, but not the one produced, differs from the replay. -/
theorem replay_of_forged {bundle forged : ProfileVerificationBundleV1}
    (hproduced : i.produce lib = .ok bundle) (hforged : forged ≠ bundle)
    (hread : readBundle bundleFromSlice bytes = .ok forged)
    (hconsistent : forged.verifyAgainstManifest lib.sha256 i.manifest = .ok ()) :
    i.replay lib bundleFromSlice bytes =
      .error "profile verification bundle differs from deterministic replay of frozen inputs" := by
  obtain ⟨⟨⟩, hverify, -⟩ := bind_eq_ok.mp hconsistent
  obtain ⟨-, hkind, -⟩ := (verifyProfileCase_eq_ok _ _ _ _ _ _ _).mp hproduced
  have hreceived := fromJson_eq_ok.mpr ⟨hread, hverify⟩
  have hdiffers : ¬ canonicalJsonBytes forged.json = canonicalJsonBytes bundle.json := by
    intro hcanonical
    exact hforged
      (ProfileVerificationBundleV1.json_injective _ _ (canonicalJsonBytes_inj hcanonical))
  unfold FrozenInputs.produce at hproduced
  unfold FrozenInputs.replay verifiedProfileReportFromJson
  rw [orError_eq_ok (u := ()) |>.mpr hkind, hreceived]
  simp only [bind, Except.bind, hconsistent, hproduced, orError, if_neg hdiffers]

/-- **The replay gate.** Bytes are accepted exactly if they are read as the bundle that the
verifier produces on the frozen inputs, and as the artifact of that bundle.  So the produced
bundle passes when it is written and read back, and a bundle with any field altered does not; if
it is consistent with itself and with the manifest, the error is the one of the last comparison,
which therefore cannot be left out.  `bundleFromSlice` is arbitrary: what is asked of it is a
premise of the part that needs it. -/
theorem replay_exact (lib : Libraries)
    (bundleFromSlice : List UInt8 → Except String ProfileVerificationBundleWireV1)
    (i : FrozenInputs) :
    (∀ bytes artifact, i.replay lib bundleFromSlice bytes = .ok artifact ↔
      ∃ bundle, i.produce lib = .ok bundle ∧ readBundle bundleFromSlice bytes = .ok bundle ∧
        artifact = artifactOf bundle) ∧
    (∀ bundle, i.produce lib = .ok bundle →
      readBundle bundleFromSlice bundle.toVec = .ok bundle →
      i.replay lib bundleFromSlice bundle.toVec = .ok (artifactOf bundle)) ∧
    ∀ bundle altered, i.produce lib = .ok bundle → altered ≠ bundle →
      readBundle bundleFromSlice altered.toVec = .ok altered →
      (∃ error, i.replay lib bundleFromSlice altered.toVec = .error error) ∧
      (altered.verifyAgainstManifest lib.sha256 i.manifest = .ok () →
        i.replay lib bundleFromSlice altered.toVec = .error
          "profile verification bundle differs from deterministic replay of frozen inputs") := by
  refine ⟨fun bytes artifact => replay_eq_ok, ?_, ?_⟩
  · intro bundle hproduced hread
    exact replay_eq_ok.mpr ⟨bundle, hproduced, hread, rfl⟩
  · intro bundle altered hproduced haltered hread
    constructor
    · cases hreplay : i.replay lib bundleFromSlice altered.toVec with
      | error error => exact ⟨error, rfl⟩
      | ok artifact =>
        obtain ⟨bundle', hproduced', hread', -⟩ := replay_eq_ok.mp hreplay
        cases hproduced.symm.trans hproduced'
        cases hread.symm.trans hread'
        exact absurd rfl haltered
    · exact replay_of_forged hproduced haltered hread

end Gate

namespace Sample

def inputs : FrozenInputs :=
  ⟨Contracts.Sample.manifest sampleCsv oracleJson, "1111111", "2222222", candidate, sampleCsv,
    oracleJson⟩

def bundle : ProfileVerificationBundleV1 :=
  caseBundle lib inputs.manifest "1111111" "2222222" candidate sampleCsv oracleJson oracle headers

/-- The fields of a bundle, to be read. -/
def wire (b : ProfileVerificationBundleV1) : ProfileVerificationBundleWireV1 :=
  ⟨b.schemaVersion, b.verification, b.profileScore, b.bundleDigest⟩

/-- Reading, as far as the sample goes: the stored bundle and nothing else. -/
def bundleFromSlice (bytes : List UInt8) : Except String ProfileVerificationBundleWireV1 :=
  if bytes = bundle.toVec then .ok (wire bundle) else .error "expected value at line 1 column 1"

theorem value_wire (b : ProfileVerificationBundleV1) : (wire b).value = b := rfl

theorem readBundle_bundle : readBundle bundleFromSlice bundle.toVec = .ok bundle := by
  have hslice : bundleFromSlice bundle.toVec = .ok (wire bundle) := by
    unfold bundleFromSlice
    rw [if_pos (Eq.refl bundle.toVec)]
  rw [readBundle_eq_ok hslice, value_wire]

/-- The bundle of the sample case passes the gate, written and read back. -/
theorem stored_bundle_accepted :
    inputs.replay lib bundleFromSlice bundle.toVec = .ok (artifactOf bundle) :=
  (replay_exact lib bundleFromSlice inputs).2.1 bundle verifyProfileCase_sample readBundle_bundle

end Sample

end Musubi.IntegrationCase
