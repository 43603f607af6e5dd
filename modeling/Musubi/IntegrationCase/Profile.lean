/-
# The profile verifier

`integration-case/src/profile.rs`: a candidate profile is read against a synthetic sample, scored
against an oracle that was frozen before it, and reported check by check.  The hash, the parser of
profiles, the readers and the JSON reader are what the verifier calls; they are parameters.

The verifier never stops at a failure of the candidate.  What can go wrong with the frozen inputs,
a manifest that does not validate, an oracle that cannot be read, a sample without a header, is an
error and there is no report; whatever the candidate does is a check with a status, and there
always is a bundle.  `Findings` is the state between the two: what has been found out when the
checks are made.

A field that the candidate binds to a role is unreachable, a match, a phantom, which is a field
that the sample does not have, or a mismap (`classify`).  The class is taken from the LAST role
under which the oracle lists the field, since the loop that collects the expected roles
overwrites.  The score counts the classes, and every count is clamped to 32 bits.
-/
import Musubi.Contracts.IntegrationCase
import Musubi.Lib.BTreeMap
import Musubi.Reference.Observation
import Mathlib.Data.Finset.Basic

namespace Musubi.IntegrationCase

open Lib Musubi.Core Contracts Reference Northbound.WirePolicy

/-- Return the message unless the condition holds. -/
def orError (condition : Prop) [Decidable condition] (message : String) : Except String Unit :=
  if condition then .ok () else .error message

theorem orError_eq_ok {condition : Prop} [Decidable condition] {message : String} {u : Unit} :
    orError condition message = .ok u ↔ condition := by
  unfold orError
  split
  · rename_i h
    exact iff_of_true rfl h
  · rename_i h
    refine iff_of_false ?_ h
    intro hok
    cases hok

/-- `map_err(|error| error.to_string())`. -/
def displayed {α : Type} (r : ContractResult α) : Except String α :=
  r.mapError ContractError.display

/-! ## 1. The oracle -/

structure ExpectationOracleV1 where
  channel : String
  cadenceMs : UInt64
  graceK : UInt32
  frozenMs : Option UInt64
deriving DecidableEq, Repr

/-- Fields that are acceptable for one role, and fields that no sample can show. -/
structure RoleBindingOracleV1 where
  role : String
  acceptableFields : List String
  unreachableFields : List String
  required : Bool
deriving DecidableEq, Repr

structure ProfileOracleV1 where
  schemaVersion : UInt32
  bindings : List RoleBindingOracleV1
  fieldUnits : BTreeMap String String
  expectations : List ExpectationOracleV1
deriving DecidableEq

def knownRole (role : String) : Bool :=
  role ∈ ["time", "status", "link", "battery", "gps", "health"]

/-- The loop over the bindings, with the roles met so far. -/
def validateBindings : List String → List RoleBindingOracleV1 → Except String Unit
  | _, [] => .ok ()
  | roles, binding :: bindings => do
    orError (knownRole binding.role ∧ binding.role ∉ roles)
      ("unknown or duplicate oracle role: " ++ binding.role)
    orError (¬ (binding.acceptableFields = [] ∧ binding.unreachableFields = []))
      ("oracle role has no fields: " ++ binding.role)
    validateBindings (binding.role :: roles) bindings

/-- The loop over the expectations, with the channels met so far. -/
def validateExpectations : List String → List ExpectationOracleV1 → Except String Unit
  | _, [] => .ok ()
  | channels, expectation :: expectations => do
    orError (¬ (ChannelId.parse expectation.channel = none ∨ expectation.cadenceMs = 0 ∨
        expectation.graceK = 0 ∨ expectation.channel ∈ channels))
      "profile oracle has an invalid or duplicate expectation"
    validateExpectations (expectation.channel :: channels) expectations

def validateOracle (oracle : ProfileOracleV1) : Except String Unit := do
  orError (¬ (oracle.schemaVersion ≠ 1 ∨ oracle.bindings = [] ∨ oracle.fieldUnits.entries = [] ∨
      oracle.expectations = []))
    "profile oracle requires schema_version=1, bindings, field_units, and expectations"
  validateBindings [] oracle.bindings
  let expectedFields := (oracle.bindings.flatMap RoleBindingOracleV1.acceptableFields).toFinset
  let unitFields := oracle.fieldUnits.keys.toFinset
  orError (¬ (expectedFields ≠ unitFields ∨
      oracle.fieldUnits.entries.any fun entry => trim entry.2.toList = []))
    "profile oracle field_units must exactly cover acceptable fields"
  validateExpectations [] oracle.expectations

/-! ## 2. The header of the sample -/

/-- `lines().next()`: a carriage return belongs to the end of a line before a line feed only. -/
def firstLine (text : List Char) : Option (List Char) :=
  if text = [] then none
  else
    let line := text.takeWhile (· ≠ '\n')
    if '\n' ∈ text ∧ line.getLast? = some '\r' then some line.dropLast else some line

/-- The loop over the characters of the header: whether it is inside a quotation, the field so
far, the fields before it. -/
def scanHeader : Bool → List Char → List (List Char) → List Char → Except String (List (List Char))
  | true, current, fields, '"' :: '"' :: chars =>
    scanHeader true (current ++ ['"']) fields chars
  | quoted, current, fields, '"' :: chars => scanHeader (!quoted) current fields chars
  | false, current, fields, ',' :: chars => scanHeader false [] (fields ++ [trim current]) chars
  | quoted, current, fields, ch :: chars => scanHeader quoted (current ++ [ch]) fields chars
  | true, _, _, [] => .error "sample CSV header has an unterminated quote"
  | false, current, fields, [] => .ok (fields ++ [trim current])

def parseCsvHeader (bytes : List UInt8) : Except String (Finset String) :=
  match String.fromUTF8? ⟨bytes.toArray⟩ with
  | none => .error "sample CSV is not UTF-8"
  | some text =>
    match firstLine text.toList with
    | none => .error "sample CSV has no header"
    | some line => do
      let fields ← scanHeader false [] [] line
      orError (¬ fields.any List.isEmpty) "sample CSV header contains an empty field"
      return (fields.map String.ofList).toFinset

/-! ## 3. The score -/

/-- What a binding of the candidate is, against the sample and the oracle. -/
inductive BindingClass
  | match_
  | miss
  | misMap
  | phantom
  | unreachable
deriving DecidableEq, Repr

structure BindingResultV1 where
  role : String
  field : String
  class_ : BindingClass
  consumed : Bool
deriving DecidableEq, Repr

structure ProfileScoreV1 where
  readerFormat : String
  readerObservationCount : UInt32
  unitMatched : UInt32
  unitMismatched : UInt32
  cadenceMatched : UInt32
  cadenceMismatched : UInt32
  matched : UInt32
  missed : UInt32
  misMapped : UInt32
  phantom : UInt32
  unreachable : UInt32
  consumed : UInt32
  inert : UInt32
  bindings : List BindingResultV1
deriving DecidableEq, Repr

def candidateBindings (profile : FamilyProfile) : BTreeMap String (List String) :=
  .ofList [("time", [profile.fields.time]), ("status", profile.fields.status),
    ("link", profile.fields.link), ("battery", profile.fields.battery),
    ("gps", profile.fields.gps), ("health", profile.fields.health)]

/-- The role that the oracle expects a field in: the last one that lists it. -/
def expectedByField (oracle : ProfileOracleV1) : BTreeMap String String :=
  .ofList (oracle.bindings.flatMap fun binding =>
    binding.acceptableFields.map fun field => (field, binding.role))

def unreachableFields (oracle : ProfileOracleV1) : Finset String :=
  (oracle.bindings.flatMap RoleBindingOracleV1.unreachableFields).toFinset

/-- The class of a field that the candidate binds to a role. -/
def classify (headers : Finset String) (oracle : ProfileOracleV1) (role field : String) :
    BindingClass :=
  if field ∈ unreachableFields oracle then .unreachable
  else if field ∉ headers then .phantom
  else if (expectedByField oracle).get? field = some role then .match_
  else if ((expectedByField oracle).get? field).isSome then .misMap
  else .phantom

/-- Roles and fields as the candidate binds them. -/
def candidatePairs (profile : FamilyProfile) : List (String × String) :=
  (candidateBindings profile).entries.flatMap fun entry =>
    entry.2.map fun field => (entry.1, field)

/-- The role and the field of each match. -/
def matchedExpected (profile : FamilyProfile) (headers : Finset String)
    (oracle : ProfileOracleV1) : Finset (String × String) :=
  ((candidatePairs profile).filter fun pair =>
    classify headers oracle pair.1 pair.2 = .match_).toFinset

/-- A required role of the oracle without a match. -/
def requiredMiss (matchedExpected : Finset (String × String)) (binding : RoleBindingOracleV1) :
    Option BindingResultV1 :=
  if !binding.required then none
  else if binding.acceptableFields.any fun field => (binding.role, field) ∈ matchedExpected then
    none
  else some ⟨binding.role, "<required-binding>", .miss, false⟩

/-- Results are sorted by role and field. -/
def BindingLE (left right : BindingResultV1) : Prop :=
  left.role < right.role ∨ left.role = right.role ∧ left.field ≤ right.field

instance : DecidableRel BindingLE := fun left right =>
  inferInstanceAs (Decidable
    (left.role < right.role ∨ left.role = right.role ∧ left.field ≤ right.field))

def bindingResults (profile : FamilyProfile) (headers : Finset String)
    (oracle : ProfileOracleV1) (consumedFields : Finset String) : List BindingResultV1 :=
  let results := (candidatePairs profile).map fun pair =>
    ⟨pair.1, pair.2, classify headers oracle pair.1 pair.2, pair.2 ∈ consumedFields⟩
  let misses :=
    oracle.bindings.filterMap (requiredMiss (matchedExpected profile headers oracle))
  (results ++ misses).insertionSort BindingLE

def expectedCadence (oracle : ProfileOracleV1) :
    Finset (String × UInt64 × UInt32 × Option UInt64) :=
  (oracle.expectations.map fun expectation => (expectation.channel, expectation.cadenceMs,
    expectation.graceK, expectation.frozenMs)).toFinset

def actualCadence (profile : FamilyProfile) : Finset (String × UInt64 × UInt32 × Option UInt64) :=
  (profile.expectations.map fun expectation => (expectation.channel.asStr, expectation.cadenceMs,
    expectation.graceK, expectation.frozenMs)).toFinset

/-- Counts are clamped to 32 bits. -/
def scoreProfile (profile : FamilyProfile) (headers : Finset String) (oracle : ProfileOracleV1)
    (readerObservationCount : UInt32) (consumedFields : Finset String) : ProfileScoreV1 :=
  let results := bindingResults profile headers oracle consumedFields
  let count (p : BindingResultV1 → Bool) := UInt32.ofNatClamp (results.filter p).length
  let unitMatched := oracle.fieldUnits.agreeing profile.fieldUnits
  let unitKeys := oracle.fieldUnits.keys.toFinset ∪ profile.fieldUnits.keys.toFinset
  let cadenceMatched := (expectedCadence oracle ∩ actualCadence profile).card
  let cadenceTotal := (expectedCadence oracle ∪ actualCadence profile).card
  { readerFormat := profile.format
    readerObservationCount
    unitMatched := .ofNatClamp unitMatched
    unitMismatched := .ofNatClamp (unitKeys.card - unitMatched)
    cadenceMatched := .ofNatClamp cadenceMatched
    cadenceMismatched := .ofNatClamp (cadenceTotal - cadenceMatched)
    matched := count fun result => result.class_ = .match_
    missed := count fun result => result.class_ = .miss
    misMapped := count fun result => result.class_ = .misMap
    phantom := count fun result => result.class_ = .phantom
    unreachable := count fun result => result.class_ = .unreachable
    consumed := count fun result => result.consumed
    inert := count fun result => result.class_ ≠ .miss && !result.consumed
    bindings := results }

/-! ## 4. The candidate -/

/-- `valid_relative_path` of `lib.rs`: splitting gives at least one component. -/
def validRelativePath (value : String) : Bool :=
  let text := value.toList
  if text = [] ∨ text.head? = some '/' ∨ text.head? = some '\\' then false
  else (text.splitOnP fun c => c = '/' || c = '\\').all fun part =>
    ¬ (part = [] ∨ part = ['.'] ∨ part = ['.', '.'])

structure ProfileCandidateArtifactV1 where
  relativePath : String
  bytes : List UInt8
  candidateDigest : DigestV1
  artifactSetDigest : DigestV1
deriving DecidableEq

def ProfileCandidateArtifactV1.fromSingle (sha256 : List UInt8 → Digest)
    (manifest : IntegrationCaseManifestV1) (relativePath : String) (bytes : List UInt8) :
    Except String ProfileCandidateArtifactV1 := do
  orError (manifest.candidateKind = .profile) "profile candidate requires candidate_kind=profile"
  orError (validRelativePath relativePath ∧ manifest.candidateWriteAllowlist = [relativePath])
    "Profile v1 requires one exact relative file in candidate_write_allowlist"
  let candidateDigest := DigestV1.sha256 sha256 bytes
  return {
    relativePath
    bytes
    candidateDigest
    artifactSetDigest := canonicalSha256 sha256
      (.array [.object [("relative_path", .string relativePath),
        ("digest", candidateDigest.json)]]) }

/-! ## 5. The bundle -/

def BindingClass.name : BindingClass → String
  | .match_ => "match"
  | .miss => "miss"
  | .misMap => "mis_map"
  | .phantom => "phantom"
  | .unreachable => "unreachable"

def BindingResultV1.json (r : BindingResultV1) : Json :=
  .object [("role", .string r.role), ("field", .string r.field), ("class", .string r.class_.name),
    ("consumed", .bool r.consumed)]

def ProfileScoreV1.json (s : ProfileScoreV1) : Json :=
  .object [("reader_format", .string s.readerFormat),
    ("reader_observation_count", .number s.readerObservationCount.toNat),
    ("unit_matched", .number s.unitMatched.toNat),
    ("unit_mismatched", .number s.unitMismatched.toNat),
    ("cadence_matched", .number s.cadenceMatched.toNat),
    ("cadence_mismatched", .number s.cadenceMismatched.toNat),
    ("matched", .number s.matched.toNat), ("missed", .number s.missed.toNat),
    ("mis_mapped", .number s.misMapped.toNat), ("phantom", .number s.phantom.toNat),
    ("unreachable", .number s.unreachable.toNat), ("consumed", .number s.consumed.toNat),
    ("inert", .number s.inert.toNat), ("bindings", .array (s.bindings.map BindingResultV1.json))]

structure ProfileVerificationBundleV1 where
  schemaVersion : String
  verification : VerificationReportV1
  profileScore : Option ProfileScoreV1
  bundleDigest : DigestV1
deriving DecidableEq

/-- The JSON of `BundlePayloadRef`, what the digest of a bundle is over. -/
def bundlePayloadJson (schemaVersion : String) (verification : VerificationReportV1)
    (profileScore : Option ProfileScoreV1) : Json :=
  .object [("schema_version", .string schemaVersion), ("verification", verification.json),
    ("profile_score", optionJson ProfileScoreV1.json profileScore)]

def ProfileVerificationBundleV1.new (sha256 : List UInt8 → Digest)
    (verification : VerificationReportV1) (profileScore : Option ProfileScoreV1) :
    ProfileVerificationBundleV1 where
  schemaVersion := schemaVersionV1
  verification
  profileScore
  bundleDigest :=
    canonicalSha256 sha256 (bundlePayloadJson schemaVersionV1 verification profileScore)

/-! ## 6. The checks -/

/-- `check` of `report.rs`. -/
def check (checkId : VerificationCheckIdV1) (status : CheckStatusV1) (detailCode : String)
    (digest : DigestV1) : VerificationCheckV1 :=
  ⟨checkId, status, detailCode, ⟨digest, "application/json", .receipt⟩⟩

def booleanCheck (checkId : VerificationCheckIdV1) (pass : Bool) (passCode failCode : String)
    (digest : DigestV1) : VerificationCheckV1 :=
  check checkId (if pass then .pass else .fail) (if pass then passCode else failCode) digest

/-- What the verifier calls. -/
structure Libraries where
  sha256 : List UInt8 → Digest
  parseProfile : String → String → Option FamilyProfile
  readerFor : String → Option (FamilyProfile → List UInt8 → Option (List Observation))
  oracleFromSlice : List UInt8 → Except String ProfileOracleV1

/-- What the verifier has found out when it makes the checks. -/
structure Findings where
  manifestDigest : DigestV1
  sampleDigest : DigestV1
  oracleDigest : DigestV1
  artifactSetDigest : DigestV1
  candidateDigest : DigestV1
  scoreDigest : DigestV1
  baseMatch : Bool
  inputMatch : Bool
  oracleMatch : Bool
  candidateAllowed : Bool
  parsePass : Bool
  againstPass : Bool
  scorePass : Bool

/-- The check that is made under each id. -/
def Findings.checkOf (f : Findings) (checkId : VerificationCheckIdV1) : VerificationCheckV1 :=
  match checkId with
  | .manifestValid => check checkId .pass "MANIFEST_VALIDATED" f.manifestDigest
  | .declaredBasePinMatch =>
    booleanCheck checkId f.baseMatch "DECLARED_BASE_PINS_MATCH" "DECLARED_BASE_PINS_MISMATCH"
      f.manifestDigest
  | .inputDigestMatch =>
    booleanCheck checkId f.inputMatch "INPUT_MATCH" "INPUT_MISMATCH" f.sampleDigest
  | .oracleDigestMatch =>
    booleanCheck checkId f.oracleMatch "ORACLE_MATCH" "ORACLE_MISMATCH" f.oracleDigest
  | .candidateArtifactSetWithinAllowlist =>
    booleanCheck checkId f.candidateAllowed "CANDIDATE_ARTIFACT_SET_ALLOWED"
      "CANDIDATE_ARTIFACT_SET_OUTSIDE_ALLOWLIST" f.artifactSetDigest
  | .profileParse =>
    booleanCheck checkId f.parsePass "PROFILE_PARSED" "PROFILE_PARSE_FAILED" f.candidateDigest
  | .profileAgainstSample =>
    booleanCheck checkId f.againstPass "READER_SAMPLE_AND_BINDINGS_MATCH"
      "READER_SAMPLE_OR_BINDING_FAILURE" f.scoreDigest
  | .profileScore =>
    booleanCheck checkId f.scorePass "PROFILE_MATCHES_ORACLE" "PROFILE_SCORE_MISMATCH"
      f.scoreDigest
  | .generatorVerifierDistinct => check checkId .pass "ACTORS_DISTINCT" f.manifestDigest
  | .adapterConformance | .architectureFitness | .runtimeEgressZero =>
    check checkId .fail "WRONG_CHECK_FOR_PROFILE_CASE" f.manifestDigest

def dispositionOf (checks : List VerificationCheckV1) : VerificationDispositionV1 :=
  if checks.any fun item => item.status = .fail then .fail
  else if checks.any fun item => item.status = .hold then .hold
  else .awaitingHumanSeal

/-! ## 7. The verifier -/

section Verifier

variable (lib : Libraries)

def parsedProfile (candidate : ProfileCandidateArtifactV1) : Option FamilyProfile :=
  (String.fromUTF8? ⟨candidate.bytes.toArray⟩).bind fun text => lib.parseProfile text "candidate"

/-- The observations that the reader of the profile's format makes of the sample. -/
def readerRun (profile : FamilyProfile) (sampleCsv : List UInt8) : Option (List Observation) :=
  (lib.readerFor profile.format).bind fun reader => reader profile sampleCsv

/-- The fields that the observations have.  A handset profile may read its time out of several
columns under one name, so that name counts as read. -/
def consumedFields (profile : FamilyProfile) (observations : List Observation) : Finset String :=
  let fields := (observations.flatMap fun observation => observation.fields.map Prod.fst).toFinset
  if 0 < observations.length ∧ profile.format = "edgetx_csv" then
    insert profile.fields.time fields
  else fields

/-- The observations of the candidate, and its score if it is a profile. -/
def scoreCandidate (candidate : ProfileCandidateArtifactV1) (sampleCsv : List UInt8)
    (oracle : ProfileOracleV1) (headers : Finset String) :
    List Observation × Option ProfileScoreV1 :=
  let profile := parsedProfile lib candidate
  let observations := (profile.bind fun profile => readerRun lib profile sampleCsv).getD []
  (observations, profile.map fun profile =>
    scoreProfile profile headers oracle (.ofNatClamp observations.length)
      (consumedFields profile observations))

def findings (manifest : IntegrationCaseManifestV1) (manifestDigest : DigestV1)
    (requirementsCommit implementationCommit : String) (candidate : ProfileCandidateArtifactV1)
    (sampleCsv oracleJson : List UInt8) (observations : List Observation)
    (score : Option ProfileScoreV1) : Findings :=
  let sampleDigest := DigestV1.sha256 lib.sha256 sampleCsv
  let oracleDigest := DigestV1.sha256 lib.sha256 oracleJson
  let readerPass := decide (0 < observations.length)
  { manifestDigest
    sampleDigest
    oracleDigest
    artifactSetDigest := candidate.artifactSetDigest
    candidateDigest := candidate.candidateDigest
    scoreDigest :=
      match score with
      | some value => canonicalSha256 lib.sha256 value.json
      | none => candidate.candidateDigest
    baseMatch := manifest.requirementsCommit = requirementsCommit &&
      manifest.implementationCommit = implementationCommit
    inputMatch := manifest.inputArtifacts.length = 1 &&
      manifest.inputArtifacts.head?.any fun artifact => artifact.digest = sampleDigest
    oracleMatch := manifest.oracle.oracleDigest = oracleDigest
    candidateAllowed := manifest.candidateWriteAllowlist = [candidate.relativePath]
    parsePass := (parsedProfile lib candidate).isSome
    againstPass := readerPass && score.any fun value => value.phantom = 0
    scorePass := score.any fun value =>
      readerPass && value.missed = 0 && value.misMapped = 0 && value.phantom = 0 &&
        value.inert = 0 && value.unitMismatched = 0 && value.cadenceMismatched = 0 }

def reportOf (manifest : IntegrationCaseManifestV1) (f : Findings) : VerificationReportV1 :=
  let checks := manifest.requiredChecks.map f.checkOf
  { schemaVersion := schemaVersionV1
    caseId := manifest.caseId
    candidateKind := .profile
    generatorActorId := manifest.generatorActorId
    verifierActorId := manifest.verifierActorId
    inputManifestDigest := f.manifestDigest
    candidateDigest := f.candidateDigest
    checks
    abstentionReasons := []
    disposition := dispositionOf checks
    hotReloadApplied := false
    runtimeLoadAuthorized := false
    claimCeiling := .simSelfAttest }

def verifyProfileCase (manifest : IntegrationCaseManifestV1)
    (requirementsCommit implementationCommit : String) (candidate : ProfileCandidateArtifactV1)
    (sampleCsv oracleJson : List UInt8) : Except String ProfileVerificationBundleV1 := do
  displayed manifest.validate
  orError (manifest.candidateKind = .profile) "profile verifier requires candidate_kind=profile"
  let manifestDigest ← displayed (manifest.manifestDigest lib.sha256)
  let oracle ← (lib.oracleFromSlice oracleJson).mapError ("profile oracle JSON: " ++ ·)
  validateOracle oracle
  let headers ← parseCsvHeader sampleCsv
  let (observations, score) := scoreCandidate lib candidate sampleCsv oracle headers
  let report := reportOf manifest (findings lib manifest manifestDigest requirementsCommit
    implementationCommit candidate sampleCsv oracleJson observations score)
  displayed (report.validateAgainstManifest lib.sha256 manifest)
  return .new lib.sha256 report score

end Verifier

end Musubi.IntegrationCase
