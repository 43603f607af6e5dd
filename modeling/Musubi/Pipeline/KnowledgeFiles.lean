/-
# Profile and catalog files

`reference-readers/src/profile.rs` and `catalog.rs`: what an analysis knows is read from TOML
files.  The TOML reader is a parameter: it returns the fields of a file or says why it cannot.  A
file is refused for a label that there is none of, and for a declaration that its format or its
other declarations do not bear.

Identifiers and versions are carried over as they are (`parseProfile_carries`,
`parseCatalog_carries`): no text is refused for the characters in it.  This matters further on,
where such texts are joined with a delimiter, and `ParsedKnowledge` exists so that results about
an analysis can speak of the files behind its profiles and its catalog.
-/
import Musubi.Northbound.WirePolicy
import Musubi.Pipeline.Eval
import Musubi.Reference.Reader
import Musubi.Reference.Ulog

namespace Musubi.Pipeline

open Lib Reference Northbound Eval

/-- `ok_or_else`. -/
def okOrElse {ε α : Type} (o : Option α) (e : ε) : Except ε α :=
  match o with
  | some a => .ok a
  | none => .error e

/-! ## 1. Labels -/

def parseFamily (s : String) : Option Family :=
  match s with
  | "unknown" => some .unknown
  | "ugv" => some .ugv
  | "fixed_wing" => some .fixedWing
  | "fpv" => some .fpv
  | _ => none

def parseSourceRole (s : String) : Option SourceRole :=
  match s with
  | "fc" => some .fc
  | "gcs" => some .gcs
  | "handset" => some .handset
  | "video" => some .video
  | "recorded_export" => some .recordedExport
  | _ => none

def parseClockBasis (s : String) : Option ClockBasis :=
  match s with
  | "gps_locked" => some .gpsLocked
  | "gps_suspect" => some .gpsSuspect
  | "rtc_set_once" => some .rtcSetOnce
  | "boot_relative_offset_estimated" => some .bootRelativeOffsetEstimated
  | "host_received" => some .hostReceived
  | "boot_relative" => some .bootRelative
  | "unknown" => some .unknown
  | _ => none

/-! ## 2. Profile files -/

structure FieldsFile where
  time : String
  status : List String := []
  link : List String := []
  battery : List String := []
  gps : List String := []
  health : List String := []
deriving DecidableEq

structure ExpectationFile where
  id : String
  channel : String
  cadenceMs : UInt64
  graceK : UInt32
  frozenMs : Option UInt64 := none
  frozenFields : Option (List String) := none
  requiredFields : Option (List String) := none
  windowRule : Option String := none
deriving DecidableEq

structure ProfileFile where
  profileId : String
  version : String
  family : String
  sourceRole : String
  format : String
  extensions : List String
  defaultClockBasis : String
  channels : List String := []
  platformDomain : Option String := none
  clockRate : Option ClockRateFile := none
  selectedSender : Option SenderFile := none
  fields : FieldsFile
  units : BTreeMap String String := BTreeMap.empty
  expectations : List ExpectationFile := []
deriving DecidableEq

def ProfileFile.bad (f : ProfileFile) (what v : String) : ReadError :=
  .profile (f.profileId ++ ": unknown " ++ what ++ " '" ++ v ++ "'")

def windowRuleDeclaredWall : String := "declared_wall_window"

/-- Up to 32 different names, none of them empty, long or with blanks at its ends. -/
def validFieldSelection (names : List String) : Bool :=
  !names.isEmpty && names.length ≤ 32 &&
    names.all (fun n => n ≠ "" && n.utf8ByteSize ≤ 128 && WirePolicy.trim n.toList = n.toList) &&
    names.Nodup

/-- A threshold that fits into an `i64`. -/
def validThreshold (frozenMs : Option UInt64) : Bool :=
  frozenMs.any fun ms => 0 < ms && ms.toNat < 2 ^ 63

def domainDeclaringFormats : List String := ["telemetry_csv_us"]

def declaredDomain (f : ProfileFile) (family : Family) :
    Except ReadError (Option PlatformDomain) :=
  match f.platformDomain with
  | none => .ok none
  | some label =>
    if f.format ∉ domainDeclaringFormats then
      .error (.profile (f.profileId ++ ": format '" ++ f.format
        ++ "' has no reading path that carries a declared platform_domain '" ++ label ++ "'"))
    else if family ≠ .unknown then
      .error (.profile (f.profileId ++ ": platform_domain '" ++ label
        ++ "' cannot re-declare the domain of family '" ++ family.asStr ++ "'"))
    else
      match label with
      | "air" => .ok (some .air)
      | "surface" => .ok (some .surface)
      | "subsurface" => .ok (some .subsurface)
      | "ground" => .ok (some .ground)
      | "unknown" => .ok (some .unknown)
      | other => .error (f.bad "platform_domain" other)

/-- What is asked of the fields that freeze. -/
def checkFrozenFields (e : ExpectationFile) : Except ReadError Unit :=
  match e.frozenFields with
  | none => .ok ()
  | some names =>
    if !validThreshold e.frozenMs || !validFieldSelection names then
      .error (.profile "invalid explicit frozen field selection")
    else .ok ()

/-- What is asked of the fields that are required. -/
def checkRequiredFields (f : ProfileFile) (e : ExpectationFile) : Except ReadError Unit :=
  match e.requiredFields with
  | none => .ok ()
  | some names =>
    if !validFieldSelection names then
      .error (.profile "invalid explicit required field selection")
    else if e.frozenFields.isSome then
      .error (.profile (f.profileId ++ ": expectation '" ++ e.id
        ++ "' declares both required_fields and frozen_fields; "
        ++ "which one admits an observation would be decided silently"))
    else if e.channel ∉ f.channels then
      .error (.profile (f.profileId ++ ": expectation '" ++ e.id
        ++ "' requires fields on channel '" ++ e.channel ++ "', which this profile "
        ++ "does not declare in channels"))
    else .ok ()

def checkWindowRule (f : ProfileFile) (e : ExpectationFile) : Except ReadError Unit :=
  match e.windowRule with
  | none => .ok ()
  | some rule =>
    if rule ≠ windowRuleDeclaredWall then
      .error (.profile (f.profileId ++ ": expectation '" ++ e.id
        ++ "' has unknown window_rule '" ++ rule ++ "'"))
    else if e.requiredFields.isNone then
      .error (.profile (f.profileId ++ ": expectation '" ++ e.id
        ++ "' declares window_rule without required_fields"))
    else .ok ()

def parseExpectation (f : ProfileFile) (e : ExpectationFile) :
    Except ReadError ExpectationModel := do
  checkFrozenFields e
  checkRequiredFields f e
  checkWindowRule f e
  let channel ← okOrElse (ChannelId.parse e.channel) (f.bad "expectation channel" e.channel)
  return {
    expectationId := e.id
    channel
    cadenceMs := e.cadenceMs
    graceK := e.graceK
    frozenMs := e.frozenMs
    frozenFields := e.frozenFields
    requiredFields := e.requiredFields
    declaredWindowOnly := e.windowRule.isSome }

/-- `trim_start_matches('.')` and `to_ascii_lowercase`. -/
def normalExtension (e : String) : String :=
  .ofList ((e.toList.dropWhile (· = '.')).map Char.toLower)

/-- The profile that a file declares. -/
def profileOf (f : ProfileFile) (origin : String) : Except ReadError FamilyProfile := do
  let family ← okOrElse (parseFamily f.family) (f.bad "family" f.family)
  let sourceRole ← okOrElse (parseSourceRole f.sourceRole) (f.bad "source_role" f.sourceRole)
  let defaultClockBasis ← okOrElse (parseClockBasis f.defaultClockBasis)
    (f.bad "clock_basis" f.defaultClockBasis)
  let declaredPlatformDomain ← declaredDomain f family
  let declaredClockRate ← declaredClockRate f.profileId f.format f.clockRate
  let declaredSender ← declaredSender f.profileId f.format f.selectedSender
  let channels ← f.channels.mapM fun c => okOrElse (ChannelId.parse c) (f.bad "channel" c)
  let expectations ← f.expectations.mapM (parseExpectation f)
  return {
    profileId := f.profileId
    version := f.version
    family
    sourceRole
    format := f.format
    extensions := f.extensions.map normalExtension
    fields := {
      time := f.fields.time
      status := f.fields.status
      link := f.fields.link
      battery := f.fields.battery
      gps := f.fields.gps
      health := f.fields.health }
    fieldUnits := f.units
    channels
    expectations
    defaultClockBasis
    declaredPlatformDomain
    declaredSender
    declaredClockRate
    origin }

def parseProfile (fromStr : String → Except String ProfileFile) (tomlStr origin : String) :
    Except ReadError FamilyProfile := do
  let f ← (fromStr tomlStr).mapError ReadError.profile
  profileOf f origin

/-! ## 3. Catalog files -/

/-- What a signature file says; the wording is for readers of the catalog. -/
structure SignatureFile where
  id : String
  kind : String
  families : List String := []
  required : List String := []
  optional : List String := []
  contradicting : List String := []
deriving DecidableEq

structure CatalogFile where
  version : String
  signature : List SignatureFile := []
deriving DecidableEq

def parseKind (s : String) : Option FailureKind :=
  match s with
  | "rc_link_loss" => some .rcLinkLoss
  | "telemetry_link_loss" => some .telemetryLinkLoss
  | "fiber_break" => some .fiberBreak
  | "fc_failure" => some .fcFailure
  | "camera_stop" => some .cameraStop
  | "gnss_degradation" => some .gnssDegradation
  | "gnss_inconsistency" => some .gnssInconsistency
  | "storage_failure" => some .storageFailure
  | "configuration_error" => some .configurationError
  | _ => none

def parseCue (s : String) : Option Cue := do
  let (ch, id) ← Ulog.splitOnce ':' s.toList
  let channel ← ChannelId.parse (.ofList (WirePolicy.trim ch))
  return ⟨channel, .ofList (WirePolicy.trim id)⟩

def SignatureFile.bad (s : SignatureFile) (what v : String) : ReadError :=
  .profile ("signature " ++ s.id ++ ": unknown " ++ what ++ " '" ++ v ++ "'")

def SignatureFile.cues (s : SignatureFile) (labels : List String) : Except ReadError (List Cue) :=
  labels.mapM fun x => okOrElse (parseCue x) (s.bad "cue" x)

/-- A signature with its kind, of which an analysis reads the signature. -/
def parseSignature (s : SignatureFile) : Except ReadError (FailureKind × FailureSignature) := do
  let kind ← okOrElse (parseKind s.kind) (s.bad "kind" s.kind)
  let families ← s.families.mapM fun x => okOrElse (parseFamily x) (s.bad "family" x)
  let requiredCues ← s.cues s.required
  let optionalCues ← s.cues s.optional
  let contradictingCues ← s.cues s.contradicting
  return (kind, { signatureId := s.id, families, requiredCues, optionalCues, contradictingCues })

def parseCatalog (fromStr : String → Except String CatalogFile) (tomlStr : String) :
    Except ReadError SignatureCatalog := do
  let f ← (fromStr tomlStr).mapError ReadError.profile
  let signatures ← f.signature.mapM parseSignature
  return { version := f.version, signatures := signatures.map Prod.snd }

/-! ## 4. What is carried over -/

section Carried

variable {fromStr : String → Except String ProfileFile} {tomlStr origin : String}
  {p : FamilyProfile}

/-- What each member of a list keeps, the list keeps. -/
theorem map_eq_of_forall₂ {α β γ : Type} {R : α → β → Prop} {before : α → γ} {after : β → γ}
    {as : List α} {bs : List β} (hall : List.Forall₂ R as bs)
    (hkeeps : ∀ a b, R a b → after b = before a) : bs.map after = as.map before := by
  induction hall with
  | nil => rfl
  | cons hhead _ ih => rw [List.map_cons, List.map_cons, hkeeps _ _ hhead, ih]

theorem parseExpectation_carries {f : ProfileFile} {e : ExpectationFile} {m : ExpectationModel}
    (h : parseExpectation f e = .ok m) : m.expectationId = e.id := by
  unfold parseExpectation at h
  obtain ⟨-, -, h⟩ := bind_eq_ok.mp h
  obtain ⟨-, -, h⟩ := bind_eq_ok.mp h
  obtain ⟨-, -, h⟩ := bind_eq_ok.mp h
  obtain ⟨channel, -, h⟩ := bind_eq_ok.mp h
  cases h
  rfl

theorem profileOf_carries {f : ProfileFile} (h : profileOf f origin = .ok p) :
    p.version = f.version ∧
      p.expectations.map ExpectationModel.expectationId =
        f.expectations.map ExpectationFile.id := by
  unfold profileOf at h
  obtain ⟨family, -, h⟩ := bind_eq_ok.mp h
  obtain ⟨sourceRole, -, h⟩ := bind_eq_ok.mp h
  obtain ⟨basis, -, h⟩ := bind_eq_ok.mp h
  obtain ⟨domain, -, h⟩ := bind_eq_ok.mp h
  obtain ⟨clockRate, -, h⟩ := bind_eq_ok.mp h
  obtain ⟨sender, -, h⟩ := bind_eq_ok.mp h
  obtain ⟨channels, -, h⟩ := bind_eq_ok.mp h
  obtain ⟨expectations, hexpectations, h⟩ := bind_eq_ok.mp h
  cases h
  exact ⟨rfl, map_eq_of_forall₂ (mapM_eq_ok.mp hexpectations)
    fun e m hm => parseExpectation_carries hm⟩

/-- **A profile carries the version and the identifiers of its file**, in the order of the file.
-/
theorem parseProfile_carries (h : parseProfile fromStr tomlStr origin = .ok p) :
    ∃ f, fromStr tomlStr = .ok f ∧ p.version = f.version ∧
      p.expectations.map ExpectationModel.expectationId =
        f.expectations.map ExpectationFile.id := by
  unfold parseProfile at h
  obtain ⟨f, hf, h⟩ := bind_eq_ok.mp h
  exact ⟨f, mapError_eq_ok.mp hf, profileOf_carries h⟩

theorem parseSignature_carries {s : SignatureFile} {sig : FailureKind × FailureSignature}
    (h : parseSignature s = .ok sig) : sig.2.signatureId = s.id := by
  unfold parseSignature at h
  obtain ⟨kind, -, h⟩ := bind_eq_ok.mp h
  obtain ⟨families, -, h⟩ := bind_eq_ok.mp h
  obtain ⟨required, -, h⟩ := bind_eq_ok.mp h
  obtain ⟨optional, -, h⟩ := bind_eq_ok.mp h
  obtain ⟨contradicting, -, h⟩ := bind_eq_ok.mp h
  cases h
  rfl

/-- **A catalog carries the version and the identifiers of its file.** -/
theorem parseCatalog_carries {fromStr : String → Except String CatalogFile}
    {catalog : SignatureCatalog} (h : parseCatalog fromStr tomlStr = .ok catalog) :
    ∃ f, fromStr tomlStr = .ok f ∧ catalog.version = f.version ∧
      catalog.signatures.map FailureSignature.signatureId = f.signature.map SignatureFile.id := by
  unfold parseCatalog at h
  obtain ⟨f, hf, h⟩ := bind_eq_ok.mp h
  obtain ⟨signatures, hsignatures, h⟩ := bind_eq_ok.mp h
  cases h
  refine ⟨f, mapError_eq_ok.mp hf, rfl, ?_⟩
  dsimp only
  rw [List.map_map]
  exact map_eq_of_forall₂ (mapM_eq_ok.mp hsignatures) fun s sig hsig => parseSignature_carries hsig

end Carried

/-! ## 5. What an analysis knows -/

/-- Profiles and a catalog that were read from files.  The files themselves are not kept; that
there were some is what makes a condition on files a condition on the profiles. -/
structure ParsedKnowledge (profileToml : String → Except String ProfileFile)
    (catalogToml : String → Except String CatalogFile) where
  profiles : List FamilyProfile
  catalog : SignatureCatalog
  profiles_parsed : ∀ p ∈ profiles, ∃ tomlStr origin,
    parseProfile profileToml tomlStr origin = .ok p
  catalog_parsed : ∃ tomlStr, parseCatalog catalogToml tomlStr = .ok catalog

def ParsedKnowledge.knowledge {profileToml : String → Except String ProfileFile}
    {catalogToml : String → Except String CatalogFile}
    (k : ParsedKnowledge profileToml catalogToml) : Knowledge := ⟨k.profiles, k.catalog⟩

end Musubi.Pipeline
