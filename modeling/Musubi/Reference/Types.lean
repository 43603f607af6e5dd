/-
# The reference vocabulary

`reference-types/src/lib.rs`: families, channels and clocks by their labels, the profile that says
how a source is read and what is expected of it, and the negative observation that an unmet
expectation turns into.

Labels are what files and digests are written with, so each enumeration comes with its labels, and
that two members never share one is proved where it is used.  A profile is the whole of what a
person has declared about a source; readers and detectors take it as it is.
-/
import Musubi.Lib.Text
import Musubi.Types

namespace Musubi.Reference

open Lib

/-! ## 1. Labels -/

inductive Family
  | unknown
  | ugv
  | fixedWing
  | fpv
deriving DecidableEq, Repr

def Family.asStr : Family → String
  | .unknown => "unknown"
  | .ugv => "ugv"
  | .fixedWing => "fixed_wing"
  | .fpv => "fpv"

def Family.platformDomain : Family → PlatformDomain
  | .unknown => .unknown
  | .ugv => .ground
  | .fixedWing => .air
  | .fpv => .air

inductive SourceRole
  | fc
  | gcs
  | handset
  | video
  | recordedExport
deriving DecidableEq, Repr

def SourceRole.asStr : SourceRole → String
  | .fc => "fc"
  | .gcs => "gcs"
  | .handset => "handset"
  | .video => "video"
  | .recordedExport => "recorded_export"

inductive ChannelId
  | onboard
  | tlog
  | linkStats
  | rc
  | heartbeat
  | gpsEkf
  | event
  | video
  | osd
  | fiber
deriving DecidableEq, Repr

def ChannelId.asStr : ChannelId → String
  | .onboard => "onboard"
  | .tlog => "tlog"
  | .linkStats => "link_stats"
  | .rc => "rc"
  | .heartbeat => "heartbeat"
  | .gpsEkf => "gps_ekf"
  | .event => "event"
  | .video => "video"
  | .osd => "osd"
  | .fiber => "fiber"

def ChannelId.parse (s : String) : Option ChannelId :=
  match s with
  | "onboard" => some .onboard
  | "tlog" => some .tlog
  | "link_stats" => some .linkStats
  | "rc" => some .rc
  | "heartbeat" => some .heartbeat
  | "gps_ekf" => some .gpsEkf
  | "event" => some .event
  | "video" => some .video
  | "osd" => some .osd
  | "fiber" => some .fiber
  | _ => none

inductive ClockBasis
  | gpsLocked
  | gpsSuspect
  | rtcSetOnce
  | bootRelativeOffsetEstimated
  | hostReceived
  | bootRelative
  | unknown
deriving DecidableEq, Repr

def ClockBasis.asLabel : ClockBasis → String
  | .gpsLocked => "gps_locked"
  | .gpsSuspect => "gps_suspect"
  | .rtcSetOnce => "rtc_set_once"
  | .bootRelativeOffsetEstimated => "boot_relative_offset_estimated"
  | .hostReceived => "host_received"
  | .bootRelative => "boot_relative"
  | .unknown => "unknown"

def ClockBasis.reasonToken (basis : ClockBasis) : String := "clock-basis:" ++ basis.asLabel

/-! ## 2. Profiles -/

structure FieldMapping where
  time : String
  status : List String
  link : List String
  battery : List String
  gps : List String
  health : List String
deriving DecidableEq, Repr

structure ExpectationModel where
  expectationId : String
  channel : ChannelId
  cadenceMs : UInt64
  graceK : UInt32
  frozenMs : Option UInt64
  frozenFields : Option (List String)
  requiredFields : Option (List String)
  declaredWindowOnly : Bool
deriving DecidableEq, Repr

structure SenderSelection where
  systemId : UInt8
  componentId : UInt8
deriving DecidableEq, Repr

structure ClockRateConfig where
  anchorUncertaintyUs : Int64
  minSpanUs : Int64
  maxAbsRatePpm : Int64
deriving DecidableEq

structure FamilyProfile where
  profileId : String
  version : String
  family : Family
  sourceRole : SourceRole
  format : String
  extensions : List String
  fields : FieldMapping
  fieldUnits : BTreeMap String String
  channels : List ChannelId
  expectations : List ExpectationModel
  defaultClockBasis : ClockBasis
  declaredPlatformDomain : Option PlatformDomain
  declaredSender : Option SenderSelection
  declaredClockRate : Option ClockRateConfig
  origin : String
deriving DecidableEq

def domainBasisDeclared : String := "profile_declared_platform_domain"

def domainBasisFamily : String := "profile_declared_family"

/-- A declared domain counts while the family establishes none. -/
def FamilyProfile.configuredPlatformDomain (p : FamilyProfile) : PlatformDomain × String :=
  match p.declaredPlatformDomain, p.family with
  | some declared, .unknown => (declared, domainBasisDeclared)
  | _, _ => (p.family.platformDomain, domainBasisFamily)

/-! ## 3. Negative observations -/

structure Subject where
  family : Family
  assetId : String
  channel : ChannelId
deriving DecidableEq, Repr

structure NegativeObservation where
  subject : Subject
  expectationId : String
  absentSinceMs : Int64
  expectedByMs : Int64
  lastGood : Option Digest
  clockBasis : ClockBasis
  timeConfidenceMin : F32
  mark : Mark
deriving DecidableEq

/-- Tokens joined by `|`; the assertion that none of them holds the delimiter `;` is the
`none`. -/
def joinReasonTokens (tokens : List String) : Option String :=
  if ∀ t ∈ tokens, ';' ∉ t.toList then some (join "|" tokens) else none

end Musubi.Reference
