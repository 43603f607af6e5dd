/-
# The absences as CSV

`reference-pipeline/src/export.rs`: one row for every absence, those with wall times first, with
three columns for the configured domain of the asset where they are asked for.

`csv_field` quotes a cell that holds a comma, a quote or a line feed.  A carriage return alone is
not on its list, and what that means to a reader is the subject of `ExportRoundTrip`.  The export
with the domain refuses an output in which a row's asset cannot be found; the one without it does
not look.
-/
import Musubi.Fanout.Csvsink
import Musubi.Lib.JsonCompact
import Musubi.Pipeline.Analyze

namespace Musubi.Pipeline

open Lib Reference
open Fanout (markLabel twoDecimals digestPrefix)

/-! ## 1. Rows -/

def exportSchemaVersion : String := "3"

/-- `s.contains(',') || s.contains('"') || s.contains('\n')`. -/
def csvQuotes (s : List Char) : Bool := s.any (· ∈ [',', '"', '\n'])

def csvField (s : String) : String :=
  if csvQuotes s.toList then
    "\"" ++ String.ofList (s.toList.flatMap fun c => if c = '"' then ['"', '"'] else [c]) ++ "\""
  else s

def row (fields : List String) : String := join "," (fields.map csvField) ++ "\n"

/-- The header ends in a line feed. -/
def domainHeader (header : String) : String :=
  String.ofList header.toList.dropLast ++
    ",platform_domain,platform_domain_basis,platform_domain_provenance\n"

def domainConflict : String := "domain-declarations-conflict-unresolved/"

/-- The cells of the asset's domain, none without such an asset. -/
def domainCells (out : PipelineOut) (id : String) (family : Family) : List String :=
  match out.assets.find? fun a => a.assetId = id && a.family = family with
  | none => []
  | some asset =>
    let (domain, provenance) := asset.configuredPlatformDomain
    let basis := match provenance with
      | [] => domainBasisFamily
      | first :: _ =>
        if domainConflict.toList.isPrefixOf first.toList then
          "profile_declarations_conflict_unresolved"
        else domainBasisDeclared
    [domainDebug domain, basis,
      String.ofList (JsonText.Value.array (provenance.map JsonText.text)).compact]

def digestHex8 (d : Digest) : String := hexLower (d.toList.take 8)

def digestCell (d : Digest) : String := digestPrefix ++ digestHex8 d

def digestFullCell (d : Digest) : String := digestPrefix ++ hexLower d.toList

/-! ## 2. Absences -/

def wallMapped : String := "mapped"

def wallUnmappedUnknownClock : String := "unmapped_unknown_clock"

/-- An absence on a clock that nothing is known of has no wall times. -/
def mappingCell (neg : NegativeObservation) (mapping : String) : String :=
  if neg.clockBasis = .unknown then wallUnmappedUnknownClock else mapping

/-- The four cells of the wall times. -/
def wallCells : Option (Int64 × Int64 × Int64) → List String
  | none => ["", "", "", ""]
  | some (since, by_, bound) => [isoUtcMs since, toString since, toString by_, toString bound]

def sourceFor (out : PipelineOut) (assetId : String) (sourceIndex : ℕ) : Option SourceRun :=
  (out.assets.find? fun a => a.assetId = assetId).bind fun a => a.sources[sourceIndex]?

variable (sha256 : List UInt8 → Digest)

def absenceRow (src : Option SourceRun) (neg : NegativeObservation) (bounds : GapBounds)
    (wall : Option (Int64 × Int64 × Int64)) (mapping : String) (includeDomain : Bool) :
    List String :=
  [neg.subject.family.asStr,
    neg.subject.assetId,
    (src.map fun x => x.profile.sourceRole.asStr).getD "?",
    (src.map fun x => x.profile.profileId).getD "?",
    (src.map fun x => x.profile.origin).getD "?",
    (src.map fun x => x.fileName).getD "?",
    neg.subject.channel.asStr,
    neg.expectationId] ++
  wallCells (if neg.clockBasis = .unknown then none else wall) ++
  [toString neg.absentSinceMs,
    toString neg.expectedByMs,
    neg.clockBasis.asLabel,
    twoDecimals neg.timeConfidenceMin,
    (neg.lastGood.map digestCell).getD "never-observed",
    markLabel neg.mark.status,
    neg.mark.reasonCode,
    "absence = Musubi says it is missing; not 'no data'",
    digestCell (negativeDigest sha256 neg),
    if includeDomain then "4" else exportSchemaVersion,
    digestFullCell (negativeDigest sha256 neg),
    (neg.lastGood.map digestFullCell).getD "never-observed",
    bounds.stop.asLabel,
    (bounds.nextGoodMs.map toString).getD "",
    (bounds.nextGoodClockBasis.map ClockBasis.asLabel).getD "",
    (bounds.nextGood.map digestCell).getD "open-end",
    (bounds.nextGood.map digestFullCell).getD "open-end",
    mappingCell neg mapping]

/-- The cells of a row that has wall times. -/
def noticedRecord (out : PipelineOut) (includeDomain : Bool) (n : NoticedRow) : List String :=
  absenceRow sha256 (sourceFor out n.assetId n.sourceIndex) n.negative n.bounds
      (some (n.sinceWallMs, n.byWallMs, n.boundMs)) wallMapped includeDomain ++
    if includeDomain then domainCells out n.assetId n.negative.subject.family else []

def unmappedRecord (out : PipelineOut) (includeDomain : Bool) (u : UnmappedRow) : List String :=
  absenceRow sha256 (sourceFor out u.assetId u.sourceIndex) u.negative u.bounds none u.reason
      includeDomain ++
    if includeDomain then domainCells out u.assetId u.negative.subject.family else []

def absencesHeader : String :=
  "family,asset_id,source_role,profile_id,profile_origin,file,channel,expectation_id," ++
  "absent_since_utc,absent_since_wall_ms,expected_by_wall_ms,wall_bound_ms," ++
  "absent_since_native_ms,expected_by_native_ms,clock_basis,time_confidence_min," ++
  "last_good_digest,mark_status,mark_reason,note,absence_digest,export_schema_version," ++
  "absence_digest_full,last_good_digest_full,gap_end,next_good_native_ms," ++
  "next_good_clock_basis,next_good_digest,next_good_digest_full,wall_mapping\n"

def absencesCsvImpl (out : PipelineOut) (includeDomain : Bool) : String :=
  let header := if includeDomain then domainHeader absencesHeader else absencesHeader
  let noticed := out.noticed.foldl
    (fun s n => s ++ row (noticedRecord sha256 out includeDomain n)) header
  out.unmapped.foldl (fun s u => s ++ row (unmappedRecord sha256 out includeDomain u)) noticed

def absencesCsv (out : PipelineOut) : String := absencesCsvImpl sha256 out false

/-! ## 3. The export with the domain -/

/-- What is asked of the asset of a row: that there is one of the name, and of the family. -/
def assetMatches (out : PipelineOut) (entry : String × String × Family) : Bool :=
  entry.1 = entry.2.1 &&
    (out.assets.filter fun a => a.assetId = entry.1).length = 1 &&
    out.assets.any fun a => a.assetId = entry.1 && a.family = entry.2.2

/-- The assets that the rows and the claims are about. -/
def exportedSubjects (out : PipelineOut) : List (String × String × Family) :=
  (out.noticed.map fun n => (n.assetId, n.negative.subject.assetId, n.negative.subject.family)) ++
  (out.unmapped.map fun u => (u.assetId, u.negative.subject.assetId, u.negative.subject.family)) ++
  out.claims.map fun c => (c.claim.subject.assetId, c.claim.subject.assetId, c.claim.subject.family)

/-- The absences that `export_all_with_declared_domain` writes, after its check. -/
def absencesWithDeclaredDomain (out : PipelineOut) : Except String String :=
  if (exportedSubjects out).all (assetMatches out) then .ok (absencesCsvImpl sha256 out true)
  else .error "configured-domain export requires exactly one matching asset_id/family"

end Musubi.Pipeline
