/-
# The analysis of a set of recordings

`reference-pipeline/src/lib.rs`: `analyze` reads the files of each asset, places every recording
on the wall clock, detects the absences of each source, gathers them with the events into
windows and builds a claim for each window.

The readers are behind a trait object, so they are a table from formats to arbitrary functions.
Loops that may return an error are `mapM`; the loop over the rows extends three lists and is a
fold.  An index out of range is a panic, and so are the assertions of the parts.  Times are
signed 64-bit integers that wrap around, as a release build adds them.
-/
import Musubi.Reference.Absence
import Musubi.Reference.Cause
import Musubi.Reference.Reader

namespace Musubi.Pipeline

open Lib Lib.Checked Reference

/-! ## 1. Data -/

structure InputFile where
  assetId : String
  family : Family
  source : SourceRole
  formatId : String
  fileName : String
  bytes : List UInt8
deriving DecidableEq

structure SourceRun where
  profile : FamilyProfile
  fileName : String
  obs : List Observation
  negatives : List NegativeObservation
  gapBounds : List GapBounds
  alignment : TimeAlignment
  clockRate : Option ClockRateReport
deriving DecidableEq

structure AssetRun where
  assetId : String
  family : Family
  sources : List SourceRun
deriving DecidableEq

/-- `{:?}` of a domain. -/
def domainDebug : PlatformDomain → String
  | .air => "Air"
  | .surface => "Surface"
  | .ground => "Ground"
  | .subsurface => "Subsurface"
  | .unknown => "Unknown"

/-- One source: the domain that it declares, and that it does. -/
def declareStep (declared : List PlatformDomain × List String) (s : SourceRun) :
    List PlatformDomain × List String :=
  let (domain, basis) := s.profile.configuredPlatformDomain
  if basis ≠ domainBasisDeclared then declared
  else
    let id := "domain-declaring-profile/" ++ s.profile.profileId ++ "@" ++ s.profile.version
    (if domain ∈ declared.1 then declared.1 else declared.1 ++ [domain],
      if id ∈ declared.2 then declared.2 else declared.2 ++ [id])

/-- The domain of the family, or the one domain that sources declare where the family has
none; two that differ declare nothing. -/
def AssetRun.configuredPlatformDomain (a : AssetRun) : PlatformDomain × List String :=
  let byFamily := a.family.platformDomain
  if a.family ≠ .unknown then (byFamily, [])
  else
    let (declared, declaring) := a.sources.foldl declareStep ([], [])
    match declared with
    | [] => (byFamily, [])
    | [one] => (one, ("domain-declared-by-profile/" ++ domainDebug one) :: declaring)
    | many =>
      (byFamily,
        ["domain-declarations-conflict-unresolved/" ++
            join "+" ((many.map domainDebug).insertionSort (· ≤ ·)),
          "domain-falls-back-to-family/" ++ domainDebug byFamily] ++ declaring)

structure NoticedRow where
  assetId : String
  sourceIndex : ℕ
  negative : NegativeObservation
  sinceWallMs : Int64
  byWallMs : Int64
  boundMs : Int64
  bounds : GapBounds
deriving DecidableEq

structure UnmappedRow where
  assetId : String
  sourceIndex : ℕ
  negative : NegativeObservation
  bounds : GapBounds
  reason : String
deriving DecidableEq

inductive ObservationWindow
  | explicit (t0Ms endMs : Int64)
  | derived
deriving DecidableEq

structure ClaimRecord where
  assetId : String
  windowStartMs : Int64
  windowEndMs : Int64
  claim : CauseClaim
deriving DecidableEq

structure PipelineOut where
  files : List InputFile
  assets : List AssetRun
  noticed : List NoticedRow
  unmapped : List UnmappedRow
  claims : List ClaimRecord
  t0Ms : Int64
  endMs : Int64
deriving DecidableEq

structure Knowledge where
  profiles : List FamilyProfile
  catalog : SignatureCatalog
deriving DecidableEq

/-- `ProfileReader::read`. -/
abbrev Reader := FamilyProfile → List UInt8 → Except ReadError (List Observation)

/-! ## 2. Reading -/

/-- The assets, as they first appear, each with the family of its first file. -/
def assetsIn (files : List InputFile) : List (String × Family) :=
  files.foldl (fun seen f =>
    if seen.any fun a => a.1 = f.assetId then seen else seen ++ [(f.assetId, f.family)]) []

def describe (f : InputFile) : String :=
  f.fileName ++ " (format " ++ f.formatId ++ " / family " ++ f.family.asStr ++ ")"

def profileFor (profiles : List FamilyProfile) (f : InputFile) : Checked String FamilyProfile :=
  let matching := profiles.filter fun p => p.format = f.formatId && p.family = f.family
  match matching with
  | [] => fail ("no profile for " ++ describe f)
  | first :: _ =>
    if matching.length = 1 ∨
        ¬ matching.any fun p => p.declaredPlatformDomain.isSome || p.declaredSender.isSome then
      return first
    else
      match matching.filter fun p => p.sourceRole = f.source with
      | [only] => return only
      | _ => fail ("ambiguous profile binding for " ++ describe f ++ ": " ++ matching.length.repr
          ++ " profiles match and at least one declares a platform domain or a selected sender, "
          ++ "so the source cannot be told apart by format, family and source role alone ("
          ++ join ", " (matching.map FamilyProfile.profileId) ++ ")")

/-- A recording that has been read. -/
structure Pending where
  profile : FamilyProfile
  fileName : String
  obs : List Observation
deriving DecidableEq

def readFile (readerFor : String → Option Reader) (profiles : List FamilyProfile)
    (f : InputFile) : Checked String Pending := do
  let p ← profileFor profiles f
  match readerFor p.format with
  | none => fail ("no reader for format " ++ p.format)
  | some reader =>
    match reader p f.bytes with
    | .error e => fail (f.fileName ++ ": " ++ e.display)
    | .ok obs => return ⟨p, f.fileName, obs⟩

/-- The files of an asset, in their order. -/
def readAsset (readerFor : String → Option Reader) (profiles : List FamilyProfile)
    (files : List InputFile) (asset : String × Family) : Checked String (List Pending) :=
  (files.filter fun f => f.assetId = asset.1).mapM (readFile readerFor profiles)

/-! ## 3. Sources -/

/-- The times of the recordings on the host axis. -/
def hostTimes (pending : List Pending) : List ℤ :=
  (pending.filter fun p => p.profile.defaultClockBasis = .hostReceived).flatMap fun p =>
    p.obs.map fun o => o.tMs.toInt

def observationWindow (window : ObservationWindow) (read : List (List Pending)) :
    Checked String (Int64 × Int64) :=
  match window with
  | .explicit t0Ms endMs => return (t0Ms, endMs)
  | .derived =>
    match hostTimes read.flatten with
    | [] => fail "no host-axis observation to derive the window from"
    | t :: times => return (.ofInt (times.foldl min t), .ofInt (largest t times))

/-- A wall time on the axis of the recording. -/
def wallToAxis (al : TimeAlignment) (hostAxis : Bool) (wallMs : Int64) : Option Int64 :=
  if hostAxis then some wallMs
  else al.offset.map fun o => (wallMs * 1000 - o.offsetUs) / 1000

def alignByStartBoundUs : Int64 := 10000000

def alignSource (p : Pending) (hostStart : Int64) : TimeAlignment :=
  let al := estimateAlignment p.obs p.profile.defaultClockBasis
  if !isHostAxis p.profile.defaultClockBasis && al.offset.isNone then
    (alignByStart p.obs hostStart alignByStartBoundUs).getD al
  else al

/-- The window that a recording is scanned in: that of the run, and all of a recording with a
clock of its own. -/
def scanWindow (hostAxis : Bool) (al : TimeAlignment) (obs : List Observation)
    (t0Ms endMs : Int64) : Int64 × Int64 :=
  if hostAxis then (t0Ms, endMs)
  else
    let times := obs.map fun o => o.tMs.toInt
    let first : Int64 := .ofInt ((smallest times).getD 0)
    let last : Int64 := .ofInt (match times with
      | [] => 0
      | t :: times => largest t times)
    (((wallToAxis al false t0Ms).map fun v => min v first).getD first,
      ((wallToAxis al false endMs).map fun v => max v last).getD last)

/-- The window that is declared for a recording, where an expectation asks for one. -/
def declaredWindow (p : Pending) (al : TimeAlignment) (scan : Int64 × Int64)
    (t0Ms endMs : Int64) : Checked String (Int64 × Int64) :=
  let hostAxis := isHostAxis p.profile.defaultClockBasis
  let what := p.profile.profileId ++ " (" ++ p.fileName ++ "): an expectation asks for the "
    ++ "declared observation window, but "
  if ¬ p.profile.expectations.any ExpectationModel.declaredWindowOnly then return scan
  else if p.profile.defaultClockBasis = .unknown then
    fail (what ++ "this record's clock basis is unknown, so a wall-clock window cannot be "
      ++ "placed on it; this feature does not give an unknown clock a duration it does not have")
  else
    match wallToAxis al hostAxis t0Ms, wallToAxis al hostAxis endMs with
    | some a, some b => return (a, b)
    | _, _ => fail (what ++ "no time offset could be established for this boot-relative record, "
        ++ "so the wall-clock window cannot be placed on its axis")

variable (sha256 : List UInt8 → Digest)

/-- `estimate_relative_rate` has no error of its own. -/
def clockRateOf (p : FamilyProfile) (obs : List Observation) (al : TimeAlignment) :
    Checked String (Option ClockRateReport) :=
  match p.declaredClockRate with
  | none => return none
  | some cfg => (mapErr Empty.elim (estimateRelativeRate obs al cfg)).map some

def sourceRun (t0Ms endMs hostStart : Int64) (assetId : String) (p : Pending) :
    Checked String SourceRun := do
  let hostAxis := isHostAxis p.profile.defaultClockBasis
  let al := alignSource p hostStart
  let obs := promote p.obs al
  let scan := scanWindow hostAxis al obs t0Ms endMs
  let declared ← declaredWindow p al scan t0Ms endMs
  match detectAbsencesInDeclaredWindow sha256 p.profile assetId obs scan declared with
  | none => .error .panic
  | some rows => do
    let clockRate ← clockRateOf p.profile obs al
    return {
      profile := p.profile
      fileName := p.fileName
      obs
      negatives := rows.map Prod.fst
      gapBounds := rows.map Prod.snd
      alignment := al
      clockRate }

def assetRun (t0Ms endMs : Int64) (entry : (String × Family) × List Pending) :
    Checked String AssetRun := do
  let hostStart := ((smallest (hostTimes entry.2)).map Int64.ofInt).getD t0Ms
  let sources ← entry.2.mapM (sourceRun sha256 t0Ms endMs hostStart entry.1.1)
  return { assetId := entry.1.1, family := entry.1.2, sources }

/-! ## 4. Rows -/

def SourceRun.hostAxis (s : SourceRun) : Bool := isHostAxis s.profile.defaultClockBasis

def SourceRun.toWallMs (s : SourceRun) (nativeMs : Int64) : Option (Int64 × Int64) :=
  if s.hostAxis then some (nativeMs, 0)
  else (toWallUs s.alignment (bootUs nativeMs)).map fun w => (w.1 / 1000, w.2 / 1000)

def wallUnmappedNoTimeOffset : String := "unmapped_no_time_offset"

def wallUnmappedNoWallValue : String := "unmapped_no_wall_value"

/-- The rows so far, and of the rows that were noticed the time, the source and the place. -/
structure Rows where
  noticed : List NoticedRow
  unmapped : List UnmappedRow
  negsWall : List (Int64 × ℕ × ℕ)

/-- One negative observation. -/
def rowStep (assetId : String) (si : ℕ) (s : SourceRun) (rows : Rows)
    (entry : NegativeObservation × ℕ) : Checked String Rows := do
  let (n, ni) := entry
  match s.toWallMs n.absentSinceMs, s.toWallMs n.expectedByMs with
  | some (since, bound), some (by_, _) =>
    let bounds ← index s.gapBounds ni
    return { rows with
      noticed := rows.noticed ++ [⟨assetId, si, n, since, by_, bound, bounds⟩]
      negsWall := rows.negsWall ++ [(since, si, ni)] }
  | _, _ =>
    let bounds ← index s.gapBounds ni
    let reason := if s.alignment.offset.isNone then wallUnmappedNoTimeOffset
      else wallUnmappedNoWallValue
    return { rows with unmapped := rows.unmapped ++ [⟨assetId, si, n, bounds, reason⟩] }

/-- One source. -/
def sourceStep (assetId : String) (rows : Rows) (entry : SourceRun × ℕ) : Checked String Rows :=
  entry.1.negatives.zipIdx.foldlM (rowStep assetId entry.2 entry.1) rows

/-- The rows of an asset, after those of the assets before it. -/
def assetRows (a : AssetRun) (noticed : List NoticedRow) (unmapped : List UnmappedRow) :
    Checked String Rows :=
  a.sources.zipIdx.foldlM (sourceStep a.assetId) ⟨noticed, unmapped, []⟩

/-! ## 5. Claims -/

def windowGapMs : Int64 := 10000

def windowSpanMs : Int64 := 30000

/-- The rows that were noticed, by their places, and the events. -/
def triggersOf (a : AssetRun) (negsWall : List (Int64 × ℕ × ℕ)) : List (Int64 × TriggerId) :=
  negsWall.zipIdx.map (fun entry => (entry.1.1, (entry.2 : TriggerId))) ++
    a.sources.flatMap fun s => (eventTriggerTimes s.obs).map fun t => (t, ⊤)

/-- The negative observation of a row. -/
def negativeAt (a : AssetRun) (negsWall : List (Int64 × ℕ × ℕ)) (i : ℕ) :
    Checked String NegativeObservation := do
  let (_, si, ni) ← index negsWall i
  let s ← index a.sources si
  index s.negatives ni

def sourceInputs (a : AssetRun) : List SourceInput :=
  a.sources.map fun s => ⟨s.profile, s.obs, s.negatives, s.alignment⟩

def windowClaim (catalog : SignatureCatalog) (a : AssetRun) (negsWall : List (Int64 × ℕ × ℕ))
    (entry : Window × List TriggerId) : Checked String ClaimRecord := do
  let (w, ids) := entry
  let places := ids.filterMap TriggerId.place
  let absences ← places.mapM (negativeAt a negsWall)
  let triggerChannel := (absences.head?.map fun n => n.subject.channel).getD .event
  let claim ← buildClaim sha256 catalog (sourceInputs a) a.family a.assetId triggerChannel
    absences w w.endMs
  return { assetId := a.assetId, windowStartMs := w.startMs, windowEndMs := w.endMs, claim }

def assetClaims (catalog : SignatureCatalog) (a : AssetRun) (negsWall : List (Int64 × ℕ × ℕ)) :
    Checked String (List ClaimRecord) :=
  (windowsFromTriggers (triggersOf a negsWall) windowGapMs windowSpanMs).mapM
    (windowClaim sha256 catalog a negsWall)

/-! ## 6. `analyze` -/

/-- What the assets before have given. -/
structure Collected where
  noticed : List NoticedRow
  unmapped : List UnmappedRow
  claims : List ClaimRecord

def collectStep (catalog : SignatureCatalog) (c : Collected) (a : AssetRun) :
    Checked String Collected := do
  let rows ← assetRows a c.noticed c.unmapped
  let claims ← assetClaims sha256 catalog a rows.negsWall
  return ⟨rows.noticed, rows.unmapped, c.claims ++ claims⟩

/-- The part of `analyze` that may fail: the window and the assets. -/
def sourcesOf (readerFor : String → Option Reader) (knowledge : Knowledge)
    (files : List InputFile) (window : ObservationWindow) :
    Checked String ((Int64 × Int64) × List AssetRun) := do
  let read ← (assetsIn files).mapM (readAsset readerFor knowledge.profiles files)
  let (t0Ms, endMs) ← observationWindow window read
  let assets ← ((assetsIn files).zip read).mapM (assetRun sha256 t0Ms endMs)
  return ((t0Ms, endMs), assets)

def analyze (readerFor : String → Option Reader) (files : List InputFile)
    (knowledge : Knowledge) (window : ObservationWindow) : Checked String PipelineOut := do
  let ((t0Ms, endMs), assets) ← sourcesOf sha256 readerFor knowledge files window
  let c ← assets.foldlM (collectStep sha256 knowledge.catalog) ⟨[], [], []⟩
  return {
    files
    assets
    noticed := c.noticed
    unmapped := c.unmapped
    claims := c.claims
    t0Ms
    endMs }

end Musubi.Pipeline
