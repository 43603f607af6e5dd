/-
# One asset among others

With an explicit window an asset is analysed as if its files were the only ones: its files are
read in their order, its clock start is that of its own recordings, and its rows and claims depend
on its own sources.  The first file of an asset keeps its place as the first of the asset when the
files of others are left out (`assetsIn_filter`).

What could leak from one asset to another is the window: without an explicit one it is taken from
the earliest and the latest time of all recordings, so the silence at the end of one asset would
depend on how long another was recorded.  With an explicit window everything is a fold over the
assets whose steps look at one asset each, and the two runs are compared step by step (section 2).

Section 3 has two vehicles with a ground station's and an onboard recording each, interleaved in
the list of files; either has rows and claims, and its clock start is that of its own ground
station.
-/
import Musubi.Lib.Sha256
import Musubi.Pipeline.Accounting

namespace Musubi.Pipeline

open Lib Lib.Checked Reference

variable {files : List InputFile}

/-! ## 1. The files of an asset -/

theorem filter_addAsset (id : String) (seen : List (String × Family)) (f : InputFile) :
    (addAsset seen f).filter (fun a => a.1 = id) =
      if f.assetId = id then addAsset (seen.filter fun a => a.1 = id) f
      else seen.filter fun a => a.1 = id := by
  by_cases hid : f.assetId = id
  · have hany : ((seen.filter fun a => a.1 = id).any fun a => decide (a.1 = f.assetId)) =
        seen.any fun a => decide (a.1 = f.assetId) := by
      rw [List.any_filter, hid]
      simp
    rw [if_pos hid, addAsset, addAsset, hany]
    split
    · rfl
    · rw [List.filter_append]
      simp [hid]
  · rw [if_neg hid, addAsset]
    split
    · rfl
    · rw [List.filter_append]
      simp [hid]

/-- **Leaving out other assets** leaves the assets in their order.  An asset stands where its
first file does. -/
theorem assetsIn_filter (files : List InputFile) (id : String) :
    assetsIn (files.filter fun f => f.assetId = id) =
      (assetsIn files).filter fun a => a.1 = id := by
  have hrun (l : List InputFile) : ∀ seen : List (String × Family),
      (l.filter fun f => f.assetId = id).foldl addAsset (seen.filter fun a => a.1 = id) =
        (l.foldl addAsset seen).filter fun a => a.1 = id := by
    induction l with
    | nil => exact fun _ => rfl
    | cons f l ih =>
      intro seen
      rw [List.foldl_cons, ← ih, filter_addAsset, List.filter_cons]
      by_cases hid : f.assetId = id
      · simp [hid]
      · simp [hid]
  exact hrun files []

/-- An asset is the only one of its name: the map of assets has every name once, with the family
of its first file. -/
theorem filter_assetsIn {asset : String × Family} (h : asset ∈ assetsIn files) :
    (assetsIn files).filter (fun a => a.1 = asset.1) = [asset] := by
  have hself (x : String × Family) : ∀ y ∈ [x], y.1 = x.1 := by
    intro y hy
    rw [List.mem_singleton.mp hy]
  have hone := filter_flatMap_of_nodup hself (nodup_assetsIn files) h
  rwa [List.flatMap_singleton'] at hone

/-! ## 2. Two runs -/

variable (sha256 : List UInt8 → Digest) {readerFor : String → Option Reader}
  {knowledge : Knowledge} {t0Ms endMs : Int64} {read : List (List Pending)}
  {assets : List AssetRun}

/-- An asset of a run comes from its own files: its sources are those that were read of them. -/
theorem Sourced.asset
    (h : Sourced sha256 readerFor knowledge files (.explicit t0Ms endMs) t0Ms endMs read assets)
    {a : AssetRun} (ha : a ∈ assets) : ∃ family pending, (a.assetId, family) ∈ assetsIn files ∧
      readAsset readerFor knowledge.profiles files (a.assetId, family) = .ok pending ∧
      assetRun sha256 t0Ms endMs ((a.assetId, family), pending) = .ok a := by
  obtain ⟨entry, hentry, hrun⟩ := exists_of_mem_mapM (mapM_eq_ok.mpr h.assets_eq) ha
  obtain ⟨⟨id, family⟩, pending⟩ := entry
  obtain rfl := (assetRun_eq_ok sha256 hrun).1
  exact ⟨family, pending, (List.of_mem_zip hentry).1,
    (List.forall₂_iff_zip.mp h.read_eq).2 hentry, hrun⟩

/-- The files of one asset give that asset, since each source is read by itself and the window is
given and not taken from the files. -/
theorem Sourced.alone
    (h : Sourced sha256 readerFor knowledge files (.explicit t0Ms endMs) t0Ms endMs read assets)
    {a : AssetRun} (ha : a ∈ assets) : ∃ pending,
      Sourced sha256 readerFor knowledge (files.filter fun f => f.assetId = a.assetId)
        (.explicit t0Ms endMs) t0Ms endMs [pending] [a] := by
  obtain ⟨family, pending, hmem, hread, hrun⟩ := h.asset sha256 ha
  have hone : assetsIn (files.filter fun f => f.assetId = a.assetId) = [(a.assetId, family)] := by
    rw [assetsIn_filter]
    exact filter_assetsIn hmem
  refine ⟨pending, ?_, rfl, ?_⟩
  · rw [hone, List.forall₂_cons]
    refine ⟨?_, List.Forall₂.nil⟩
    rw [← hread, readAsset, readAsset, List.filter_filter]
    simp only [Bool.and_self]
  · rw [hone, List.zip_cons_cons, List.forall₂_cons]
    exact ⟨hrun, List.Forall₂.nil⟩

/-- **Assets are isolated.** With an explicit window, what a run says of an asset is what the run
on the files of the asset alone says, and that run succeeds.  Both are compared as whole outputs:
the asset with its sources, its rows, noticed and unmapped, its claims, and the window.  Readers
and files are arbitrary.  That the run on all files succeeded is needed, since a file of another
asset that cannot be read fails the whole. -/
theorem analyze_isolated {out : PipelineOut}
    (h : analyze sha256 readerFor files knowledge (.explicit t0Ms endMs) = .ok out)
    {a : AssetRun} (ha : a ∈ out.assets) :
    analyze sha256 readerFor (files.filter fun f => f.assetId = a.assetId) knowledge
        (.explicit t0Ms endMs) =
      .ok { files := files.filter fun f => f.assetId = a.assetId
            assets := [a]
            noticed := out.noticed.filter fun r => r.assetId = a.assetId
            unmapped := out.unmapped.filter fun r => r.assetId = a.assetId
            claims := out.claims.filter fun c => c.assetId = a.assetId
            t0Ms
            endMs } := by
  rcases analyze_eq sha256 readerFor files knowledge (.explicit t0Ms endMs) with
    ⟨halt, -, hfail⟩ | ⟨t0, e, read, assets, hsourced, hout⟩
  · rw [hfail] at h
    cases h
  · obtain ⟨rfl, rfl⟩ : t0Ms = t0 ∧ endMs = e := by
      have hwindow := hsourced.window_eq
      cases hwindow
      exact ⟨rfl, rfl⟩
    rw [hout] at h
    obtain rfl := Except.ok.inj h
    obtain ⟨pending, halone⟩ := hsourced.alone sha256 ha
    have hnodup : (assets.map AssetRun.assetId).Nodup := by
      rw [(hsourced.names sha256).1]
      exact nodup_assetsIn files
    obtain ⟨hnoticed, hunmapped, hclaims⟩ :=
      filter_outputOf sha256 knowledge.catalog files t0Ms endMs hnodup ha
    rw [analyze_of_sourced sha256 halone, hnoticed, hunmapped, hclaims]
    simp [outputOf]

/-! ## 3. Two assets with silences of their own -/

def tlogProfile : FamilyProfile where
  profileId := "ugv-gcs"
  version := "1"
  family := .ugv
  sourceRole := .gcs
  format := "mavlink_tlog"
  extensions := ["tlog"]
  fields := ⟨"host_received_us", [], [], [], [], []⟩
  fieldUnits := BTreeMap.empty
  channels := [.heartbeat]
  expectations := []
  defaultClockBasis := .hostReceived
  declaredPlatformDomain := none
  declaredSender := none
  declaredClockRate := none
  origin := "public"

def emptyLog (assetId : String) : InputFile :=
  ⟨assetId, .ugv, .gcs, "mavlink_tlog", assetId ++ ".tlog", []⟩

/-- A heartbeat a second, in the ground station's recording and in that of the vehicle, whose clock
starts with it. -/
def groundProfile : FamilyProfile :=
  { tlogProfile with
    expectations := [⟨"hb-1hz", .heartbeat, 1000, 3, none, none, none, false⟩] }

def onboardProfile : FamilyProfile :=
  { groundProfile with
    profileId := "ugv-fc"
    sourceRole := .fc
    format := "ardupilot_dataflash_bin"
    defaultClockBasis := .bootRelative }

/-- A heartbeat at a second of the recording's clock. -/
def beat (profile : FamilyProfile) (second : UInt8) : Observation :=
  { observation Sha256.hash profile (.ofNat (1000 * second.toNat)) .heartbeat
      [("HEARTBEAT.custom_mode", .i64 0)] false with
    tBootUs := if profile.defaultClockBasis = .bootRelative then some (1000000 * second.toUInt64)
      else none }

/-- A reader of files that hold the seconds of their heartbeats. -/
def beatReader (_ : String) : Option Reader :=
  some fun profile bytes => .ok (bytes.map (beat profile))

def groundLog (assetId : String) (seconds : List UInt8) : InputFile :=
  ⟨assetId, .ugv, .gcs, "mavlink_tlog", assetId ++ ".tlog", seconds⟩

def onboardLog (assetId : String) (seconds : List UInt8) : InputFile :=
  ⟨assetId, .ugv, .fc, "ardupilot_dataflash_bin", assetId ++ ".bin", seconds⟩

/-- The recordings of the first vehicle lie between those of the second, which started earlier. -/
def beatFiles : List InputFile :=
  [groundLog "ugv-02" [1, 2, 20], onboardLog "ugv-01" [0, 1, 9], groundLog "ugv-01" [5, 6],
    onboardLog "ugv-02" [0, 1]]

def beatKnowledge : Knowledge := ⟨[groundProfile, onboardProfile], ⟨"t", []⟩⟩

/-- Either vehicle is placed by its own ground station, and has rows and claims of its own. -/
theorem beatLogs_isolated : ∃ out,
    analyze Sha256.hash beatReader beatFiles beatKnowledge (.explicit 0 60000) = .ok out ∧
    out.noticed.map (fun r => (r.assetId, r.sourceIndex, r.sinceWallMs)) =
      [("ugv-02", 0, 2000), ("ugv-02", 0, 20000), ("ugv-02", 1, 2000), ("ugv-01", 0, 5000),
        ("ugv-01", 0, 6000), ("ugv-01", 0, 14000), ("ugv-01", 1, 0), ("ugv-01", 1, 6000)] ∧
    out.claims.map (fun c => (c.assetId, c.windowStartMs, c.windowEndMs)) =
      [("ugv-02", 2000, 32000), ("ugv-02", 20000, 50000), ("ugv-01", 0, 30000)] ∧
    ∀ a ∈ out.assets, analyze Sha256.hash beatReader
        (beatFiles.filter fun f => f.assetId = a.assetId) beatKnowledge (.explicit 0 60000) =
      .ok { files := beatFiles.filter fun f => f.assetId = a.assetId
            assets := [a]
            noticed := out.noticed.filter fun r => r.assetId = a.assetId
            unmapped := out.unmapped.filter fun r => r.assetId = a.assetId
            claims := out.claims.filter fun c => c.assetId = a.assetId
            t0Ms := 0
            endMs := 60000 } := by
  have hout : ∃ out ∈ (analyze Sha256.hash beatReader beatFiles beatKnowledge
        (.explicit 0 60000)).toOption.toList,
      out.noticed.map (fun r => (r.assetId, r.sourceIndex, r.sinceWallMs)) =
        [("ugv-02", 0, 2000), ("ugv-02", 0, 20000), ("ugv-02", 1, 2000), ("ugv-01", 0, 5000),
          ("ugv-01", 0, 6000), ("ugv-01", 0, 14000), ("ugv-01", 1, 0), ("ugv-01", 1, 6000)] ∧
      out.claims.map (fun c => (c.assetId, c.windowStartMs, c.windowEndMs)) =
        [("ugv-02", 2000, 32000), ("ugv-02", 20000, 50000), ("ugv-01", 0, 30000)] := by
    decide +kernel
  obtain ⟨out, hmem, hnoticed, hclaims⟩ := hout
  have hok := ok_of_mem_toOption hmem
  exact ⟨out, hok, hnoticed, hclaims, fun a ha => analyze_isolated Sha256.hash hok ha⟩

end Musubi.Pipeline
