/-
# What an analysis accounts for

`analyze` in two stages: the sources of the assets, which may fail, and their rows and claims,
which may not (`analyze_eq`).  The assets have different names, so the rows and the claims of each
of them are found again in the output by its name (`Accounted`).

The source does not have the two stages; it collects rows and claims as it goes.  But what the
second half of its loop returns does not depend on what was collected before, and it fails on
nothing: every index that it uses was made from the list that it indexes (`negativeAt_eq` in
`Pipeline.Rows`).  So the only errors of `analyze` are those of reading, and they come first.

The account is then a statement about lists: the rows of an asset are those of its negative
observations, one for one; the claims of an asset cite its noticed rows, each once.
-/
import Musubi.Lib.Segments
import Musubi.Pipeline.Rows

namespace Musubi.Pipeline

open Lib Lib.Checked Reference

/-! ## 1. The assets -/

/-- One file: its asset is new or known. -/
def addAsset (seen : List (String × Family)) (f : InputFile) : List (String × Family) :=
  if seen.any fun a => a.1 = f.assetId then seen else seen ++ [(f.assetId, f.family)]

theorem any_asset_iff {seen : List (String × Family)} {id : String} :
    (seen.any fun a => decide (a.1 = id)) = true ↔ id ∈ seen.map Prod.fst := by
  rw [List.any_eq_true, List.mem_map]
  simp

theorem nodup_addAsset {seen : List (String × Family)} (h : (seen.map Prod.fst).Nodup)
    (f : InputFile) : ((addAsset seen f).map Prod.fst).Nodup := by
  unfold addAsset
  split
  · exact h
  · rename_i hnew
    rw [any_asset_iff] at hnew
    rw [List.map_append, List.map_singleton]
    exact h.append (List.nodup_singleton _) (by simpa using hnew)

theorem nodup_assetsIn (files : List InputFile) : ((assetsIn files).map Prod.fst).Nodup := by
  have hrun (l : List InputFile) : ∀ {seen : List (String × Family)},
      (seen.map Prod.fst).Nodup → ((l.foldl addAsset seen).map Prod.fst).Nodup := by
    induction l with
    | nil => exact id
    | cons f l ih => exact fun h => ih (nodup_addAsset h f)
  exact hrun files List.nodup_nil

variable (sha256 : List UInt8 → Digest)

/-- A source has bounds for each of its negative observations, so looking them up by the same
place does not fail. -/
theorem length_gapBounds {t0Ms endMs hostStart : Int64} {assetId : String} {p : Pending}
    {s : SourceRun} (h : sourceRun sha256 t0Ms endMs hostStart assetId p = .ok s) :
    s.gapBounds.length = s.negatives.length := by
  unfold sourceRun at h
  obtain ⟨declared, -, h⟩ := bind_eq_ok.mp h
  split at h
  · cases h
  · obtain ⟨clockRate, -, h⟩ := bind_eq_ok.mp h
    cases h
    rw [List.length_map, List.length_map]

theorem assetRun_eq_ok {t0Ms endMs : Int64} {entry : (String × Family) × List Pending}
    {a : AssetRun} (h : assetRun sha256 t0Ms endMs entry = .ok a) :
    a.assetId = entry.1.1 ∧ BoundsKept a := by
  unfold assetRun at h
  obtain ⟨sources, hsources, h⟩ := bind_eq_ok.mp h
  cases h
  refine ⟨rfl, ?_⟩
  intro s hs
  obtain ⟨p, -, hp⟩ := exists_of_mem_mapM hsources hs
  exact length_gapBounds sha256 hp

/-- What the first stage of `analyze` returns: the recordings of each asset, read with the
profiles that are known, the window that they are analysed in, and the assets with their sources.
-/
structure Sourced (readerFor : String → Option Reader) (knowledge : Knowledge)
    (files : List InputFile) (window : ObservationWindow) (t0Ms endMs : Int64)
    (read : List (List Pending)) (assets : List AssetRun) : Prop where
  read_eq : List.Forall₂ (fun asset pending =>
    readAsset readerFor knowledge.profiles files asset = .ok pending) (assetsIn files) read
  window_eq : observationWindow window read = .ok (t0Ms, endMs)
  assets_eq : List.Forall₂ (fun entry a => assetRun sha256 t0Ms endMs entry = .ok a)
    ((assetsIn files).zip read) assets

theorem sourcesOf_eq_ok {readerFor : String → Option Reader} {knowledge : Knowledge}
    {files : List InputFile} {window : ObservationWindow} {t0Ms endMs : Int64}
    {assets : List AssetRun} :
    sourcesOf sha256 readerFor knowledge files window = .ok ((t0Ms, endMs), assets) ↔
      ∃ read, Sourced sha256 readerFor knowledge files window t0Ms endMs read assets := by
  unfold sourcesOf
  constructor
  · intro h
    obtain ⟨read, hread, h⟩ := bind_eq_ok.mp h
    obtain ⟨⟨t0, e⟩, hwindow, h⟩ := bind_eq_ok.mp h
    obtain ⟨runs, hruns, h⟩ := bind_eq_ok.mp h
    cases h
    exact ⟨read, mapM_eq_ok.mp hread, hwindow, mapM_eq_ok.mp hruns⟩
  · rintro ⟨read, hread, hwindow, hassets⟩
    exact bind_eq_ok.mpr ⟨read, mapM_eq_ok.mpr hread, bind_eq_ok.mpr ⟨_, hwindow,
      bind_eq_ok.mpr ⟨assets, mapM_eq_ok.mpr hassets, rfl⟩⟩⟩

variable {readerFor : String → Option Reader} {knowledge : Knowledge} {files : List InputFile}
  {window : ObservationWindow} {t0Ms endMs : Int64} {read : List (List Pending)}
  {assets : List AssetRun}

/-- The assets have the names that the files give, each once, and keep their bounds. -/
theorem Sourced.names (h : Sourced sha256 readerFor knowledge files window t0Ms endMs read assets) :
    assets.map AssetRun.assetId = (assetsIn files).map Prod.fst ∧
      ∀ a ∈ assets, BoundsKept a := by
  have hassets := h.assets_eq
  have hlen := h.read_eq.length_eq
  have hkeys : ((assetsIn files).zip read).map (fun entry => entry.1.1) =
      (assetsIn files).map Prod.fst := by
    conv_rhs => rw [← List.map_fst_zip hlen.le, List.map_map]
    rfl
  rw [← hkeys]
  clear h hkeys
  generalize (assetsIn files).zip read = entries at hassets
  induction hassets with
  | nil => exact ⟨rfl, List.forall_mem_nil _⟩
  | cons ha _ ih =>
    obtain ⟨hid, hkept⟩ := assetRun_eq_ok sha256 ha
    exact ⟨by rw [List.map_cons, List.map_cons, ih.1, hid],
      List.forall_mem_cons.mpr ⟨hkept, ih.2⟩⟩

/-! ## 2. Rows and claims -/

/-- The claims of an asset. -/
def claimsOf (catalog : SignatureCatalog) (a : AssetRun) : List ClaimRecord :=
  (assetClaims sha256 catalog a (negsWallOf a)).toOption.getD []

theorem claimsOf_spec (catalog : SignatureCatalog) (a : AssetRun) :
    assetClaims sha256 catalog a (negsWallOf a) = .ok (claimsOf sha256 catalog a) ∧
      List.Forall₂ (ClaimOf sha256 a) (windowsOf a) (claimsOf sha256 catalog a) := by
  obtain ⟨claims, hclaims, hspec⟩ := assetClaims_eq sha256 catalog a
  have heq : claimsOf sha256 catalog a = claims := by
    unfold claimsOf
    rw [hclaims]
    rfl
  rw [heq]
  exact ⟨hclaims, hspec⟩

theorem assetId_of_mem_claimsOf {catalog : SignatureCatalog} (a : AssetRun) :
    ∀ c ∈ claimsOf sha256 catalog a, c.assetId = a.assetId := by
  have hspec := (claimsOf_spec sha256 catalog a).2
  generalize claimsOf sha256 catalog a = claims at hspec
  generalize windowsOf a = windows at hspec
  induction hspec with
  | nil => exact List.forall_mem_nil _
  | cons hc _ ih => exact List.forall_mem_cons.mpr ⟨hc.assetId_eq, ih⟩

theorem assetId_of_mem_noticedOf (a : AssetRun) : ∀ r ∈ noticedOf a, r.assetId = a.assetId := by
  intro r hr
  obtain ⟨row, hrow, hleft⟩ := List.mem_filterMap.mp hr
  obtain ⟨c, -, hc⟩ := List.mem_map.mp hrow
  rw [Sum.getLeft?_eq_some_iff.mp hleft] at hc
  exact (row_left hc).1

theorem assetId_of_mem_unmappedOf (a : AssetRun) :
    ∀ r ∈ unmappedOf a, r.assetId = a.assetId := by
  intro r hr
  obtain ⟨row, hrow, hright⟩ := List.mem_filterMap.mp hr
  obtain ⟨c, -, hc⟩ := List.mem_map.mp hrow
  rw [Sum.getRight?_eq_some_iff.mp hright] at hc
  exact (row_right hc).1

/-- **The second stage does not fail**: the rows and the claims of the assets, in order.
`BoundsKept` says that each source has as many bounds as negative observations, which the first
stage sees to. -/
theorem collect_eq (catalog : SignatureCatalog) (h : ∀ a ∈ assets, BoundsKept a) :
    assets.foldlM (collectStep sha256 catalog) ⟨[], [], []⟩ =
      .ok ⟨assets.flatMap noticedOf, assets.flatMap unmappedOf,
        assets.flatMap (claimsOf sha256 catalog)⟩ := by
  rw [foldlM_eq_ok (g := fun c a => ⟨c.noticed ++ noticedOf a, c.unmapped ++ unmappedOf a,
    c.claims ++ claimsOf sha256 catalog a⟩) assets]
  · congr 1
    have hfold (l : List AssetRun) : ∀ c : Collected,
        l.foldl (fun c a => ⟨c.noticed ++ noticedOf a, c.unmapped ++ unmappedOf a,
          c.claims ++ claimsOf sha256 catalog a⟩) c =
        ⟨c.noticed ++ l.flatMap noticedOf, c.unmapped ++ l.flatMap unmappedOf,
          c.claims ++ l.flatMap (claimsOf sha256 catalog)⟩ := by
      induction l with
      | nil => intro c; simp
      | cons a l ih => intro c; simp [ih]
    exact hfold assets _
  · intro c a ha
    exact bind_eq_ok.mpr ⟨_, assetRows_eq (h a ha) c.noticed c.unmapped,
      bind_eq_ok.mpr ⟨_, (claimsOf_spec sha256 catalog a).1, rfl⟩⟩

/-- What `analyze` makes of its sources. -/
def outputOf (catalog : SignatureCatalog) (files : List InputFile) (assets : List AssetRun)
    (t0Ms endMs : Int64) : PipelineOut where
  files := files
  assets := assets
  noticed := assets.flatMap noticedOf
  unmapped := assets.flatMap unmappedOf
  claims := assets.flatMap (claimsOf sha256 catalog)
  t0Ms := t0Ms
  endMs := endMs

theorem analyze_of_sourced
    (h : Sourced sha256 readerFor knowledge files window t0Ms endMs read assets) :
    analyze sha256 readerFor files knowledge window =
      .ok (outputOf sha256 knowledge.catalog files assets t0Ms endMs) :=
  bind_eq_ok.mpr ⟨_, (sourcesOf_eq_ok sha256).mpr ⟨read, h⟩,
    bind_eq_ok.mpr ⟨_, collect_eq sha256 knowledge.catalog (h.names sha256).2, rfl⟩⟩

/-- **`analyze` fails with its first stage**, and only then. -/
theorem analyze_eq (readerFor : String → Option Reader) (files : List InputFile)
    (knowledge : Knowledge) (window : ObservationWindow) :
    (∃ halt, sourcesOf sha256 readerFor knowledge files window = .error halt ∧
        analyze sha256 readerFor files knowledge window = .error halt) ∨
      ∃ t0Ms endMs read assets,
        Sourced sha256 readerFor knowledge files window t0Ms endMs read assets ∧
          analyze sha256 readerFor files knowledge window =
            .ok (outputOf sha256 knowledge.catalog files assets t0Ms endMs) := by
  cases h : sourcesOf sha256 readerFor knowledge files window with
  | error halt =>
    refine Or.inl ⟨halt, rfl, ?_⟩
    unfold analyze
    rw [h]
    rfl
  | ok r =>
    obtain ⟨⟨t0Ms, endMs⟩, assets⟩ := r
    obtain ⟨read, hsourced⟩ := (sourcesOf_eq_ok sha256).mp h
    exact Or.inr ⟨t0Ms, endMs, read, assets, hsourced, analyze_of_sourced sha256 hsourced⟩

/-! ## 3. The account -/

/-- **The account of an output.** Every negative observation has one row, with its own bounds,
noticed or unmapped; the claims of an asset cite its noticed rows, each once, and nothing else;
and they start one after the other. -/
structure Accounted (out : PipelineOut) : Prop where
  distinct : (out.assets.map AssetRun.assetId).Nodup
  complete : ∀ a ∈ out.assets,
    (cells a).map Cell.negative = a.sources.flatMap SourceRun.negatives ∧
      (cells a).map Cell.bounds = a.sources.flatMap SourceRun.gapBounds
  noticed_eq : out.noticed = (out.assets.flatMap rowsOf).filterMap Sum.getLeft?
  unmapped_eq : out.unmapped = (out.assets.flatMap rowsOf).filterMap Sum.getRight?
  known : ∀ c ∈ out.claims, c.assetId ∈ out.assets.map AssetRun.assetId
  cited : ∀ a ∈ out.assets,
    ((out.claims.filter fun c => c.assetId = a.assetId).flatMap fun c => c.claim.absence).Perm
      ((out.noticed.filter fun r => r.assetId = a.assetId).map fun r =>
        negativeDigest sha256 r.negative)
  increasing : ∀ a ∈ out.assets,
    (out.claims.filter fun c => c.assetId = a.assetId).Pairwise fun c c' =>
      c.windowStartMs.toInt < c'.windowStartMs.toInt

/-- The rows and claims of an asset are what bears its name. -/
theorem filter_outputOf (catalog : SignatureCatalog) (files : List InputFile) (t0Ms endMs : Int64)
    (hnodup : (assets.map AssetRun.assetId).Nodup) {a : AssetRun} (ha : a ∈ assets) :
    let out := outputOf sha256 catalog files assets t0Ms endMs
    out.noticed.filter (fun r => r.assetId = a.assetId) = noticedOf a ∧
      out.unmapped.filter (fun r => r.assetId = a.assetId) = unmappedOf a ∧
      out.claims.filter (fun c => c.assetId = a.assetId) = claimsOf sha256 catalog a :=
  ⟨filter_flatMap_of_nodup assetId_of_mem_noticedOf hnodup ha,
    filter_flatMap_of_nodup assetId_of_mem_unmappedOf hnodup ha,
    filter_flatMap_of_nodup (assetId_of_mem_claimsOf sha256) hnodup ha⟩

theorem accounted_outputOf (catalog : SignatureCatalog) (files : List InputFile)
    (hnodup : (assets.map AssetRun.assetId).Nodup) (hkept : ∀ a ∈ assets, BoundsKept a) :
    Accounted sha256 (outputOf sha256 catalog files assets t0Ms endMs) := by
  constructor
  case distinct => exact hnodup
  case complete => exact fun a ha => map_cells (hkept a ha)
  case noticed_eq => exact (List.filterMap_flatMap ..).symm
  case unmapped_eq => exact (List.filterMap_flatMap ..).symm
  case known =>
    intro c hc
    obtain ⟨a, ha, hca⟩ := List.mem_flatMap.mp hc
    rw [assetId_of_mem_claimsOf sha256 a c hca]
    exact List.mem_map_of_mem ha
  case cited =>
    intro a ha
    obtain ⟨hnoticed, -, hclaims⟩ :=
      filter_outputOf sha256 catalog files t0Ms endMs hnodup ha
    rw [hnoticed, hclaims]
    exact absences_perm sha256 (claimsOf_spec sha256 catalog a).2
  case increasing =>
    intro a ha
    obtain ⟨-, -, hclaims⟩ := filter_outputOf sha256 catalog files t0Ms endMs hnodup ha
    rw [hclaims]
    exact starts_increasing sha256 (claimsOf_spec sha256 catalog a).2

/-- **An analysis accounts for every absence.** Once the sources are there it returns, whatever
they hold: no index is out of range; and what it returns is accounted for.  Readers, files,
knowledge and window are arbitrary.  The first alternative is the failure of a reader or of a file
that has none, and nothing that happens behind it can fail. -/
theorem analyze_accounting (readerFor : String → Option Reader) (files : List InputFile)
    (knowledge : Knowledge) (window : ObservationWindow) :
    (∃ halt, sourcesOf sha256 readerFor knowledge files window = .error halt ∧
        analyze sha256 readerFor files knowledge window = .error halt) ∨
      ∃ out, analyze sha256 readerFor files knowledge window = .ok out ∧
        Accounted sha256 out := by
  rcases analyze_eq sha256 readerFor files knowledge window with
    hfail | ⟨t0Ms, endMs, read, assets, hsourced, hout⟩
  · exact Or.inl hfail
  · obtain ⟨hnames, hkept⟩ := hsourced.names sha256
    refine Or.inr ⟨_, hout, accounted_outputOf sha256 knowledge.catalog files ?_ hkept⟩
    rw [hnames]
    exact nodup_assetsIn files

end Musubi.Pipeline
