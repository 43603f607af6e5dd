/-
# Rows and claims of an asset

The loops of `analyze` over the sources, the rows and the windows of one asset, in closed form.  A
CELL is a negative observation with its bounds and its place in the asset; it has one row, noticed
or unmapped (`Cell.row`).  The loops collect the rows of all cells, in order (`assetRows_eq`), the
indices that they keep lead back to the cells (`negativeAt_eq`), and every window gets its claim
(`assetClaims_eq`).

The source keeps, beside the rows, a list of times and places, sorts the times into windows, and
looks the absences of a window up by their indices.  The windows are those of `Reference.Windows`,
each trigger is in one of them, and the event triggers carry no index; so the absences of all
claims together are those of the noticed rows, each once (`absences_perm`).

The second result is about the windows themselves, at the gap and the span that `analyze` uses.
-/
import Musubi.Lib.Result
import Musubi.Pipeline.Analyze
import Musubi.Reference.Windows

namespace Musubi.Pipeline

open Lib Lib.Checked Reference

/-! ## 1. Cells -/

structure Cell where
  sourceIndex : ℕ
  place : ℕ
  source : SourceRun
  negative : NegativeObservation
  bounds : GapBounds

def sourceCells (entry : SourceRun × ℕ) : List Cell :=
  (entry.1.negatives.zip entry.1.gapBounds).zipIdx.map fun e =>
    ⟨entry.2, e.2, entry.1, e.1.1, e.1.2⟩

def cells (a : AssetRun) : List Cell := a.sources.zipIdx.flatMap sourceCells

/-- A cell is noticed when both of its times are on the wall clock. -/
def Cell.row (assetId : String) (c : Cell) : NoticedRow ⊕ UnmappedRow :=
  match c.source.toWallMs c.negative.absentSinceMs, c.source.toWallMs c.negative.expectedByMs with
  | some (since, bound), some (by_, _) =>
    .inl ⟨assetId, c.sourceIndex, c.negative, since, by_, bound, c.bounds⟩
  | _, _ =>
    .inr ⟨assetId, c.sourceIndex, c.negative, c.bounds,
      if c.source.alignment.offset.isNone then wallUnmappedNoTimeOffset
      else wallUnmappedNoWallValue⟩

/-- The rows of an asset. -/
def rowsOf (a : AssetRun) : List (NoticedRow ⊕ UnmappedRow) := (cells a).map (Cell.row a.assetId)

def noticedOf (a : AssetRun) : List NoticedRow := (rowsOf a).filterMap Sum.getLeft?

def unmappedOf (a : AssetRun) : List UnmappedRow := (rowsOf a).filterMap Sum.getRight?

/-- The cells that are noticed, with their rows. -/
def noticedCells (a : AssetRun) : List (Cell × NoticedRow) :=
  (cells a).filterMap fun c => (c.row a.assetId).getLeft?.map (Prod.mk c)

/-- The times and places that the loop over the rows keeps. -/
def negsWallOf (a : AssetRun) : List (Int64 × ℕ × ℕ) :=
  (noticedCells a).map fun p => (p.2.sinceWallMs, p.1.sourceIndex, p.1.place)

/-- Each source has bounds for each of its negative observations.  The loop over the rows indexes
the bounds with the index of the observation. -/
def BoundsKept (a : AssetRun) : Prop :=
  ∀ s ∈ a.sources, s.gapBounds.length = s.negatives.length

theorem row_left {assetId : String} {c : Cell} {r : NoticedRow} (h : c.row assetId = .inl r) :
    r.assetId = assetId ∧ r.sourceIndex = c.sourceIndex ∧ r.negative = c.negative ∧
      r.bounds = c.bounds := by
  unfold Cell.row at h
  split at h
  · cases h
    exact ⟨rfl, rfl, rfl, rfl⟩
  · cases h

theorem row_right {assetId : String} {c : Cell} {r : UnmappedRow} (h : c.row assetId = .inr r) :
    r.assetId = assetId ∧ r.sourceIndex = c.sourceIndex ∧ r.negative = c.negative ∧
      r.bounds = c.bounds := by
  unfold Cell.row at h
  split at h
  · cases h
  · cases h
    exact ⟨rfl, rfl, rfl, rfl⟩

/-- A cell is what stands at its place: the source, its negative observation and the bounds of
that one. -/
theorem cell_at {a : AssetRun} {c : Cell} (h : c ∈ cells a) :
    a.sources[c.sourceIndex]? = some c.source ∧ c.source.negatives[c.place]? = some c.negative ∧
      c.source.gapBounds[c.place]? = some c.bounds := by
  obtain ⟨entry, hentry, hc⟩ := List.mem_flatMap.mp h
  obtain ⟨e, he, rfl⟩ := List.mem_map.mp hc
  have hzip := List.getElem?_zip_eq_some.mp (List.mem_zipIdx_iff_getElem?.mp he)
  exact ⟨List.mem_zipIdx_iff_getElem?.mp hentry, hzip.1, hzip.2⟩

/-- No negative observation is without a cell, and no bounds are. -/
theorem map_sourceCells {s : SourceRun} (h : s.gapBounds.length = s.negatives.length) (si : ℕ) :
    (sourceCells (s, si)).map Cell.negative = s.negatives ∧
      (sourceCells (s, si)).map Cell.bounds = s.gapBounds := by
  unfold sourceCells
  rw [List.map_map, List.map_map]
  constructor
  · calc (s.negatives.zip s.gapBounds).zipIdx.map (fun e => e.1.1)
        = ((s.negatives.zip s.gapBounds).zipIdx.map Prod.fst).map Prod.fst := by
          rw [List.map_map]; rfl
      _ = s.negatives := by rw [List.zipIdx_map_fst, List.map_fst_zip h.ge]
  · calc (s.negatives.zip s.gapBounds).zipIdx.map (fun e => e.1.2)
        = ((s.negatives.zip s.gapBounds).zipIdx.map Prod.fst).map Prod.snd := by
          rw [List.map_map]; rfl
      _ = s.gapBounds := by rw [List.zipIdx_map_fst, List.map_snd_zip h.le]

theorem map_cells {a : AssetRun} (h : BoundsKept a) :
    (cells a).map Cell.negative = a.sources.flatMap SourceRun.negatives ∧
      (cells a).map Cell.bounds = a.sources.flatMap SourceRun.gapBounds := by
  have hsource : ∀ entry ∈ a.sources.zipIdx,
      entry.1.gapBounds.length = entry.1.negatives.length := by
    intro entry hentry
    exact h _ (List.mem_of_getElem? (List.mem_zipIdx_iff_getElem?.mp hentry))
  have hsources : a.sources = a.sources.zipIdx.map Prod.fst := (List.zipIdx_map_fst _ _).symm
  unfold cells
  rw [List.map_flatMap, List.map_flatMap]
  constructor
  · conv_rhs => rw [hsources, List.flatMap_map]
    exact List.flatMap_congr fun entry hentry => (map_sourceCells (hsource entry hentry) _).1
  · conv_rhs => rw [hsources, List.flatMap_map]
    exact List.flatMap_congr fun entry hentry => (map_sourceCells (hsource entry hentry) _).2

theorem noticedOf_eq (a : AssetRun) : noticedOf a = (noticedCells a).map Prod.snd := by
  unfold noticedOf rowsOf noticedCells
  rw [List.filterMap_map, List.map_filterMap]
  congr 1
  funext c
  simp [Function.comp_def]

theorem mem_noticedCells {a : AssetRun} {p : Cell × NoticedRow} (h : p ∈ noticedCells a) :
    p.1 ∈ cells a ∧ p.1.row a.assetId = .inl p.2 := by
  obtain ⟨c, hc, hp⟩ := List.mem_filterMap.mp h
  obtain ⟨r, hr, rfl⟩ := Option.map_eq_some_iff.mp hp
  exact ⟨hc, Sum.getLeft?_eq_some_iff.mp hr⟩

/-! ## 2. The loop over the rows -/

/-- A cell after those before it. -/
def Rows.add (assetId : String) (rows : Rows) (c : Cell) : Rows :=
  match c.row assetId with
  | .inl r => { rows with
      noticed := rows.noticed ++ [r]
      negsWall := rows.negsWall ++ [(r.sinceWallMs, c.sourceIndex, c.place)] }
  | .inr r => { rows with unmapped := rows.unmapped ++ [r] }

theorem rowStep_eq {assetId : String} {s : SourceRun} {ni : ℕ} {b : GapBounds}
    (hb : s.gapBounds[ni]? = some b) (si : ℕ) (rows : Rows) (n : NegativeObservation) :
    rowStep assetId si s rows (n, ni) = .ok (rows.add assetId ⟨si, ni, s, n, b⟩) := by
  have hindex : (index s.gapBounds ni : Checked String GapBounds) = .ok b := by
    rw [index, hb]
  unfold rowStep Rows.add Cell.row
  simp only [hindex]
  cases s.toWallMs n.absentSinceMs with
  | none => rfl
  | some since =>
    cases s.toWallMs n.expectedByMs with
    | none => rfl
    | some by_ => rfl

theorem sourceStep_eq {s : SourceRun} (h : s.gapBounds.length = s.negatives.length)
    (assetId : String) (si : ℕ) (rows : Rows) :
    sourceStep assetId rows (s, si) =
      .ok ((sourceCells (s, si)).foldl (Rows.add assetId) rows) := by
  have hplaces : s.negatives.zipIdx =
      (s.negatives.zip s.gapBounds).zipIdx.map fun e => (e.1.1, e.2) := by
    conv_lhs => rw [← List.map_fst_zip h.ge, List.zipIdx_map]
    rfl
  unfold sourceStep sourceCells
  rw [hplaces, List.foldlM_map, List.foldl_map]
  refine foldlM_eq_ok _ ?_ rows
  intro rows e he
  have hzip := List.getElem?_zip_eq_some.mp (List.mem_zipIdx_iff_getElem?.mp he)
  exact rowStep_eq hzip.2 si rows _

theorem foldl_add (assetId : String) (cs : List Cell) : ∀ (rows : Rows),
    cs.foldl (Rows.add assetId) rows =
      { noticed := rows.noticed ++ (cs.map (Cell.row assetId)).filterMap Sum.getLeft?
        unmapped := rows.unmapped ++ (cs.map (Cell.row assetId)).filterMap Sum.getRight?
        negsWall := rows.negsWall ++
          (cs.filterMap fun c => (c.row assetId).getLeft?.map (Prod.mk c)).map
            fun p => (p.2.sinceWallMs, p.1.sourceIndex, p.1.place) } := by
  induction cs with
  | nil =>
    intro rows
    simp
  | cons c cs ih =>
    intro rows
    rw [List.foldl_cons, ih]
    cases hrow : c.row assetId with
    | inl r => simp [Rows.add, hrow, List.filterMap_cons]
    | inr r => simp [Rows.add, hrow, List.filterMap_cons]

/-- **The loop over the rows** collects the rows of all cells, and keeps where they are. -/
theorem assetRows_eq {a : AssetRun} (h : BoundsKept a) (noticed : List NoticedRow)
    (unmapped : List UnmappedRow) :
    assetRows a noticed unmapped =
      .ok ⟨noticed ++ noticedOf a, unmapped ++ unmappedOf a, negsWallOf a⟩ := by
  have hloop : assetRows a noticed unmapped =
      .ok ((cells a).foldl (Rows.add a.assetId) ⟨noticed, unmapped, []⟩) := by
    unfold assetRows cells
    rw [List.foldl_flatMap]
    refine foldlM_eq_ok _ ?_ _
    intro rows entry hentry
    have hs := List.mem_of_getElem? (List.mem_zipIdx_iff_getElem?.mp hentry)
    exact sourceStep_eq (h _ hs) a.assetId entry.2 rows
  rw [hloop, foldl_add]
  rfl

/-! ## 3. From places back to rows -/

/-- **The indices lead back to the rows**, and are in range where there is a row.  This is what
makes the second stage of `analyze` free of panics. -/
theorem negativeAt_eq (a : AssetRun) (i : ℕ) :
    negativeAt a (negsWallOf a) i = index ((noticedOf a).map NoticedRow.negative) i := by
  rw [noticedOf_eq, List.map_map, index_map]
  unfold negativeAt negsWallOf
  rw [index_map]
  cases hi : (noticedCells a)[i]? with
  | none =>
    rw [index, hi]
    rfl
  | some p =>
    obtain ⟨hcell, hrow⟩ := mem_noticedCells (List.mem_of_getElem? hi)
    obtain ⟨hsource, hnegative, -⟩ := cell_at hcell
    have hsame := (row_left hrow).2.2.1
    simp [index, hi, hsource, hnegative, hsame, Except.map, Bind.bind, Except.bind]

/-- All indices of a list give the list. -/
theorem filterMap_getElem?_range {α : Type} (l : List α) :
    (List.range l.length).filterMap (l[·]?) = l := by
  induction l with
  | nil => rfl
  | cons a l ih =>
    rw [List.length_cons, List.range_succ_eq_map, List.filterMap_cons, List.filterMap_map]
    exact congrArg (a :: ·) ih

theorem mapM_index {α : Type} {l : List α} {places : List ℕ} (h : ∀ i ∈ places, i < l.length) :
    places.mapM (index l) = (.ok (places.filterMap (l[·]?)) : Checked String (List α)) := by
  induction places with
  | nil => rfl
  | cons i places ih =>
    rw [List.forall_mem_cons] at h
    rw [List.mapM_cons, ih h.2, List.filterMap_cons, index_eq h.1,
      List.getElem?_eq_getElem h.1]
    rfl

/-! ## 4. Claims -/

variable (sha256 : List UInt8 → Digest)

/-- The reasons of a claim hold no delimiter: they are words of the program, whatever the outcome
names. -/
theorem claimTokens_plain (outcome : CauseOutcome) (cues : CueSet) :
    ∀ t ∈ claimTokens outcome cues, ';' ∉ t.toList := by
  unfold claimTokens
  simp only [List.forall_mem_append, List.forall_mem_cons]
  refine ⟨⟨?_, ?_, List.forall_mem_nil _⟩, ?_⟩
  · cases outcome with
    | consistent candidates =>
      show ';' ∉ "cause-candidate".toList
      decide
    | ambiguous candidates texts =>
      show ';' ∉ "cause-ambiguous".toList
      decide
    | unknown reason =>
      cases reason
      all_goals decide
  · cases cues.weakestBasis
    all_goals decide
  · split
    · rw [List.forall_mem_singleton]
      decide
    · exact List.forall_mem_nil _

/-- A claim is built, and cites the absences it is built from. -/
theorem buildClaim_eq (catalog : SignatureCatalog) (sources : List SourceInput) (family : Family)
    (assetId : String) (triggerChannel : ChannelId) (absences : List NegativeObservation)
    (w : Window) (generatedAtMs : Int64) :
    ∃ claim, (buildClaim sha256 catalog sources family assetId triggerChannel absences w
        generatedAtMs : Checked String CauseClaim) = .ok claim ∧
      claim.absence = absences.map (negativeDigest sha256) := by
  have htokens := claimTokens_plain
    (matchSignatures catalog family (extractCues sources w)) (extractCues sources w)
  unfold buildClaim
  simp only [joinReasonTokens, if_pos htokens]
  exact ⟨_, rfl, rfl⟩

/-- The rows of a window. -/
def windowNegatives (a : AssetRun) (ids : List TriggerId) : List NegativeObservation :=
  (ids.filterMap TriggerId.place).filterMap (((noticedOf a).map NoticedRow.negative)[·]?)

/-- The claim of a window: of the asset, from the start of the window on, and citing the absences
of the triggers in it. -/
structure ClaimOf (a : AssetRun) (w : Window × List TriggerId) (c : ClaimRecord) : Prop where
  assetId_eq : c.assetId = a.assetId
  start_eq : c.windowStartMs = w.1.startMs
  absence_eq : c.claim.absence = (windowNegatives a w.2).map (negativeDigest sha256)

def windowsOf (a : AssetRun) : List (Window × List TriggerId) :=
  windowsFromTriggers (triggersOf a (negsWallOf a)) windowGapMs windowSpanMs

/-- The places of the triggers are those of the rows, each once. -/
theorem filterMap_place_triggersOf (a : AssetRun) :
    ((triggersOf a (negsWallOf a)).map Prod.snd).filterMap TriggerId.place =
      List.range (noticedOf a).length := by
  have hevents : ((a.sources.flatMap fun s =>
      (eventTriggerTimes s.obs).map fun t => ((t, ⊤) : Trigger)).map Prod.snd).filterMap
      TriggerId.place = [] := by
    rw [List.filterMap_eq_nil_iff]
    intro id hid
    obtain ⟨p, hp, rfl⟩ := List.mem_map.mp hid
    obtain ⟨s, -, hps⟩ := List.mem_flatMap.mp hp
    obtain ⟨t, -, rfl⟩ := List.mem_map.mp hps
    rfl
  have hlen : (noticedOf a).length = (negsWallOf a).length := by
    rw [noticedOf_eq, negsWallOf, List.length_map, List.length_map]
  unfold triggersOf
  rw [List.map_append, List.filterMap_append, hevents, List.append_nil, List.map_map,
    List.filterMap_map, hlen]
  calc (negsWallOf a).zipIdx.filterMap (fun entry => some entry.2)
      = (negsWallOf a).zipIdx.map Prod.snd := by rw [← List.filterMap_eq_map]; rfl
    _ = List.range (negsWallOf a).length := by rw [List.zipIdx_map_snd, List.range_eq_range']

/-- The places in the windows are those of the rows, each once. -/
theorem places_windowsOf (a : AssetRun) :
    ((windowsOf a).flatMap fun w => w.2.filterMap TriggerId.place).Perm
      (List.range (noticedOf a).length) := by
  rw [← filterMap_place_triggersOf, ← List.filterMap_flatMap]
  exact (flatMap_windowsFromTriggers _ _ _).filterMap _

/-- **Every window gets its claim**, in the order of the windows. -/
theorem assetClaims_eq (catalog : SignatureCatalog) (a : AssetRun) :
    ∃ claims, assetClaims sha256 catalog a (negsWallOf a) = .ok claims ∧
      List.Forall₂ (ClaimOf sha256 a) (windowsOf a) claims := by
  have hwindow : ∀ w ∈ windowsOf a, ∃ c,
      windowClaim sha256 catalog a (negsWallOf a) w = .ok c ∧ ClaimOf sha256 a w c := by
    intro w hw
    have hrange : ∀ i ∈ w.2.filterMap TriggerId.place,
        i < ((noticedOf a).map NoticedRow.negative).length := by
      intro i hi
      rw [List.length_map, ← List.mem_range]
      exact (places_windowsOf a).mem_iff.mp (List.mem_flatMap.mpr ⟨w, hw, hi⟩)
    have hnegatives : (w.2.filterMap TriggerId.place).mapM (negativeAt a (negsWallOf a)) =
        .ok (windowNegatives a w.2) := by
      rw [mapM_congr_ok fun i _ => negativeAt_eq a i]
      exact mapM_index hrange
    obtain ⟨claim, hclaim, habsence⟩ := buildClaim_eq sha256 catalog (sourceInputs a) a.family
      a.assetId (((windowNegatives a w.2).head?.map fun n => n.subject.channel).getD .event)
      (windowNegatives a w.2) w.1 w.1.endMs
    refine ⟨⟨a.assetId, w.1.startMs, w.1.endMs, claim⟩, ?_, rfl, rfl, habsence⟩
    exact bind_eq_ok.mpr ⟨_, hnegatives, bind_eq_ok.mpr ⟨claim, hclaim, rfl⟩⟩
  unfold assetClaims
  revert hwindow
  unfold windowsOf
  generalize windowsFromTriggers _ _ _ = windows
  intro hwindow
  induction windows with
  | nil => exact ⟨[], rfl, List.Forall₂.nil⟩
  | cons w windows ih =>
    rw [List.forall_mem_cons] at hwindow
    obtain ⟨c, hc, hspec⟩ := hwindow.1
    obtain ⟨claims, hclaims, hall⟩ := ih hwindow.2
    refine ⟨c :: claims, ?_, List.Forall₂.cons hspec hall⟩
    rw [List.mapM_cons, hc, hclaims]
    rfl

/-- **The claims cite the rows**, each once and nothing else. -/
theorem absences_perm {a : AssetRun} {claims : List ClaimRecord}
    (h : List.Forall₂ (ClaimOf sha256 a) (windowsOf a) claims) :
    (claims.flatMap fun c => c.claim.absence).Perm
      ((noticedOf a).map fun r => negativeDigest sha256 r.negative) := by
  have hcited : claims.flatMap (fun c => c.claim.absence) =
      (windowsOf a).flatMap fun w => (windowNegatives a w.2).map (negativeDigest sha256) := by
    generalize windowsOf a = windows at h
    induction h with
    | nil => rfl
    | cons hc _ ih => rw [List.flatMap_cons, List.flatMap_cons, ih, hc.absence_eq]
  have hall := filterMap_getElem?_range ((noticedOf a).map NoticedRow.negative)
  rw [List.length_map] at hall
  rw [hcited, ← List.map_flatMap]
  unfold windowNegatives
  rw [← List.filterMap_flatMap]
  have hplaces := ((places_windowsOf a).filterMap
    (((noticedOf a).map NoticedRow.negative)[·]?)).map (negativeDigest sha256)
  rw [hall, List.map_map] at hplaces
  exact hplaces

/-- The windows of an asset start one after the other, which is why the names of its claims
differ. -/
theorem starts_increasing {a : AssetRun} {claims : List ClaimRecord}
    (h : List.Forall₂ (ClaimOf sha256 a) (windowsOf a) claims) :
    claims.Pairwise fun c c' => c.windowStartMs.toInt < c'.windowStartMs.toInt := by
  have hstarts : claims.map ClaimRecord.windowStartMs =
      (windowsOf a).map fun w => w.1.startMs := by
    generalize windowsOf a = windows at h
    induction h with
    | nil => rfl
    | cons hc _ ih => rw [List.map_cons, List.map_cons, ih, hc.start_eq]
  have hwindows := pairwise_windowsFromTriggers (triggersOf a (negsWallOf a)) windowSpanMs
    (show (0 : Int64) ≤ windowGapMs by decide)
  have hpairs : ((windowsOf a).map fun w => w.1.startMs).Pairwise
      fun t t' => t.toInt < t'.toInt := List.pairwise_map.mpr hwindows
  rwa [← hstarts, List.pairwise_map] at hpairs

/-! ## 5. The windows of triggers -/

/-- **The triggers are cut where two neighbours are more than the gap apart.** Each is in one
window, the windows start at their first triggers and one after the other, and a window holds the
times of those of its triggers that are less than a span behind the first.  `h` says that a
trigger's time plus the span is still a time, and that differences of triggers are; beyond that
the comparisons of the code are between wrapped numbers.  There may be any number of triggers, in
any order. -/
theorem windows_cluster (triggers : List Trigger) (h : Representable windowSpanMs triggers) :
    ∃ groups : List (List Trigger),
      groups.flatten.Perm triggers ∧
      List.Forall₂ (WindowOf windowGapMs windowSpanMs)
        (windowsFromTriggers triggers windowGapMs windowSpanMs) groups ∧
      ((windowsFromTriggers triggers windowGapMs windowSpanMs).Pairwise fun w w' =>
        w.1.startMs.toInt < w'.1.startMs.toInt) ∧
      groups.Pairwise fun g g' =>
        ∀ p ∈ g, ∀ q ∈ g', windowGapMs.toInt < q.1.toInt - p.1.toInt := by
  refine ⟨(triggers.insertionSort triggerLe).splitBy (near windowGapMs), ?_, ?_, ?_,
    pairwise_gap h⟩
  · rw [List.flatten_splitBy]
    exact List.perm_insertionSort triggerLe triggers
  · rw [windowsFromTriggers_eq, List.forall₂_map_left_iff, List.forall₂_same]
    exact fun g hg => windowOf_piece h hg
  · exact pairwise_windowsFromTriggers triggers windowSpanMs (by decide)

theorem windows_cluster_chained :
    ∃ groups : List (List Trigger),
      groups.flatten.Perm [(0, 0), (10000, 1), (20000, 2), (30000, 3), (40001, 4)] ∧
      List.Forall₂ (WindowOf windowGapMs windowSpanMs)
        (windowsFromTriggers [(0, 0), (10000, 1), (20000, 2), (30000, 3), (40001, 4)] windowGapMs
          windowSpanMs) groups ∧
      ((windowsFromTriggers [(0, 0), (10000, 1), (20000, 2), (30000, 3), (40001, 4)] windowGapMs
        windowSpanMs).Pairwise fun w w' => w.1.startMs.toInt < w'.1.startMs.toInt) ∧
      groups.Pairwise fun g g' =>
        ∀ p ∈ g, ∀ q ∈ g', windowGapMs.toInt < q.1.toInt - p.1.toInt :=
  windows_cluster _ ⟨by decide, by decide⟩

/-- Each of four triggers is the gap behind the one before, and the last of them lies at the end
of their window and not within it. -/
theorem chained_trigger_outside :
    windowsFromTriggers [(0, 0), (10000, 1), (20000, 2), (30000, 3)] windowGapMs windowSpanMs =
        [(⟨0, 30000⟩, [0, 1, 2, 3])] ∧
      Representable windowSpanMs [(0, 0), (10000, 1), (20000, 2), (30000, 3)] ∧
      ¬ ∀ w ∈ windowsFromTriggers [(0, 0), (10000, 1), (20000, 2), (30000, 3)] windowGapMs
        windowSpanMs, (3 : TriggerId) ∈ w.2 →
          w.1.startMs.toInt ≤ (30000 : Int64).toInt ∧ (30000 : Int64).toInt < w.1.endMs.toInt := by
  have hwindows : windowsFromTriggers [(0, 0), (10000, 1), (20000, 2), (30000, 3)] windowGapMs
      windowSpanMs = [(⟨0, 30000⟩, [0, 1, 2, 3])] := rfl
  refine ⟨hwindows, ⟨by decide, by decide⟩, fun h => ?_⟩
  have hin := h (⟨0, 30000⟩, [0, 1, 2, 3]) (by rw [hwindows]; exact List.mem_cons_self)
    (by simp)
  exact absurd hin.2 (by decide)

end Musubi.Pipeline
