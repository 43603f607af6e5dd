/-
# One row, one marker

`build_steps` documents one marker for each row that was noticed and one for each claim.  It
leaves out what has no position, so this holds of exactly the outputs whose assets with rows or
claims have a position at all, and whose grid ends (`buildSteps_complete_iff`).

An asset has a position at every time or at none (`positionAt_isSome_iff`), so what decides is
whether some record of its sources has a wall time and a position.  A ground station whose log
holds heartbeats only is a real asset with rows and without one: section 3 runs it, and of its row
there is no marker.

The condition (`Markable`) has two more parts that are no fault of the loop over the rows: the
grid before it has to end, and the texts that are joined into reasons must not hold the delimiter,
as the join is a panic otherwise (`Fanout.ReasonTokens`).  With a position and without a panic
each entry adds its marker; that the markers are then one for one with the entries, although
`build_steps` goes asset by asset, is `shownBy_iff`, for rows and for claims alike.
-/
import Musubi.Fanout.Built
import Musubi.Lib.Segments
import Musubi.Lib.Sha256
import Musubi.Pipeline.Isolation
import Musubi.Pipeline.Reasons

namespace Musubi.Fanout

open Lib Lib.Checked Musubi.Core Reference Pipeline

/-! ## 1. Entries with their assets -/

section Entries

variable {β : Type} (owner : β → String)

/-- The entries of each asset, with the asset. -/
def owned (assets : List AssetRun) (entries : List β) : List (AssetRun × β) :=
  assets.flatMap fun a => (entries.filter fun x => owner x = a.assetId).map (Prod.mk a)

/-- The entries of the assets that there are. -/
def known (assets : List AssetRun) (entries : List β) : List β :=
  entries.filter fun x => owner x ∈ assets.map AssetRun.assetId

variable {owner} {assets : List AssetRun} {entries : List β}

theorem mem_owned {p : AssetRun × β} : p ∈ owned owner assets entries ↔
    p.1 ∈ assets ∧ p.2 ∈ entries ∧ owner p.2 = p.1.assetId := by
  obtain ⟨a, x⟩ := p
  unfold owned
  simp

theorem map_snd_owned (hnodup : (assets.map AssetRun.assetId).Nodup) :
    ((owned owner assets entries).map Prod.snd).Perm (known owner assets entries) := by
  unfold owned known
  rw [List.map_flatMap]
  simp only [List.map_map, Function.comp_def, List.map_id']
  exact flatMap_filter_perm entries hnodup

theorem flatMap_added (f : AssetRun → β → Checked Empty (Option DemoStep)) :
    (assets.flatMap fun a =>
        (entries.filter fun x => owner x = a.assetId).filterMap (added (f a))) =
      (owned owner assets entries).filterMap fun p => added (f p.1) p.2 := by
  unfold owned
  rw [List.filterMap_flatMap]
  simp only [List.filterMap_map, Function.comp_def]

/-- Steps stand for entries, one for one and in some order.  No entry is without its step, and no
two share one. -/
def ShownBy (R : DemoStep → β → Prop) (steps : List DemoStep) (entries : List β) : Prop :=
  ∃ l, List.Perm l entries ∧ List.Forall₂ R steps l

theorem forall₂_filterMap {R : DemoStep → β → Prop} {g : AssetRun × β → Option DemoStep}
    {l : List (AssetRun × β)} (h : ∀ p ∈ l, ∃ s, g p = some s ∧ R s p.2) :
    List.Forall₂ R (l.filterMap g) (l.map Prod.snd) := by
  induction l with
  | nil => exact List.Forall₂.nil
  | cons p l ih =>
    rw [List.forall_mem_cons] at h
    obtain ⟨⟨s, hs, hR⟩, hall⟩ := h
    rw [List.filterMap_cons, hs, List.map_cons]
    exact List.Forall₂.cons hR (ih hall)

/-- **Every entry is shown** when each of them adds a step.  The entries are gone through asset by
asset, by the name of their owner; as no two assets share a name, none of them is met twice, and
the steps that stand for them are as many as the entries are only when none is left out. -/
theorem shownBy_iff (hnodup : (assets.map AssetRun.assetId).Nodup)
    {f : AssetRun → β → Checked Empty (Option DemoStep)} {R : DemoStep → β → Prop}
    (hcontent : ∀ s x, R (content s) x ↔ R s x)
    (hshows : ∀ p ∈ owned owner assets entries, ∀ s, f p.1 p.2 = .ok (some s) → R s p.2)
    {steps : List DemoStep}
    (hsteps : (steps.map content).Perm ((assets.flatMap fun a =>
      (entries.filter fun x => owner x = a.assetId).filterMap (added (f a))).map content)) :
    ShownBy R steps (known owner assets entries) ↔
      ∀ p ∈ owned owner assets entries, (added (f p.1) p.2).isSome := by
  have hmap (l : List DemoStep) (xs : List β) :
      List.Forall₂ R (l.map content) xs ↔ List.Forall₂ R l xs := by
    simp only [List.forall₂_map_left_iff, hcontent]
  rw [flatMap_added] at hsteps
  have hentries : ((owned owner assets entries).map Prod.snd).Perm (known owner assets entries) :=
    map_snd_owned hnodup
  constructor
  · rintro ⟨l, hperm, hall⟩
    have hlength : ((owned owner assets entries).filterMap fun p => added (f p.1) p.2).length =
        (owned owner assets entries).length := by
      have hsame := hsteps.length_eq
      rw [List.length_map, List.length_map, hall.length_eq, hperm.length_eq,
        ← hentries.length_eq, List.length_map] at hsame
      exact hsame.symm
    exact List.filterMap_length_eq_length.mp hlength
  · intro h
    have hall : List.Forall₂ R ((owned owner assets entries).filterMap fun p => added (f p.1) p.2)
        ((owned owner assets entries).map Prod.snd) := by
      refine forall₂_filterMap ?_
      intro p hp
      obtain ⟨s, hs⟩ := Option.isSome_iff_exists.mp (h p hp)
      exact ⟨s, hs, hshows p hp s (added_eq_some.mp hs)⟩
    obtain ⟨l, hl, hperm⟩ := List.perm_comp_forall₂ hsteps ((hmap _ _).mpr hall)
    exact ⟨l, hperm.trans hentries, (hmap _ _).mp hl⟩

end Entries

/-! ## 2. Completeness -/

/-- One marker for each row and one for each claim of the assets that there are.  Of an analysis
these are all rows and all claims. -/
structure Complete (shiftMs : Int64) (out : PipelineOut) (steps : List DemoStep) : Prop where
  rows : ShownBy (ShowsRow shiftMs) (ofKind .absence steps)
    (known NoticedRow.assetId out.assets out.noticed)
  claims : ShownBy (ShowsClaim shiftMs) (ofKind .cause steps)
    (known ClaimRecord.assetId out.assets out.claims)

theorem showsRow_content {shiftMs : Int64} (s : DemoStep) (row : NoticedRow) :
    ShowsRow shiftMs (content s) row ↔ ShowsRow shiftMs s row :=
  ⟨fun ⟨hk, ha, ht, ho, hs, hr⟩ => ⟨hk, ha, ht, ho, hs, hr⟩,
    fun ⟨hk, ha, ht, ho, hs, hr⟩ => ⟨hk, ha, ht, ho, hs, hr⟩⟩

theorem showsClaim_content {shiftMs : Int64} (s : DemoStep) (claim : ClaimRecord) :
    ShowsClaim shiftMs (content s) claim ↔ ShowsClaim shiftMs s claim :=
  ⟨fun ⟨hk, ha, ht, hs, hr, hc⟩ => ⟨hk, ha, ht, hs, hr, hc⟩,
    fun ⟨hk, ha, ht, hs, hr, hc⟩ => ⟨hk, ha, ht, hs, hr, hc⟩⟩

variable (sha256 : List UInt8 → Digest) {shiftMs : Int64}

/-- A row adds a marker exactly when its source is there, its asset has a position, and its tokens
are without the separator. -/
theorem isSome_added_absence {asset : AssetRun} {row : NoticedRow} :
    (added (absenceStep sha256 asset shiftMs) row).isSome ↔
      row.sourceIndex < asset.sources.length ∧ Placed asset.sources ∧
        SepFree row.negative.mark.reasonCode ∧ SepFree row.negative.expectationId := by
  unfold added
  rcases absenceStep_cases sha256 asset shiftMs row with
    ⟨hnot, hnone⟩ | ⟨source, hsource, hplaced, ⟨hnot, hpanic⟩ | ⟨hplain, s, hsome, -, -⟩⟩
  · rw [hnone]
    refine iff_of_false (by simp [Except.toOption]) ?_
    exact fun h => hnot ⟨h.1, h.2.1⟩
  · rw [hpanic]
    refine iff_of_false (by simp [Except.toOption]) ?_
    exact fun h => hnot h.2.2
  · rw [hsome]
    refine iff_of_true rfl ⟨(List.getElem?_eq_some_iff.mp hsource).1, hplaced, hplain⟩

/-- A claim adds a marker exactly when its asset has a position and its tokens are without the
separator. -/
theorem isSome_added_cause {asset : AssetRun} {claim : ClaimRecord} :
    (added (causeStep sha256 asset shiftMs) claim).isSome ↔
      Placed asset.sources ∧ SepFree claim.claim.mark.reasonCode ∧
        SepFree (outcomeToken claim.claim.outcome) ∧
        SepFree claim.claim.generator.catalogVersion := by
  unfold added
  rcases causeStep_cases sha256 asset shiftMs claim with
    ⟨hnot, hnone⟩ | ⟨hplaced, ⟨hnot, hpanic⟩ | ⟨hplain, s, hsome, -, -⟩⟩
  · rw [hnone]
    refine iff_of_false (by simp [Except.toOption]) ?_
    exact fun h => hnot h.1
  · rw [hpanic]
    refine iff_of_false (by simp [Except.toOption]) ?_
    exact fun h => hnot h.2
  · rw [hsome]
    exact iff_of_true rfl ⟨hplaced, hplain⟩

theorem shows_absence {assets : List AssetRun} {rows : List NoticedRow} :
    ∀ p ∈ owned NoticedRow.assetId assets rows, ∀ s,
      absenceStep sha256 p.1 shiftMs p.2 = .ok (some s) → ShowsRow shiftMs s p.2 := by
  intro p hp s hs
  rcases absenceStep_cases sha256 p.1 shiftMs p.2 with
    ⟨-, hnone⟩ | ⟨_, -, -, ⟨-, hpanic⟩ | ⟨-, s', hsome, hshows, -⟩⟩
  · rw [hnone] at hs
    cases hs
  · rw [hpanic] at hs
    cases hs
  · rw [hsome] at hs
    cases hs
    exact hshows (mem_owned.mp hp).2.2

theorem shows_cause {assets : List AssetRun} {claims : List ClaimRecord} :
    ∀ p ∈ owned ClaimRecord.assetId assets claims, ∀ s,
      causeStep sha256 p.1 shiftMs p.2 = .ok (some s) → ShowsClaim shiftMs s p.2 := by
  intro p hp s hs
  rcases causeStep_cases sha256 p.1 shiftMs p.2 with
    ⟨-, hnone⟩ | ⟨-, ⟨-, hpanic⟩ | ⟨-, s', hsome, hshows, -⟩⟩
  · rw [hnone] at hs
    cases hs
  · rw [hpanic] at hs
    cases hs
  · rw [hsome] at hs
    cases hs
    exact hshows (mem_owned.mp hp).2.2

/-- The asset of that name has a position: some record of its sources has a wall time and the
fields of a fix. -/
def HasPosition (out : PipelineOut) (assetId : String) : Prop :=
  ∃ a ∈ out.assets, a.assetId = assetId ∧ Placed a.sources

instance (out : PipelineOut) (assetId : String) : Decidable (HasPosition out assetId) :=
  inferInstanceAs (Decidable (∃ a ∈ out.assets, a.assetId = assetId ∧ Placed a.sources))

/-- What an output needs for all its markers: the grid ends, the assets with rows or claims have a
position, and the texts that are made into reasons hold no delimiter. -/
structure Markable (out : PipelineOut) : Prop where
  grid : out.assets = [] ∨ GridEnds out.t0Ms out.endMs
  rows : ∀ r ∈ out.noticed, HasPosition out r.assetId ∧ SepFree r.negative.expectationId
  claims : ∀ c ∈ out.claims, HasPosition out c.assetId ∧
    SepFree (outcomeToken c.claim.outcome) ∧ SepFree c.claim.generator.catalogVersion

/-- `Markable`, the grid ending after `n` steps. -/
def MarkableWithin (n : ℕ) (out : PipelineOut) : Prop :=
  out.endMs < out.t0Ms + Int64.ofNat n * observationStrideMs ∧
    (∀ r ∈ out.noticed, HasPosition out r.assetId ∧ SepFree r.negative.expectationId) ∧
    ∀ c ∈ out.claims, HasPosition out c.assetId ∧ SepFree (outcomeToken c.claim.outcome) ∧
      SepFree c.claim.generator.catalogVersion

instance (n : ℕ) (out : PipelineOut) : Decidable (MarkableWithin n out) :=
  inferInstanceAs (Decidable (_ ∧ (∀ r ∈ out.noticed, _ ∧ _) ∧ ∀ c ∈ out.claims, _ ∧ _ ∧ _))

theorem MarkableWithin.markable {n : ℕ} {out : PipelineOut} (h : MarkableWithin n out) :
    Markable out := ⟨Or.inr ⟨n, h.1⟩, h.2.1, h.2.2⟩

theorem hasPosition_iff {out : PipelineOut} (hnodup : (out.assets.map AssetRun.assetId).Nodup)
    {a : AssetRun} (ha : a ∈ out.assets) : HasPosition out a.assetId ↔ Placed a.sources := by
  constructor
  · rintro ⟨b, hb, hid, hplaced⟩
    rwa [List.inj_on_of_nodup_map hnodup hb ha hid] at hplaced
  · exact fun h => ⟨a, ha, rfl, h⟩

variable {readerFor : String → Option Reader} {files : List InputFile} {knowledge : Knowledge}
  {window : ObservationWindow} {out : PipelineOut}

/-- A row of an analysis adds a marker exactly when its asset has a position and the identifier of
its expectation is without the separator: the analysis itself keeps the source in range and the
reason plain. -/
theorem row_added_iff (shiftMs : Int64)
    (h : analyze sha256 readerFor files knowledge window = .ok out) {p : AssetRun × NoticedRow}
    (hp : p ∈ owned NoticedRow.assetId out.assets out.noticed) :
    (added (absenceStep sha256 p.1 shiftMs) p.2).isSome ↔
      HasPosition out p.2.assetId ∧ SepFree p.2.negative.expectationId := by
  have hnodup := (accounted_of_analyze sha256 h).distinct
  obtain ⟨ha, hr, hid⟩ := mem_owned.mp hp
  obtain ⟨b, hb, hidb, hindex, hreason⟩ := noticed_of_analyze sha256 h hr
  obtain rfl := List.inj_on_of_nodup_map hnodup hb ha (hidb.symm.trans hid)
  rw [isSome_added_absence, hid, hasPosition_iff hnodup ha]
  exact ⟨fun ⟨_, hplaced, _, hexp⟩ => ⟨hplaced, hexp⟩,
    fun ⟨hplaced, hexp⟩ => ⟨hindex, hplaced, hreason, hexp⟩⟩

/-- A claim of an analysis adds a marker exactly when its asset has a position, and its outcome
and the version of the catalog are without the separator. -/
theorem claim_added_iff (shiftMs : Int64)
    (h : analyze sha256 readerFor files knowledge window = .ok out) {p : AssetRun × ClaimRecord}
    (hp : p ∈ owned ClaimRecord.assetId out.assets out.claims) :
    (added (causeStep sha256 p.1 shiftMs) p.2).isSome ↔ HasPosition out p.2.assetId ∧
      SepFree (outcomeToken p.2.claim.outcome) ∧ SepFree p.2.claim.generator.catalogVersion := by
  have hnodup := (accounted_of_analyze sha256 h).distinct
  obtain ⟨ha, hc, hid⟩ := mem_owned.mp hp
  have hreason := (claim_of_analyze sha256 h hc).2
  rw [isSome_added_cause, hid, hasPosition_iff hnodup ha]
  exact ⟨fun ⟨hplaced, _, htexts⟩ => ⟨hplaced, htexts⟩,
    fun ⟨hplaced, htexts⟩ => ⟨hplaced, hreason, htexts⟩⟩

/-- What is built is complete when every row and every claim adds a marker. -/
theorem Built.complete_iff (h : analyze sha256 readerFor files knowledge window = .ok out)
    {steps : List DemoStep} (hbuilt : Built sha256 shiftMs out steps) :
    Complete shiftMs out steps ↔
      (∀ p ∈ owned NoticedRow.assetId out.assets out.noticed,
        HasPosition out p.2.assetId ∧ SepFree p.2.negative.expectationId) ∧
      ∀ p ∈ owned ClaimRecord.assetId out.assets out.claims, HasPosition out p.2.assetId ∧
        SepFree (outcomeToken p.2.claim.outcome) ∧
        SepFree p.2.claim.generator.catalogVersion := by
  have hnodup := (accounted_of_analyze sha256 h).distinct
  have hrows := shownBy_iff hnodup showsRow_content (shows_absence sha256) hbuilt.absences
  have hclaims := shownBy_iff hnodup showsClaim_content (shows_cause sha256) hbuilt.causes
  have hboth : Complete shiftMs out steps ↔
      ShownBy (ShowsRow shiftMs) (ofKind .absence steps)
        (known NoticedRow.assetId out.assets out.noticed) ∧
      ShownBy (ShowsClaim shiftMs) (ofKind .cause steps)
        (known ClaimRecord.assetId out.assets out.claims) :=
    ⟨fun h => ⟨h.rows, h.claims⟩, fun h => ⟨h.1, h.2⟩⟩
  refine hboth.trans (and_congr (hrows.trans ?_) (hclaims.trans ?_))
  · exact forall₂_congr fun p hp => row_added_iff sha256 shiftMs h hp
  · exact forall₂_congr fun p hp => claim_added_iff sha256 shiftMs h hp

/-- An output that has what it needs is built: with enough rounds every grid ends, and no token is
refused. -/
theorem Markable.built (h : analyze sha256 readerFor files knowledge window = .ok out)
    (hmarkable : Markable out) (shiftMs : Int64) :
    ∃ rounds steps, buildStepsWith sha256 rounds out shiftMs = .ok steps := by
  have hreturns : ∀ a ∈ out.assets, AssetReturns sha256 shiftMs out a := by
    intro a ha
    constructor
    · intro r hr hid
      have hadded := row_added_iff sha256 shiftMs h (p := (a, r)) (mem_owned.mpr ⟨ha, hr, hid⟩)
      obtain ⟨s, hs⟩ := Option.isSome_iff_exists.mp (hadded.mpr (hmarkable.rows r hr))
      exact ⟨_, added_eq_some.mp hs⟩
    · intro c hc hid
      have hadded := claim_added_iff sha256 shiftMs h (p := (a, c)) (mem_owned.mpr ⟨ha, hc, hid⟩)
      obtain ⟨s, hs⟩ := Option.isSome_iff_exists.mp (hadded.mpr (hmarkable.claims c hc))
      exact ⟨_, added_eq_some.mp hs⟩
  rcases hmarkable.grid with hnone | hends
  · exact ⟨0, [], by rw [buildStepsWith, hnone]; rfl⟩
  · exact buildStepsWith_returns sha256 hends hreturns

/-- **`build_steps` makes one marker of each row and of each claim** of an analysis exactly when
its grid ends, every asset with a row or a claim has a position somewhere in its records, and no
text that becomes a reason holds the delimiter.  `h` says that the output is one that the analysis
returns: its assets then have different names, and the rows and claims are those of assets that
there are.  The rounds of the grid are fuel, so that it returns at all is on the left side. -/
theorem buildSteps_complete_iff (h : analyze sha256 readerFor files knowledge window = .ok out)
    (shiftMs : Int64) :
    (∃ rounds steps, buildStepsWith sha256 rounds out shiftMs = .ok steps ∧
      Complete shiftMs out steps) ↔ Markable out := by
  constructor
  · rintro ⟨rounds, steps, hsteps, hshown⟩
    have hbuilt := buildStepsWith_built sha256 hsteps
    obtain ⟨hrows, hclaims⟩ := (hbuilt.complete_iff sha256 h).mp hshown
    constructor
    · rcases hassets : out.assets with _ | ⟨a, assets⟩
      · exact Or.inl rfl
      · exact Or.inr (hbuilt.returns a (by rw [hassets]; exact List.mem_cons_self)).1
    · intro r hr
      obtain ⟨a, ha, hid, -⟩ := noticed_of_analyze sha256 h hr
      exact hrows (a, r) (mem_owned.mpr ⟨ha, hr, hid⟩)
    · intro c hc
      obtain ⟨⟨a, ha, hid⟩, -⟩ := claim_of_analyze sha256 h hc
      exact hclaims (a, c) (mem_owned.mpr ⟨ha, hc, hid⟩)
  · intro hmarkable
    obtain ⟨rounds, steps, hsteps⟩ := hmarkable.built sha256 h shiftMs
    have hbuilt := buildStepsWith_built sha256 hsteps
    refine ⟨rounds, steps, hsteps, (hbuilt.complete_iff sha256 h).mpr ⟨?_, ?_⟩⟩
    · exact fun p hp => hmarkable.rows p.2 (mem_owned.mp hp).2.1
    · exact fun p hp => hmarkable.claims p.2 (mem_owned.mp hp).2.1

/-! ## 3. A log with heartbeats only -/

/-- One heartbeat and nothing after it, with positions at the same time or without. -/
def heartbeatReader (positions : List Fields) (format : String) : Option Pipeline.Reader :=
  if format = "mavlink_tlog" then
    some fun profile _ => .ok ((positions.map fun fields =>
      observation Sha256.hash profile 1000 .gpsEkf fields false) ++
        [observation Sha256.hash profile 1000 .heartbeat [("HEARTBEAT.custom_mode", .i64 0)] false])
  else none

def latLon : Fields :=
  [("GLOBAL_POSITION_INT.lat", .i64 356767310), ("GLOBAL_POSITION_INT.lon", .i64 1396502999)]

def heartbeatOut (profile : FamilyProfile) (positions : List Fields) : Checked String PipelineOut :=
  analyze Sha256.hash (heartbeatReader positions) [emptyLog "ugv-01"] ⟨[profile], ⟨"t", []⟩⟩
    (.explicit 0 60000)

/-- With a position the silence after the heartbeat gets its markers. -/
theorem positioned_complete : ∃ out, heartbeatOut groundProfile [latLon] = .ok out ∧
    ∃ rounds steps, buildStepsWith Sha256.hash rounds out 0 = .ok steps ∧
      Complete 0 out steps := by
  have hout : ∃ out ∈ (heartbeatOut groundProfile [latLon]).toOption.toList,
      MarkableWithin 3 out := by
    decide +kernel
  obtain ⟨out, hmem, hmarkable⟩ := hout
  have hok := ok_of_mem_toOption hmem
  exact ⟨out, hok, (buildSteps_complete_iff Sha256.hash hok 0).mpr hmarkable.markable⟩

/-- Without one the row that was noticed gets none: it is skipped, so no list of steps is
complete. -/
theorem heartbeat_unmarked : ∃ out, heartbeatOut groundProfile [] = .ok out ∧
    ¬ ∃ rounds steps, buildStepsWith Sha256.hash rounds out 0 = .ok steps ∧
      Complete 0 out steps := by
  have hout : ∃ out ∈ (heartbeatOut groundProfile []).toOption.toList,
      (known NoticedRow.assetId out.assets out.noticed).length = 1 ∧
      (out.assets.flatMap (absencesOf Sha256.hash 0 out)).length = 0 := by
    decide +kernel
  obtain ⟨out, hmem, hknown, hadded⟩ := hout
  refine ⟨out, ok_of_mem_toOption hmem, ?_⟩
  rintro ⟨rounds, steps, hsteps, hcomplete⟩
  obtain ⟨l, hperm, hall⟩ := hcomplete.rows
  have hbuilt := (buildStepsWith_built Sha256.hash hsteps).absences.length_eq
  rw [List.length_map, List.length_map, hall.length_eq, hperm.length_eq, hknown, hadded] at hbuilt
  cases hbuilt

end Musubi.Fanout
