/-
# What `build_steps` builds

The loops of `build_steps` in closed form.  The grid ends when some half minute from its start is
past its end (`GridEnds`).  Every row of an asset adds the marker that `absence_step` returns for
it, every claim the one of `cause_step`, and the rest are observations (`buildStepsWith_eq_ok`);
the order, the slots and the numbers are given afterwards and change nothing else.

Three outcomes of one entry have to be kept apart: no marker, because the asset has no position or
the row names a source that is not there; a panic, because a text that goes into the reasons holds
the delimiter; and the marker.  `absenceStep_cases` and `causeStep_cases` give all three with
their conditions, so that nobody unfolds the steps again.

Sorting, slots and numbers are handled by what a step is AFTER them: its `content`, all of it but
slot and number.  The list of contents is a permutation of the contents that were added, and what
later modules ask, whether every entry has its marker, whether two names are the same, does not
change under permutations.
-/
import Musubi.Core.Quality
import Musubi.Fanout.BuildSteps
import Musubi.Lib.Result

namespace Musubi.Fanout

open Lib Lib.Checked Musubi.Core Reference Pipeline Northbound

/-! ## 1. Texts that are never refused -/

theorem sepFree_of_plain {s : String} (h : s.toList.all isPlain = true) : SepFree s :=
  fun hmem => absurd (List.all_eq_true.mp h _ hmem) (by decide)

@[simp] theorem sepFree_isoUtcMs (unixMs : Int64) : SepFree (isoUtcMs unixMs) :=
  sepFree_of_plain (isPlain_isoUtcMs unixMs)

@[simp] theorem sepFree_toString (v : Int64) : SepFree (toString v) :=
  sepFree_of_plain (isPlain_toString v)

@[simp] theorem sepFree_reasonToken (basis : ClockBasis) : SepFree basis.reasonToken := by
  cases basis <;> decide

@[simp] theorem sepFree_asStr (channel : ChannelId) : SepFree channel.asStr := by
  cases channel <;> decide

@[simp] theorem sepFree_hex8 (d : Digest) : SepFree (hex8 d) := sepFree_hexLower _

theorem observationTokens_plain (stale : Bool) (basis : ClockBasis) (lastObserved ageMs : Int64)
    (fromLater : Bool) :
    ∀ t ∈ observationTokens stale basis (isoUtcMs lastObserved) ageMs fromLater, SepFree t := by
  have hfresh : SepFree (if stale then "observation-stale" else "observation-fresh") := by
    cases stale <;> decide
  have hlater : ∀ t ∈ if fromLater then ["position-from-later-fix"] else [], SepFree t := by
    cases fromLater <;> decide
  have hlast : SepFree "last-observed:" := by decide
  have hage : SepFree "age-ms:" := by decide
  unfold observationTokens
  rw [List.forall_mem_append]
  refine ⟨?_, hlater⟩
  simp [hfresh, hlast, hage]

/-- The texts of an absence that may be refused: of its tokens only the reason code and the
identifier of the expectation can have a separator in them. -/
theorem absenceTokens_plain_iff (n : NegativeObservation) (sinceWallMs byWallMs : Int64) :
    (∀ t ∈ absenceTokens n sinceWallMs byWallMs, SepFree t) ↔
      SepFree n.mark.reasonCode ∧ SepFree n.expectationId := by
  have hchannel : SepFree "absent-channel:" := by decide
  have hsince : SepFree "absent-since:" := by decide
  have hby : SepFree "expected-by:" := by decide
  have hexpectation : SepFree "expectation:" := by decide
  have hgood : ∀ t ∈ (n.lastGood.map fun d => "last-good:" ++ hex8 d).toList, SepFree t := by
    intro t ht
    rw [Option.mem_toList, Option.map_eq_some_iff] at ht
    obtain ⟨d, -, rfl⟩ := ht
    exact sepFree_append.mpr ⟨by decide, sepFree_hex8 d⟩
  unfold absenceTokens
  rw [List.forall_mem_append, and_iff_left hgood]
  simp [hchannel, hsince, hby, hexpectation]

/-- The texts of a claim that may be refused: of its tokens only the reason, the outcome and the
version of the catalog can have a separator in them. -/
theorem causeTokens_plain_iff (claim : CauseClaim) :
    (∀ t ∈ causeTokens claim, SepFree t) ↔ SepFree claim.mark.reasonCode ∧
      SepFree (outcomeToken claim.outcome) ∧ SepFree claim.generator.catalogVersion := by
  have hchannel : SepFree "trigger-channel:" := by decide
  have hcause : SepFree "cause:" := by decide
  have hcandidate : SepFree "candidate-not-verdict" := by decide
  have hcatalog : SepFree "catalog:" := by decide
  unfold causeTokens
  simp [hchannel, hcause, hcandidate, hcatalog]

theorem joinReasonTokens_eq_some {tokens : List String} (h : ∀ t ∈ tokens, SepFree t) :
    joinReasonTokens tokens = some (join "|" tokens) := if_pos h

theorem joinReasonTokens_eq_none {tokens : List String} (h : ¬ ∀ t ∈ tokens, SepFree t) :
    joinReasonTokens tokens = none := if_neg h

/-! ## 2. The marker of one entry -/

variable (sha256 : List UInt8 → Digest)

/-- What an entry adds, where it adds something. -/
def added {α : Type} (f : α → Checked Empty (Option DemoStep)) (entry : α) : Option DemoStep :=
  (f entry).toOption.join

/-- The entry does not panic. -/
def Returns {α : Type} (f : α → Checked Empty (Option DemoStep)) (entry : α) : Prop :=
  ∃ y, f entry = .ok y

/-- The step is the marker of the row: its kind and asset, its two times with the shift, and the
status and the reasons of its mark.  Slot, number and position are not part of this. -/
structure ShowsRow (shiftMs : Int64) (s : DemoStep) (row : NoticedRow) : Prop where
  kind_eq : s.kind = .absence
  asset_eq : s.assetId = row.assetId
  at_eq : s.atWallMs = satAdd64 row.byWallMs shiftMs
  observed_eq : s.observedAtWallMs = satAdd64 row.sinceWallMs shiftMs
  status_eq : s.envelope.claim.mark.status = row.negative.mark.status
  reason_eq : s.envelope.claim.mark.reasonCode = join "|" (absenceTokens row.negative
    (satAdd64 row.sinceWallMs shiftMs) (satAdd64 row.byWallMs shiftMs))

/-- The step is the marker of the claim: its kind, asset and time, the status and the reasons of
its mark, and the least confidence of what went into the claim. -/
structure ShowsClaim (shiftMs : Int64) (s : DemoStep) (claim : ClaimRecord) : Prop where
  kind_eq : s.kind = .cause
  asset_eq : s.assetId = claim.assetId
  at_eq : s.atWallMs = satAdd64 claim.windowStartMs shiftMs
  status_eq : s.envelope.claim.mark.status = claim.claim.mark.status
  reason_eq : s.envelope.claim.mark.reasonCode = join "|" (causeTokens claim.claim)
  confidence_eq : s.envelope.claim.confidence = claim.claim.inputConfidence.minConfidence

/-- An observation is always shown or left out; nothing that it holds makes the step panic. -/
theorem observationStep_returns (asset : AssetRun) (shiftMs t : Int64) :
    ∃ y, observationStep sha256 asset shiftMs t = .ok y ∧
      ∀ s ∈ y.toList, s.kind = .observation := by
  unfold observationStep
  cases positionAt asset.sources t with
  | none => exact ⟨none, rfl, by simp⟩
  | some fix =>
    simp only [joinReasonTokens_eq_some (observationTokens_plain _ _ _ _ _)]
    exact ⟨_, rfl, by simp [step]⟩

/-- **What `absence_step` does**: nothing without the source or a position, a panic where a text
holds the delimiter, and else the marker of the row.  The position is asked for first, so a row
that is not shown cannot panic. -/
theorem absenceStep_cases (asset : AssetRun) (shiftMs : Int64) (row : NoticedRow) :
    (¬ (row.sourceIndex < asset.sources.length ∧ Placed asset.sources) ∧
        absenceStep sha256 asset shiftMs row = .ok none) ∨
      ∃ source, asset.sources[row.sourceIndex]? = some source ∧ Placed asset.sources ∧
        ((¬ (SepFree row.negative.mark.reasonCode ∧ SepFree row.negative.expectationId) ∧
            absenceStep sha256 asset shiftMs row = .error .panic) ∨
          (SepFree row.negative.mark.reasonCode ∧ SepFree row.negative.expectationId) ∧
            ∃ s, absenceStep sha256 asset shiftMs row = .ok (some s) ∧
              (row.assetId = asset.assetId → ShowsRow shiftMs s row) ∧
              s.markerId = absenceMarkerId asset.assetId row.negative.subject.channel
                source.profile.sourceRole (satAdd64 row.sinceWallMs shiftMs)) := by
  have hplaced := positionAt_isSome_iff asset.sources row.sinceWallMs
  have hplain := absenceTokens_plain_iff row.negative (satAdd64 row.sinceWallMs shiftMs)
    (satAdd64 row.byWallMs shiftMs)
  unfold absenceStep absenceMark
  cases hsource : asset.sources[row.sourceIndex]? with
  | none =>
    rw [List.getElem?_eq_none_iff] at hsource
    exact Or.inl ⟨fun h => absurd h.1 (by omega), rfl⟩
  | some source =>
    cases hfix : positionAt asset.sources row.sinceWallMs with
    | none =>
      rw [hfix] at hplaced
      exact Or.inl ⟨fun h => absurd (hplaced.mpr h.2) (by simp), rfl⟩
    | some fix =>
      rw [hfix] at hplaced
      refine Or.inr ⟨source, rfl, hplaced.mp rfl, ?_⟩
      by_cases htokens : ∀ t ∈ absenceTokens row.negative (satAdd64 row.sinceWallMs shiftMs)
          (satAdd64 row.byWallMs shiftMs), SepFree t
      · simp only [joinReasonTokens_eq_some htokens]
        refine Or.inr ⟨hplain.mp htokens, _, rfl, ?_, rfl⟩
        intro hid
        exact ⟨rfl, hid.symm, rfl, rfl, rfl, rfl⟩
      · simp only [joinReasonTokens_eq_none htokens]
        exact Or.inl ⟨fun h => htokens (hplain.mpr h), rfl⟩

/-- **What `cause_step` does**: nothing without a position, a panic where the reason code, the
outcome or the version of the catalog holds the delimiter, and else the marker of the claim. -/
theorem causeStep_cases (asset : AssetRun) (shiftMs : Int64) (claim : ClaimRecord) :
    (¬ Placed asset.sources ∧ causeStep sha256 asset shiftMs claim = .ok none) ∨
      Placed asset.sources ∧
        ((¬ (SepFree claim.claim.mark.reasonCode ∧ SepFree (outcomeToken claim.claim.outcome) ∧
              SepFree claim.claim.generator.catalogVersion) ∧
            causeStep sha256 asset shiftMs claim = .error .panic) ∨
          (SepFree claim.claim.mark.reasonCode ∧ SepFree (outcomeToken claim.claim.outcome) ∧
              SepFree claim.claim.generator.catalogVersion) ∧
            ∃ s, causeStep sha256 asset shiftMs claim = .ok (some s) ∧
              (claim.assetId = asset.assetId → ShowsClaim shiftMs s claim) ∧
              s.markerId =
                causeMarkerId asset.assetId (satAdd64 claim.windowStartMs shiftMs)) := by
  have hplaced := positionAt_isSome_iff asset.sources claim.windowStartMs
  have hplain := causeTokens_plain_iff claim.claim
  unfold causeStep causeMark
  cases hfix : positionAt asset.sources claim.windowStartMs with
  | none =>
    rw [hfix] at hplaced
    exact Or.inl ⟨fun h => absurd (hplaced.mpr h) (by simp), rfl⟩
  | some fix =>
    rw [hfix] at hplaced
    refine Or.inr ⟨hplaced.mp rfl, ?_⟩
    by_cases htokens : ∀ t ∈ causeTokens claim.claim, SepFree t
    · simp only [joinReasonTokens_eq_some htokens]
      refine Or.inr ⟨hplain.mp htokens, _, rfl, ?_, rfl⟩
      intro hid
      exact ⟨rfl, hid.symm, rfl, rfl, rfl, rfl⟩
    · simp only [joinReasonTokens_eq_none htokens]
      exact Or.inl ⟨fun h => htokens (hplain.mpr h), rfl⟩

/-! ## 3. The loops -/

/-- **A loop that adds steps** returns when all its entries do, and adds what they add.  Rows and
claims go through the same loop, so this is the one induction for both. -/
theorem foldlM_addStep {α : Type} {f : α → Checked Empty (Option DemoStep)} (l : List α) :
    ∀ {steps r : List DemoStep}, l.foldlM (addStep f) steps = .ok r ↔
      (∀ a ∈ l, Returns f a) ∧ r = steps ++ l.filterMap (added f) := by
  induction l with
  | nil =>
    intro steps r
    simp [pure, Except.pure, eq_comm]
  | cons a l ih =>
    intro steps r
    rw [List.foldlM_cons, bind_eq_ok, List.forall_mem_cons]
    unfold addStep
    constructor
    · rintro ⟨next, hnext, h⟩
      obtain ⟨y, hy, hpure⟩ := bind_eq_ok.mp hnext
      cases hpure
      obtain ⟨hall, rfl⟩ := ih.mp h
      refine ⟨⟨⟨y, hy⟩, hall⟩, ?_⟩
      cases y with
      | none => simp [added, hy, Except.toOption]
      | some s => simp [added, hy, Except.toOption]
    · rintro ⟨⟨⟨y, hy⟩, hall⟩, rfl⟩
      refine ⟨steps ++ y.toList, bind_eq_ok.mpr ⟨y, hy, rfl⟩, ih.mpr ⟨hall, ?_⟩⟩
      cases y with
      | none => simp [added, hy, Except.toOption]
      | some s => simp [added, hy, Except.toOption]

/-- Some half minute from the start is past the end.  The sum wraps around, so near the largest
time there need not be one. -/
def GridEnds (t0Ms endMs : Int64) : Prop :=
  ∃ n : ℕ, endMs < t0Ms + Int64.ofNat n * observationStrideMs

theorem after_ticks (t : Int64) (n : ℕ) : t + observationStrideMs +
    Int64.ofNat n * observationStrideMs = t + Int64.ofNat (n + 1) * observationStrideMs := by
  rw [Int64.ofNat_add]
  grind

/-- One round of the grid: it ends behind the last time, or adds the observation at its time, if
there is one, and goes on a stride later. -/
theorem tick_cases (asset : AssetRun) (shiftMs endMs t : Int64) (steps : List DemoStep) :
    (endMs < t ∧ tick sha256 asset shiftMs endMs (t, steps) = .ok (.inr steps)) ∨
      t ≤ endMs ∧ ∃ obs, (∀ s ∈ obs, s.kind = .observation) ∧
        tick sha256 asset shiftMs endMs (t, steps) =
          .ok (.inl (t + observationStrideMs, steps ++ obs)) := by
  unfold tick
  dsimp only
  by_cases hgrid : t ≤ endMs
  · obtain ⟨y, hy, hkind⟩ := observationStep_returns sha256 asset shiftMs t
    refine Or.inr ⟨hgrid, y.toList, hkind, ?_⟩
    rw [if_pos hgrid, addStep, hy]
    rfl
  · rw [if_neg hgrid]
    exact Or.inl ⟨Int64.not_le.mp hgrid, rfl⟩

/-- The grid ends where it can: with one round more than there are strides up to the last time.
Induction on the rounds, with the time free. -/
theorem grid_returns (asset : AssetRun) (shiftMs endMs : Int64) (n : ℕ) :
    ∀ {t : Int64} (steps : List DemoStep),
    endMs < t + Int64.ofNat n * observationStrideMs →
    ∃ r, loop (tick sha256 asset shiftMs endMs) (n + 1) (t, steps) = .ok r := by
  induction n with
  | zero =>
    intro t steps h
    rcases tick_cases sha256 asset shiftMs endMs t steps with ⟨-, htick⟩ | ⟨hgrid, -⟩
    · exact ⟨steps, by rw [loop, htick]; rfl⟩
    · have hpast : endMs < t := by simpa using h
      exact absurd hgrid (Int64.not_le.mpr hpast)
  | succ n ih =>
    intro t steps h
    rcases tick_cases sha256 asset shiftMs endMs t steps with ⟨-, htick⟩ | ⟨-, obs, -, htick⟩
    · exact ⟨steps, by rw [loop, htick]; rfl⟩
    · rw [← after_ticks] at h
      obtain ⟨r, hr⟩ := ih (steps ++ obs) h
      exact ⟨r, by rw [loop, htick]; exact hr⟩

/-- **The grid adds observations**, and ends only where it can.  The rounds are fuel: times wrap
around, so a grid whose end is too near to the largest time has no half minute past it and goes on
for ever. -/
theorem grid_spec {asset : AssetRun} {shiftMs : Int64} (endMs : Int64) (rounds : ℕ) :
    ∀ {t : Int64} {steps r : List DemoStep},
    loop (tick sha256 asset shiftMs endMs) rounds (t, steps) = .ok r →
    GridEnds t endMs ∧ ∃ obs, (∀ s ∈ obs, s.kind = .observation) ∧ r = steps ++ obs := by
  induction rounds with
  | zero =>
    intro t steps r h
    cases h
  | succ rounds ih =>
    intro t steps r h
    rw [loop] at h
    rcases tick_cases sha256 asset shiftMs endMs t steps with ⟨hpast, htick⟩ | ⟨-, obs, hobs, htick⟩
    · rw [htick] at h
      cases h
      exact ⟨⟨0, by simpa using hpast⟩, [], by simp, by simp⟩
    · rw [htick] at h
      obtain ⟨⟨n, hn⟩, later, hlater, rfl⟩ := ih h
      rw [after_ticks] at hn
      refine ⟨⟨n + 1, hn⟩, obs ++ later, ?_, by rw [List.append_assoc]⟩
      exact List.forall_mem_append.mpr ⟨hobs, hlater⟩

/-! ## 4. One asset -/

/-- The steps of a kind. -/
def ofKind (kind : StepKind) (steps : List DemoStep) : List DemoStep :=
  steps.filter fun s => s.kind = kind

theorem ofKind_append (kind : StepKind) (l l' : List DemoStep) :
    ofKind kind (l ++ l') = ofKind kind l ++ ofKind kind l' := List.filter_append ..

theorem ofKind_eq_self {kind : StepKind} {l : List DemoStep} (h : ∀ s ∈ l, s.kind = kind) :
    ofKind kind l = l := List.filter_eq_self.mpr fun s hs => decide_eq_true (h s hs)

theorem ofKind_eq_nil {kind other : StepKind} {l : List DemoStep} (h : ∀ s ∈ l, s.kind = other)
    (hne : other ≠ kind) : ofKind kind l = [] := by
  rw [ofKind, List.filter_eq_nil_iff]
  intro s hs
  rw [h s hs, decide_eq_true_iff]
  exact hne

/-- The markers of the rows of an asset. -/
def absencesOf (shiftMs : Int64) (out : PipelineOut) (asset : AssetRun) : List DemoStep :=
  (out.noticed.filter fun n => n.assetId = asset.assetId).filterMap
    (added (absenceStep sha256 asset shiftMs))

/-- The markers of the claims of an asset. -/
def causesOf (shiftMs : Int64) (out : PipelineOut) (asset : AssetRun) : List DemoStep :=
  (out.claims.filter fun c => c.assetId = asset.assetId).filterMap
    (added (causeStep sha256 asset shiftMs))

variable {asset : AssetRun} {shiftMs : Int64}

/-- No row and no claim of the asset panics.  Rows and claims of other assets are not looked at
when the steps of this one are made. -/
structure AssetReturns (shiftMs : Int64) (out : PipelineOut) (asset : AssetRun) : Prop where
  rows : ∀ n ∈ out.noticed, n.assetId = asset.assetId → Returns (absenceStep sha256 asset shiftMs) n
  claims : ∀ c ∈ out.claims, c.assetId = asset.assetId → Returns (causeStep sha256 asset shiftMs) c

theorem added_eq_some {α : Type} {f : α → Checked Empty (Option DemoStep)} {a : α} {s : DemoStep} :
    added f a = some s ↔ f a = .ok (some s) := by
  unfold added
  rcases f a with e | _ | s' <;> simp [Except.toOption]

theorem kind_absencesOf (shiftMs : Int64) (out : PipelineOut) (asset : AssetRun) :
    ∀ s ∈ absencesOf sha256 shiftMs out asset, s.kind = .absence := by
  intro s hs
  obtain ⟨n, hn, hadded⟩ := List.mem_filterMap.mp hs
  rw [List.mem_filter, decide_eq_true_iff] at hn
  rw [added_eq_some] at hadded
  rcases absenceStep_cases sha256 asset shiftMs n with
    ⟨-, hnone⟩ | ⟨_, -, -, ⟨-, hpanic⟩ | ⟨-, s', hsome, hshows, -⟩⟩
  · rw [hnone] at hadded
    cases hadded
  · rw [hpanic] at hadded
    cases hadded
  · rw [hsome] at hadded
    cases hadded
    exact (hshows hn.2).kind_eq

theorem kind_causesOf (shiftMs : Int64) (out : PipelineOut) (asset : AssetRun) :
    ∀ s ∈ causesOf sha256 shiftMs out asset, s.kind = .cause := by
  intro s hs
  obtain ⟨c, hc, hadded⟩ := List.mem_filterMap.mp hs
  rw [List.mem_filter, decide_eq_true_iff] at hc
  rw [added_eq_some] at hadded
  rcases causeStep_cases sha256 asset shiftMs c with
    ⟨-, hnone⟩ | ⟨-, ⟨-, hpanic⟩ | ⟨-, s', hsome, hshows, -⟩⟩
  · rw [hnone] at hadded
    cases hadded
  · rw [hpanic] at hadded
    cases hadded
  · rw [hsome] at hadded
    cases hadded
    exact (hshows hc.2).kind_eq

/-- **What one asset adds.** Observations are left out of account; of the other two kinds it adds
what its own rows and claims give. -/
theorem assetSteps_spec {rounds : ℕ} {out : PipelineOut} {steps r : List DemoStep}
    (h : assetSteps sha256 rounds out shiftMs steps asset = .ok r) :
    GridEnds out.t0Ms out.endMs ∧ AssetReturns sha256 shiftMs out asset ∧
      ofKind .absence r = ofKind .absence steps ++ absencesOf sha256 shiftMs out asset ∧
      ofKind .cause r = ofKind .cause steps ++ causesOf sha256 shiftMs out asset := by
  unfold assetSteps at h
  obtain ⟨afterGrid, hloop, h⟩ := bind_eq_ok.mp h
  obtain ⟨afterRows, hrowLoop, hclaimLoop⟩ := bind_eq_ok.mp h
  obtain ⟨hends, obs, hobs, rfl⟩ := grid_spec sha256 out.endMs rounds hloop
  obtain ⟨hrows, rfl⟩ := (foldlM_addStep _).mp hrowLoop
  obtain ⟨hclaims, rfl⟩ := (foldlM_addStep _).mp hclaimLoop
  have habsences := kind_absencesOf sha256 shiftMs out asset
  have hcauses := kind_causesOf sha256 shiftMs out asset
  unfold absencesOf at habsences
  unfold causesOf at hcauses
  refine ⟨hends, ⟨?_, ?_⟩, ?_, ?_⟩
  · exact fun n hn hid => hrows n (List.mem_filter.mpr ⟨hn, decide_eq_true hid⟩)
  · exact fun c hc hid => hclaims c (List.mem_filter.mpr ⟨hc, decide_eq_true hid⟩)
  · rw [ofKind_append, ofKind_append, ofKind_append, ofKind_eq_nil hobs (by decide),
      ofKind_eq_self habsences, ofKind_eq_nil hcauses (by decide), List.append_nil, List.append_nil]
    rfl
  · rw [ofKind_append, ofKind_append, ofKind_append, ofKind_eq_nil hobs (by decide),
      ofKind_eq_nil habsences (by decide), ofKind_eq_self hcauses, List.append_nil, List.append_nil]
    rfl

theorem assetSteps_returns {n : ℕ} {out : PipelineOut}
    (hends : out.endMs < out.t0Ms + Int64.ofNat n * observationStrideMs)
    (h : AssetReturns sha256 shiftMs out asset) (steps : List DemoStep) :
    ∃ r, assetSteps sha256 (n + 1) out shiftMs steps asset = .ok r := by
  obtain ⟨afterGrid, hloop⟩ := grid_returns sha256 asset shiftMs out.endMs n steps hends
  refine ⟨_, bind_eq_ok.mpr ⟨afterGrid, hloop, bind_eq_ok.mpr ⟨_, (foldlM_addStep _).mpr ⟨?_, rfl⟩,
    (foldlM_addStep _).mpr ⟨?_, rfl⟩⟩⟩⟩
  · intro n hn
    rw [List.mem_filter, decide_eq_true_iff] at hn
    exact h.rows n hn.1 hn.2
  · intro c hc
    rw [List.mem_filter, decide_eq_true_iff] at hc
    exact h.claims c hc.1 hc.2

/-! ## 5. All assets -/

/-- **What the assets add**, and that they all end and return. -/
theorem foldlM_assetSteps {rounds : ℕ} {out : PipelineOut} (assets : List AssetRun) :
    ∀ {steps r : List DemoStep},
      assets.foldlM (assetSteps sha256 rounds out shiftMs) steps = .ok r →
      (∀ a ∈ assets, GridEnds out.t0Ms out.endMs ∧ AssetReturns sha256 shiftMs out a) ∧
        ofKind .absence r =
          ofKind .absence steps ++ assets.flatMap (absencesOf sha256 shiftMs out) ∧
        ofKind .cause r = ofKind .cause steps ++ assets.flatMap (causesOf sha256 shiftMs out) := by
  induction assets with
  | nil =>
    intro steps r h
    cases h
    simp
  | cons a assets ih =>
    intro steps r h
    rw [List.foldlM_cons, bind_eq_ok] at h
    obtain ⟨next, hnext, h⟩ := h
    obtain ⟨hends, hreturns, habsences, hcauses⟩ := assetSteps_spec sha256 hnext
    obtain ⟨hall, hlater, hlaterCauses⟩ := ih h
    refine ⟨List.forall_mem_cons.mpr ⟨⟨hends, hreturns⟩, hall⟩, ?_, ?_⟩
    · rw [hlater, habsences, List.flatMap_cons, List.append_assoc]
    · rw [hlaterCauses, hcauses, List.flatMap_cons, List.append_assoc]

theorem foldlM_assetSteps_returns {n : ℕ} {out : PipelineOut}
    (hends : out.endMs < out.t0Ms + Int64.ofNat n * observationStrideMs) {assets : List AssetRun}
    (h : ∀ a ∈ assets, AssetReturns sha256 shiftMs out a) : ∀ (steps : List DemoStep),
    ∃ r, assets.foldlM (assetSteps sha256 (n + 1) out shiftMs) steps = .ok r := by
  induction assets with
  | nil => exact fun steps => ⟨steps, rfl⟩
  | cons a assets ih =>
    intro steps
    rw [List.forall_mem_cons] at h
    obtain ⟨next, hnext⟩ := assetSteps_returns sha256 hends h.1 steps
    obtain ⟨r, hr⟩ := ih h.2 next
    exact ⟨r, by rw [List.foldlM_cons, bind_eq_ok]; exact ⟨next, hnext, hr⟩⟩

/-! ## 6. Order, slots and numbers -/

/-- A step without its slot and its number. -/
def content (s : DemoStep) : DemoStep := { s with seq := 0, distinctRenderSlot := 0 }

theorem content_assignSlots (steps : List DemoStep) :
    (assignSlots steps).map content = steps.map content := by
  have hrun (l : List DemoStep) : ∀ (slots : Slots),
      (l.foldl slotStep slots).steps.map content = slots.steps.map content ++ l.map content := by
    induction l with
    | nil => simp
    | cons s l ih =>
      intro slots
      rw [List.foldl_cons, ih, slotStep]
      split <;> simp [content]
  exact hrun steps _

theorem content_number (steps : List DemoStep) :
    (steps.zipIdx.map fun entry => { entry.1 with seq := entry.2 }).map content =
      steps.map content := by
  rw [List.map_map]
  conv_rhs => rw [← List.zipIdx_map_fst 0 steps, List.map_map]
  rfl

/-- The steps of a kind are found among their contents. -/
theorem map_content_ofKind (kind : StepKind) (steps : List DemoStep) :
    (ofKind kind steps).map content = (steps.map content).filter fun s => s.kind = kind := by
  rw [List.filter_map]
  rfl

/-- What `build_steps` returns, up to order, slots and numbers: the grid has ended, nothing has
panicked, and the markers of either kind are those of the assets. -/
structure Built (shiftMs : Int64) (out : PipelineOut) (steps : List DemoStep) : Prop where
  returns : ∀ a ∈ out.assets, GridEnds out.t0Ms out.endMs ∧ AssetReturns sha256 shiftMs out a
  absences : ((ofKind .absence steps).map content).Perm
    ((out.assets.flatMap (absencesOf sha256 shiftMs out)).map content)
  causes : ((ofKind .cause steps).map content).Perm
    ((out.assets.flatMap (causesOf sha256 shiftMs out)).map content)

/-- **What `build_steps` builds.** This is the half that is used with steps in hand;
`buildStepsWith_eq_ok` has the converse, that there are steps if everything returns. -/
theorem buildStepsWith_built {rounds : ℕ} {out : PipelineOut} {steps : List DemoStep}
    (h : buildStepsWith sha256 rounds out shiftMs = .ok steps) :
    Built sha256 shiftMs out steps := by
  unfold buildStepsWith at h
  obtain ⟨raw, hraw, hpure⟩ := bind_eq_ok.mp h
  cases hpure
  obtain ⟨hreturns, habsences, hcauses⟩ := foldlM_assetSteps sha256 _ hraw
  have hperm (kind : StepKind) : ((ofKind kind ((assignSlots (raw.insertionSort stepLe)).zipIdx.map
      fun entry => { entry.1 with seq := entry.2 })).map content).Perm
        ((ofKind kind raw).map content) := by
    rw [map_content_ofKind, map_content_ofKind, content_number, content_assignSlots]
    exact ((List.perm_insertionSort stepLe raw).map content).filter _
  constructor
  · exact hreturns
  · have h := hperm .absence
    rwa [habsences] at h
  · have h := hperm .cause
    rwa [hcauses] at h

theorem buildStepsWith_returns {out : PipelineOut} (hends : GridEnds out.t0Ms out.endMs)
    (h : ∀ a ∈ out.assets, AssetReturns sha256 shiftMs out a) :
    ∃ rounds steps, buildStepsWith sha256 rounds out shiftMs = .ok steps := by
  obtain ⟨n, hn⟩ := hends
  obtain ⟨raw, hraw⟩ := foldlM_assetSteps_returns sha256 hn h []
  exact ⟨n + 1, _, bind_eq_ok.mpr ⟨raw, hraw, rfl⟩⟩

end Musubi.Fanout
