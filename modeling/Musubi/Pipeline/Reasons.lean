/-
# The reasons of an analysis

What the rows and the claims of an analysis take from the parts: a row has its source, and neither
the reason of a row nor that of a claim holds the delimiter.  A row names an expectation of a
profile that is known, a claim the catalog and signatures of it.

These are facts about what `analyze` RETURNS.  They are read off the account of an output, once,
so that what is done with an output afterwards, markers, exports, metrics, can use them without
going back into the loops.
-/
import Musubi.Core.Quality
import Musubi.Pipeline.Accounting
import Musubi.Reference.SignatureMatch

namespace Musubi.Reference

open Lib Musubi.Core

/-- A joined reason holds no delimiter: joining fails at a token that has one. -/
theorem sepFree_joinReasonTokens {tokens : List String} {reasonCode : String}
    (h : joinReasonTokens tokens = some reasonCode) : SepFree reasonCode := by
  unfold joinReasonTokens at h
  split at h
  · rename_i htokens
    cases h
    exact sepFree_join (by decide) htokens
  · cases h

theorem sepFree_absenceMark {basis : ClockBasis} {profile : FamilyProfile}
    {content : Option GapContent} {mark : Mark}
    (h : absenceMark basis profile content = some mark) : SepFree mark.reasonCode := by
  obtain ⟨reasonCode, hjoin, rfl⟩ := Option.map_eq_some_iff.mp h
  exact sepFree_joinReasonTokens hjoin

theorem sepFree_detectAbsences {sha256 : List UInt8 → Digest} {profile : FamilyProfile}
    {assetId : String} {obs : List Observation} {scan declared : Int64 × Int64} {rows : List Row}
    (h : detectAbsencesInDeclaredWindow sha256 profile assetId obs scan declared = some rows) :
    ∀ row ∈ rows, SepFree row.1.mark.reasonCode := by
  obtain ⟨parts, hparts, rfl⟩ := Option.map_eq_some_iff.mp h
  intro row hrow
  obtain ⟨part, hpart, hmem⟩ := List.mem_flatten.mp hrow
  obtain ⟨exp, -, hexp⟩ := exists_of_mem_mapM_some hparts hpart
  obtain ⟨gap, -, hgap⟩ := exists_of_mem_mapM_some hexp hmem
  obtain ⟨mark, hmark, rfl⟩ := Option.map_eq_some_iff.mp hgap
  exact sepFree_absenceMark hmark

/-- The rows of a profile name its expectations, with its version. -/
theorem declared_detectAbsences {sha256 : List UInt8 → Digest} {profile : FamilyProfile}
    {assetId : String} {obs : List Observation} {scan declared : Int64 × Int64} {rows : List Row}
    (h : detectAbsencesInDeclaredWindow sha256 profile assetId obs scan declared = some rows) :
    ∀ row ∈ rows, ∃ e ∈ profile.expectations,
      row.1.expectationId = e.expectationId ++ "@" ++ profile.version := by
  obtain ⟨parts, hparts, rfl⟩ := Option.map_eq_some_iff.mp h
  intro row hrow
  obtain ⟨part, hpart, hmem⟩ := List.mem_flatten.mp hrow
  obtain ⟨exp, hdeclared, hexp⟩ := exists_of_mem_mapM_some hparts hpart
  obtain ⟨gap, -, hgap⟩ := exists_of_mem_mapM_some hexp hmem
  obtain ⟨mark, -, rfl⟩ := Option.map_eq_some_iff.mp hgap
  exact ⟨exp, hdeclared, rfl⟩

theorem sepFree_buildClaim {ε : Type} {sha256 : List UInt8 → Digest} {catalog : SignatureCatalog}
    {sources : List SourceInput} {family : Family} {assetId : String} {triggerChannel : ChannelId}
    {absences : List NegativeObservation} {w : Window} {generatedAtMs : Int64} {claim : CauseClaim}
    (h : (buildClaim sha256 catalog sources family assetId triggerChannel absences w generatedAtMs :
      Checked ε CauseClaim) = .ok claim) : SepFree claim.mark.reasonCode := by
  unfold buildClaim at h
  dsimp only at h
  split at h
  · cases h
  · rename_i reasonCode hjoin
    cases h
    exact sepFree_joinReasonTokens hjoin

/-- A claim is built with the version of the catalog and names signatures of it. -/
theorem catalog_of_buildClaim {ε : Type} {sha256 : List UInt8 → Digest}
    {catalog : SignatureCatalog} {sources : List SourceInput} {family : Family} {assetId : String}
    {triggerChannel : ChannelId} {absences : List NegativeObservation} {w : Window}
    {generatedAtMs : Int64} {claim : CauseClaim}
    (h : (buildClaim sha256 catalog sources family assetId triggerChannel absences w generatedAtMs :
      Checked ε CauseClaim) = .ok claim) :
    claim.generator.catalogVersion = catalog.version ∧
      ∀ candidate ∈ claim.outcome.candidates, ∃ sig ∈ catalog.signatures,
        candidate.signatureId = sig.signatureId := by
  unfold buildClaim at h
  dsimp only at h
  split at h
  · cases h
  · cases h
    refine ⟨rfl, ?_⟩
    intro candidate hcandidate
    obtain ⟨sig, hsig, -, hof⟩ := signature_of_candidate hcandidate
    exact ⟨sig, hsig, (of_candidateOf_eq_some hof).1⟩

end Musubi.Reference

namespace Musubi.Pipeline

open Lib Musubi.Core Reference

variable (sha256 : List UInt8 → Digest) {readerFor : String → Option Reader}
  {knowledge : Knowledge} {files : List InputFile} {window : ObservationWindow}
  {t0Ms endMs : Int64} {read : List (List Pending)} {assets : List AssetRun} {out : PipelineOut}

theorem mem_of_profileFor {profiles : List FamilyProfile} {f : InputFile} {p : FamilyProfile}
    (h : profileFor profiles f = .ok p) : p ∈ profiles := by
  unfold profileFor at h
  dsimp only at h
  split at h
  · cases h
  · rename_i first others hmatching
    have hfirst : first ∈ first :: others := List.mem_cons_self
    rw [← hmatching] at hfirst
    split at h
    · cases h
      exact (List.mem_filter.mp hfirst).1
    · split at h
      · rename_i only hone
        have honly : only ∈ [only] := List.mem_singleton_self _
        rw [← hone] at honly
        cases h
        exact (List.mem_filter.mp (List.mem_filter.mp honly).1).1
      · cases h

theorem profile_of_readFile {profiles : List FamilyProfile} {f : InputFile} {p : Pending}
    (h : readFile readerFor profiles f = .ok p) : p.profile ∈ profiles := by
  unfold readFile at h
  obtain ⟨profile, hprofile, h⟩ := bind_eq_ok.mp h
  split at h
  · cases h
  · split at h
    · cases h
    · cases h
      exact mem_of_profileFor hprofile

/-- A source is one that was read, with a profile that is known, and scanned. -/
theorem Sourced.source
    (h : Sourced sha256 readerFor knowledge files window t0Ms endMs read assets)
    {a : AssetRun} (ha : a ∈ assets) {s : SourceRun} (hs : s ∈ a.sources) :
    ∃ hostStart p, p.profile ∈ knowledge.profiles ∧
      sourceRun sha256 t0Ms endMs hostStart a.assetId p = .ok s := by
  obtain ⟨⟨asset, pending⟩, hentry, hrun⟩ :=
    exists_of_mem_mapM (mapM_eq_ok.mpr h.assets_eq) ha
  have hread : readAsset readerFor knowledge.profiles files asset = .ok pending :=
    (List.forall₂_iff_zip.mp h.read_eq).2 hentry
  unfold assetRun at hrun
  obtain ⟨sources, hsources, hpure⟩ := bind_eq_ok.mp hrun
  cases hpure
  obtain ⟨p, hp, hsource⟩ := exists_of_mem_mapM hsources hs
  obtain ⟨f, -, hfile⟩ := exists_of_mem_mapM hread hp
  exact ⟨_, p, profile_of_readFile hfile, hsource⟩

/-- The reasons of the negative observations of a source. -/
theorem sepFree_sourceRun {hostStart : Int64} {assetId : String} {p : Pending} {s : SourceRun}
    (h : sourceRun sha256 t0Ms endMs hostStart assetId p = .ok s) :
    ∀ n ∈ s.negatives, SepFree n.mark.reasonCode := by
  unfold sourceRun at h
  obtain ⟨declared, -, h⟩ := bind_eq_ok.mp h
  split at h
  · cases h
  · rename_i rows hrows
    obtain ⟨clockRate, -, h⟩ := bind_eq_ok.mp h
    cases h
    intro n hn
    obtain ⟨row, hrow, rfl⟩ := List.mem_map.mp hn
    exact sepFree_detectAbsences hrows row hrow

/-- The negative observations of a source name the expectations of its profile. -/
theorem declared_sourceRun {hostStart : Int64} {assetId : String} {p : Pending} {s : SourceRun}
    (h : sourceRun sha256 t0Ms endMs hostStart assetId p = .ok s) :
    ∀ n ∈ s.negatives, ∃ e ∈ p.profile.expectations,
      n.expectationId = e.expectationId ++ "@" ++ p.profile.version := by
  unfold sourceRun at h
  obtain ⟨declared, -, h⟩ := bind_eq_ok.mp h
  split at h
  · cases h
  · rename_i rows hrows
    obtain ⟨clockRate, -, h⟩ := bind_eq_ok.mp h
    cases h
    intro n hn
    obtain ⟨row, hrow, rfl⟩ := List.mem_map.mp hn
    exact declared_detectAbsences hrows row hrow

/-- A row of an analysis is a negative observation of a source of one of its assets. -/
theorem source_of_noticed (h : analyze sha256 readerFor files knowledge window = .ok out)
    {r : NoticedRow} (hr : r ∈ out.noticed) :
    ∃ a ∈ out.assets, r.assetId = a.assetId ∧ ∃ s, a.sources[r.sourceIndex]? = some s ∧
      r.negative ∈ s.negatives ∧ ∃ hostStart p, p.profile ∈ knowledge.profiles ∧
        sourceRun sha256 out.t0Ms out.endMs hostStart a.assetId p = .ok s := by
  rcases analyze_eq sha256 readerFor files knowledge window with
    ⟨halt, -, hfail⟩ | ⟨t0, e, read, assets, hsourced, hout⟩
  · rw [hfail] at h
    cases h
  · rw [hout] at h
    cases h
    obtain ⟨a, ha, hra⟩ := List.mem_flatMap.mp hr
    refine ⟨a, ha, assetId_of_mem_noticedOf a r hra, ?_⟩
    rw [noticedOf_eq] at hra
    obtain ⟨p, hp, rfl⟩ := List.mem_map.mp hra
    obtain ⟨hcell, hrow⟩ := mem_noticedCells hp
    obtain ⟨hsource, hnegative, -⟩ := cell_at hcell
    obtain ⟨-, hindex, hsame, -⟩ := row_left hrow
    have hmem : p.1.source ∈ a.sources := List.mem_of_getElem? hsource
    refine ⟨p.1.source, ?_, ?_, hsourced.source sha256 ha hmem⟩
    · rw [hindex]
      exact hsource
    · rw [hsame]
      exact List.mem_of_getElem? hnegative

/-- **A row of an analysis** is of one of its assets, has its source, and a reason without the
delimiter.  So the index of the source in the row can be followed. -/
theorem noticed_of_analyze (h : analyze sha256 readerFor files knowledge window = .ok out)
    {r : NoticedRow} (hr : r ∈ out.noticed) :
    ∃ a ∈ out.assets, r.assetId = a.assetId ∧ r.sourceIndex < a.sources.length ∧
      SepFree r.negative.mark.reasonCode := by
  obtain ⟨a, ha, hid, s, hsource, hnegative, hostStart, p, -, hrun⟩ := source_of_noticed sha256 h hr
  exact ⟨a, ha, hid, (List.getElem?_eq_some_iff.mp hsource).1,
    sepFree_sourceRun sha256 hrun _ hnegative⟩

/-- **A row of an analysis names an expectation** of one of the profiles that are known, with the
version of the profile behind it. -/
theorem declared_of_analyze (h : analyze sha256 readerFor files knowledge window = .ok out)
    {r : NoticedRow} (hr : r ∈ out.noticed) :
    ∃ p ∈ knowledge.profiles, ∃ e ∈ p.expectations,
      r.negative.expectationId = e.expectationId ++ "@" ++ p.version := by
  obtain ⟨a, -, -, s, -, hnegative, hostStart, p, hp, hrun⟩ := source_of_noticed sha256 h hr
  exact ⟨p.profile, hp, declared_sourceRun sha256 hrun _ hnegative⟩

/-- A claim of an analysis is built from the catalog for one of its assets. -/
theorem asset_of_claim (h : analyze sha256 readerFor files knowledge window = .ok out)
    {c : ClaimRecord} (hc : c ∈ out.claims) :
    ∃ a ∈ out.assets, c.assetId = a.assetId ∧ ∃ triggerChannel absences w,
      buildClaim sha256 knowledge.catalog (sourceInputs a) a.family a.assetId triggerChannel
        absences w w.endMs = (.ok c.claim : Checked String CauseClaim) := by
  rcases analyze_eq sha256 readerFor files knowledge window with
    ⟨halt, -, hfail⟩ | ⟨t0, e, read, assets, hsourced, hout⟩
  · rw [hfail] at h
    cases h
  · rw [hout] at h
    cases h
    obtain ⟨a, ha, hca⟩ := List.mem_flatMap.mp hc
    refine ⟨a, ha, assetId_of_mem_claimsOf sha256 a c hca, ?_⟩
    have hclaims := (claimsOf_spec sha256 knowledge.catalog a).1
    obtain ⟨w, -, hw⟩ := exists_of_mem_mapM hclaims hca
    unfold windowClaim at hw
    obtain ⟨absences, -, hw⟩ := bind_eq_ok.mp hw
    obtain ⟨claim, hclaim, hw⟩ := bind_eq_ok.mp hw
    cases hw
    exact ⟨_, absences, w.1, hclaim⟩

/-- **A claim of an analysis** is of one of its assets, and has a reason without the delimiter. -/
theorem claim_of_analyze (h : analyze sha256 readerFor files knowledge window = .ok out)
    {c : ClaimRecord} (hc : c ∈ out.claims) :
    (∃ a ∈ out.assets, c.assetId = a.assetId) ∧ SepFree c.claim.mark.reasonCode := by
  obtain ⟨a, ha, hid, _, _, _, hbuilt⟩ := asset_of_claim sha256 h hc
  exact ⟨⟨a, ha, hid⟩, sepFree_buildClaim hbuilt⟩

/-- **A claim of an analysis names the catalog** and signatures of it. -/
theorem catalog_of_claim (h : analyze sha256 readerFor files knowledge window = .ok out)
    {c : ClaimRecord} (hc : c ∈ out.claims) :
    c.claim.generator.catalogVersion = knowledge.catalog.version ∧
      ∀ candidate ∈ c.claim.outcome.candidates, ∃ sig ∈ knowledge.catalog.signatures,
        candidate.signatureId = sig.signatureId := by
  obtain ⟨a, -, -, _, _, _, hbuilt⟩ := asset_of_claim sha256 h hc
  exact catalog_of_buildClaim hbuilt

/-- What an analysis returns is accounted for, and nothing but its success is asked.  Each part is
put together from the lemma on its stage. -/
theorem accounted_of_analyze (h : analyze sha256 readerFor files knowledge window = .ok out) :
    Accounted sha256 out := by
  rcases analyze_eq sha256 readerFor files knowledge window with
    ⟨halt, -, hfail⟩ | ⟨t0, e, read, assets, hsourced, hout⟩
  · rw [hfail] at h
    cases h
  · rw [hout] at h
    cases h
    obtain ⟨hnames, hkept⟩ := hsourced.names sha256
    refine accounted_outputOf sha256 knowledge.catalog files ?_ hkept
    rw [hnames]
    exact nodup_assetsIn files

end Musubi.Pipeline
