/-
# When building the markers panics

`join_reason_tokens` asserts that no token holds the delimiter.  Absence detection and
`build_claim` join texts of their own only, so the assertion holds there
(`detectAbsences_ne_none`, `buildClaim_ne_panic`).  `build_steps` joins identifiers and versions
too, and the parsers of profiles and catalogs refuse none for the characters in it: the assertion
holds in all runs exactly when what the rows and the claims with a marker name has no delimiter
(`reasons_hold_iff`).

The tokens of the first two are literals, numbers and names of fixed vocabularies, and section 1
goes through them.  Those of `build_steps` are followed back to where they were read: the
expectation of a row is one of the profile that found it, the outcome of a claim names a signature
of the catalog or none, its version is that of the catalog (section 4).  So a condition on the
FILES is enough, whatever is analysed (`undelimited_of_files`).

The condition is exact on the output.  A row is reached only when the grid before it ends, and
only a row of an asset with a position is joined, so both occur in it.  The identifier `hb;1hz`,
in a profile that the parser accepts, makes `build_steps` panic (section 6).
-/
import Musubi.Fanout.Completeness
import Musubi.Lib.Halts
import Musubi.Pipeline.KnowledgeFiles
import Musubi.Reference.AbsenceExact

namespace Musubi.Reference

open Lib Lib.Checked Musubi.Core Pipeline

/-! ## 1. Joins of texts that are known -/

theorem makeRow_eq_some (profile : FamilyProfile) (assetId : String) (exp : ExpectationModel)
    (src good : List Observation) (gap : Gap) :
    ∃ row, makeRow profile assetId exp src good gap = some row := by
  obtain ⟨mark, hmark⟩ := absenceMark_eq_some (goodBasis profile good) profile
    (exp.requiredFields.map fun names => gapContent src exp.channel names gap.since gap.until_)
  exact ⟨_, congrArg (Option.map _) hmark⟩

/-- A loop whose entries all answer answers. -/
theorem mapM_answers {α β : Type} {f : α → Option β} {l : List α}
    (h : ∀ a ∈ l, ∃ b, f a = some b) : ∃ bs, l.mapM f = some bs := by
  obtain ⟨bs, hbs, -⟩ := mapM_eq_some (R := fun _ _ => True) l fun a ha => by
    obtain ⟨b, hb⟩ := h a ha
    exact ⟨b, hb, trivial⟩
  exact ⟨bs, hbs⟩

theorem detectExpectation_eq_some (sha256 : List UInt8 → Digest) (profile : FamilyProfile)
    (assetId : String) (obs : List Observation) (scan declared : Int64 × Int64)
    (exp : ExpectationModel) :
    ∃ rows, detectExpectation sha256 profile assetId obs scan declared exp = some rows :=
  mapM_answers fun gap _ => makeRow_eq_some profile assetId exp _ _ gap

/-- **Absence detection keeps the assertion**, whatever it is given.  `none` is its panic; of the
profile only numbers and names of enumerations reach the join. -/
theorem detectAbsences_ne_none (sha256 : List UInt8 → Digest) (profile : FamilyProfile)
    (assetId : String) (obs : List Observation) (scan declared : Int64 × Int64) :
    detectAbsencesInDeclaredWindow sha256 profile assetId obs scan declared ≠ none := by
  obtain ⟨parts, hparts⟩ := mapM_answers (l := profile.expectations) fun exp _ =>
    detectExpectation_eq_some sha256 profile assetId obs scan declared exp
  unfold detectAbsencesInDeclaredWindow
  rw [hparts]
  exact Option.some_ne_none _

/-- **`build_claim` keeps the assertion**, whatever it is given: the catalog's own texts go into
the claim and not into its reasons. -/
theorem buildClaim_ne_panic (sha256 : List UInt8 → Digest) (catalog : SignatureCatalog)
    (sources : List SourceInput) (family : Family) (assetId : String) (triggerChannel : ChannelId)
    (absences : List NegativeObservation) (w : Window) (generatedAtMs : Int64) :
    buildClaim sha256 catalog sources family assetId triggerChannel absences w generatedAtMs ≠
      (.error .panic : Checked String CauseClaim) := by
  obtain ⟨claim, hclaim, -⟩ := buildClaim_eq sha256 catalog sources family assetId triggerChannel
    absences w generatedAtMs
  rw [hclaim]
  exact nofun

end Musubi.Reference

namespace Musubi.Fanout

open Lib Lib.Checked Musubi.Core Reference Pipeline

/-! ## 2. What the tokens name -/

/-- The signatures that the token of an outcome spells out. -/
def named : CauseOutcome → List String
  | .consistent candidates => (candidates.head?.map CauseCandidate.signatureId).toList
  | .ambiguous candidates _ => candidates.map CauseCandidate.signatureId
  | .unknown _ => []

theorem sepFree_join_iff {sep : String} {parts : List String} (hsep : SepFree sep) :
    SepFree (join sep parts) ↔ ∀ s ∈ parts, SepFree s :=
  ⟨fun h _ hs hmem => h (mem_join_of_mem hs hmem), sepFree_join hsep⟩

theorem sepFree_outcomeToken_iff (outcome : CauseOutcome) :
    SepFree (outcomeToken outcome) ↔ ∀ id ∈ named outcome, SepFree id := by
  have hplus : SepFree "+alt" := by decide
  have hambiguous : SepFree "ambiguous:" := by decide
  cases outcome with
  | consistent candidates =>
    cases candidates with
    | nil => exact iff_of_true (by decide) (List.forall_mem_nil _)
    | cons c candidates => simp [outcomeToken, headSignature, named, hplus]
  | ambiguous candidates by_ =>
    rw [outcomeToken, sepFree_append, sepFree_join_iff (by decide), named]
    exact and_iff_right hambiguous
  | unknown reason =>
    refine iff_of_true ?_ (List.forall_mem_nil _)
    cases reason <;> decide

theorem candidate_of_named {outcome : CauseOutcome} {id : String} (h : id ∈ named outcome) :
    ∃ c ∈ outcome.candidates, c.signatureId = id := by
  cases outcome with
  | consistent candidates =>
    obtain ⟨c, hc, rfl⟩ := Option.map_eq_some_iff.mp (Option.mem_toList.mp h)
    exact ⟨c, List.mem_of_mem_head? hc, rfl⟩
  | ambiguous candidates by_ => exact List.mem_map.mp h
  | unknown reason => cases h

theorem sepFree_declared_iff {id version : String} :
    SepFree (id ++ "@" ++ version) ↔ SepFree id ∧ SepFree version := by
  have hat : SepFree "@" := by decide
  rw [sepFree_append, sepFree_append, and_iff_left hat]

/-! ## 3. The panics of `build_steps` -/

variable (sha256 : List UInt8 → Digest) {shiftMs : Int64} {out : PipelineOut}

theorem absenceStep_ne_outOfRounds (asset : AssetRun) (row : NoticedRow) :
    absenceStep sha256 asset shiftMs row ≠ .error .outOfRounds := by
  rcases absenceStep_cases sha256 asset shiftMs row with
    ⟨-, h⟩ | ⟨_, -, -, ⟨-, h⟩ | ⟨-, s, h, -, -⟩⟩
  · rw [h]
    exact nofun
  · rw [h]
    exact nofun
  · rw [h]
    exact nofun

theorem causeStep_ne_outOfRounds (asset : AssetRun) (claim : ClaimRecord) :
    causeStep sha256 asset shiftMs claim ≠ .error .outOfRounds := by
  rcases causeStep_cases sha256 asset shiftMs claim with
    ⟨-, h⟩ | ⟨-, ⟨-, h⟩ | ⟨-, s, h, -, -⟩⟩
  · rw [h]
    exact nofun
  · rw [h]
    exact nofun
  · rw [h]
    exact nofun

/-- A loop that adds steps ends as its entries do: what no entry runs into, the loop does not run
into. -/
theorem avoids_addStep {α : Type} {halt : Halt Empty} {f : α → Checked Empty (Option DemoStep)}
    {l : List α} (h : ∀ a ∈ l, f a ≠ .error halt) (steps : List DemoStep) :
    Avoids halt (l.foldlM (addStep f) steps) fun _ => True :=
  avoids_foldlM l trivial fun _ a ha _ =>
    (avoids_of_ne (h a ha)).bind fun _ _ => avoids_ok trivial

/-- The grid does not panic, and what comes after it is reached only where it ends. -/
theorem grid_avoids (asset : AssetRun) (endMs t : Int64) (rounds : ℕ) (steps : List DemoStep) :
    Avoids .panic (loop (tick sha256 asset shiftMs endMs) rounds (t, steps)) fun _ =>
      GridEnds t endMs := by
  have hloop : Avoids .panic (loop (tick sha256 asset shiftMs endMs) rounds (t, steps))
      fun _ => True := by
    have hne : (Halt.panic : Halt Empty) ≠ .outOfRounds := nofun
    refine avoids_loop (I := fun _ => True) hne ?_ rounds trivial
    rintro ⟨t, steps⟩ -
    rcases tick_cases sha256 asset shiftMs endMs t steps with ⟨-, htick⟩ | ⟨-, obs, -, htick⟩
    · rw [htick]
      exact trivial
    · rw [htick]
      exact trivial
  exact hloop.returned.mono fun _ h => (grid_spec sha256 endMs rounds h.1).1

/-- With rounds enough for the grid an asset ends; its other two loops are over lists. -/
theorem assetSteps_ne_outOfRounds {n : ℕ}
    (hends : out.endMs < out.t0Ms + Int64.ofNat n * observationStrideMs) (steps : List DemoStep)
    (asset : AssetRun) :
    Avoids .outOfRounds (assetSteps sha256 (n + 1) out shiftMs steps asset) fun _ => True := by
  obtain ⟨afterGrid, hloop⟩ := grid_returns sha256 asset shiftMs out.endMs n steps hends
  unfold assetSteps
  rw [hloop]
  refine (avoids_addStep ?_ afterGrid).bind fun afterRows _ => avoids_addStep ?_ afterRows
  · exact fun row _ => absenceStep_ne_outOfRounds sha256 asset row
  · exact fun claim _ => causeStep_ne_outOfRounds sha256 asset claim

/-- An asset whose entries do not panic does not, when they are reached. -/
theorem assetSteps_ne_panic (rounds : ℕ) (steps : List DemoStep) {asset : AssetRun}
    (h : GridEnds out.t0Ms out.endMs → AssetReturns sha256 shiftMs out asset) :
    Avoids .panic (assetSteps sha256 rounds out shiftMs steps asset) fun _ => True := by
  refine (grid_avoids sha256 asset out.endMs out.t0Ms rounds steps).bind fun afterGrid hends => ?_
  refine (avoids_addStep ?_ afterGrid).bind fun afterRows _ => avoids_addStep ?_ afterRows
  · intro row hrow
    rw [List.mem_filter, decide_eq_true_iff] at hrow
    obtain ⟨s, hs⟩ := (h hends).rows row hrow.1 hrow.2
    rw [hs]
    exact nofun
  · intro claim hclaim
    rw [List.mem_filter, decide_eq_true_iff] at hclaim
    obtain ⟨s, hs⟩ := (h hends).claims claim hclaim.1 hclaim.2
    rw [hs]
    exact nofun

/-- **`build_steps` panics when an entry does** that is reached: the grid comes first.  On the
left are all numbers of rounds, as too few of them end without having reached the rows. -/
theorem buildStepsWith_ne_panic_iff (shiftMs : Int64) (out : PipelineOut) :
    (∀ rounds, buildStepsWith sha256 rounds out shiftMs ≠ .error .panic) ↔
      (GridEnds out.t0Ms out.endMs → ∀ a ∈ out.assets, AssetReturns sha256 shiftMs out a) := by
  constructor
  · rintro h ⟨n, hends⟩
    have hrounds : Avoids .outOfRounds (buildStepsWith sha256 (n + 1) out shiftMs)
        fun _ => True :=
      (avoids_foldlM out.assets trivial fun steps a _ _ =>
        assetSteps_ne_outOfRounds sha256 hends steps a).bind fun _ _ => avoids_ok trivial
    obtain ⟨steps, hsteps⟩ := returns_of_avoids (h (n + 1)) hrounds.ne
    exact fun a ha => ((buildStepsWith_built sha256 hsteps).returns a ha).2
  · intro h rounds
    have hpanic : Avoids .panic (buildStepsWith sha256 rounds out shiftMs) fun _ => True :=
      (avoids_foldlM out.assets trivial fun steps a ha _ =>
        assetSteps_ne_panic sha256 rounds steps fun hends => h hends a ha).bind
          fun _ _ => avoids_ok trivial
    exact hpanic.ne

/-! ## 4. Identifiers and versions -/

/-- No identifier and no version with the delimiter is named by a row or a claim of an asset with
a position. -/
structure Undelimited (knowledge : Knowledge) (out : PipelineOut) : Prop where
  rows : ∀ r ∈ out.noticed, HasPosition out r.assetId →
    ∀ p ∈ knowledge.profiles, ∀ e ∈ p.expectations,
      r.negative.expectationId = e.expectationId ++ "@" ++ p.version →
        SepFree e.expectationId ∧ SepFree p.version
  claims : ∀ c ∈ out.claims, HasPosition out c.assetId → SepFree knowledge.catalog.version ∧
    ∀ sig ∈ knowledge.catalog.signatures, sig.signatureId ∈ named c.claim.outcome →
      SepFree sig.signatureId

variable {readerFor : String → Option Pipeline.Reader} {files : List InputFile}
  {knowledge : Knowledge} {window : ObservationWindow}

theorem row_returns_iff (shiftMs : Int64)
    (h : analyze sha256 readerFor files knowledge window = .ok out) {a : AssetRun}
    (ha : a ∈ out.assets) {r : NoticedRow} (hr : r ∈ out.noticed) (hid : r.assetId = a.assetId) :
    Returns (absenceStep sha256 a shiftMs) r ↔
      (HasPosition out r.assetId → SepFree r.negative.expectationId) := by
  have hnodup := (accounted_of_analyze sha256 h).distinct
  obtain ⟨b, hb, hidb, hindex, hreason⟩ := noticed_of_analyze sha256 h hr
  obtain rfl := List.inj_on_of_nodup_map hnodup hb ha (hidb.symm.trans hid)
  rw [hid, hasPosition_iff hnodup ha]
  rcases absenceStep_cases sha256 b shiftMs r with
    ⟨hnot, hnone⟩ | ⟨source, -, hplaced, ⟨hnot, hpanic⟩ | ⟨hplain, s, hsome, -, -⟩⟩
  · exact iff_of_true ⟨none, hnone⟩ fun hplaced => absurd ⟨hindex, hplaced⟩ hnot
  · refine iff_of_false ?_ fun himp => hnot ⟨hreason, himp hplaced⟩
    rintro ⟨y, hy⟩
    rw [hpanic] at hy
    cases hy
  · exact iff_of_true ⟨some s, hsome⟩ fun _ => hplain.2

theorem claim_returns_iff (shiftMs : Int64)
    (h : analyze sha256 readerFor files knowledge window = .ok out) {a : AssetRun}
    (ha : a ∈ out.assets) {c : ClaimRecord} (hc : c ∈ out.claims) (hid : c.assetId = a.assetId) :
    Returns (causeStep sha256 a shiftMs) c ↔ (HasPosition out c.assetId →
      SepFree (outcomeToken c.claim.outcome) ∧ SepFree c.claim.generator.catalogVersion) := by
  have hnodup := (accounted_of_analyze sha256 h).distinct
  have hreason := (claim_of_analyze sha256 h hc).2
  rw [hid, hasPosition_iff hnodup ha]
  rcases causeStep_cases sha256 a shiftMs c with
    ⟨hnot, hnone⟩ | ⟨hplaced, ⟨hnot, hpanic⟩ | ⟨hplain, s, hsome, -, -⟩⟩
  · exact iff_of_true ⟨none, hnone⟩ fun hplaced => absurd hplaced hnot
  · refine iff_of_false ?_ fun himp => hnot ⟨hreason, himp hplaced⟩
    rintro ⟨y, hy⟩
    rw [hpanic] at hy
    cases hy
  · exact iff_of_true ⟨some s, hsome⟩ fun _ => hplain.2

/-- The rows and claims of an analysis return when what they name has no delimiter. -/
theorem assetReturns_iff (shiftMs : Int64)
    (h : analyze sha256 readerFor files knowledge window = .ok out) :
    (∀ a ∈ out.assets, AssetReturns sha256 shiftMs out a) ↔ Undelimited knowledge out := by
  constructor
  · intro hreturns
    constructor
    · intro r hr hplaced p _ e _ hnames
      obtain ⟨a, ha, hid, -⟩ := noticed_of_analyze sha256 h hr
      have hplain := (row_returns_iff sha256 shiftMs h ha hr hid).mp
        ((hreturns a ha).rows r hr hid) hplaced
      rw [hnames] at hplain
      exact sepFree_declared_iff.mp hplain
    · intro c hc hplaced
      obtain ⟨⟨a, ha, hid⟩, -⟩ := claim_of_analyze sha256 h hc
      obtain ⟨houtcome, hversion⟩ := (claim_returns_iff sha256 shiftMs h ha hc hid).mp
        ((hreturns a ha).claims c hc hid) hplaced
      rw [(catalog_of_claim sha256 h hc).1] at hversion
      exact ⟨hversion, fun sig _ => (sepFree_outcomeToken_iff _).mp houtcome sig.signatureId⟩
  · intro hundelimited a ha
    constructor
    · intro r hr hid
      refine (row_returns_iff sha256 shiftMs h ha hr hid).mpr fun hplaced => ?_
      obtain ⟨p, hp, e, he, hnames⟩ := declared_of_analyze sha256 h hr
      rw [hnames]
      exact sepFree_declared_iff.mpr (hundelimited.rows r hr hplaced p hp e he hnames)
    · intro c hc hid
      refine (claim_returns_iff sha256 shiftMs h ha hc hid).mpr fun hplaced => ?_
      obtain ⟨hversion, hsignatures⟩ := hundelimited.claims c hc hplaced
      obtain ⟨hcatalog, hcandidates⟩ := catalog_of_claim sha256 h hc
      rw [hcatalog]
      refine ⟨(sepFree_outcomeToken_iff _).mpr fun id hnamed => ?_, hversion⟩
      obtain ⟨candidate, hmem, rfl⟩ := candidate_of_named hnamed
      obtain ⟨sig, hsig, hsame⟩ := hcandidates candidate hmem
      rw [hsame] at hnamed ⊢
      exact hsignatures sig hsig hnamed

/-- A file without the delimiter in its version and its identifiers.  Of its other texts none is
joined into a reason. -/
def PlainProfile (f : ProfileFile) : Prop :=
  SepFree f.version ∧ ∀ e ∈ f.expectations, SepFree e.id

def PlainCatalog (f : CatalogFile) : Prop :=
  SepFree f.version ∧ ∀ sig ∈ f.signature, SepFree sig.id

instance (f : ProfileFile) : Decidable (PlainProfile f) :=
  inferInstanceAs (Decidable (_ ∧ ∀ e ∈ f.expectations, SepFree e.id))

instance (f : CatalogFile) : Decidable (PlainCatalog f) :=
  inferInstanceAs (Decidable (_ ∧ ∀ sig ∈ f.signature, SepFree sig.id))

variable {profileToml : String → Except String ProfileFile}
  {catalogToml : String → Except String CatalogFile}

/-- **From files without the delimiter no row and no claim has one**, whatever is analysed.  The
hypotheses are about what the two parsers return and not about the files' texts, since the parsers
are parameters. -/
theorem undelimited_of_files (k : ParsedKnowledge profileToml catalogToml)
    (hprofiles : ∀ tomlStr f, profileToml tomlStr = .ok f → PlainProfile f)
    (hcatalogs : ∀ tomlStr f, catalogToml tomlStr = .ok f → PlainCatalog f) (out : PipelineOut) :
    Undelimited k.knowledge out := by
  constructor
  · intro r _ _ p hp e he _
    obtain ⟨tomlStr, origin, hparse⟩ := k.profiles_parsed p hp
    obtain ⟨f, hf, hversion, hids⟩ := parseProfile_carries hparse
    obtain ⟨hplain, hall⟩ := hprofiles tomlStr f hf
    have hid : e.expectationId ∈ f.expectations.map ExpectationFile.id := by
      rw [← hids]
      exact List.mem_map_of_mem he
    obtain ⟨declared, hdeclared, hsame⟩ := List.mem_map.mp hid
    rw [hversion, ← hsame]
    exact ⟨hall declared hdeclared, hplain⟩
  · intro c _ _
    obtain ⟨tomlStr, hparse⟩ := k.catalog_parsed
    obtain ⟨f, hf, hversion, hids⟩ := parseCatalog_carries hparse
    obtain ⟨hplain, hall⟩ := hcatalogs tomlStr f hf
    refine ⟨?_, fun sig hsig _ => ?_⟩
    · change SepFree k.catalog.version
      rw [hversion]
      exact hplain
    · have hid : sig.signatureId ∈ f.signature.map SignatureFile.id := by
        rw [← hids]
        exact List.mem_map_of_mem hsig
      obtain ⟨declared, hdeclared, hsame⟩ := List.mem_map.mp hid
      rw [← hsame]
      exact hall declared hdeclared

/-! ## 5. The assertion -/

/-- The assertion holds wherever reasons are joined: in absence detection and `build_claim` whatever
they are given, and in `build_steps` on what the analysis has returned. -/
structure ReasonsHold (shiftMs : Int64) (out : PipelineOut) : Prop where
  detection : ∀ profile assetId obs scan declared,
    detectAbsencesInDeclaredWindow sha256 profile assetId obs scan declared ≠ none
  claims : ∀ catalog sources family assetId triggerChannel absences w generatedAtMs,
    buildClaim sha256 catalog sources family assetId triggerChannel absences w generatedAtMs ≠
      (.error .panic : Checked String CauseClaim)
  steps : ∀ rounds, buildStepsWith sha256 rounds out shiftMs ≠ .error .panic

/-- **The assertion holds exactly when no row and no claim that gets a marker names the
delimiter**, or when the grid before them does not end.  Detection and claims are on the left for
whatever they are given, not only for what this analysis gives them.  `k` carries the two parsers:
an identifier that occurs in the output is one that they have let through. -/
theorem reasons_hold_iff (k : ParsedKnowledge profileToml catalogToml) (shiftMs : Int64)
    (h : analyze sha256 readerFor files k.knowledge window = .ok out) :
    ReasonsHold sha256 shiftMs out ↔
      (GridEnds out.t0Ms out.endMs → Undelimited k.knowledge out) := by
  rw [← assetReturns_iff sha256 shiftMs h, ← buildStepsWith_ne_panic_iff]
  exact ⟨ReasonsHold.steps,
    fun hsteps => ⟨detectAbsences_ne_none sha256, buildClaim_ne_panic sha256, hsteps⟩⟩

/-! ## 6. One expectation -/

/-- `groundProfile`, its expectation named otherwise. -/
def expecting (id : String) : FamilyProfile :=
  { tlogProfile with expectations := [⟨id, .heartbeat, 1000, 3, none, none, none, false⟩] }

def expectingFile (id : String) : ProfileFile where
  profileId := "ugv-gcs"
  version := "1"
  family := "ugv"
  sourceRole := "gcs"
  format := "mavlink_tlog"
  extensions := [".tlog"]
  defaultClockBasis := "host_received"
  channels := ["heartbeat"]
  fields := { time := "host_received_us" }
  expectations := [{ id, channel := "heartbeat", cadenceMs := 1000, graceK := 3 }]

def expectingToml (id : String) : String :=
  "profile_id = \"ugv-gcs\"\nversion = \"1\"\nfamily = \"ugv\"\nsource_role = \"gcs\"\n" ++
  "format = \"mavlink_tlog\"\nextensions = [\".tlog\"]\n" ++
  "default_clock_basis = \"host_received\"\nchannels = [\"heartbeat\"]\n" ++
  "[fields]\ntime = \"host_received_us\"\n[[expectations]]\nid = \"" ++ id ++ "\"\n" ++
  "channel = \"heartbeat\"\ncadence_ms = 1000\ngrace_k = 3\n"

/-- A reader of this one file. -/
def readExpecting (id tomlStr : String) : Except String ProfileFile :=
  if tomlStr = expectingToml id then .ok (expectingFile id) else .error "not the profile"

/-- A reader of a catalog without signatures. -/
def readCatalog (tomlStr : String) : Except String CatalogFile :=
  if tomlStr = "version = \"t\"\n" then .ok { version := "t" } else .error "not the catalog"

theorem parse_expecting (id : String) :
    parseProfile (readExpecting id) (expectingToml id) "public" = .ok (expecting id) := by
  unfold parseProfile readExpecting
  rw [if_pos rfl]
  rfl

/-- The identifier is in the file. -/
def expectingKnowledge (id : String) : ParsedKnowledge (readExpecting id) readCatalog where
  profiles := [expecting id]
  catalog := ⟨"t", []⟩
  profiles_parsed := List.forall_mem_singleton.mpr ⟨expectingToml id, "public", parse_expecting id⟩
  catalog_parsed := ⟨"version = \"t\"\n", rfl⟩

def expectingOut (id : String) : Checked String PipelineOut :=
  analyze Sha256.hash (heartbeatReader [latLon]) [emptyLog "ugv-01"]
    (expectingKnowledge id).knowledge (.explicit 0 60000)

/-- An identifier without the delimiter. -/
theorem plain_identifier_holds : ∃ out, expectingOut "hb-1hz" = .ok out ∧
    ReasonsHold Sha256.hash 0 out := by
  have hout : ∃ out ∈ (expectingOut "hb-1hz").toOption.toList, out.t0Ms = 0 := by
    decide +kernel
  obtain ⟨out, hmem, -⟩ := hout
  have hok := ok_of_mem_toOption hmem
  refine ⟨out, hok, (reasons_hold_iff Sha256.hash (expectingKnowledge "hb-1hz") 0 hok).mpr ?_⟩
  refine fun _ => undelimited_of_files _ ?_ ?_ out
  · intro tomlStr f hf
    unfold readExpecting at hf
    split at hf
    · cases hf
      decide
    · cases hf
  · intro tomlStr f hf
    unfold readCatalog at hf
    split at hf
    · cases hf
      decide
    · cases hf

/-- An identifier with the delimiter is parsed and analysed, and its row panics. -/
theorem delimited_identifier_panics : ∃ out, expectingOut "hb;1hz" = .ok out ∧
    ∃ rounds, buildStepsWith Sha256.hash rounds out 0 = .error .panic := by
  have hout : ∃ out ∈ (expectingOut "hb;1hz").toOption.toList,
      out.endMs < out.t0Ms + Int64.ofNat 3 * observationStrideMs ∧
      ∃ r ∈ out.noticed, HasPosition out r.assetId ∧
        r.negative.expectationId = "hb;1hz" ++ "@" ++ "1" := by
    decide +kernel
  obtain ⟨out, hmem, hends, r, hr, hplaced, hnames⟩ := hout
  have hok := ok_of_mem_toOption hmem
  refine ⟨out, hok, ?_⟩
  by_contra hnone
  rw [not_exists, buildStepsWith_ne_panic_iff, assetReturns_iff Sha256.hash 0 hok] at hnone
  have hplain := (hnone ⟨3, hends⟩).rows r hr hplaced (expecting "hb;1hz") List.mem_cons_self _
    List.mem_cons_self hnames
  exact absurd hplain.1 (by decide)

end Musubi.Fanout
