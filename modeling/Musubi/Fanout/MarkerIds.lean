/-
# The names of the markers

A marker of an absence is named after its asset, channel, source role and start, a marker of a
cause after its asset and start.  The names keep these apart (`absenceMarkerId_inj`,
`causeMarkerId_inj`, `absenceMarkerId_ne_cause`), whatever the asset is called, so two markers
share a name exactly where two rows of one asset share all of them (`buildSteps_distinct_iff`):
nothing in the name tells two expectations apart, nor two sources of one role.

An asset's name may hold any character, the separators of the names among them, so the names are
read from the END.  The start is a number and has none of the separators, the role and the channel
are of fixed vocabularies, and what is left is the asset.

That the claims take no name away has two reasons.  A name of a cause differs from every name of
an absence by its form; and two claims of one asset never start at the same time, since the
windows they are made of are apart.  So the condition (`NoneAlike`) is about rows alone, and about
one asset at a time.
-/
import Musubi.Fanout.Completeness
import Musubi.Lib.Substr
import Mathlib.Data.List.Nodup

namespace Musubi.Fanout

open Lib Lib.Checked Musubi.Core Reference Pipeline

/-! ## 1. Names -/

/-- The characters of a time: a sign and digits, none of which is a mark between the parts of a
name. -/
theorem mem_toString {v : Int64} {c : Char} (h : c ∈ (toString v).toList) :
    c = '-' ∨ c.isDigit = true := by
  change c ∈ v.toInt.repr.toList at h
  cases hv : v.toInt with
  | ofNat n =>
    rw [hv] at h
    exact Or.inr (isDigit_of_mem_repr h)
  | negSucc n =>
    rw [hv] at h
    change c ∈ ("-" ++ n.succ.repr).toList at h
    rw [String.toList_append, List.mem_append] at h
    rcases h with h | h
    · exact Or.inl (List.mem_singleton.mp h)
    · exact Or.inr (isDigit_of_mem_repr h)

theorem toString_injective {v w : Int64} (h : toString v = toString w) : v = w := by
  have hminus (m n : ℕ) : m.repr ≠ "-" ++ n.repr := by
    intro h
    have hmem : '-' ∈ m.repr.toList := by
      rw [h, String.toList_append]
      exact List.mem_append_left _ (by decide)
    exact absurd (isDigit_of_mem_repr hmem) (by decide)
  apply Int64.toInt_inj.mp
  change v.toInt.repr = w.toInt.repr at h
  cases hv : v.toInt with
  | ofNat m =>
    cases hw : w.toInt with
    | ofNat n =>
      rw [hv, hw] at h
      rw [repr_injective h]
    | negSucc n =>
      rw [hv, hw] at h
      exact absurd h (hminus m n.succ)
  | negSucc m =>
    cases hw : w.toInt with
    | ofNat n =>
      rw [hv, hw] at h
      exact absurd h.symm (hminus n m.succ)
    | negSucc n =>
      rw [hv, hw] at h
      change "-" ++ m.succ.repr = "-" ++ n.succ.repr at h
      rw [Nat.succ.inj (repr_injective (String.append_right_inj _ |>.mp h))]

theorem asStr_injective : Function.Injective ChannelId.asStr := by
  intro c c'
  cases c <;> cases c' <;> decide

theorem roleStr_injective : Function.Injective SourceRole.asStr := by
  intro r r'
  cases r <;> cases r' <;> decide

theorem notMem_toString {v : Int64} {c : Char} (hminus : c ≠ '-') (hdigit : c.isDigit = false) :
    c ∉ (toString v).toList := by
  intro h
  rcases mem_toString h with h | h
  · exact hminus h
  · rw [hdigit] at h
    cases h

/-- The names of channels and roles are words, so the marks between them in a name stand where
they were put. -/
theorem asStr_plain (channel : ChannelId) (role : SourceRole) :
    '#' ∉ channel.asStr.toList ∧ '#' ∉ role.asStr.toList ∧ '.' ∉ role.asStr.toList := by
  cases channel <;> cases role <;> decide

/-- A name as its asset, and what follows the last `#`.  The asset may itself have a `#` in it;
the rest has none. -/
theorem absenceMarkerId_split (assetId : String) (channel : ChannelId) (role : SourceRole)
    (t : Int64) : (absenceMarkerId assetId channel role t).toList = assetId.toList ++
      '#' :: ("absence:".toList ++ channel.asStr.toList ++ ['.'] ++ role.asStr.toList ++ ['@'] ++
        (toString t).toList) := by
  simp [absenceMarkerId]

theorem causeMarkerId_split (assetId : String) (t : Int64) :
    (causeMarkerId assetId t).toList =
      assetId.toList ++ '#' :: ("cause:".toList ++ (toString t).toList) := by
  simp [causeMarkerId]

theorem hash_notMem_absence (channel : ChannelId) (role : SourceRole) (t : Int64) :
    '#' ∉ "absence:".toList ++ channel.asStr.toList ++ ['.'] ++ role.asStr.toList ++ ['@'] ++
      (toString t).toList := by
  obtain ⟨hchannel, hrole, -⟩ := asStr_plain channel role
  have htime := notMem_toString (v := t) (c := '#') (by decide) (by decide)
  simp [hchannel, hrole, htime]

theorem hash_notMem_cause (t : Int64) : '#' ∉ "cause:".toList ++ (toString t).toList := by
  have htime := notMem_toString (v := t) (c := '#') (by decide) (by decide)
  simp [htime]

/-- **The name of an absence** tells its asset, channel, role and start.  Read from its end it can
be taken apart in one way only. -/
theorem absenceMarkerId_inj {assetId assetId' : String} {channel channel' : ChannelId}
    {role role' : SourceRole} {t t' : Int64} :
    absenceMarkerId assetId channel role t = absenceMarkerId assetId' channel' role' t' ↔
      assetId = assetId' ∧ channel = channel' ∧ role = role' ∧ t = t' := by
  constructor
  · intro h
    have hlist := congrArg String.toList h
    rw [absenceMarkerId_split, absenceMarkerId_split] at hlist
    obtain ⟨hasset, hrest⟩ := append_cons_inj_right (hash_notMem_absence channel role t)
      (hash_notMem_absence channel' role' t') hlist
    rw [List.append_assoc _ ['@'], List.append_assoc _ ['@'], List.singleton_append,
      List.singleton_append] at hrest
    obtain ⟨hrest, htime⟩ := append_cons_inj_right
      (notMem_toString (c := '@') (by decide) (by decide))
      (notMem_toString (c := '@') (by decide) (by decide)) hrest
    rw [List.append_assoc _ ['.'], List.append_assoc _ ['.'], List.singleton_append,
      List.singleton_append] at hrest
    obtain ⟨hrest, hrole⟩ := append_cons_inj_right (asStr_plain channel role).2.2
      (asStr_plain channel' role').2.2 hrest
    exact ⟨String.toList_inj.mp hasset,
      asStr_injective (String.toList_inj.mp (List.append_cancel_left hrest)),
      roleStr_injective (String.toList_inj.mp hrole),
      toString_injective (String.toList_inj.mp htime)⟩
  · rintro ⟨rfl, rfl, rfl, rfl⟩
    rfl

/-- **The name of a cause** tells its asset and its start. -/
theorem causeMarkerId_inj {assetId assetId' : String} {t t' : Int64} :
    causeMarkerId assetId t = causeMarkerId assetId' t' ↔ assetId = assetId' ∧ t = t' := by
  constructor
  · intro h
    have hlist := congrArg String.toList h
    rw [causeMarkerId_split, causeMarkerId_split] at hlist
    obtain ⟨hasset, hrest⟩ :=
      append_cons_inj_right (hash_notMem_cause t) (hash_notMem_cause t') hlist
    exact ⟨String.toList_inj.mp hasset,
      toString_injective (String.toList_inj.mp (List.append_cancel_left hrest))⟩
  · rintro ⟨rfl, rfl⟩
    rfl

theorem absenceMarkerId_ne_cause (assetId assetId' : String) (channel : ChannelId)
    (role : SourceRole) (t t' : Int64) :
    absenceMarkerId assetId channel role t ≠ causeMarkerId assetId' t' := by
  intro h
  have hlist := congrArg String.toList h
  rw [absenceMarkerId_split, causeMarkerId_split] at hlist
  obtain ⟨-, hrest⟩ := append_cons_inj_right (hash_notMem_absence channel role t)
    (hash_notMem_cause t') hlist
  have hhead := congrArg List.head? hrest
  simp at hhead

/-! ## 2. Markers of one asset -/

variable (sha256 : List UInt8 → Digest)

theorem satAdd64_zero (v : Int64) : satAdd64 v 0 = v := by
  apply Int64.toInt_inj.mp
  rw [satAdd64, Int64.toInt_zero, Int.add_zero, toInt_clamp64 (inI64_toInt v)]

/-- The role of the source that a row is from. -/
def roleOf (a : AssetRun) (r : NoticedRow) : Option SourceRole :=
  a.sources[r.sourceIndex]?.map fun s => s.profile.sourceRole

/-- Two rows of an asset that the name of a marker does not tell apart: one channel, sources of
one role, and one start.  The expectation that was not met is no part of the name. -/
def Alike (a : AssetRun) (r r' : NoticedRow) : Prop :=
  r.negative.subject.channel = r'.negative.subject.channel ∧ roleOf a r = roleOf a r' ∧
    r.sinceWallMs = r'.sinceWallMs

instance (a : AssetRun) (r r' : NoticedRow) : Decidable (Alike a r r') :=
  inferInstanceAs (Decidable (_ ∧ _))

/-- No two rows of an asset with a position are alike.  Without a position there are no markers
that could share a name. -/
def NoneAlike (out : PipelineOut) : Prop :=
  ∀ a ∈ out.assets, Placed a.sources →
    (out.noticed.filter fun r => r.assetId = a.assetId).Pairwise fun r r' => ¬ Alike a r r'

instance (out : PipelineOut) : Decidable (NoneAlike out) :=
  inferInstanceAs (Decidable (∀ a ∈ out.assets, Placed a.sources →
    (out.noticed.filter fun r => r.assetId = a.assetId).Pairwise fun r r' => ¬ Alike a r r'))

/-- The marker of a row is named after it: by its asset, its channel, the role of its source, and
its start. -/
theorem absence_marker {a : AssetRun} {r : NoticedRow} {s : DemoStep}
    (h : added (absenceStep sha256 a 0) r = some s) :
    ∃ role, roleOf a r = some role ∧ s.markerId =
      absenceMarkerId a.assetId r.negative.subject.channel role r.sinceWallMs := by
  rw [added_eq_some] at h
  rcases absenceStep_cases sha256 a 0 r with
    ⟨-, hnone⟩ | ⟨source, hsource, -, ⟨-, hpanic⟩ | ⟨-, s', hsome, -, hname⟩⟩
  · rw [hnone] at h
    cases h
  · rw [hpanic] at h
    cases h
  · rw [hsome] at h
    cases h
    rw [satAdd64_zero] at hname
    exact ⟨_, by rw [roleOf, hsource]; rfl, hname⟩

theorem cause_marker {a : AssetRun} {c : ClaimRecord} {s : DemoStep}
    (h : added (causeStep sha256 a 0) c = some s) :
    s.markerId = causeMarkerId a.assetId c.windowStartMs := by
  rw [added_eq_some] at h
  rcases causeStep_cases sha256 a 0 c with
    ⟨-, hnone⟩ | ⟨-, ⟨-, hpanic⟩ | ⟨-, s', hsome, -, hname⟩⟩
  · rw [hnone] at h
    cases h
  · rw [hpanic] at h
    cases h
  · rw [hsome] at h
    cases h
    rwa [satAdd64_zero] at hname

/-- The names of the markers of an asset. -/
def absenceNames (out : PipelineOut) (a : AssetRun) : List String :=
  (absencesOf sha256 0 out a).map DemoStep.markerId

def causeNames (out : PipelineOut) (a : AssetRun) : List String :=
  (causesOf sha256 0 out a).map DemoStep.markerId

theorem mem_absenceNames {out : PipelineOut} {a : AssetRun} {name : String}
    (h : name ∈ absenceNames sha256 out a) :
    ∃ channel role t, name = absenceMarkerId a.assetId channel role t := by
  obtain ⟨s, hs, rfl⟩ := List.mem_map.mp h
  obtain ⟨r, -, hr⟩ := List.mem_filterMap.mp hs
  obtain ⟨role, -, hname⟩ := absence_marker sha256 hr
  exact ⟨_, role, _, hname⟩

theorem mem_causeNames {out : PipelineOut} {a : AssetRun} {name : String}
    (h : name ∈ causeNames sha256 out a) : ∃ t, name = causeMarkerId a.assetId t := by
  obtain ⟨s, hs, rfl⟩ := List.mem_map.mp h
  obtain ⟨c, -, hc⟩ := List.mem_filterMap.mp hs
  exact ⟨_, cause_marker sha256 hc⟩

/-- **The absences of one asset** have different names exactly where no two rows are alike, once
no row panics.  An asset without a position has no markers, and its rows may be alike. -/
theorem nodup_absenceNames {out : PipelineOut} {a : AssetRun}
    (hrows : ∀ r ∈ out.noticed, r.assetId = a.assetId →
      ((added (absenceStep sha256 a 0) r).isSome ↔ Placed a.sources)) :
    (absenceNames sha256 out a).Nodup ↔ (Placed a.sources →
      (out.noticed.filter fun r => r.assetId = a.assetId).Pairwise fun r r' => ¬ Alike a r r') := by
  have hmem : ∀ r ∈ out.noticed.filter (fun r => r.assetId = a.assetId),
      ((added (absenceStep sha256 a 0) r).isSome ↔ Placed a.sources) := by
    intro r hr
    rw [List.mem_filter, decide_eq_true_iff] at hr
    exact hrows r hr.1 hr.2
  unfold absenceNames absencesOf
  rw [List.Nodup, List.pairwise_map, List.pairwise_filterMap]
  by_cases hplaced : Placed a.sources
  · rw [imp_iff_right hplaced]
    refine List.Pairwise.iff_of_mem ?_
    intro r r' hr hr'
    obtain ⟨s, hs⟩ := Option.isSome_iff_exists.mp ((hmem r hr).mpr hplaced)
    obtain ⟨s', hs'⟩ := Option.isSome_iff_exists.mp ((hmem r' hr').mpr hplaced)
    obtain ⟨role, hrole, hname⟩ := absence_marker sha256 hs
    obtain ⟨role', hrole', hname'⟩ := absence_marker sha256 hs'
    have hsame : s.markerId = s'.markerId ↔ Alike a r r' := by
      rw [hname, hname', absenceMarkerId_inj, Alike, hrole, hrole', Option.some_inj]
      exact and_iff_right rfl
    rw [← hsame]
    constructor
    · exact fun h => h s hs s' hs'
    · intro h t ht t' ht'
      rw [hs] at ht
      rw [hs'] at ht'
      cases ht
      cases ht'
      exact h
  · refine iff_of_true ?_ fun h => absurd h hplaced
    refine List.pairwise_of_forall_mem_list ?_
    intro r hr r' _ s hs
    have hsome := (hmem r hr).mp (by rw [hs]; rfl)
    exact absurd hsome hplaced

/-- The causes of one asset have different names, since they start at different times. -/
theorem nodup_causeNames {out : PipelineOut} {a : AssetRun}
    (h : (out.claims.filter fun c => c.assetId = a.assetId).Pairwise fun c c' =>
      c.windowStartMs.toInt < c'.windowStartMs.toInt) : (causeNames sha256 out a).Nodup := by
  unfold causeNames causesOf
  rw [List.Nodup, List.pairwise_map, List.pairwise_filterMap]
  refine h.imp ?_
  intro c c' hlt s hs s' hs' heq
  rw [cause_marker sha256 hs, cause_marker sha256 hs', causeMarkerId_inj] at heq
  rw [heq.2] at hlt
  exact lt_irrefl _ hlt

/-! ## 3. All markers -/

/-- **Names of different assets differ**: over all assets they are distinct where they are for
each. -/
theorem nodup_flatMap_names {assets : List AssetRun} {names : AssetRun → List String}
    (hnodup : (assets.map AssetRun.assetId).Nodup)
    (hdiffer : ∀ a a', a.assetId ≠ a'.assetId → ∀ x ∈ names a, ∀ y ∈ names a', x ≠ y) :
    (assets.flatMap names).Nodup ↔ ∀ a ∈ assets, (names a).Nodup := by
  have hcross : assets.Pairwise fun a a' => ∀ x ∈ names a, ∀ y ∈ names a', x ≠ y :=
    (List.pairwise_map.mp hnodup).imp fun hne => hdiffer _ _ hne
  rw [List.Nodup, List.pairwise_flatMap, and_iff_left hcross]

/-- The steps that are markers. -/
def markers (steps : List DemoStep) : List DemoStep :=
  steps.filter fun s => s.kind ≠ .observation

theorem markers_perm (steps : List DemoStep) :
    (markers steps).Perm (ofKind .absence steps ++ ofKind .cause steps) := by
  have hsplit := List.filter_append_perm (fun s => decide (s.kind = StepKind.absence))
    (markers steps)
  unfold markers at hsplit
  rw [List.filter_filter, List.filter_filter] at hsplit
  refine hsplit.symm.trans (List.Perm.of_eq ?_)
  congr 1
  · refine List.filter_congr ?_
    intro s _
    cases s.kind <;> rfl
  · refine List.filter_congr ?_
    intro s _
    cases s.kind <;> rfl

variable {readerFor : String → Option Reader} {files : List InputFile} {knowledge : Knowledge}
  {window : ObservationWindow} {out : PipelineOut}

/-- The names of the markers that are built. -/
theorem Built.names {steps : List DemoStep} (h : Built sha256 0 out steps) :
    ((markers steps).map DemoStep.markerId).Perm
      (out.assets.flatMap (absenceNames sha256 out) ++
        out.assets.flatMap (causeNames sha256 out)) := by
  have hnames {l l' : List DemoStep} (hl : (l.map content).Perm (l'.map content)) :
      (l.map DemoStep.markerId).Perm (l'.map DemoStep.markerId) := by
    have := hl.map DemoStep.markerId
    rwa [List.map_map, List.map_map] at this
  have hall := (markers_perm steps).map DemoStep.markerId
  rw [List.map_append] at hall
  have habsences := hnames h.absences
  have hcauses := hnames h.causes
  rw [List.map_flatMap] at habsences hcauses
  exact hall.trans (habsences.append hcauses)

/-- Once the steps are built, a row has a marker where its asset has a position. -/
theorem Built.row_added_iff (h : analyze sha256 readerFor files knowledge window = .ok out)
    {steps : List DemoStep} (hbuilt : Built sha256 0 out steps) {a : AssetRun}
    (ha : a ∈ out.assets) : ∀ r ∈ out.noticed, r.assetId = a.assetId →
      ((added (absenceStep sha256 a 0) r).isSome ↔ Placed a.sources) := by
  intro r hr hid
  have hdistinct := (accounted_of_analyze sha256 h).distinct
  obtain ⟨b, hb, hidb, hindex, -⟩ := noticed_of_analyze sha256 h hr
  obtain rfl := List.inj_on_of_nodup_map hdistinct hb ha (hidb.symm.trans hid)
  obtain ⟨y, hy⟩ := (hbuilt.returns b hb).2.rows r hr hid
  rw [isSome_added_absence]
  constructor
  · exact fun hall => hall.2.1
  · intro hplaced
    rcases absenceStep_cases sha256 b 0 r with
      ⟨hnot, -⟩ | ⟨_, -, -, ⟨-, hpanic⟩ | ⟨htexts, -⟩⟩
    · exact absurd ⟨hindex, hplaced⟩ hnot
    · rw [hpanic] at hy
      cases hy
    · exact ⟨hindex, hplaced, htexts⟩

/-- **The markers of an analysis have different names** exactly when no asset with a position has
two rows for one channel, from sources of one role, that start together.  Neither the rows of
other assets nor the claims ever take a name.  The steps are assumed to be returned, since without
them there are no names to compare; the analysis is assumed because two claims of one asset that
start together would share a name, and it makes no such claims. -/
theorem buildSteps_distinct_iff (h : analyze sha256 readerFor files knowledge window = .ok out)
    {rounds : ℕ} {steps : List DemoStep} (hsteps : buildSteps sha256 rounds out = .ok steps) :
    ((markers steps).map DemoStep.markerId).Nodup ↔ NoneAlike out := by
  have haccounted := accounted_of_analyze sha256 h
  have hbuilt := buildStepsWith_built sha256 hsteps
  have habsences : (out.assets.flatMap (absenceNames sha256 out)).Nodup ↔
      ∀ a ∈ out.assets, (absenceNames sha256 out a).Nodup := by
    refine nodup_flatMap_names haccounted.distinct ?_
    intro a a' hne x hx y hy hxy
    obtain ⟨_, _, _, rfl⟩ := mem_absenceNames sha256 hx
    obtain ⟨_, _, _, rfl⟩ := mem_absenceNames sha256 hy
    exact hne (absenceMarkerId_inj.mp hxy).1
  have hcauses : (out.assets.flatMap (causeNames sha256 out)).Nodup := by
    refine (nodup_flatMap_names haccounted.distinct ?_).mpr fun a ha =>
      nodup_causeNames sha256 (haccounted.increasing a ha)
    intro a a' hne x hx y hy hxy
    obtain ⟨_, rfl⟩ := mem_causeNames sha256 hx
    obtain ⟨_, rfl⟩ := mem_causeNames sha256 hy
    exact hne (causeMarkerId_inj.mp hxy).1
  have happart : (out.assets.flatMap (absenceNames sha256 out)).Disjoint
      (out.assets.flatMap (causeNames sha256 out)) := by
    intro name habsence hcause
    obtain ⟨a, -, ha⟩ := List.mem_flatMap.mp habsence
    obtain ⟨a', -, ha'⟩ := List.mem_flatMap.mp hcause
    obtain ⟨_, _, _, rfl⟩ := mem_absenceNames sha256 ha
    obtain ⟨_, hname⟩ := mem_causeNames sha256 ha'
    exact absenceMarkerId_ne_cause _ _ _ _ _ _ hname
  rw [hbuilt.names.nodup_iff, List.nodup_append', and_iff_left ⟨hcauses, happart⟩, habsences]
  exact forall₂_congr fun a ha => nodup_absenceNames sha256 (hbuilt.row_added_iff sha256 h ha)

/-! ## 4. Two expectations on one channel -/

/-- A second expectation of the same heartbeats, less strict. -/
def twoExpectations : FamilyProfile :=
  { groundProfile with
    expectations := groundProfile.expectations ++
      [⟨"hb-slow", .heartbeat, 1000, 5, none, none, none, false⟩] }

/-- With one expectation the markers have different names. -/
theorem oneExpectation_distinct : ∃ out rounds steps,
    heartbeatOut groundProfile [latLon] = .ok out ∧
    buildSteps Sha256.hash rounds out = .ok steps ∧
    ((markers steps).map DemoStep.markerId).Nodup := by
  have hout : ∃ out ∈ (heartbeatOut groundProfile [latLon]).toOption.toList,
      MarkableWithin 3 out ∧ NoneAlike out := by
    decide +kernel
  obtain ⟨out, hmem, hmarkable, halike⟩ := hout
  have hok := ok_of_mem_toOption hmem
  obtain ⟨rounds, steps, hsteps⟩ := hmarkable.markable.built Sha256.hash hok 0
  exact ⟨out, rounds, steps, hok, hsteps,
    (buildSteps_distinct_iff Sha256.hash hok hsteps).mpr halike⟩

/-- With two, both notice the silence after the heartbeat, and one marker overwrites the other. -/
theorem twoExpectations_overwrite : ∃ out rounds steps,
    heartbeatOut twoExpectations [latLon] = .ok out ∧
    buildSteps Sha256.hash rounds out = .ok steps ∧
    ¬ ((markers steps).map DemoStep.markerId).Nodup := by
  have hout : ∃ out ∈ (heartbeatOut twoExpectations [latLon]).toOption.toList,
      MarkableWithin 3 out ∧ ∃ a ∈ out.assets, Placed a.sources ∧
        ¬ (out.noticed.filter fun r => r.assetId = a.assetId).Pairwise
          fun r r' => ¬ Alike a r r' := by
    decide +kernel
  obtain ⟨out, hmem, hmarkable, a, ha, hplaced, halike⟩ := hout
  have hok := ok_of_mem_toOption hmem
  obtain ⟨rounds, steps, hsteps⟩ := hmarkable.markable.built Sha256.hash hok 0
  refine ⟨out, rounds, steps, hok, hsteps, ?_⟩
  intro hdistinct
  have hbuilt := buildStepsWith_built Sha256.hash hsteps
  rw [hbuilt.names.nodup_iff, List.nodup_append'] at hdistinct
  have hasset : (absenceNames Sha256.hash out a).Nodup :=
    (List.pairwise_flatMap.mp hdistinct.1).1 a ha
  have hrows := hbuilt.row_added_iff Sha256.hash hok ha
  exact halike ((nodup_absenceNames Sha256.hash hrows).mp hasset hplaced)

end Musubi.Fanout
