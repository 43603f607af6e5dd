/-
# What the cues of several sources are

`extract_cues` goes through the sources three times: for what they say about themselves, for their
absences, and for what they show.  Each step only adds to what is there, and what it adds does not
depend on what is there; the one thing that is carried from one round to the next is whether a
heartbeat has stopped.  So the cues are those of the sources one by one, in whatever order they
come and however often.

`Additive` is this property of a step, and it composes: a step that consists of additive ones is
additive, and so is a round over the sources.  What the steps of the source add to nothing is then
a union over the sources (`extractCues_eq`), and unions do not care about order or repetition.

The least confidence is the exception that needs an argument.  It is a minimum of floats, where
zero has two forms and NaN is ignored, so two orders give the same NUMBER and perhaps not the same
bits (`SameNumber`); the matching of signatures does not look at it.
-/
import Musubi.Lib.SortedSets
import Musubi.Reference.AbsenceExact
import Musubi.Reference.Cause

namespace Musubi.Reference

open Lib

/-! ## 1. Steps that add -/

/-- With the cues and the evidence that something else adds. -/
def CueSet.withFound (c found : CueSet) : CueSet :=
  { c with
    present := c.present ∪ found.present
    evidence := c.evidence ++ found.evidence }

/-- The step adds what it adds to nothing, whatever is there already. -/
def Additive (step : CueSet → CueSet) : Prop := ∀ c, step c = c.withFound (step .empty)

theorem withFound_empty (c : CueSet) : c.withFound .empty = c := by
  simp [CueSet.withFound, CueSet.empty]

theorem withFound_assoc (c found more : CueSet) :
    (c.withFound found).withFound more = c.withFound (found.withFound more) := by
  simp [CueSet.withFound, Finset.union_assoc, List.append_assoc]

theorem additive_id : Additive fun c => c := fun c => (withFound_empty c).symm

theorem additive_add (channel : ChannelId) (id : String) (ev : List Observation) :
    Additive fun c => c.add channel id ev := by
  intro c
  have hpresent : insert (channel, id) c.present = c.present ∪ insert (channel, id) ∅ := by
    rw [Finset.union_insert, Finset.union_empty]
  unfold CueSet.add
  dsimp only
  rw [hpresent]
  rfl

theorem Additive.comp {step more : CueSet → CueSet} (hmore : Additive more)
    (hstep : Additive step) : Additive fun c => more (step c) := by
  intro c
  calc more (step c) = (step c).withFound (more .empty) := hmore _
    _ = (c.withFound (step .empty)).withFound (more .empty) := by rw [hstep c]
    _ = c.withFound ((step .empty).withFound (more .empty)) := withFound_assoc _ _ _
    _ = c.withFound (more (step .empty)) := by rw [hmore (step .empty)]

theorem Additive.addIf {step : CueSet → CueSet} (hstep : Additive step) (condition : Bool)
    (channel : ChannelId) (id : String) (ev : List Observation) :
    Additive fun c => (step c).addIf condition channel id ev := by
  cases condition with
  | false => exact hstep
  | true => exact (additive_add channel id ev).comp hstep

/-! ## 2. Rounds -/

section Rounds

variable {α : Type} (found : α → CueSet)

/-- A round finds what one of its items has, and what was found before it.  Induction on the
items, with the cues so far free. -/
theorem mem_present_foldl {x : ChannelId × String} (items : List α) : ∀ c : CueSet,
    x ∈ (items.foldl (fun c a => c.withFound (found a)) c).present ↔
      x ∈ c.present ∨ ∃ a ∈ items, x ∈ (found a).present := by
  induction items with
  | nil => simp
  | cons a items ih =>
    intro c
    rw [List.foldl_cons, ih, List.exists_mem_cons_iff, CueSet.withFound, Finset.mem_union,
      or_assoc]

theorem mem_evidence_foldl {d : Digest} (items : List α) : ∀ c : CueSet,
    d ∈ (items.foldl (fun c a => c.withFound (found a)) c).evidence ↔
      d ∈ c.evidence ∨ ∃ a ∈ items, d ∈ (found a).evidence := by
  induction items with
  | nil => simp
  | cons a items ih =>
    intro c
    rw [List.foldl_cons, ih, List.exists_mem_cons_iff, CueSet.withFound, List.mem_append,
      or_assoc]

/-- A round finds cues and evidence, and leaves the rest: the two fields that it adds to are the
only ones that an item reaches. -/
theorem foldl_withFound_frame (items : List α) : ∀ c : CueSet,
    items.foldl (fun c a => c.withFound (found a)) c =
      { c with
        present := (items.foldl (fun c a => c.withFound (found a)) c).present
        evidence := (items.foldl (fun c a => c.withFound (found a)) c).evidence } := by
  induction items with
  | nil => exact fun c => rfl
  | cons a items ih => exact fun c => ih (c.withFound (found a))

end Rounds

/-! ## 3. What the steps of the source add -/

theorem additive_aliveCues (w : Window) (heartbeatStop : Bool) (s : SourceInput)
    (inW : List Observation) : Additive (aliveCues w heartbeatStop s inW) :=
  ((((((additive_id.addIf _ _ _ _).addIf _ _ _ _).addIf _ _ _ _).addIf _ _ _ _).addIf
    _ _ _ _).addIf _ _ _ _).addIf _ _ _ _

theorem additive_preludeCues (w : Window) (s : SourceInput) : Additive (preludeCues w s) := by
  intro c
  unfold preludeCues
  dsimp only
  split
  · exact additive_id c
  · split
    · exact additive_add _ _ _ c
    · exact additive_id.addIf _ _ _ _ c

theorem additive_eventCues (inW : List Observation) : Additive (eventCues inW) :=
  ((((additive_id.addIf _ _ _ _).addIf _ _ _ _).addIf _ _ _ _).addIf _ _ _ _).addIf _ _ _ _

theorem additive_gpsCues (w b : List Observation) : Additive (gpsCues w b) :=
  (((((((additive_id.addIf _ _ _ _).addIf _ _ _ _).addIf _ _ _ _).addIf _ _ _ _).addIf
    _ _ _ _).addIf _ _ _ _).addIf _ _ _ _).addIf _ _ _ _

/-- What a source shows, by itself. -/
def observedFound (w : Window) (heartbeatStop : Bool) (s : SourceInput) : CueSet :=
  observedCues w heartbeatStop .empty s

theorem observedCues_eq (w : Window) (heartbeatStop : Bool) (c : CueSet) (s : SourceInput) :
    observedCues w heartbeatStop c s = c.withFound (observedFound w heartbeatStop s) := by
  have h := (additive_gpsCues ((s.obs.filter (inWindow w)).filter fun o => o.channel = .gpsEkf)
      (s.obs.filter fun o => o.channel = .gpsEkf &&
        inWindow ⟨w.startMs - 30000, w.startMs⟩ o)).comp
    ((additive_eventCues (s.obs.filter (inWindow w))).comp ((additive_preludeCues w s).comp
      (additive_aliveCues w heartbeatStop s (s.obs.filter (inWindow w)))))
  exact h c

/-- The cue of an absence, if it counts. -/
def absenceId (w : Window) (s : SourceInput) (n : NegativeObservation) : Option String :=
  match negWall n s.alignment (isHostAxis s.profile.defaultClockBasis) with
  | none => none
  | some (since, by_) =>
    if ¬ (since < w.endMs ∧ w.startMs < by_) then none
    else if onsetToleranceMs < (since - w.startMs).abs then none
    else absenceCue s since n.subject.channel

/-- What an absence adds. -/
def absenceFound (w : Window) (s : SourceInput) (n : NegativeObservation) : CueSet :=
  match absenceId w s n with
  | none => .empty
  | some id =>
    (CueSet.empty.addIf (n.subject.channel = .linkStats ∧ s.profile.sourceRole = .handset)
      .linkStats "handset_link_dead" []).add n.subject.channel id []

/-- The absence of a heartbeat, if it counts. -/
def stopsHeartbeat (w : Window) (s : SourceInput) (n : NegativeObservation) : Bool :=
  (absenceId w s n).isSome && n.subject.channel = .heartbeat

theorem absenceCues_eq_match (w : Window) (s : SourceInput) (c : Stopped)
    (n : NegativeObservation) :
    absenceCues w s c n =
      match absenceId w s n with
      | none => c
      | some id =>
        ((c.1.addIf (n.subject.channel = .linkStats ∧ s.profile.sourceRole = .handset)
          .linkStats "handset_link_dead" []).add n.subject.channel id [],
          c.2 || n.subject.channel = .heartbeat) := by
  unfold absenceCues absenceId
  cases negWall n s.alignment (isHostAxis s.profile.defaultClockBasis) with
  | none => rfl
  | some times =>
    dsimp only
    split
    · rfl
    · split
      · rfl
      · rfl

theorem absenceCues_eq (w : Window) (s : SourceInput) (c : Stopped) (n : NegativeObservation) :
    absenceCues w s c n =
      (c.1.withFound (absenceFound w s n), c.2 || stopsHeartbeat w s n) := by
  rw [absenceCues_eq_match, absenceFound, stopsHeartbeat]
  cases absenceId w s n with
  | none =>
    rw [Option.isSome_none, Bool.false_and, Bool.or_false]
    exact Prod.ext (withFound_empty c.1).symm rfl
  | some id =>
    rw [Option.isSome_some, Bool.true_and]
    exact Prod.ext ((additive_add _ _ _).comp (additive_id.addIf _ _ _ _) c.1) rfl

/-! ## 4. All sources -/

/-- The absences of all sources. -/
def absencePairs (sources : List SourceInput) : List (SourceInput × NegativeObservation) :=
  sources.flatMap fun s => s.negatives.map (Prod.mk s)

/-- The absence of a heartbeat counts. -/
def heartbeatStopped (sources : List SourceInput) (w : Window) : Bool :=
  (absencePairs sources).any fun p => stopsHeartbeat w p.1 p.2

theorem foldl_absenceCues (w : Window) (pairs : List (SourceInput × NegativeObservation)) :
    ∀ c : Stopped, pairs.foldl (fun c p => absenceCues w p.1 c p.2) c =
      (pairs.foldl (fun c p => c.withFound (absenceFound w p.1 p.2)) c.1,
        c.2 || pairs.any fun p => stopsHeartbeat w p.1 p.2) := by
  induction pairs with
  | nil =>
    intro c
    exact Prod.ext rfl (Bool.or_false _).symm
  | cons p pairs ih =>
    intro c
    rw [List.foldl_cons, ih, absenceCues_eq, List.any_cons, Bool.or_assoc]
    rfl

theorem foldl_negatives (w : Window) (sources : List SourceInput) (c : Stopped) :
    sources.foldl (fun c s => s.negatives.foldl (absenceCues w s) c) c =
      (absencePairs sources).foldl (fun c p => absenceCues w p.1 c p.2) c := by
  rw [absencePairs, List.foldl_flatMap]
  congr 1
  funext c s
  rw [List.foldl_map]

/-- The cues after each round. -/
def selfCues (sources : List SourceInput) (w : Window) : CueSet :=
  sources.foldl (sourceCues w) .empty

def cuesOfAbsences (sources : List SourceInput) (w : Window) : CueSet :=
  (absencePairs sources).foldl (fun c p => c.withFound (absenceFound w p.1 p.2))
    (selfCues sources w)

def cuesOfSources (sources : List SourceInput) (w : Window) : CueSet :=
  sources.foldl (fun c s => c.withFound (observedFound w (heartbeatStopped sources w) s))
    (cuesOfAbsences sources w)

/-- **Three rounds**, each adding what its items have. -/
theorem extractCues_eq (sources : List SourceInput) (w : Window) :
    extractCues sources w =
      { cuesOfSources sources w with
        evidence := sortedDigests (cuesOfSources sources w).evidence } := by
  have hobserved : observedCues w (heartbeatStopped sources w) =
      fun c s => c.withFound (observedFound w (heartbeatStopped sources w) s) := by
    funext c s
    exact observedCues_eq _ _ _ _
  unfold extractCues
  dsimp only
  rw [foldl_negatives, foldl_absenceCues, Bool.false_or, ← heartbeatStopped]
  dsimp only
  rw [hobserved]
  rfl

/-- What no source says about itself is as it was, for any field that the step over a source does
not touch. -/
theorem selfCues_keep {α : Type} {w : Window} (field : CueSet → α)
    (h : ∀ c s, field (sourceCues w c s) = field c) {sources : List SourceInput} :
    field (selfCues sources w) = field .empty := by
  have hfold : ∀ (sources : List SourceInput) (c : CueSet),
      field (sources.foldl (sourceCues w) c) = field c := by
    intro sources
    induction sources with
    | nil => exact fun c => rfl
    | cons s sources ih => exact fun c => (ih (sourceCues w c s)).trans (h c s)
  exact hfold sources .empty

/-- **A cue is there** when an absence or a source has it.  That a heartbeat has stopped is the
one condition that looks at all sources. -/
theorem mem_present_iff {x : ChannelId × String} {sources : List SourceInput} {w : Window} :
    x ∈ (extractCues sources w).present ↔
      (∃ p ∈ absencePairs sources, x ∈ (absenceFound w p.1 p.2).present) ∨
        ∃ s ∈ sources, x ∈ (observedFound w (heartbeatStopped sources w) s).present := by
  have hselfCues : (selfCues sources w).present = ∅ := selfCues_keep CueSet.present fun _ _ => rfl
  rw [extractCues_eq]
  change x ∈ (cuesOfSources sources w).present ↔ _
  rw [cuesOfSources, mem_present_foldl, cuesOfAbsences, mem_present_foldl, hselfCues]
  simp only [Finset.notMem_empty, false_or]

theorem mem_evidence_iff {d : Digest} {sources : List SourceInput} {w : Window} :
    d ∈ (cuesOfSources sources w).evidence ↔
      (∃ p ∈ absencePairs sources, d ∈ (absenceFound w p.1 p.2).evidence) ∨
        ∃ s ∈ sources, d ∈ (observedFound w (heartbeatStopped sources w) s).evidence := by
  have hselfCues : (selfCues sources w).evidence = [] :=
    selfCues_keep CueSet.evidence fun _ _ => rfl
  rw [cuesOfSources, mem_evidence_foldl, cuesOfAbsences, mem_evidence_foldl, hselfCues]
  simp only [List.not_mem_nil, false_or]

/-- What the sources say about themselves stays as it is. -/
theorem cuesOfSources_frame (sources : List SourceInput) (w : Window) :
    cuesOfSources sources w =
      { selfCues sources w with
        present := (cuesOfSources sources w).present
        evidence := (cuesOfSources sources w).evidence } := by
  have habsences := foldl_withFound_frame
    (fun p : SourceInput × NegativeObservation => absenceFound w p.1 p.2)
    (absencePairs sources) (selfCues sources w)
  have hsources := foldl_withFound_frame (observedFound w (heartbeatStopped sources w)) sources
    (cuesOfAbsences sources w)
  rw [← cuesOfSources] at hsources
  rw [← cuesOfAbsences] at habsences
  rw [habsences] at hsources
  exact hsources

/-! ## 5. What the sources say about themselves -/

theorem mem_observedChannels_foldl {channel : ChannelId} {w : Window}
    (sources : List SourceInput) : ∀ c : CueSet,
    channel ∈ (sources.foldl (sourceCues w) c).observedChannels ↔
      channel ∈ c.observedChannels ∨ ∃ s ∈ sources, channel ∈ s.profile.channels := by
  induction sources with
  | nil => simp
  | cons s sources ih =>
    intro c
    rw [List.foldl_cons, ih, List.exists_mem_cons_iff, ← or_assoc]
    simp only [sourceCues, Finset.mem_union, List.mem_toFinset]

/-- **A channel is observed** when a profile declares it. -/
theorem mem_observedChannels_iff {channel : ChannelId} {sources : List SourceInput} {w : Window} :
    channel ∈ (extractCues sources w).observedChannels ↔
      ∃ s ∈ sources, channel ∈ s.profile.channels := by
  have h := @mem_observedChannels_foldl channel w sources .empty
  rw [extractCues_eq, cuesOfSources_frame]
  exact h.trans (or_iff_right (Finset.notMem_empty _))

/-- The clock of the source does not place its times. -/
def untrustedSource (s : SourceInput) : Bool :=
  (!isHostAxis s.profile.defaultClockBasis && s.alignment.offset.isNone) ||
    s.alignment.basis = .gpsSuspect || s.alignment.basis = .unknown

theorem timeUntrusted_foldl {w : Window} (sources : List SourceInput) : ∀ c : CueSet,
    (sources.foldl (sourceCues w) c).timeUntrusted =
      (c.timeUntrusted || sources.any untrustedSource) := by
  induction sources with
  | nil => exact fun c => (Bool.or_false _).symm
  | cons s sources ih =>
    intro c
    rw [List.foldl_cons, ih, List.any_cons, ← Bool.or_assoc]
    congr 1
    simp only [sourceCues, untrustedSource, Bool.or_assoc]

theorem basisRank_injective : Function.Injective basisRank := by
  intro a b h
  cases a <;> cases b <;> first | rfl | cases h

/-- The weakest basis is one of those that there are, and no other is weaker. -/
theorem weakestBasis_foldl {w : Window} (sources : List SourceInput) : ∀ c : CueSet,
    ((sources.foldl (sourceCues w) c).weakestBasis = c.weakestBasis ∨
      ∃ s ∈ sources, (sources.foldl (sourceCues w) c).weakestBasis = s.alignment.basis) ∧
    basisRank (sources.foldl (sourceCues w) c).weakestBasis ≤ basisRank c.weakestBasis ∧
    ∀ s ∈ sources,
      basisRank (sources.foldl (sourceCues w) c).weakestBasis ≤ basisRank s.alignment.basis := by
  induction sources with
  | nil => exact fun c => ⟨Or.inl rfl, le_rfl, fun s hs => nomatch hs⟩
  | cons s sources ih =>
    intro c
    obtain ⟨hmem, hinit, hall⟩ := ih (sourceCues w c s)
    have hstep : (sourceCues w c s).weakestBasis =
        if basisRank s.alignment.basis < basisRank c.weakestBasis then s.alignment.basis
        else c.weakestBasis := rfl
    rw [hstep] at hmem hinit
    rw [List.foldl_cons]
    split at hinit
    · rename_i hweaker
      rw [if_pos hweaker] at hmem
      refine ⟨Or.inr ?_, by omega, ?_⟩
      · rcases hmem with h | ⟨t, ht, h⟩
        · exact ⟨s, List.mem_cons_self, h⟩
        · exact ⟨t, List.mem_cons_of_mem _ ht, h⟩
      · intro t ht
        rcases List.mem_cons.mp ht with rfl | ht
        · exact hinit
        · exact hall t ht
    · rename_i hweaker
      rw [if_neg hweaker] at hmem
      refine ⟨hmem.imp_right fun ⟨t, ht, h⟩ => ⟨t, List.mem_cons_of_mem _ ht, h⟩, hinit, ?_⟩
      intro t ht
      rcases List.mem_cons.mp ht with rfl | ht
      · omega
      · exact hall t ht

/-! ## 6. The least confidence -/

/-- The place of a number in the order of the numbers. -/
def keyOf (v : F32) : ℤ := binary32.key v.bits.toNat

/-- The two are one number: only the zeros have two forms, which compare equal. -/
def SameNumber (a b : F32) : Prop := a = b ∨ a.magnitude = 0 ∧ b.magnitude = 0

theorem sameNumber_of_key {a b : F32} (h : keyOf a = keyOf b) : SameNumber a b := by
  have ha := a.bits.toNat_lt
  have hb := b.bits.toNat_lt
  have hsign : binary32.signBit = 2 ^ 31 := rfl
  unfold keyOf BinaryFormat.key at h
  unfold SameNumber F32.magnitude
  rw [hsign] at h ⊢
  by_cases hbits : a.bits.toNat = b.bits.toNat
  · left
    cases a
    cases b
    exact congrArg F32.mk (UInt32.toNat_inj.mp hbits)
  · right
    split at h
    · split at h
      · omega
      · omega
    · split at h
      · omega
      · omega

/-- `if v < min { min = v }`. -/
def lowest (low : F32) (values : List F32) : F32 :=
  values.foldl (fun low v => if v.lt low then v else low) low

/-- The least of the numbers; what is not one is passed over. -/
theorem lowest_spec (values : List F32) : ∀ {low : F32}, low.isNan = false →
    (lowest low values).isNan = false ∧ lowest low values ∈ low :: values ∧
      keyOf (lowest low values) ≤ keyOf low ∧
      ∀ v ∈ values, v.isNan = false → keyOf (lowest low values) ≤ keyOf v := by
  induction values with
  | nil =>
    intro low hlow
    exact ⟨hlow, List.mem_singleton_self _, le_rfl, fun v hv => nomatch hv⟩
  | cons v values ih =>
    intro low hlow
    rw [lowest, List.foldl_cons, ← lowest]
    by_cases hlt : v.lt low = true
    · rw [if_pos hlt]
      simp only [F32.lt, Bool.and_eq_true, Bool.not_eq_true', decide_eq_true_iff] at hlt
      have hle : keyOf v ≤ keyOf low := hlt.2.le
      obtain ⟨hnan, hmem, hinit, hall⟩ := ih hlt.1.1
      refine ⟨hnan, List.mem_cons_of_mem _ hmem, hinit.trans hle, ?_⟩
      intro u hu hunan
      rcases List.mem_cons.mp hu with rfl | hu
      · exact hinit
      · exact hall u hu hunan
    · rw [if_neg hlt]
      obtain ⟨hnan, hmem, hinit, hall⟩ := ih hlow
      refine ⟨hnan, ?_, hinit, ?_⟩
      · rcases List.mem_cons.mp hmem with h | h
        · rw [h]
          exact List.mem_cons_self
        · exact List.mem_cons_of_mem _ (List.mem_cons_of_mem _ h)
      · intro u hu hunan
        rcases List.mem_cons.mp hu with rfl | hu
        · have hge : ¬ keyOf u < keyOf low := by
            intro h
            refine hlt ?_
            rw [F32.lt, hunan, hlow]
            exact decide_eq_true h
          exact hinit.trans (not_lt.mp hge)
        · exact hall u hu hunan

/-- **The least of a set of numbers** does not depend on how the set is listed, up to the sign of
a zero. -/
theorem lowest_congr {low : F32} (hlow : low.isNan = false) {values values' : List F32}
    (h : ∀ v, v ∈ values ↔ v ∈ values') :
    SameNumber (lowest low values) (lowest low values') := by
  have hle {values values' : List F32} (h : ∀ v, v ∈ values ↔ v ∈ values') :
      keyOf (lowest low values) ≤ keyOf (lowest low values') := by
    obtain ⟨-, -, hinit, hall⟩ := lowest_spec values hlow
    obtain ⟨hnan, hmem, -, -⟩ := lowest_spec values' hlow
    rcases List.mem_cons.mp hmem with heq | hmem
    · rw [heq]
      exact hinit
    · exact hall _ ((h _).mpr hmem) hnan
  exact sameNumber_of_key (le_antisymm (hle h) (hle fun v => (h v).symm))

/-- The confidences in the times of the window. -/
def windowConfidences (sources : List SourceInput) (w : Window) : List F32 :=
  sources.flatMap fun s => (s.obs.filter (inWindow w)).map Observation.timeConfidence

theorem timeConfidenceMin_foldl {w : Window} (sources : List SourceInput) : ∀ c : CueSet,
    (sources.foldl (sourceCues w) c).timeConfidenceMin =
      lowest c.timeConfidenceMin (windowConfidences sources w) := by
  induction sources with
  | nil => exact fun c => rfl
  | cons s sources ih =>
    intro c
    have hcons : windowConfidences (s :: sources) w =
        (s.obs.filter (inWindow w)).map Observation.timeConfidence ++
          windowConfidences sources w := List.flatMap_cons
    rw [List.foldl_cons, ih, hcons]
    unfold lowest
    rw [List.foldl_append]
    rfl

/-! ## 7. The order of the sources -/

instance : Std.Total fun a b : Digest => a.toList ≤ b.toList :=
  ⟨fun a b => List.le_total a.toList b.toList⟩

instance : IsTrans Digest fun a b => a.toList ≤ b.toList :=
  ⟨fun _ _ _ => List.le_trans⟩

instance : Std.Antisymm fun a b : Digest => a.toList ≤ b.toList :=
  ⟨fun _ _ hab hba => Vector.toList_inj.mp (List.le_antisymm hab hba)⟩

/-- The same cues; the least confidence is the same number.  Everything else is the same as a
value, the evidence with its order. -/
structure SameCues (c c' : CueSet) : Prop where
  present : c.present = c'.present
  observedChannels : c.observedChannels = c'.observedChannels
  evidence : c.evidence = c'.evidence
  weakestBasis : c.weakestBasis = c'.weakestBasis
  timeConfidenceMin : SameNumber c.timeConfidenceMin c'.timeConfidenceMin
  timeUntrusted : c.timeUntrusted = c'.timeUntrusted

section Congr

variable {sources sources' : List SourceInput} {w : Window}

theorem mem_absencePairs_congr (h : ∀ s, s ∈ sources ↔ s ∈ sources')
    (p : SourceInput × NegativeObservation) :
    p ∈ absencePairs sources ↔ p ∈ absencePairs sources' := by
  unfold absencePairs
  simp only [List.mem_flatMap, h]

theorem any_congr_mem {α : Type} {l l' : List α} (h : ∀ a, a ∈ l ↔ a ∈ l') (p : α → Bool) :
    l.any p = l'.any p := by
  rw [Bool.eq_iff_iff, List.any_eq_true, List.any_eq_true]
  simp only [h]

theorem weakestBasis_congr (h : ∀ s, s ∈ sources ↔ s ∈ sources') :
    (selfCues sources w).weakestBasis = (selfCues sources' w).weakestBasis := by
  have hle {sources sources' : List SourceInput} (h : ∀ s, s ∈ sources ↔ s ∈ sources') :
      basisRank (selfCues sources w).weakestBasis ≤
        basisRank (selfCues sources' w).weakestBasis := by
    obtain ⟨-, hinit, hall⟩ := weakestBasis_foldl (w := w) sources .empty
    obtain ⟨hmem, -, -⟩ := weakestBasis_foldl (w := w) sources' .empty
    rcases hmem with heq | ⟨s, hs, heq⟩
    · rw [selfCues, selfCues, heq]
      exact hinit
    · rw [selfCues, selfCues, heq]
      exact hall s ((h s).mpr hs)
  exact basisRank_injective (le_antisymm (hle h) (hle fun s => (h s).symm))

/-- **Sources in any order and any number** give the same cues. -/
theorem extractCues_congr (h : ∀ s, s ∈ sources ↔ s ∈ sources') :
    SameCues (extractCues sources w) (extractCues sources' w) := by
  have hpairs := mem_absencePairs_congr h
  have hstopped : heartbeatStopped sources w = heartbeatStopped sources' w :=
    any_congr_mem hpairs _
  refine ⟨?_, ?_, ?_, ?_, ?_, ?_⟩
  · ext x
    rw [mem_present_iff, mem_present_iff, hstopped]
    simp only [h, hpairs]
  · ext channel
    rw [mem_observedChannels_iff, mem_observedChannels_iff]
    simp only [h]
  · rw [extractCues_eq, extractCues_eq]
    refine sortDedup_congr fun d => ?_
    rw [mem_evidence_iff, mem_evidence_iff, hstopped]
    simp only [h, hpairs]
  · rw [extractCues_eq, extractCues_eq, cuesOfSources_frame, cuesOfSources_frame sources']
    exact weakestBasis_congr h
  · rw [extractCues_eq, extractCues_eq, cuesOfSources_frame, cuesOfSources_frame sources']
    have hone : (F32.ofRat 1).isNan = false := by decide +kernel
    have hself (sources : List SourceInput) : (selfCues sources w).timeConfidenceMin =
        lowest (.ofRat 1) (windowConfidences sources w) := timeConfidenceMin_foldl sources .empty
    change SameNumber (selfCues sources w).timeConfidenceMin
      (selfCues sources' w).timeConfidenceMin
    rw [hself, hself]
    refine lowest_congr hone fun v => ?_
    unfold windowConfidences
    simp only [List.mem_flatMap, h]
  · rw [extractCues_eq, extractCues_eq, cuesOfSources_frame, cuesOfSources_frame sources']
    change (selfCues sources w).timeUntrusted = (selfCues sources' w).timeUntrusted
    rw [selfCues, selfCues, timeUntrusted_foldl, timeUntrusted_foldl, any_congr_mem h]

theorem evidence_sorted (sources : List SourceInput) (w : Window) :
    (extractCues sources w).evidence.Pairwise fun a b => a.toList ≤ b.toList ∧ a ≠ b := by
  rw [extractCues_eq]
  exact pairwise_sortDedup _

end Congr

/-! ## 8. Claims -/

section Claims

variable {c c' : CueSet}

/-- The match does not look at the least confidence, the one field in which two sets of cues with
the same members may differ. -/
theorem SameCues.matchSignatures (h : SameCues c c') (catalog : SignatureCatalog)
    (family : Family) : matchSignatures catalog family c = matchSignatures catalog family c' := by
  have hc : c' = { c with timeConfidenceMin := c'.timeConfidenceMin } := by
    cases c
    cases c'
    obtain ⟨rfl, rfl, rfl, rfl, -, rfl⟩ := h
    rfl
  rw [hc]
  rfl

/-- What a claim says of its cause: outcome, evidence, name and mark. -/
def CauseClaim.diagnosis (claim : CauseClaim) : CauseOutcome × List Digest × String × Mark :=
  (claim.outcome, claim.evidence, claim.claimId, claim.mark)

theorem SameCues.claimTokens (h : SameCues c c') (outcome : CauseOutcome) :
    claimTokens outcome c = claimTokens outcome c' := by
  unfold Reference.claimTokens
  rw [h.weakestBasis, h.timeUntrusted]

theorem buildClaim_congr {ε : Type} (sha256 : List UInt8 → Digest)
    {sources sources' : List SourceInput} (h : ∀ s, s ∈ sources ↔ s ∈ sources')
    (catalog : SignatureCatalog) (family : Family) (assetId : String)
    (triggerChannel : ChannelId) (absences : List NegativeObservation) (w : Window)
    (generatedAtMs : Int64) :
    CauseClaim.diagnosis <$> (buildClaim sha256 catalog sources family assetId triggerChannel
        absences w generatedAtMs : Checked ε CauseClaim) =
      CauseClaim.diagnosis <$> (buildClaim sha256 catalog sources' family assetId triggerChannel
        absences w generatedAtMs : Checked ε CauseClaim) := by
  have hcues : SameCues (extractCues sources w) (extractCues sources' w) := extractCues_congr h
  have htokens : claimTokens (matchSignatures catalog family (extractCues sources w))
      (extractCues sources w) =
      claimTokens (matchSignatures catalog family (extractCues sources' w))
        (extractCues sources' w) := by
    rw [hcues.matchSignatures, hcues.claimTokens]
  unfold buildClaim
  dsimp only
  rw [htokens]
  cases joinReasonTokens (claimTokens (matchSignatures catalog family (extractCues sources' w))
      (extractCues sources' w)) with
  | none => rfl
  | some reasonCode =>
    dsimp only
    rw [hcues.matchSignatures, hcues.evidence]
    rfl

end Claims

/-- **A diagnosis does not depend on how the sources are listed**: in whatever order they come and
however often, they have the same cues, and every claim that is built from them has the same
outcome, the same evidence, the same name and the same mark.  The evidence is in order, each
digest once.  `h` asks that the two lists have the same members, which covers permutations and
repetitions; catalog, trigger and absences are the same on both sides and otherwise arbitrary. -/
theorem diagnosis_unordered {ε : Type} (sha256 : List UInt8 → Digest)
    (sources sources' : List SourceInput) (h : ∀ s, s ∈ sources ↔ s ∈ sources') (w : Window) :
    SameCues (extractCues sources w) (extractCues sources' w) ∧
    (∀ catalog family assetId triggerChannel absences generatedAtMs,
      CauseClaim.diagnosis <$> (buildClaim sha256 catalog sources family assetId triggerChannel
          absences w generatedAtMs : Checked ε CauseClaim) =
        CauseClaim.diagnosis <$> (buildClaim sha256 catalog sources' family assetId
          triggerChannel absences w generatedAtMs : Checked ε CauseClaim)) ∧
    (extractCues sources w).evidence.Pairwise fun a b => a.toList ≤ b.toList ∧ a ≠ b :=
  ⟨extractCues_congr h, fun catalog family assetId triggerChannel absences generatedAtMs =>
    buildClaim_congr sha256 h catalog family assetId triggerChannel absences w generatedAtMs,
    evidence_sorted sources w⟩

/-! ## 9. Two sources -/

def heartbeatSource : SourceInput where
  profile := heartbeatProfile
  obs := [heartbeatAt 1000, heartbeatAt 2000]
  negatives := []
  alignment := ⟨.gpsLocked, none⟩

/-- The same recording from a handset. -/
def handsetSource : SourceInput :=
  { heartbeatSource with profile := { heartbeatProfile with sourceRole := .handset } }

/-- In another order, and one of them twice. -/
theorem handset_twice :
    SameCues (extractCues [heartbeatSource, handsetSource] ⟨0, 3000⟩)
      (extractCues [handsetSource, heartbeatSource, handsetSource] ⟨0, 3000⟩) :=
  (diagnosis_unordered (ε := Empty) Sha256.hash [heartbeatSource, handsetSource]
    [handsetSource, heartbeatSource, handsetSource] (fun s => by
      simp only [List.mem_cons, List.not_mem_nil, or_false]
      tauto) ⟨0, 3000⟩).1

end Musubi.Reference
