/-
# The channels of the cues

The channels that `extract_cues` calls observed are those that the profiles declare; the cues come
from absences and from observations, and an event is also read off the remote control, the texts
and the boot clock.  So a cue can be on a channel that no profile declares, and is not on one
exactly when no source gives cause for a cue on such a channel.

The extraction has many places that add a cue, and each is turned into a condition on the
observations of a source: an event in the window, statistics of a link before it that are bad,
satellites that are lost (sections 2 to 4).  `Shows` collects them, channel by channel, and
`CuesDeclared` asks that whatever a source shows, some profile declares.

Since the channels of ALL profiles count as observed, one source may show what the profile of
another declares.  Section 6 has the case that the code does not expect: the remote control
reports a failsafe, which is a cue on the channel of events, and no profile declares events.
-/
import Musubi.Reference.CueSources

namespace Musubi.Reference

open Lib

/-! ## 1. Absences -/

/-- Channels whose absence is a cue. -/
def absenceChannels : List ChannelId := [.heartbeat, .linkStats, .rc, .video, .onboard]

/-- The absence overlaps the window and starts where the window starts, on a channel whose
absence is a cue. -/
def AbsenceCounts (w : Window) (s : SourceInput) (n : NegativeObservation) : Prop :=
  ∃ since by_, negWall n s.alignment (isHostAxis s.profile.defaultClockBasis) =
      some (since, by_) ∧
    (since < w.endMs ∧ w.startMs < by_) ∧ ¬ onsetToleranceMs < (since - w.startMs).abs ∧
    n.subject.channel ∈ absenceChannels

theorem absenceCue_isSome_iff (s : SourceInput) (since : Int64) (channel : ChannelId) :
    (absenceCue s since channel).isSome = true ↔ channel ∈ absenceChannels := by
  cases channel with
  | onboard =>
    unfold absenceCue
    dsimp only
    split
    · simp [absenceChannels]
    · simp [absenceChannels]
  | _ => simp [absenceCue, absenceChannels]

theorem absenceId_isSome_iff {w : Window} {s : SourceInput} {n : NegativeObservation} :
    (absenceId w s n).isSome = true ↔ AbsenceCounts w s n := by
  unfold absenceId AbsenceCounts
  cases negWall n s.alignment (isHostAxis s.profile.defaultClockBasis) with
  | none => simp
  | some times =>
    obtain ⟨since, by_⟩ := times
    dsimp only
    constructor
    · intro h
      split at h
      · cases h
      · rename_i hoverlap
        split at h
        · cases h
        · rename_i honset
          exact ⟨since, by_, rfl, not_not.mp hoverlap, honset,
            (absenceCue_isSome_iff s since _).mp h⟩
    · rintro ⟨since', by_', htimes, hoverlap, honset, hchannel⟩
      cases htimes
      rw [if_neg (not_not_intro hoverlap), if_neg honset]
      exact (absenceCue_isSome_iff s since _).mpr hchannel

/-! ## 2. Cues of a chain -/

theorem mem_present_addIf {x : ChannelId × String} {condition : Bool} {channel : ChannelId}
    {id : String} {ev : List Observation} {c : CueSet} :
    x ∈ (c.addIf condition channel id ev).present ↔
      x ∈ c.present ∨ condition = true ∧ x = (channel, id) := by
  cases condition with
  | false => simp [CueSet.addIf]
  | true => simp [CueSet.addIf, CueSet.add, or_comm]

/-- The cues have one on the channel. -/
def CueSet.HasOn (c : CueSet) (channel : ChannelId) : Prop := ∃ id, (channel, id) ∈ c.present

theorem hasOn_empty (channel : ChannelId) : ¬ CueSet.empty.HasOn channel := by
  rintro ⟨id, h⟩
  exact absurd h (Finset.notMem_empty _)

theorem hasOn_addIf {condition : Bool} {channel on : ChannelId} {id : String}
    {ev : List Observation} {c : CueSet} :
    (c.addIf condition on id ev).HasOn channel ↔
      c.HasOn channel ∨ condition = true ∧ channel = on := by
  unfold CueSet.HasOn
  simp only [mem_present_addIf, Prod.mk.injEq, exists_or, exists_and_left]
  simp

theorem hasOn_add {channel on : ChannelId} {id : String} {ev : List Observation} {c : CueSet} :
    (c.add on id ev).HasOn channel ↔ c.HasOn channel ∨ channel = on := by
  have h := @hasOn_addIf true channel on id ev c
  simpa [CueSet.addIf] using h

theorem hasOn_withFound {channel : ChannelId} {c found : CueSet} :
    (c.withFound found).HasOn channel ↔ c.HasOn channel ∨ found.HasOn channel := by
  unfold CueSet.HasOn CueSet.withFound
  simp only [Finset.mem_union, exists_or]

theorem Additive.hasOn {step : CueSet → CueSet} (h : Additive step) {channel : ChannelId}
    (c : CueSet) : (step c).HasOn channel ↔ c.HasOn channel ∨ (step .empty).HasOn channel := by
  rw [h c, hasOn_withFound]

/-! ## 3. What a source shows -/

/-- Channels that go on are cues. -/
def aliveChannels : List ChannelId := [.heartbeat, .rc, .video, .onboard, .linkStats]

/-- Link statistics before the window that are bad, or at least three of them. -/
def ShowsPrelude (w : Window) (s : SourceInput) : Prop :=
  let pre := s.obs.filter fun o =>
    o.channel = .linkStats && !o.stale && inWindow ⟨w.startMs - 15000, w.startMs⟩ o
  pre ≠ [] ∧ (linkQualityDegraded pre = true ∨ 3 ≤ pre.length)

def isGpsGlitch (o : Observation) : Bool :=
  textHas "GPS Glitch" o || numIs o "ERR.Subsys" (equals 11)

def isWatchdog (o : Observation) : Bool := textHas "WDG" o || textHas "atchdog" o

/-- The flag of the estimator that says that the satellites glitch. -/
def hasGlitchFlag (o : Observation) : Bool :=
  numIs o "EKF_STATUS_REPORT.flags" fun v => (v.asU32 &&& 32768) != 0

/-- An event or a record of the remote control that tells of a failsafe, a glitch or a watchdog,
a record with the glitch flag, or a boot clock that goes back. -/
def ShowsEvent (inW : List Observation) : Prop :=
  let ev := inW.filter fun o => o.channel = .event || o.channel = .rc
  (∃ o ∈ ev, isRcFailsafe o = true) ∨ (∃ o ∈ ev, isGcsFailsafe o = true) ∨
    (∃ o ∈ ev, modeReason [25] o = true) ∨ (∃ o ∈ ev, isEkfFailsafe o = true) ∨
    (∃ o ∈ ev, isGpsGlitch o = true) ∨ (∃ o ∈ ev, isWatchdog o = true) ∨
    (∃ o ∈ inW, hasGlitchFlag o = true) ∨ rewinds inW = true

theorem filter_isEmpty_eq_false_iff {α : Type} {p : α → Bool} {l : List α} :
    (l.filter p).isEmpty = false ↔ ∃ a ∈ l, p a = true := by
  rw [← Bool.not_eq_true, List.isEmpty_iff, List.filter_eq_nil_iff]
  simp only [not_forall, not_not, exists_prop]

theorem hasOn_aliveCues {w : Window} {heartbeatStop : Bool} {s : SourceInput}
    {inW : List Observation} {channel : ChannelId} :
    (aliveCues w heartbeatStop s inW .empty).HasOn channel ↔
      channel ∈ aliveChannels ∧ isAlive w inW channel = true := by
  simp only [aliveCues, hasOn_addIf, hasOn_empty, false_or, Bool.and_eq_true, aliveChannels,
    List.mem_cons, List.not_mem_nil, or_false]
  constructor
  · rintro ((((((⟨h, rfl⟩ | ⟨h, rfl⟩) | ⟨h, rfl⟩) | ⟨h, rfl⟩) | ⟨h, rfl⟩) | ⟨⟨h, -⟩, rfl⟩) |
      ⟨⟨⟨h, -⟩, -⟩, rfl⟩)
    all_goals exact ⟨by simp, h⟩
  · rintro ⟨rfl | rfl | rfl | rfl | rfl, h⟩
    all_goals simp [h]

theorem hasOn_preludeCues {w : Window} {s : SourceInput} {channel : ChannelId} :
    (preludeCues w s .empty).HasOn channel ↔ ShowsPrelude w s ∧ channel = .linkStats := by
  unfold preludeCues ShowsPrelude
  dsimp only
  split
  · rename_i hnone
    rw [List.isEmpty_iff] at hnone
    exact iff_of_false (hasOn_empty channel) fun h => h.1.1 hnone
  · rename_i hsome
    rw [List.isEmpty_iff] at hsome
    split
    · rename_i hdegraded
      rw [hasOn_add]
      exact ⟨fun h => ⟨⟨hsome, Or.inl hdegraded⟩, h.resolve_left (hasOn_empty channel)⟩,
        fun h => Or.inr h.2⟩
    · rename_i hdegraded
      rw [hasOn_addIf, decide_eq_true_iff, iff_false_intro hdegraded, false_or]
      constructor
      · rintro (h | ⟨hlength, rfl⟩)
        · exact absurd h (hasOn_empty channel)
        · exact ⟨⟨hsome, hlength⟩, rfl⟩
      · rintro ⟨⟨-, hlength⟩, rfl⟩
        exact Or.inr ⟨hlength, rfl⟩

theorem hasOn_eventCues {inW : List Observation} {channel : ChannelId} :
    (eventCues inW .empty).HasOn channel ↔ ShowsEvent inW ∧ channel = .event := by
  unfold ShowsEvent eventCues
  simp only [hasOn_addIf, hasOn_empty, false_or, ← filter_isEmpty_eq_false_iff, Bool.or_eq_true,
    Bool.and_eq_true, Bool.not_eq_true', ← or_and_right]
  refine and_congr_left fun _ => ?_
  -- the mode of a rover is of one failsafe if there is no other
  rw [← Bool.not_eq_false, ← Bool.not_eq_false]
  unfold isGpsGlitch isWatchdog hasGlitchFlag
  tauto

/-! ## 4. What the satellites show -/

/-- Few satellites in the window, and many before it. -/
def satsDrop (w b : List Observation) : Bool :=
  !(gpsPick w satsFields).isEmpty && !(gpsPick b satsFields).isEmpty &&
    ((gpsPick w satsFields).foldl F64.min (.infinity false)).le (.ofRat 6) &&
    atLeast 10 ((gpsPick b satsFields).foldl F64.max (.infinity true))

def fixDrop (w : List Observation) : Bool :=
  !(gpsPick w fixFields).isEmpty &&
    ((gpsPick w fixFields).foldl F64.min (.infinity false)).lt (.ofRat 3)

/-- A fix, no fewer than ten satellites where they are counted, and no unknown number. -/
def fixGood (w : List Observation) : Bool :=
  !(gpsPick w fixFields).isEmpty &&
    ((gpsPick w satsFields).isEmpty ||
      atLeast 10 ((gpsPick w satsFields).foldl F64.min (.infinity false))) &&
    !w.any fun o => numIs o "GPS_RAW_INT.satellites_visible" (equals 255) ||
      numIs o "GPS_RAW_INT.fix_type" fun v => !isFixType v

def hdopRise (o : Observation) : Bool :=
  numIs o "GPS.HDop" (atLeast 200) ||
    numIs o "GPS_RAW_INT.eph" (fun v => atLeast 200 v && !equals 65535 v) ||
    numIs o "sensor_gps.hdop" (atLeast 2) || numIs o "GPS_hdop" (atLeast 2)

def varianceRise (o : Observation) : Bool :=
  numIs o "XKF4.SP" (atLeast 100) ||
    numIs o "EKF_STATUS_REPORT.pos_horiz_variance" (atLeast 1) ||
    numIs o "estimator_status.pos_test_ratio" (atLeast 1)

def jamRise (o : Observation) : Bool :=
  numIs o "UBX1.jamInd" (atLeast 80) || numIs o "sensor_gps.jamming_indicator" (atLeast 80) ||
    numIs o "sensor_gps.jamming_state" (equals 3)

def positionReset (o : Observation) : Bool :=
  numIs o "XKF4.OFN" (fun v => (F64.ofRat (1 / 2)).lt v.abs) ||
    numIs o "estimator_status.reset_count_pos_ne" isPositive

def ShowsGps (w b : List Observation) : Prop :=
  satsDrop w b = true ∨ fixDrop w = true ∨ fixGood w = true ∨
    (∃ o ∈ w, hdopRise o = true) ∨ (∃ o ∈ w, varianceRise o = true) ∨
    (∃ o ∈ w, jamRise o = true) ∨ (∃ o ∈ w, positionReset o = true) ∨
    jumps (latitudes (b ++ w)) = true

theorem gpsCues_eq (w b : List Observation) (c : CueSet) :
    gpsCues w b c =
      (c |> .addIf (satsDrop w b) .gpsEkf "gps_sats_drop" w
        |> .addIf (fixDrop w) .gpsEkf "gps_fix_drop" w
        |> .addIf (!fixDrop w && fixGood w) .gpsEkf "gps_fix_good" w
        |> .addIf (w.any hdopRise) .gpsEkf "gps_hdop_rise" w
        |> .addIf (w.any varianceRise) .gpsEkf "ekf_variance_rise" w
        |> .addIf (w.any jamRise) .gpsEkf "jam_indicator_rise" w
        |> .addIf (w.any positionReset) .gpsEkf "ekf_position_reset" w
        |> .addIf (jumps (latitudes (b ++ w))) .gpsEkf "position_jump" w) := rfl

theorem hasOn_gpsCues {w b : List Observation} {channel : ChannelId} :
    (gpsCues w b .empty).HasOn channel ↔ ShowsGps w b ∧ channel = .gpsEkf := by
  unfold ShowsGps
  rw [gpsCues_eq]
  simp only [hasOn_addIf, hasOn_empty, false_or, Bool.and_eq_true, Bool.not_eq_true',
    List.any_eq_true, ← or_and_right]
  refine and_congr_left fun _ => ?_
  -- a fix that does not drop can be good
  have hfix : (satsDrop w b = true ∨ fixDrop w = true) ∨ fixDrop w = false ∧ fixGood w = true ↔
      satsDrop w b = true ∨ fixDrop w = true ∨ fixGood w = true := by
    rw [← Bool.not_eq_true]
    tauto
  rw [hfix]
  simp only [or_assoc]

/-! ## 5. When every cue is on a channel that is observed -/

section Observed

variable {sources : List SourceInput} {w : Window} {channel : ChannelId}

/-- The source gives cause for a cue on the channel: a channel that is alive in the window, a link
that was bad before it, an event in it, or satellites that are lost. -/
def Shows (w : Window) (s : SourceInput) (channel : ChannelId) : Prop :=
  let inW := s.obs.filter (inWindow w)
  (channel ∈ aliveChannels ∧ isAlive w inW channel = true) ∨
  (ShowsPrelude w s ∧ channel = .linkStats) ∨
  (ShowsEvent inW ∧ channel = .event) ∨
  (ShowsGps (inW.filter fun o => o.channel = .gpsEkf)
    (s.obs.filter fun o => o.channel = .gpsEkf && inWindow ⟨w.startMs - 30000, w.startMs⟩ o) ∧
    channel = .gpsEkf)

/-- Wherever a source gives cause for a cue, a profile declares the channel, be it the profile of
this source or of another one. -/
def CuesDeclared (sources : List SourceInput) (w : Window) : Prop :=
  (∀ s ∈ sources, ∀ n ∈ s.negatives, AbsenceCounts w s n →
    ∃ t ∈ sources, n.subject.channel ∈ t.profile.channels) ∧
  ∀ s ∈ sources, ∀ channel, Shows w s channel → ∃ t ∈ sources, channel ∈ t.profile.channels

theorem hasOn_observedFound {heartbeatStop : Bool} {s : SourceInput} :
    (observedFound w heartbeatStop s).HasOn channel ↔ Shows w s channel := by
  unfold observedFound observedCues Shows
  dsimp only
  rw [(additive_gpsCues _ _).hasOn, (additive_eventCues _).hasOn, (additive_preludeCues w s).hasOn,
    hasOn_aliveCues, hasOn_preludeCues, hasOn_eventCues, hasOn_gpsCues, or_assoc, or_assoc]

theorem hasOn_absenceFound {s : SourceInput} {n : NegativeObservation} :
    (absenceFound w s n).HasOn channel ↔ AbsenceCounts w s n ∧ channel = n.subject.channel := by
  rw [← absenceId_isSome_iff]
  unfold absenceFound
  cases absenceId w s n with
  | none => exact iff_of_false (hasOn_empty channel) fun h => nomatch h.1
  | some id =>
    dsimp only
    rw [hasOn_add, hasOn_addIf, decide_eq_true_iff]
    constructor
    · rintro ((h | ⟨⟨h, -⟩, rfl⟩) | rfl)
      · exact absurd h (hasOn_empty channel)
      · exact ⟨rfl, h.symm⟩
      · exact ⟨rfl, rfl⟩
    · rintro ⟨-, rfl⟩
      exact Or.inr rfl

theorem hasOn_extractCues : (extractCues sources w).HasOn channel ↔
    (∃ s ∈ sources, ∃ n ∈ s.negatives, AbsenceCounts w s n ∧ channel = n.subject.channel) ∨
      ∃ s ∈ sources, Shows w s channel := by
  have hsources : (∃ id, ∃ s ∈ sources,
      (channel, id) ∈ (observedFound w (heartbeatStopped sources w) s).present) ↔
      ∃ s ∈ sources, Shows w s channel := by
    constructor
    · rintro ⟨id, s, hs, h⟩
      exact ⟨s, hs, hasOn_observedFound.mp ⟨id, h⟩⟩
    · rintro ⟨s, hs, h⟩
      obtain ⟨id, h⟩ := hasOn_observedFound.mpr h
      exact ⟨id, s, hs, h⟩
  have habsences : (∃ id, ∃ p ∈ absencePairs sources,
      (channel, id) ∈ (absenceFound w p.1 p.2).present) ↔
      ∃ s ∈ sources, ∃ n ∈ s.negatives, AbsenceCounts w s n ∧ channel = n.subject.channel := by
    constructor
    · rintro ⟨id, p, hp, h⟩
      obtain ⟨s, hs, hp⟩ := List.mem_flatMap.mp hp
      obtain ⟨n, hn, rfl⟩ := List.mem_map.mp hp
      exact ⟨s, hs, n, hn, hasOn_absenceFound.mp ⟨id, h⟩⟩
    · rintro ⟨s, hs, n, hn, h⟩
      obtain ⟨id, h⟩ := hasOn_absenceFound.mpr h
      exact ⟨id, (s, n), List.mem_flatMap.mpr ⟨s, hs, List.mem_map.mpr ⟨n, hn, rfl⟩⟩, h⟩
  rw [← hsources, ← habsences, ← exists_or]
  exact exists_congr fun id => mem_present_iff

/-- **A cue is on an observed channel**, each of them, exactly when the profiles declare every
channel that the sources give cause for.  The condition is on the sources and the window alone;
`Shows` reads the observations and not the cues that were made of them. -/
theorem cues_observed_iff (sources : List SourceInput) (w : Window) :
    (∀ cue ∈ (extractCues sources w).present,
      cue.1 ∈ (extractCues sources w).observedChannels) ↔ CuesDeclared sources w := by
  have hon : (∀ cue ∈ (extractCues sources w).present,
      cue.1 ∈ (extractCues sources w).observedChannels) ↔
      ∀ channel, (extractCues sources w).HasOn channel →
        ∃ t ∈ sources, channel ∈ t.profile.channels := by
    constructor
    · rintro h channel ⟨id, hid⟩
      exact mem_observedChannels_iff.mp (h (channel, id) hid)
    · rintro h ⟨channel, id⟩ hid
      exact mem_observedChannels_iff.mpr (h channel ⟨id, hid⟩)
  rw [hon]
  constructor
  · intro h
    refine ⟨fun s hs n hn hcounts => ?_, fun s hs channel hshows => ?_⟩
    · exact h _ (hasOn_extractCues.mpr (Or.inl ⟨s, hs, n, hn, hcounts, rfl⟩))
    · exact h channel (hasOn_extractCues.mpr (Or.inr ⟨s, hs, hshows⟩))
  · rintro ⟨habsences, hshows⟩ channel hchannel
    rcases hasOn_extractCues.mp hchannel with ⟨s, hs, n, hn, hcounts, rfl⟩ | ⟨s, hs, h⟩
    · exact habsences s hs n hn hcounts
    · exact hshows s hs channel h

end Observed

/-! ## 6. A failsafe that the remote control reports -/

/-- `betaflight-raw-main`: no event channel, and the phase of the failsafe among the columns that
the remote control is read from. -/
def rawMainProfile : FamilyProfile where
  profileId := "betaflight_4_2_native_csv_main"
  version := "1"
  family := .fpv
  sourceRole := .fc
  format := "blackbox_decoded_csv"
  extensions := ["csv"]
  fields := ⟨"time", ["rxSignalReceived", "rxFlightChannelsValid", "failsafePhase"], ["rssi"], [],
    [], []⟩
  fieldUnits := .ofList [("time", "us"), ("vbatLatest", "cV"), ("amperageLatest", "cA"),
    ("BaroAlt", "cm")]
  channels := [.onboard, .rc, .linkStats]
  expectations := []
  defaultClockBasis := .bootRelative
  declaredPlatformDomain := none
  declaredSender := none
  declaredClockRate := none
  origin := "recorded"

/-- The receiver has lost its signal, two seconds after the boot. -/
def lostSignal : Observation where
  tMs := 2000
  clockBasis := .bootRelativeOffsetEstimated
  timeConfidence := .ofRat (55 / 100)
  sourceRole := .fc
  channel := .rc
  fields := [("rxSignalReceived", .i64 0), ("rxFlightChannelsValid", .i64 0),
    ("failsafePhase", .i64 1)]
  stale := true
  digest := Sha256.hash []
  tBootUs := some 2000000
  anchorUnixUs := none
  wallMs := some 2000

def rawMainSource : SourceInput where
  profile := rawMainProfile
  obs := [lostSignal]
  negatives := []
  alignment := ⟨.bootRelativeOffsetEstimated, some ⟨0, 1, .crossLogEvent, 1, false⟩⟩

/-- The failsafe is a cue on the event channel, which no profile declares. -/
theorem event_not_observed :
    ¬ ∀ cue ∈ (extractCues [rawMainSource] ⟨0, 60000⟩).present,
      cue.1 ∈ (extractCues [rawMainSource] ⟨0, 60000⟩).observedChannels := by
  intro h
  have hpresent : (ChannelId.event, "rc_failsafe_event") ∈
      (extractCues [rawMainSource] ⟨0, 60000⟩).present := by decide +kernel
  have hobserved : ChannelId.event ∉
      (extractCues [rawMainSource] ⟨0, 60000⟩).observedChannels := by decide +kernel
  exact hobserved (h _ hpresent)

end Musubi.Reference
