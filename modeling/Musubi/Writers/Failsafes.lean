/-
# Failsafes in a written recording

`reference-writers/src/ulog.rs` and the cues of `reference-readers/src/cause.rs` together: what
the observations of a recording say of failsafes.  A ULog recording has no message for a change of
the mode or for the loss of the remote control; what the vehicle has last said of them is repeated
with every heartbeat.  So a failsafe is seen at the heartbeats after it, as long as nothing else
has been said, and at the texts that name one (`failsafes_read_back`).

Three chains meet: events are written as data and texts, data and texts are read as observations,
and observations are asked for failsafes.  `Says` is the answer of one observation to the three
questions, `Tell` that of a list of them, and both compose, so that the questions are answered
topic by topic: of the topics two speak of failsafes, and of texts those in which one of a few
phrases occurs.

What the writer keeps is a fold over the events before, and `foldl_next` says what it holds: the
last reason for a mode and the last signal of the remote control.  A text may say anything, and
the phrases are searched for in it as they stand.  The only other texts in an observation are
those that a float is reported as that is not finite, and no phrase occurs in one of them
(`Foreign`).
-/
import Musubi.Lib.Substr
import Musubi.Reference.Cause
import Musubi.Writers.UlogReadBack

namespace Musubi.Writers.Ulog

open Lib Lib.Checked Musubi.Core Reference Scenario
open Reference.Ulog (DataRecord Field ReadReport loggedObservation)

/-! ## 1. Texts -/

/-- What a number that is not finite is reported with. -/
def nonfiniteChars : List Char := "nonfinite_float:x0123456789abcdef".toList

/-- A text that no such report has in it. -/
def Foreign (needle : String) : Prop := ∃ c ∈ needle.toList, c ∉ nonfiniteChars

instance : DecidablePred Foreign := fun needle =>
  List.decidableBEx (· ∉ nonfiniteChars) needle.toList

theorem mem_nonfiniteChars_of_reading {v : Value} {text : String} (h : v.reading = .text text) :
    ∀ c ∈ text.toList, c ∈ nonfiniteChars := by
  have hdigits : ∀ n < 16, Nat.digitChar n ∈ nonfiniteChars := by decide
  have hhex (bytes : List UInt8) : ∀ c ∈ (hexLower bytes).toList, c ∈ nonfiniteChars := by
    intro c hc
    obtain ⟨n, hn, rfl⟩ := exists_of_mem_hexLower hc
    exact hdigits n hn
  cases v with
  | f32 v =>
    rw [Value.reading, FieldValue.float32Bits] at h
    split at h
    · cases h
    · obtain rfl := FieldValue.text.inj h
      rw [String.toList_append, List.forall_mem_append]
      exact ⟨List.all_iff_forall_prop.mp (by decide), hhex _⟩
  | f64 v =>
    rw [Value.reading, FieldValue.float64Bits] at h
    split at h
    · cases h
    · obtain rfl := FieldValue.text.inj h
      rw [String.toList_append, List.forall_mem_append]
      exact ⟨List.all_iff_forall_prop.mp (by decide), hhex _⟩
  | _ => cases h

/-- An observation of values. -/
def OfValues (o : Observation) : Prop := ∀ entry ∈ o.fields, ∃ v : Value, entry.2 = v.reading

theorem textHas_of_foreign {needle : String} (hneedle : Foreign needle) {o : Observation}
    (h : OfValues o) : textHas needle o = false := by
  rw [textHas, List.any_eq_false]
  intro entry hentry
  obtain ⟨v, hv⟩ := h entry hentry
  obtain ⟨c, hc, hforeign⟩ := hneedle
  cases htext : entry.2 with
  | text text =>
    have hchars := mem_nonfiniteChars_of_reading (hv ▸ htext)
    have hnot : ¬ needle.toList <:+: text.toList :=
      fun hneedleIn => hforeign (hchars c (hneedleIn.subset hc))
    dsimp only
    rw [contains_eq_false_iff.mpr hnot]
    exact Bool.false_ne_true
  | _ => exact Bool.false_ne_true

/-! ## 2. Numbers -/

theorem num_of_notMem {o : Observation} {name : String} (h : name ∉ o.fields.map Prod.fst) :
    num o name = none := by
  have hfield : field o name = none := by
    rw [field, List.find?_eq_none.mpr]
    · rfl
    · intro entry hentry hname
      exact h (of_decide_eq_true hname ▸ List.mem_map_of_mem hentry)
  rw [num, hfield]
  rfl

theorem numIs_of_notMem {o : Observation} {name : String} (h : name ∉ o.fields.map Prod.fst)
    (p : F64 → Bool) : numIs o name p = false := by
  rw [numIs, num_of_notMem h]
  rfl

theorem num_of_mem {o : Observation} {name : String} {v : FieldValue}
    (hnodup : (o.fields.map Prod.fst).Nodup) (h : (name, v) ∈ o.fields) :
    num o name = v.asF64 := by
  have hfield : field o name = some v := by
    have hsome : (o.fields.find? fun entry => entry.1 = name).isSome = true :=
      List.find?_isSome.mpr ⟨_, h, decide_eq_true rfl⟩
    obtain ⟨entry, hentry⟩ := Option.isSome_iff_exists.mp hsome
    have hname : entry.1 = name := of_decide_eq_true
      (List.find?_some (p := fun entry : String × FieldValue => decide (entry.1 = name)) hentry)
    obtain rfl : entry = (name, v) :=
      List.inj_on_of_nodup_map hnodup (List.mem_of_find?_eq_some hentry) h hname
    rw [field, hentry]
    rfl
  rw [num, hfield]
  rfl

/-- A truth value is positive when it is true. -/
theorem isPositive_bool (b : Bool) : (Value.bool b).reading.asF64.any isPositive = b := by
  cases b <;> decide +kernel

/-! ## 3. Silent observations -/

/-- The texts that speak of a failsafe, or of its end. -/
def failsafeTexts : List String :=
  ["Cleared", "restored", "Failsafe", "failsafe", "FAILSAFE", "GPS Glitch", "EKF", "WDG", "atchdog",
    "Radio Failsafe", "RC Short Failsafe", "RC Long Failsafe", "RC LINK LOST", "GCS Failsafe"]

theorem foreign_failsafeTexts : ∀ needle ∈ failsafeTexts, Foreign needle := by decide

/-- What an observation says: of the ground station, of the remote control, and whether it starts
a window. -/
structure Says (o : Observation) (gcs rc trigger : Prop) : Prop where
  gcs : isGcsFailsafe o = true ↔ gcs
  rc : isRcFailsafe o = true ↔ rc
  trigger : isEventTrigger o = true ↔ trigger

theorem mem_failsafeTexts {needle : String} {o : Observation} (h : OfValues o)
    (hmem : needle ∈ failsafeTexts) : textHas needle o = false :=
  textHas_of_foreign (foreign_failsafeTexts needle hmem) h

/-- What the numbers of an observation of values say. -/
theorem says_of_values {o : Observation} (h : OfValues o)
    (hmode : "MODE.Rsn" ∉ o.fields.map Prod.fst) (herr : "ERR.Subsys" ∉ o.fields.map Prod.fst)
    (hphase : "failsafePhase" ∉ o.fields.map Prod.fst) :
    Says o
      (numIs o "failsafe_flags.gcs_connection_lost" isPositive = true ∨
        numIs o "vehicle_status.gcs_connection_lost" isPositive = true)
      (numIs o "failsafe_flags.manual_control_signal_lost" isPositive = true)
      ((o.channel = .event ∨ o.channel = .rc) ∧
        (numIs o "failsafe_flags.manual_control_signal_lost" isPositive = true ∨
          numIs o "failsafe_flags.gcs_connection_lost" isPositive = true ∨
          numIs o "failsafe_flags.gnss_lost" isPositive = true ∨
          numIs o "vehicle_status.failsafe" isPositive = true)) := by
  have htext (needle : String) (hmem : needle ∈ failsafeTexts) : textHas needle o = false :=
    mem_failsafeTexts h hmem
  have hreason (reasons : List ℚ) : modeReason reasons o = false := numIs_of_notMem hmode _
  simp only [failsafeTexts, List.forall_mem_cons] at htext
  obtain ⟨h1, h2, h3, h4, h5, h6, h7, h8, h9, h10, h11, h12, h13, h14, -⟩ := htext
  refine ⟨?_, ?_, ?_⟩
  · simp [isGcsFailsafe, h14, hreason]
  · simp [isRcFailsafe, h10, h11, h12, h13, hreason, numIs_of_notMem hphase]
  · simp [isEventTrigger, h1, h2, h3, h4, h5, h6, h7, h8, h9, hreason, numIs_of_notMem hphase,
      numIs_of_notMem hmode, num_of_notMem herr]

/-! ## 4. What data say -/

theorem exists_of_mem_topicKeys {name key : String} {fields : List Field}
    (h : key ∈ topicKeys name fields) : name.toList ++ ['.'] <+: key.toList := by
  obtain ⟨f, -, h⟩ := List.mem_flatMap.mp h
  obtain ⟨i, -, rfl⟩ := List.mem_map.mp h
  have hdot : (".": String).toList = ['.'] := rfl
  rw [elementKey]
  split
  · rw [String.toList_append, String.toList_append, hdot]
    exact List.prefix_append _ _
  · simp only [String.toList_append, hdot, List.append_assoc]
    rw [← List.append_assoc]
    exact List.prefix_append _ _

section Data

variable {d : Data} {o : Observation}

theorem ofValues_fields (ho : ∀ entry ∈ o.fields, entry ∈ d.fields) : OfValues o := by
  intro entry hentry
  obtain ⟨pair, -, rfl⟩ := List.mem_map.mp (ho entry hentry)
  exact ⟨pair.2, rfl⟩

/-- A field of another topic is not among those of the data. -/
theorem notMem_fields (h : d.Typed) (ho : ∀ entry ∈ o.fields, entry ∈ d.fields) {name : String}
    (hname : ¬ d.topic.1.toList ++ ['.'] <+: name.toList) : name ∉ o.fields.map Prod.fst := by
  intro hmem
  obtain ⟨entry, hentry, rfl⟩ := List.mem_map.mp hmem
  have hkey : entry.1 ∈ d.fields.map Prod.fst := List.mem_map_of_mem (ho entry hentry)
  rw [h.keys] at hkey
  exact hname (exists_of_mem_topicKeys hkey)

theorem topic_mem (h : d.Typed) : d.topic ∈ topics := by
  rw [Data.topic, List.getD_eq_getElem?_getD, List.getElem?_eq_getElem h.known, Option.getD_some]
  exact List.getElem_mem h.known

/-- No topic has the fields of another format. -/
theorem says_of_data (h : d.Typed) (ho : ∀ entry ∈ o.fields, entry ∈ d.fields) :
    Says o
      (numIs o "failsafe_flags.gcs_connection_lost" isPositive = true ∨
        numIs o "vehicle_status.gcs_connection_lost" isPositive = true)
      (numIs o "failsafe_flags.manual_control_signal_lost" isPositive = true)
      ((o.channel = .event ∨ o.channel = .rc) ∧
        (numIs o "failsafe_flags.manual_control_signal_lost" isPositive = true ∨
          numIs o "failsafe_flags.gcs_connection_lost" isPositive = true ∨
          numIs o "failsafe_flags.gnss_lost" isPositive = true ∨
          numIs o "vehicle_status.failsafe" isPositive = true)) := by
  have hforeign : ∀ topic ∈ topics, ∀ name ∈ ["MODE.Rsn", "ERR.Subsys", "failsafePhase"],
      ¬ topic.1.toList ++ ['.'] <+: name.toList := by decide
  have habsent (name : String) (hname : name ∈ ["MODE.Rsn", "ERR.Subsys", "failsafePhase"]) :
      name ∉ o.fields.map Prod.fst :=
    notMem_fields h ho (hforeign d.topic (topic_mem h) name hname)
  exact says_of_values (ofValues_fields ho) (habsent _ (by decide)) (habsent _ (by decide))
    (habsent _ (by decide))

/-- **Of the topics, two speak of failsafes.** -/
theorem says_nothing (h : d.Typed) (ho : ∀ entry ∈ o.fields, entry ∈ d.fields)
    (hstatus : d.topic.1 ≠ "vehicle_status") (hflags : d.topic.1 ≠ "failsafe_flags") :
    Says o False False False := by
  have hforeign : ∀ topic ∈ topics, topic.1 ≠ "vehicle_status" → topic.1 ≠ "failsafe_flags" →
      ∀ name ∈ ["failsafe_flags.manual_control_signal_lost", "failsafe_flags.gcs_connection_lost",
        "failsafe_flags.gnss_lost", "vehicle_status.failsafe",
        "vehicle_status.gcs_connection_lost"], ¬ topic.1.toList ++ ['.'] <+: name.toList := by
    decide
  have habsent := hforeign d.topic (topic_mem h) hstatus hflags
  simp only [List.forall_mem_cons] at habsent
  obtain ⟨h1, h2, h3, h4, h5, -⟩ := habsent
  have hnum {name : String} (hname : ¬ d.topic.1.toList ++ ['.'] <+: name.toList) :
      numIs o name isPositive = false := numIs_of_notMem (notMem_fields h ho hname) _
  have hwhen := says_of_data h ho
  simpa only [hnum h1, hnum h2, hnum h3, hnum h4, hnum h5, Bool.false_eq_true, or_self,
    and_false] using hwhen

/-- The truth value of a field. -/
theorem numIs_fields (h : d.Typed) (ho : o.fields = d.fields) {name : String} {b : Bool} (i : ℕ)
    (hkey : (topicKeys d.topic.1 (fieldsOf d.topic.2.toList))[i]? = some name)
    (hvalue : d.all[i]? = some (.bool b)) : numIs o name isPositive = b := by
  have hnodup : (o.fields.map Prod.fst).Nodup := by
    rw [ho, h.keys]
    exact h.sound.distinct
  have hmem : (name, (Value.bool b).reading) ∈ o.fields := by
    rw [ho, Data.fields, keyed]
    exact List.mem_map.mpr ⟨(name, .bool b),
      List.mem_of_getElem? (List.getElem?_zip_eq_some.mpr ⟨hkey, hvalue⟩), rfl⟩
  rw [numIs, num_of_mem hnodup hmem, isPositive_bool]

/-- A heartbeat repeats whether the ground station is lost, and whether there is a failsafe. -/
theorem says_vehicleStatus (t : UInt64) (s : State)
    (ho : o.fields = (vehicleStatusData t s).fields) (hchannel : o.channel = .event) :
    Says o (s.gcsLost = true) False (s.failsafe = true) := by
  have h : (vehicleStatusData t s).Typed :=
    ⟨(by decide : vehicleStatus.toNat < 8), matched_vehicleStatus⟩
  have hkey (i : ℕ) (key : String)
      (hkey : (topicKeys "vehicle_status" (topicFields vehicleStatus))[i]? = some key) :
      (topicKeys (vehicleStatusData t s).topic.1
        (fieldsOf (vehicleStatusData t s).topic.2.toList))[i]? = some key := hkey
  have hfailsafe : numIs o "vehicle_status.failsafe" isPositive = s.failsafe :=
    numIs_fields h ho 3 (hkey 3 _ (key_chars chars₂ (by decide))) rfl
  have hgcs : numIs o "vehicle_status.gcs_connection_lost" isPositive = s.gcsLost :=
    numIs_fields h ho 4 (hkey 4 _ (key_chars chars₂ (by decide))) rfl
  have hflags {name : String} (hname : ¬ "vehicle_status".toList ++ ['.'] <+: name.toList) :
      numIs o name isPositive = false :=
    numIs_of_notMem (notMem_fields h (fun entry hentry => ho ▸ hentry) hname) _
  have hwhen := says_of_data h fun entry hentry => ho ▸ hentry
  rw [hfailsafe, hgcs, hflags (by decide), hflags (by decide),
    hflags (by decide), hchannel] at hwhen
  simpa using hwhen

/-- A heartbeat repeats whether the remote control and the ground station are lost. -/
theorem says_failsafeFlags (t : UInt64) (s : State)
    (ho : o.fields = (failsafeFlagsData t s).fields) (hchannel : o.channel = .event) :
    Says o (s.gcsLost = true) (s.rcLost = true) (s.rcLost = true ∨ s.gcsLost = true) := by
  have h : (failsafeFlagsData t s).Typed :=
    ⟨(by decide : failsafeFlags.toNat < 8), matched_failsafeFlags⟩
  have hkey (i : ℕ) (key : String)
      (hkey : (topicKeys "failsafe_flags" (topicFields failsafeFlags))[i]? = some key) :
      (topicKeys (failsafeFlagsData t s).topic.1
        (fieldsOf (failsafeFlagsData t s).topic.2.toList))[i]? = some key := hkey
  have hrc : numIs o "failsafe_flags.manual_control_signal_lost" isPositive = s.rcLost :=
    numIs_fields h ho 1 (hkey 1 _ (key_chars chars₂ (by decide))) rfl
  have hgcs : numIs o "failsafe_flags.gcs_connection_lost" isPositive = s.gcsLost :=
    numIs_fields h ho 2 (hkey 2 _ (key_chars chars₂ (by decide))) rfl
  have hgnss : numIs o "failsafe_flags.gnss_lost" isPositive = false :=
    numIs_fields h ho 3 (hkey 3 _ (key_chars chars₂ (by decide))) rfl
  have hstatus {name : String} (hname : ¬ "failsafe_flags".toList ++ ['.'] <+: name.toList) :
      numIs o name isPositive = false :=
    numIs_of_notMem (notMem_fields h (fun entry hentry => ho ▸ hentry) hname) _
  have hwhen := says_of_data h fun entry hentry => ho ▸ hentry
  rw [hrc, hgcs, hgnss, hstatus (by decide), hstatus (by decide), hchannel]
    at hwhen
  simpa using hwhen

end Data

/-! ## 5. What texts say -/

/-- A text that says that the ground station is lost. -/
def TellsGcs (text : String) : Prop := contains "GCS Failsafe".toList text.toList = true

/-- A text that says that the remote control is lost. -/
def TellsRc (text : String) : Prop :=
  ∃ needle ∈ ["Radio Failsafe", "RC Short Failsafe", "RC Long Failsafe", "RC LINK LOST"],
    contains needle.toList text.toList = true

/-- A text that names a failsafe, and not its end. -/
def TellsFailsafe (text : String) : Prop :=
  (∀ needle ∈ ["Cleared", "restored"], contains needle.toList text.toList = false) ∧
    ∃ needle ∈ ["Failsafe", "failsafe", "FAILSAFE", "GPS Glitch", "EKF", "WDG", "atchdog"],
      contains needle.toList text.toList = true

theorem says_logged (sha256 : List UInt8 → Digest) (profile : FamilyProfile) (level : UInt8)
    (tUs : UInt64) (text : String) :
    Says (loggedObservation sha256 profile level tUs text) (TellsGcs text) (TellsRc text)
      (TellsFailsafe text) := by
  have hfields : (loggedObservation sha256 profile level tUs text).fields =
      [("log.level", .i64 (.ofNat level.toNat)), ("log.message", .text text)] := rfl
  have hchannel : (loggedObservation sha256 profile level tUs text).channel = .event := rfl
  generalize loggedObservation sha256 profile level tUs text = o at hfields hchannel ⊢
  have htext (needle : String) : textHas needle o = contains needle.toList text.toList := by
    rw [textHas, hfields]
    simp
  have hnum {name : String} (hname : name ∉ ["log.level", "log.message"]) : num o name = none :=
    num_of_notMem (by rw [hfields]; exact hname)
  have hnumIs {name : String} (hname : name ∉ ["log.level", "log.message"]) (p : F64 → Bool) :
      numIs o name p = false := by
    rw [numIs, hnum hname]
    rfl
  have hreason (reasons : List ℚ) : modeReason reasons o = false := hnumIs (by decide) _
  refine ⟨?_, ?_, ?_⟩
  · rw [isGcsFailsafe, htext, hreason, hnumIs (by decide), hnumIs (by decide), TellsGcs]
    simp
  · rw [isRcFailsafe, htext, htext, htext, htext, hreason, hnumIs (by decide), hnumIs (by decide)]
    simp [TellsRc, or_assoc]
  · rw [isEventTrigger, hchannel, htext, htext, hreason, hnum (by decide), hnumIs (by decide),
      hnumIs (by decide)]
    simp [TellsFailsafe, htext, hnumIs]

/-! ## 6. What events say -/

/-- What some observations say together: one of them says that the ground station is lost exactly
if `gcs`, and so for the other two questions. -/
structure Tell (os : List Observation) (gcs rc trigger : Prop) : Prop where
  gcs : (∃ o ∈ os, isGcsFailsafe o = true) ↔ gcs
  rc : (∃ o ∈ os, isRcFailsafe o = true) ↔ rc
  trigger : (∃ o ∈ os, isEventTrigger o = true) ↔ trigger

section Tell

variable {os more : List Observation} {gcs rc trigger gcs' rc' trigger' : Prop}

theorem Tell.nil : Tell [] False False False := by
  constructor <;> simp

theorem Says.tell {o : Observation} (h : Says o gcs rc trigger) : Tell [o] gcs rc trigger := by
  constructor
  · simpa using h.gcs
  · simpa using h.rc
  · simpa using h.trigger

theorem Tell.append (h : Tell os gcs rc trigger) (hmore : Tell more gcs' rc' trigger') :
    Tell (os ++ more) (gcs ∨ gcs') (rc ∨ rc') (trigger ∨ trigger') := by
  have hor (p : Observation → Bool) : (∃ o ∈ os ++ more, p o = true) ↔
      (∃ o ∈ os, p o = true) ∨ ∃ o ∈ more, p o = true := by
    simp only [List.mem_append, or_and_right, exists_or]
  exact ⟨(hor _).trans (or_congr h.gcs hmore.gcs), (hor _).trans (or_congr h.rc hmore.rc),
    (hor _).trans (or_congr h.trigger hmore.trigger)⟩

theorem Tell.congr (h : Tell os gcs rc trigger) (hgcs : gcs ↔ gcs') (hrc : rc ↔ rc')
    (htrigger : trigger ↔ trigger') : Tell os gcs' rc' trigger' :=
  ⟨h.gcs.trans hgcs, h.rc.trans hrc, h.trigger.trans htrigger⟩

end Tell

/-- The reason of a change of the mode. -/
def reason (e : Event) : Option UInt8 :=
  match e.kind with
  | .modeChange _ reason => some reason
  | _ => none

/-- The reason of the last change of the mode. -/
def lastReason (before : List Event) : Option UInt8 := (before.filterMap reason).getLast?

/-- Whether the remote control was received when it was last asked. -/
def lastSignal (before : List Event) : Option Bool := (before.filterMap signal).getLast?

/-- **What the writer keeps is what was last said.** By induction from the back, since a later
event overwrites. -/
theorem foldl_next (tStart : UInt64) (before : List Event) :
    let s := before.foldl State.next (.new tStart)
    s.gcsLost = decide (lastReason before = some 5) ∧
      s.failsafe = (lastReason before).any (fun r => decide (3 ≤ r ∧ r ≠ 48)) ∧
      s.rcLost = decide (lastSignal before = some false) := by
  induction before using List.reverseRecOn with
  | nil => exact ⟨rfl, rfl, rfl⟩
  | append_singleton before e ih =>
    obtain ⟨hgcs, hfailsafe, hrc⟩ := ih
    rw [List.foldl_append, List.foldl_cons, List.foldl_nil, lastReason, lastSignal,
      List.filterMap_append, List.filterMap_append]
    have hkept (s : State) (hr : reason e = none) (hs : signal e = none) :
        s.next e = s := by
      revert hr hs
      unfold reason signal State.next
      cases e.kind <;> simp
    cases hreason : reason e with
    | some r =>
      have hmode : ∃ mode, e.kind = .modeChange mode r := by
        revert hreason
        unfold reason
        cases e.kind <;> simp
      obtain ⟨mode, hkind⟩ := hmode
      have hsignal : signal e = none := by rw [signal, hkind]
      rw [List.filterMap_cons_some hreason, List.filterMap_nil, List.getLast?_append,
        List.filterMap_cons_none hsignal, List.filterMap_nil, List.append_nil]
      simp only [State.next, hkind, hrc, lastSignal]
      simp
    | none =>
      rw [List.filterMap_cons_none hreason, List.filterMap_nil, List.append_nil]
      cases hsignal : signal e with
      | none =>
        rw [List.filterMap_cons_none hsignal, List.filterMap_nil, List.append_nil,
          hkept _ hreason hsignal]
        exact ⟨hgcs, hfailsafe, hrc⟩
      | some valid =>
        have hrcIn : ∃ chans rssiPct lqPct, e.kind = .rcIn chans rssiPct lqPct valid := by
          revert hsignal
          unfold signal
          cases e.kind <;> simp
        obtain ⟨chans, rssiPct, lqPct, hkind⟩ := hrcIn
        rw [List.filterMap_cons_some hsignal, List.filterMap_nil, List.getLast?_append]
        simp only [State.next, hkind, hgcs, hfailsafe, lastReason]
        simp

/-- The text of an event says so, or it is a heartbeat while it is so.  No other kind of event is
written as something that could say it. -/
def ToldBy (e : Event) (kept : Prop) (text : String → Prop) : Prop :=
  match e.kind with
  | .heartbeat _ _ => kept
  | .statusText _ t => text t
  | _ => False

section Observed

variable (sha256 : List UInt8 → Digest) (profile : FamilyProfile) {timeline : Timeline}

/-- The observations of data. -/
theorem mem_observations {r : DataRecord} {o : Observation}
    (h : o ∈ r.observations sha256 profile) :
    (∀ entry ∈ o.fields, entry ∈ r.values) ∧ o.tBootUs = some (max r.tUs 0).toUInt64 := by
  unfold DataRecord.observations at h
  split at h
  · rcases List.mem_pair.mp h with rfl | rfl
    · exact ⟨fun entry hentry => hentry, rfl⟩
    · exact ⟨fun entry hentry => List.mem_of_mem_filter hentry, rfl⟩
  · obtain rfl := List.mem_singleton.mp h
    exact ⟨fun entry hentry => hentry, rfl⟩

/-- All topics but that of the remote control have one observation. -/
theorem observations_eq {r : DataRecord} (h : r.binding.name ≠ "input_rc") :
    ∃ o, r.observations sha256 profile = [o] ∧ o.fields = r.values ∧
      o.channel = Reference.Ulog.channelFor r.binding.name :=
  ⟨_, if_neg h, rfl, rfl⟩

theorem tell_nothing {d : Data} (h : d.Typed) (hstatus : d.topic.1 ≠ "vehicle_status")
    (hflags : d.topic.1 ≠ "failsafe_flags") :
    Tell (d.record.observations sha256 profile) False False False := by
  have hwhen (o : Observation) (ho : o ∈ d.record.observations sha256 profile) :
      Says o False False False :=
    says_nothing h (mem_observations sha256 profile ho).1 hstatus hflags
  constructor
  · exact iff_of_false (fun ⟨o, ho, hgcs⟩ => (hwhen o ho).gcs.mp hgcs) id
  · exact iff_of_false (fun ⟨o, ho, hrc⟩ => (hwhen o ho).rc.mp hrc) id
  · exact iff_of_false (fun ⟨o, ho, htrigger⟩ => (hwhen o ho).trigger.mp htrigger) id

/-- **What an event says of failsafes**, given what was said before it. -/
theorem tell_messages (wallUs : ℤ) (s : State) (e : Event) :
    Tell ((messages wallUs s e).flatMap (Message.observed sha256 profile))
      (ToldBy e (s.gcsLost = true) TellsGcs) (ToldBy e (s.rcLost = true) TellsRc)
      (ToldBy e (s.failsafe = true ∨ s.rcLost = true ∨ s.gcsLost = true) TellsFailsafe) := by
  have hone {d : Data} (h : d.Typed) (hstatus : d.topic.1 ≠ "vehicle_status")
      (hflags : d.topic.1 ≠ "failsafe_flags") :
      Tell ([Message.data d].flatMap (Message.observed sha256 profile)) False False False := by
    rw [List.flatMap_singleton]
    exact tell_nothing sha256 profile h hstatus hflags
  have hnone : Tell (([] : List Message).flatMap (Message.observed sha256 profile)) False False
      False := Tell.nil
  have hrecorded := recorded_messages wallUs s e
  revert hrecorded
  unfold messages ToldBy
  cases e.kind with
  | heartbeat =>
    intro hrecorded
    obtain ⟨status, hstatus, hfields, hchannel⟩ := observations_eq sha256 profile
      (r := (vehicleStatusData e.tBootUs s).record) (by decide : "vehicle_status" ≠ "input_rc")
    obtain ⟨flags, hflags, hfields', hchannel'⟩ := observations_eq sha256 profile
      (r := (failsafeFlagsData e.tBootUs s).record) (by decide : "failsafe_flags" ≠ "input_rc")
    have htelemetry : (telemetryStatusData e.tBootUs s).Typed :=
      hrecorded _ (List.mem_cons_of_mem _ (List.mem_cons_of_mem _ List.mem_cons_self))
    have htell := ((says_vehicleStatus e.tBootUs s (hfields.trans (record_values _)) (hchannel.trans
      (by decide : Reference.Ulog.channelFor "vehicle_status" = .event))).tell.append
      ((says_failsafeFlags e.tBootUs s (hfields'.trans (record_values _)) (hchannel'.trans
        (by decide : Reference.Ulog.channelFor "failsafe_flags" = .event))).tell.append
        ((tell_nothing sha256 profile htelemetry
          (by decide : "telemetry_status" ≠ "vehicle_status")
          (by decide : "telemetry_status" ≠ "failsafe_flags")).append Tell.nil)))
    rw [← hstatus, ← hflags] at htell
    exact htell.congr (by simp) (by simp) (by simp)
  | sysStatus =>
    exact fun h => hone (h _ List.mem_cons_self) (by decide : "battery_status" ≠ "vehicle_status")
      (by decide : "battery_status" ≠ "failsafe_flags")
  | gpsRawInt =>
    exact fun h => hone (h _ List.mem_cons_self) (by decide : "sensor_gps" ≠ "vehicle_status")
      (by decide : "sensor_gps" ≠ "failsafe_flags")
  | globalPositionInt =>
    exact fun h => hone (h _ List.mem_cons_self)
      (by decide : "vehicle_global_position" ≠ "vehicle_status")
      (by decide : "vehicle_global_position" ≠ "failsafe_flags")
  | rcIn =>
    exact fun h => hone (h _ List.mem_cons_self) (by decide : "input_rc" ≠ "vehicle_status")
      (by decide : "input_rc" ≠ "failsafe_flags")
  | ekfStatus =>
    exact fun h => hone (h _ List.mem_cons_self)
      (by decide : "estimator_status" ≠ "vehicle_status")
      (by decide : "estimator_status" ≠ "failsafe_flags")
  | statusText severity text =>
    intro _
    exact (says_logged sha256 profile _ _ text).tell
  | modeChange | radioStatus | err | reboot | handsetRow | blackboxRow | videoPresence =>
    exact fun _ => hnone

/-- The messages of an event have its time. -/
theorem time_of_mem_messages {wallUs : ℤ} {s : State} {e : Event} {m : Message}
    (h : m ∈ messages wallUs s e) :
    (∃ d, m = .data d ∧ d.tUs = e.tBootUs ∧ topicsOf e ≠ []) ∨
      ∃ level text, m = .logged level e.tBootUs text := by
  revert h
  unfold messages topicsOf
  cases e.kind with
  | heartbeat =>
    simp only [List.mem_cons, List.not_mem_nil, or_false]
    rintro (rfl | rfl | rfl) <;> exact Or.inl ⟨_, rfl, rfl, List.cons_ne_nil _ _⟩
  | statusText =>
    intro h
    exact Or.inr ⟨_, _, List.mem_singleton.mp h⟩
  | sysStatus | gpsRawInt | globalPositionInt | rcIn | ekfStatus =>
    intro h
    exact Or.inl ⟨_, List.mem_singleton.mp h, rfl, List.cons_ne_nil _ _⟩
  | modeChange | radioStatus | err | reboot | handsetRow | blackboxRow | videoPresence =>
    exact fun h => (List.not_mem_nil h).elim

theorem tBootUs_of_mem {wallUs : ℤ} {s : State} {e : Event} (hreadable : Readable timeline e)
    {o : Observation}
    (h : o ∈ (messages wallUs s e).flatMap (Message.observed sha256 profile)) :
    o.tBootUs = some e.tBootUs := by
  obtain ⟨m, hm, ho⟩ := List.mem_flatMap.mp h
  rcases time_of_mem_messages hm with ⟨d, rfl, htime, htopics⟩ | ⟨level, text, rfl⟩
  · have htime' : d.record.tUs = e.tBootUs.toInt64 := congrArg UInt64.toInt64 htime
    rw [(mem_observations sha256 profile ho).2, htime',
      toUInt64_max_toInt64 (hreadable.1 htopics)]
  · obtain rfl := List.mem_singleton.mp ho
    rfl

theorem mem_body {m : Message} {events : List Event} : ∀ s : State,
    m ∈ body timeline s events ↔ ∃ before e after, events = before ++ e :: after ∧
      m ∈ messages (timeline.wallUs e) (before.foldl State.next s) e := by
  induction events with
  | nil =>
    intro s
    refine iff_of_false List.not_mem_nil ?_
    rintro ⟨before, e, after, h, -⟩
    exact List.append_ne_nil_of_right_ne_nil before (List.cons_ne_nil e after) h.symm
  | cons first events ih =>
    intro s
    rw [body, List.mem_append, ih]
    constructor
    · rintro (h | ⟨before, e, after, rfl, h⟩)
      · exact ⟨[], first, events, rfl, h⟩
      · exact ⟨first :: before, e, after, rfl, h⟩
    · rintro ⟨before, e, after, hsplit, h⟩
      cases before with
      | nil =>
        obtain ⟨rfl, rfl⟩ := List.cons.inj hsplit
        exact Or.inl h
      | cons b before =>
        obtain ⟨rfl, rfl⟩ := List.cons.inj hsplit
        exact Or.inr ⟨before, e, after, rfl, h⟩

/-- Told at a time: by a heartbeat while something before it holds, or by a text. -/
def ToldAt (events : List Event) (t : UInt64) (kept : List Event → Prop) (text : String → Prop) :
    Prop :=
  ∃ before e after, events = before ++ e :: after ∧ e.tBootUs = t ∧ ToldBy e (kept before) text

/-- What the observations of events say at a time is what is told then. -/
theorem exists_observed_iff {events : List Event} (hreadable : ∀ e ∈ events, Readable timeline e)
    (tStart t : UInt64) {p : Observation → Bool} {kept : State → Prop}
    {keptBefore : List Event → Prop} {text : String → Prop}
    (htell : ∀ wallUs s e, (∃ o ∈ (messages wallUs s e).flatMap
      (Message.observed sha256 profile), p o = true) ↔ ToldBy e (kept s) text)
    (hkept : ∀ before, kept (before.foldl State.next (.new tStart)) ↔ keptBefore before) :
    (∃ o ∈ (body timeline (.new tStart) events).flatMap (Message.observed sha256 profile),
      o.tBootUs = some t ∧ p o = true) ↔ ToldAt events t keptBefore text := by
  have htold (before : List Event) (e : Event) :
      ToldBy e (kept (before.foldl State.next (.new tStart))) text ↔
        ToldBy e (keptBefore before) text := by rw [hkept]
  constructor
  · rintro ⟨o, ho, htime, hp⟩
    obtain ⟨m, hbody, hobserved⟩ := List.mem_flatMap.mp ho
    obtain ⟨before, e, after, rfl, hm⟩ := (mem_body _).mp hbody
    have hmem := List.mem_flatMap.mpr ⟨m, hm, hobserved⟩
    have hboot := tBootUs_of_mem sha256 profile
      (hreadable e (List.mem_append_right _ List.mem_cons_self)) hmem
    refine ⟨before, e, after, rfl, Option.some.inj (hboot.symm.trans htime), ?_⟩
    exact (htold before e).mp ((htell _ _ e).mp ⟨o, hmem, hp⟩)
  · rintro ⟨before, e, after, rfl, rfl, h⟩
    obtain ⟨o, hmem, hp⟩ := (htell (timeline.wallUs e) _ e).mpr ((htold before e).mpr h)
    have hboot := tBootUs_of_mem sha256 profile
      (hreadable e (List.mem_append_right _ List.mem_cons_self)) hmem
    obtain ⟨m, hm, ho⟩ := List.mem_flatMap.mp hmem
    exact ⟨o, List.mem_flatMap.mpr ⟨m, (mem_body _).mpr ⟨before, e, after, rfl, hm⟩, ho⟩, hboot,
      hp⟩

/-- **A recording tells of failsafes when the vehicle has.** At any time there is an observation
that says that the ground station is lost exactly when there is a heartbeat then and the last
change of the mode was for that reason, or a text that says so; and the same with the remote
control and its last signal, and with what starts a window.  `hfits` keeps the texts within what a
`u16` can say of their size: a longer one wraps it around, and the bytes behind are then read as
messages of their own, which may say anything.  `hread` is the reader's success, whose exact
condition is `ulog_read_back`. -/
theorem failsafes_read_back {profile : FamilyProfile} {assetId : String} {input : Slice}
    (hprofile : profile.format = "px4_ulog")
    (hrender : render timeline assetId = .ok input.bytes)
    (hfits : ∀ e ∈ firstBoot (eventsFor timeline assetId .fc), Fits e) {report : ReadReport}
    (hread : Reference.Ulog.readReport sha256 profile input = .ok report) (t : UInt64) :
    ((∃ o ∈ report.observations, o.tBootUs = some t ∧ isGcsFailsafe o = true) ↔
      ToldAt (firstBoot (eventsFor timeline assetId .fc)) t
        (fun before => lastReason before = some 5) TellsGcs) ∧
    ((∃ o ∈ report.observations, o.tBootUs = some t ∧ isRcFailsafe o = true) ↔
      ToldAt (firstBoot (eventsFor timeline assetId .fc)) t
        (fun before => lastSignal before = some false) TellsRc) ∧
    ((∃ o ∈ report.observations, o.tBootUs = some t ∧ isEventTrigger o = true) ↔
      ToldAt (firstBoot (eventsFor timeline assetId .fc)) t
        (fun before => (∃ r ∈ lastReason before, 3 ≤ r ∧ r ≠ 48) ∨ lastSignal before = some false)
        TellsFailsafe) := by
  obtain ⟨⟨hreadable, -, -⟩, rfl⟩ := (readReport_log sha256 hprofile hrender hfits).mp hread
  obtain ⟨first, more, hevents, -, -⟩ := eq_of_render hrender
  have hlog : log timeline assetId =
      body timeline (.new first.tBootUs) (firstBoot (first :: more)) := by
    rw [log, hevents]
  rw [hevents] at hreadable ⊢
  dsimp only
  rw [hlog]
  refine ⟨?_, ?_, ?_⟩
  · exact exists_observed_iff sha256 profile hreadable first.tBootUs t
      (fun wallUs s e => (tell_messages sha256 profile wallUs s e).gcs) fun before => by
        rw [(foldl_next first.tBootUs before).1, decide_eq_true_iff]
  · exact exists_observed_iff sha256 profile hreadable first.tBootUs t
      (fun wallUs s e => (tell_messages sha256 profile wallUs s e).rc) fun before => by
        rw [(foldl_next first.tBootUs before).2.2, decide_eq_true_iff]
  · refine exists_observed_iff sha256 profile hreadable first.tBootUs t
      (fun wallUs s e => (tell_messages sha256 profile wallUs s e).trigger) fun before => ?_
    obtain ⟨hgcs, hfailsafe, hrc⟩ := foldl_next first.tBootUs before
    rw [hgcs, hfailsafe, hrc]
    cases lastReason before with
    | none => simp
    | some r =>
      by_cases hr : r = 5
      · subst hr
        simp
      · simp [hr]

end Observed

theorem exampleTimeline_failsafes : ∃ report,
    Reference.Ulog.readReport (fun _ => .replicate 32 0) exampleProfile exampleLog = .ok report ∧
      ∃ o ∈ report.observations, o.tBootUs = some 39000000 ∧ isRcFailsafe o = true := by
  obtain ⟨report, hread⟩ := read_example
  have hprofile : exampleProfile.format = "px4_ulog" := rfl
  have hrc := (failsafes_read_back (fun _ => .replicate 32 0) hprofile render_example
    (by decide) hread 39000000).2.1
  have hevents : firstBoot (eventsFor exampleTimeline "plane-01" .fc) =
      (firstBoot (eventsFor exampleTimeline "plane-01" .fc)).take 5 ++
        ⟨2000, 39000000, 0, "plane-01", .fixedWing, .fc, .heartbeat, .heartbeat 5 4⟩ :: [] := by
    decide
  have hlost : lastSignal ((firstBoot (eventsFor exampleTimeline "plane-01" .fc)).take 5) =
      some false := by decide
  exact ⟨report, hread, hrc.mpr ⟨_, _, [], hevents, rfl, hlost⟩⟩

end Musubi.Writers.Ulog
