/-
# The ULog writer

`reference-writers/src/ulog.rs`: the events of a flight controller as a recording that describes
its topics, subscribes to each of them, and then holds their data.  The writer keeps what the
vehicle has last said of its mode and of its remote control, since later data repeat it, and it
ends before the first event of another boot.

A message here is what it says, and its bytes are those that the source appends for it: a size of
16 bits, a letter and a body.  The size is computed from the body and wraps around, as the cast of
the source does; a text is the only body that can be that long.
-/
import Musubi.FloatSingle
import Musubi.Lib.Bytes
import Musubi.Reference.Scalars
import Musubi.Scenario.Timeline

namespace Musubi.Writers.Ulog

open Lib Lib.Checked Musubi.Core Reference Scenario

/-! ## 1. Topics -/

def magic : List UInt8 := [0x55, 0x4C, 0x6F, 0x67, 0x01, 0x12, 0x35, 0x01]

/-- The topics by their names and fields; the id of each is its place. -/
def topics : List (String × String) :=
  [("vehicle_status",
      "uint64_t timestamp;uint32_t nav_state;uint8_t arming_state;uint8_t failsafe;" ++
        "uint8_t gcs_connection_lost;uint8_t nav_state_user_intention;"),
    ("battery_status",
      "uint64_t timestamp;float voltage_v;float current_a;float remaining;uint8_t warning;"),
    ("sensor_gps",
      "uint64_t timestamp;uint64_t time_utc_usec;int32_t lat;int32_t lon;int32_t alt;" ++
        "float hdop;float vdop;float eph;float epv;uint8_t fix_type;uint8_t satellites_used;" ++
        "uint8_t jamming_state;uint8_t jamming_indicator;"),
    ("input_rc",
      "uint64_t timestamp;uint64_t timestamp_last_signal;float rssi_dbm;int32_t rssi;" ++
        "uint16_t[4] values;int8_t link_quality;bool rc_lost;bool rc_failsafe;"),
    ("estimator_status",
      "uint64_t timestamp;float pos_horiz_accuracy;float pos_test_ratio;float vel_test_ratio;" ++
        "float hgt_test_ratio;float mag_test_ratio;uint16_t gps_check_fail_flags;" ++
        "uint16_t innovation_check_flags;uint8_t reset_count_pos_ne;"),
    ("failsafe_flags",
      "uint64_t timestamp;bool manual_control_signal_lost;bool gcs_connection_lost;" ++
        "bool gnss_lost;bool global_position_invalid;"),
    ("telemetry_status",
      "uint64_t timestamp;float rx_message_lost_rate;bool heartbeat_type_gcs;"),
    ("vehicle_global_position",
      "uint64_t timestamp;double lat;double lon;float alt;")]

def vehicleStatus : UInt16 := 0

def batteryStatus : UInt16 := 1

def sensorGps : UInt16 := 2

def inputRc : UInt16 := 3

def estimatorStatus : UInt16 := 4

def failsafeFlags : UInt16 := 5

def telemetryStatus : UInt16 := 6

def vehicleGlobalPosition : UInt16 := 7

/-! ## 2. Messages -/

/-- A value of a topic. -/
inductive Value
  | u8 (v : UInt8)
  | i8 (v : Int8)
  | bool (v : Bool)
  | u16 (v : UInt16)
  | u32 (v : UInt32)
  | i32 (v : Int32)
  | u64 (v : UInt64)
  | f32 (v : F32)
  | f64 (v : F64)

/-- What a value puts into a body. -/
def Value.bytes : Value → List UInt8
  | .u8 v => [v]
  | .i8 v => [v.toUInt8]
  | .bool v => [if v then 1 else 0]
  | .u16 v => leBytes 2 v.toNat
  | .u32 v => leBytes 4 v.toNat
  | .i32 v => leBytes 4 v.toUInt32.toNat
  | .u64 v => leBytes 8 v.toNat
  | .f32 v => leBytes 4 v.bits.toNat
  | .f64 v => leBytes 8 v.bits.toNat

/-- Data of a topic: the values behind their time. -/
structure Data where
  msgId : UInt16
  tUs : UInt64
  values : List Value

/-- The body of a record, which begins with its time. -/
def Data.body (d : Data) : List UInt8 := Value.bytes (.u64 d.tUs) ++ d.values.flatMap Value.bytes

inductive Message
  | flagBits
  | format (topic : String × String)
  | info (key : String) (value : List UInt8)
  | paramF32 (name : String) (v : F32)
  | paramI32 (name : String) (v : Int32)
  | subscription (msgId : UInt16) (name : String)
  | data (d : Data)
  | logged (level : UInt8) (tUs : UInt64) (text : String)

/-- A key with its length, and a value. -/
def keyValue (key : String) (value : List UInt8) : List UInt8 :=
  .ofNat (utf8 key).length :: (utf8 key ++ value)

def Message.ty : Message → Char
  | .flagBits => 'B'
  | .format _ => 'F'
  | .info _ _ => 'I'
  | .paramF32 _ _ | .paramI32 _ _ => 'P'
  | .subscription _ _ => 'A'
  | .data _ => 'D'
  | .logged _ _ _ => 'L'

def Message.payload : Message → List UInt8
  | .flagBits => .replicate 40 0
  | .format (name, fields) => utf8 (name ++ ":" ++ fields)
  | .info key value => keyValue key value
  | .paramF32 name v => keyValue ("float " ++ name) (leBytes 4 v.bits.toNat)
  | .paramI32 name v => keyValue ("int32_t " ++ name) (leBytes 4 v.toUInt32.toNat)
  | .subscription msgId name => 0 :: (leBytes 2 msgId.toNat ++ utf8 name)
  | .data d => leBytes 2 d.msgId.toNat ++ d.body
  | .logged level tUs text => level :: (leBytes 8 tUs.toNat ++ utf8 text)

/-- `msg`, which cuts the size to 16 bits. -/
def msg (ty : Char) (payload : List UInt8) : List UInt8 :=
  leBytes 2 payload.length ++ .ofNat ty.toNat :: payload

def Message.bytes (m : Message) : List UInt8 := msg m.ty m.payload

/-- What a recording says of its system. -/
def settings : List Message :=
  [.info "char[3] sys_name" (utf8 "PX4"), .info "char[16] ver_sw" (utf8 "v1.14.0-synth   "),
    .info "char[12] ver_hw" (utf8 "MUSUBI_SYNTH"), .info "int32_t time_ref_utc" (leBytes 4 0),
    .paramF32 "EKF2_REQ_EPH" (.ofRat 3), .paramF32 "EKF2_REQ_EPV" (.ofRat 5),
    .paramI32 "EKF2_REQ_NSATS" 6, .paramI32 "SDLOG_MODE" 0,
    .paramF32 "COM_RC_LOSS_T" (.ofRat (1 / 2)), .paramF32 "COM_DL_LOSS_T" (.ofRat 10)]

/-- What a recording says of itself before its data. -/
def preamble : List Message :=
  .flagBits :: topics.map .format ++ settings ++
    topics.zipIdx.map fun topic => .subscription (.ofNat topic.2) topic.1.1

/-! ## 3. The writer -/

/-- What the vehicle has last said. -/
structure State where
  navState : UInt32
  failsafe : Bool
  gcsLost : Bool
  rcLost : Bool
  lastRcT : UInt64

def vehicleStatusData (t : UInt64) (s : State) : Data :=
  ⟨vehicleStatus, t, [.u32 s.navState, .u8 2, .bool s.failsafe, .bool s.gcsLost,
    .u8 s.navState.toUInt8]⟩

def failsafeFlagsData (t : UInt64) (s : State) : Data :=
  ⟨failsafeFlags, t, [.bool s.rcLost, .bool s.gcsLost, .bool false, .bool false]⟩

def telemetryStatusData (t : UInt64) (s : State) : Data :=
  ⟨telemetryStatus, t, [.f32 (.ofRat 0), .bool (!s.gcsLost)]⟩

def batteryStatusData (t : UInt64) (voltageMv : UInt16) (batteryRemaining : Int8) : Data :=
  ⟨batteryStatus, t, [.f32 ((F32.ofInt voltageMv.toNat).div (.ofRat 1000)), .f32 (.ofRat (17 / 2)),
    .f32 (((F32.ofInt batteryRemaining.toInt).max (.ofRat 0)).div (.ofRat 100)), .u8 0]⟩

def sensorGpsData (t utc : UInt64) (fixType satellites : UInt8) (ephCm : UInt16)
    (latE7 lonE7 altMm : Int32) (jamInd : UInt8) : Data :=
  let ephM := (F32.ofInt ephCm.toNat).div (.ofRat 100)
  ⟨sensorGps, t, [.u64 utc, .i32 latE7, .i32 lonE7, .i32 altMm, .f32 ephM,
    .f32 (ephM.mul (.ofRat 2)), .f32 ephM, .f32 (ephM.mul (.ofRat 2)), .u8 fixType, .u8 satellites,
    .u8 (if 80 < jamInd then 3 else 1), .u8 jamInd]⟩

def globalPositionData (t : UInt64) (latE7 lonE7 altMm : Int32) : Data :=
  ⟨vehicleGlobalPosition, t, [.f64 ((F64.ofInt latE7.toInt).div (.ofRat 10000000)),
    .f64 ((F64.ofInt lonE7.toInt).div (.ofRat 10000000)),
    .f32 ((F32.ofInt altMm.toInt).div (.ofRat 1000))]⟩

def inputRcData (t lastRcT : UInt64) (chans : Sticks UInt16) (rssiPct lqPct : UInt8)
    (valid : Bool) : Data :=
  let below := (F32.sub (.ofRat 100) (.ofInt rssiPct.toNat)).mul (.ofRat (2 / 5))
  ⟨inputRc, t, [.u64 lastRcT, .f32 (F32.sub (.ofRat (-70)) below),
    .i32 (if valid then .ofNat rssiPct.toNat else 0), .u16 chans.1, .u16 chans.2.1,
    .u16 chans.2.2.1, .u16 chans.2.2.2, .i8 (if valid then lqPct.toInt8 else 0), .bool (!valid),
    .bool (!valid)]⟩

def estimatorStatusData (t : UInt64) (v p h m : Int16) (solutionStatus : UInt32)
    (offsetNorthM : F32) : Data :=
  let glitch := solutionStatus &&& 0x4000 ≠ 0
  let ratio (x : Int16) : F32 := (F32.ofInt x.toInt).div (.ofRat 100)
  ⟨estimatorStatus, t, [.f32 (if glitch then .ofRat 20 else .ofRat 1), .f32 (ratio p),
    .f32 (ratio v), .f32 (ratio h), .f32 (ratio m), .u16 (if glitch then 7 else 0),
    .u16 (if 100 < p then 2 else 0), .u8 (if F32.lt (.ofRat 0) offsetNorthM then 1 else 0)]⟩

/-- The messages of an event, of which a fix has a wall time. -/
def messages (wallUs : ℤ) (s : State) (e : Event) : List Message :=
  let t := e.tBootUs
  match e.kind with
  | .heartbeat _ _ =>
    [.data (vehicleStatusData t s), .data (failsafeFlagsData t s), .data (telemetryStatusData t s)]
  | .sysStatus voltageMv batteryRemaining _ =>
    [.data (batteryStatusData t voltageMv batteryRemaining)]
  | .gpsRawInt fixType satellites ephCm latE7 lonE7 altMm jamInd timeValid =>
    let utc := if timeValid then UInt64.ofInt wallUs else 0
    [.data (sensorGpsData t utc fixType satellites ephCm latE7 lonE7 altMm jamInd)]
  | .globalPositionInt latE7 lonE7 altMm _ => [.data (globalPositionData t latE7 lonE7 altMm)]
  | .rcIn chans rssiPct lqPct valid =>
    let lastRcT := if valid then t else s.lastRcT
    [.data (inputRcData t lastRcT chans rssiPct lqPct valid)]
  | .ekfStatus v p h m solutionStatus _ offsetNorthM =>
    [.data (estimatorStatusData t v p h m solutionStatus offsetNorthM)]
  | .modeChange _ _ => []
  | .statusText severity text => [.logged (48 + min severity 7) t text]
  | .radioStatus _ _ _ _ | .err _ _ | .reboot _ => []
  | .handsetRow _ _ _ _ _ _ _ _ | .blackboxRow _ _ _ _ _ _ _ _ _ _ | .videoPresence _ => []

/-- What the vehicle has said with an event. -/
def State.next (s : State) (e : Event) : State :=
  match e.kind with
  | .rcIn _ _ _ valid =>
    { s with lastRcT := if valid then e.tBootUs else s.lastRcT, rcLost := !valid }
  | .modeChange mode reason =>
    { s with
      navState := if 3 ≤ reason then 5 else mode.toUInt32
      failsafe := decide (3 ≤ reason ∧ reason ≠ 48)
      gcsLost := decide (reason = 5) }
  | _ => s

/-- The wall time of a fix; the source computes no other. -/
def fixUs (timeline : Timeline) (e : Event) : Checked WriteError ℤ :=
  match e.kind with
  | .gpsRawInt _ _ _ _ _ _ _ _ => timeline.hostUs e
  | _ => return 0

/-- The loop over the events, which another boot ends. -/
def renderEvents (timeline : Timeline) :
    State → List UInt8 → List Event → Checked WriteError (List UInt8)
  | _, out, [] => return out
  | s, out, e :: events => do
    if e.bootEpoch ≠ 0 then return out
    else
      let wallUs ← fixUs timeline e
      renderEvents timeline (s.next e) (out ++ (messages wallUs s e).flatMap Message.bytes) events

def State.new (tStart : UInt64) : State := ⟨4, false, false, false, tStart⟩

def header (tStart : UInt64) : List UInt8 := magic ++ leBytes 8 tStart.toNat

def render (timeline : Timeline) (assetId : String) : Checked WriteError (List UInt8) := do
  let events ← fcEventsFor timeline assetId .px4Ulog "px4_ulog"
  let first ← index events 0
  let tStart := first.tBootUs
  renderEvents timeline (.new tStart) (header tStart ++ preamble.flatMap Message.bytes) events

/-! ## 4. What is written -/

/-- The messages of events, behind what the vehicle has said before them. -/
def body (timeline : Timeline) : State → List Event → List Message
  | _, [] => []
  | s, e :: events => messages (timeline.wallUs e) s e ++ body timeline (s.next e) events

/-- What a recording holds behind what it says of itself. -/
def log (timeline : Timeline) (assetId : String) : List Message :=
  match eventsFor timeline assetId .fc with
  | [] => []
  | first :: more => body timeline (.new first.tBootUs) (firstBoot (first :: more))

section Log

variable {timeline : Timeline}

/-- A wall time that is computed is that of a fix. -/
theorem messages_of_fixUs {e : Event} {wallUs : ℤ} (h : fixUs timeline e = .ok wallUs) :
    timeline.FixDated e ∧ ∀ s, messages wallUs s e = messages (timeline.wallUs e) s e := by
  revert h
  unfold fixUs Timeline.FixDated messages
  cases e.kind with
  | gpsRawInt fixType satellites ephCm latE7 lonE7 altMm jamInd timeValid =>
    intro h
    obtain ⟨hdated, rfl⟩ := Timeline.hostUs_eq_ok.mp h
    exact ⟨hdated, fun s => rfl⟩
  | _ => exact fun _ => ⟨trivial, fun s => rfl⟩

/-- The loop is that over the events before another boot. -/
theorem renderEvents_eq_ok {events : List Event} : ∀ {s : State} {out bytes : List UInt8},
    renderEvents timeline s out events = .ok bytes →
      (∀ e ∈ firstBoot events, timeline.FixDated e) ∧
        bytes = out ++ (body timeline s (firstBoot events)).flatMap Message.bytes := by
  induction events with
  | nil =>
    intro s out bytes h
    cases h
    exact ⟨List.forall_mem_nil _, (List.append_nil _).symm⟩
  | cons e events ih =>
    intro s out bytes h
    rw [renderEvents] at h
    by_cases hboot : e.bootEpoch = 0
    · rw [if_neg (not_not.mpr hboot)] at h
      obtain ⟨wallUs, hwall, hmore⟩ := bind_eq_ok.mp h
      obtain ⟨hdated, hmessages⟩ := messages_of_fixUs hwall
      obtain ⟨hall, rfl⟩ := ih hmore
      rw [firstBoot_cons events hboot]
      refine ⟨List.forall_mem_cons.mpr ⟨hdated, hall⟩, ?_⟩
      rw [hmessages, body, List.flatMap_append, List.append_assoc]
    · rw [if_pos hboot] at h
      cases h
      rw [firstBoot_cons_of_ne events hboot]
      exact ⟨List.forall_mem_nil _, (List.append_nil _).symm⟩

/-- **What the writer writes of an asset**: a header with the time of the first event, what the
recording says of itself, and the messages of the events of the first boot. -/
theorem eq_of_render {assetId : String} {bytes : List UInt8}
    (h : render timeline assetId = .ok bytes) :
    ∃ first more, eventsFor timeline assetId .fc = first :: more ∧
      (∀ e ∈ firstBoot (first :: more), timeline.FixDated e) ∧
      bytes = header first.tBootUs ++ (preamble ++ log timeline assetId).flatMap Message.bytes := by
  obtain ⟨events, hevents, h⟩ := bind_eq_ok.mp h
  obtain ⟨hne, rfl⟩ := eq_of_fcEventsFor hevents
  rw [log]
  generalize eventsFor timeline assetId .fc = events at h hne ⊢
  cases events with
  | nil => exact absurd rfl hne
  | cons first more =>
    rw [index, List.getElem?_cons_zero, ok_bind] at h
    obtain ⟨hdated, rfl⟩ := renderEvents_eq_ok h
    refine ⟨first, more, rfl, hdated, ?_⟩
    rw [List.flatMap_append, List.append_assoc]

end Log

end Musubi.Writers.Ulog
