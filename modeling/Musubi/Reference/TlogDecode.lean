/-
# What a recorded MAVLink message reports

`reference-readers/src/tlog.rs`: the payload of one message as the fields it reports.  A payload
may have been cut where it ends in zeros, so every read beyond its end is a zero.  The names that
the messages choose stay out of the namespace that the reader itself writes under
(`ownNames_decode`).

There is one case for each message that is decoded, with its fields, their places and units, and
the channel it is of; a message that is not decoded is kept with its bytes.  The separation of
names is what lets later results look a field of the reader up by its name, whatever message the
row is of.
-/
import Musubi.Core.Canonical
import Musubi.FloatArith
import Musubi.Lib.Utf8
import Musubi.Reference.Observation

namespace Musubi.Reference.Tlog

open Lib

/-! ## 1. Reading a payload -/

/-- `n` bytes, zeros where the payload has ended. -/
def bytesAt (n : ℕ) (payload : List UInt8) (off : ℕ) : List UInt8 :=
  (List.range n).map fun i => payload.getD (off + i) 0

def u8At (p : List UInt8) (off : ℕ) : Int64 := .ofNat (ofLeBytes (bytesAt 1 p off))

def i8At (p : List UInt8) (off : ℕ) : Int64 :=
  (UInt8.ofNat (ofLeBytes (bytesAt 1 p off))).toInt8.toInt64

def u16At (p : List UInt8) (off : ℕ) : Int64 := .ofNat (ofLeBytes (bytesAt 2 p off))

def i16At (p : List UInt8) (off : ℕ) : Int64 :=
  (UInt16.ofNat (ofLeBytes (bytesAt 2 p off))).toInt16.toInt64

def u32At (p : List UInt8) (off : ℕ) : Int64 := .ofNat (ofLeBytes (bytesAt 4 p off))

def i32At (p : List UInt8) (off : ℕ) : Int64 :=
  (UInt32.ofNat (ofLeBytes (bytesAt 4 p off))).toInt32.toInt64

def u64At (p : List UInt8) (off : ℕ) : UInt64 := .ofNat (ofLeBytes (bytesAt 8 p off))

def f32At (p : List UInt8) (off : ℕ) : F64 :=
  .ofF32 ⟨.ofNat (ofLeBytes (bytesAt 4 p off))⟩

/-- Milliseconds since boot in microseconds. -/
def bootUs (p : List UInt8) (off : ℕ) : UInt64 := (u32At p off).toUInt64 * 1000

/-! ## 2. Fields -/

structure Decoded where
  channel : ChannelId := .tlog
  fields : Fields := []
  stale : Bool := false
  tBootUs : Option UInt64 := none
  anchorUnixUs : Option Int64 := none
deriving DecidableEq

def f (name : String) (v : Int64) : String × FieldValue := (name, .i64 v)

def ff (name : String) (v : F64) : String × FieldValue := (name, .f64 v)

def text (name v : String) : String × FieldValue := (name, .text v)

/-- `v as f64`. -/
def asF64 (v : Int64) : F64 := .ofInt v.toInt

/-- `i64::from` a `bool`. -/
def flag (b : Bool) : Int64 := if b then 1 else 0

/-- The bit of a mask. -/
def bit (mask : Int64) (i : ℕ) : Bool := mask &&& (1 <<< Int64.ofNat i) ≠ 0

/-- A scaled number, blank where the raw one stands for none. -/
def value (name : String) (raw missing : Int64) (scale : F64) : String × FieldValue :=
  (name, if raw = missing then .blank else .f64 ((asF64 raw).mul scale))

/-- Hundredths of a degree Celsius in kelvin; zero and one stand for no reading. -/
def kelvinOrBlank (cdeg : Int64) : FieldValue :=
  if cdeg = 0 ∨ cdeg = 1 then .blank
  else .f64 (((asF64 cdeg).div (.ofRat 100)).add (.ofRat (27315 / 100)))

def temperatureStatus (cdeg : Int64) : String :=
  if cdeg = 0 then "NOT_AVAILABLE"
  else if cdeg = 1 then "ZERO_OR_ONE_CENTIDEGREE"
  else "REPORTED"

@[simp] theorem f_name (name : String) (v : Int64) : (f name v).1 = name := rfl

@[simp] theorem ff_name (name : String) (v : F64) : (ff name v).1 = name := rfl

@[simp] theorem text_name (name v : String) : (text name v).1 = name := rfl

/-! ## 3. Messages -/

/-- The identifier up to its first zero. -/
def paramIdHex (p : List UInt8) (idOffset : ℕ) : String :=
  hexLower ((bytesAt 16 p idOffset).takeWhile (· ≠ 0))

def paramRequestRead (p : List UInt8) : Decoded where
  channel := .event
  fields := [
    f "PARAM_REQUEST_READ.param_index" (i16At p 0),
    f "PARAM_REQUEST_READ.target_system" (u8At p 2),
    f "PARAM_REQUEST_READ.target_component" (u8At p 3),
    text "PARAM_REQUEST_READ.param_id_hex" (paramIdHex p 4)]

def paramValue (p : List UInt8) : Decoded where
  channel := .event
  fields := [
    f "PARAM_VALUE.param_count" (u16At p 4),
    f "PARAM_VALUE.param_index" (u16At p 6),
    f "PARAM_VALUE.param_type" (u8At p 24),
    text "PARAM_VALUE.value_raw_hex" (hexLower (bytesAt 4 p 0)),
    text "PARAM_VALUE.param_id_hex" (paramIdHex p 8)]

def navControllerOutput (p : List UInt8) : Decoded where
  channel := .event
  fields :=
    ([("desired_roll_deg_reported", 0), ("desired_pitch_deg_reported", 4),
        ("altitude_error_m_reported", 8), ("airspeed_error_m_s_reported", 12),
        ("xtrack_error_m_reported", 16)].map fun (name, offset) =>
      ff ("NAV_CONTROLLER_OUTPUT." ++ name) (f32At p offset)) ++ [
    f "NAV_CONTROLLER_OUTPUT.desired_heading_deg_reported" (i16At p 20),
    f "NAV_CONTROLLER_OUTPUT.target_bearing_deg_reported" (i16At p 22),
    f "NAV_CONTROLLER_OUTPUT.waypoint_distance_m_reported" (u16At p 24),
    text "NAV_CONTROLLER_OUTPUT.xtrack_basis"
      ("PRODUCER_REPORTED_X_Y_PLANE_CROSSTRACK_ERROR_METRES_SIGN_PRESERVED_POSITIVE_SIDE_AND_"
        ++ "ROUTE_REFERENCE_ID_UNSPECIFIED_NOT_VERIFIED_ROUTE_DEVIATION_OR_CAUSE"),
    text "NAV_CONTROLLER_OUTPUT.clock_basis"
      ("NO_PRODUCER_TIMESTAMP_IN_THIS_MESSAGE_HOST_RECORD_TIME_IS_NOT_DEVICE_SAMPLE_TIME"),
    text "NAV_CONTROLLER_OUTPUT.controller_basis"
      ("REPORTED_DESIRED_ATTITUDE_HEADING_TARGET_BEARING_WAYPOINT_DISTANCE_AND_ERRORS_NOT_"
        ++ "MEASURED_TRUTH_NO_ROUTE_JOIN_OR_THRESHOLD_APPLIED")]

def videoStreamStatus (p : List UInt8) : Decoded :=
  let flags := u16At p 8
  let stream := u8At p 18
  let camera := u8At p 19
  { channel := .event
    fields := [
      ff "video_stream_framerate_hz_reported" (f32At p 0),
      f "video_stream_bitrate_bits_s_reported" (u32At p 4),
      f "video_stream_flags_raw" flags,
      f "video_stream_unknown_flag_bits" (flags &&& ~~~7),
      f "video_stream_running_reported" (flag (flags &&& 1 ≠ 0)),
      f "video_stream_thermal_reported" (flag (flags &&& 2 ≠ 0)),
      f "video_stream_thermal_range_capable_reported" (flag (flags &&& 4 ≠ 0)),
      f "video_stream_width_pixels_reported" (u16At p 10),
      f "video_stream_height_pixels_reported" (u16At p 12),
      f "video_stream_rotation_clockwise_deg_reported" (u16At p 14),
      f "video_stream_hfov_deg_reported" (u16At p 16),
      f "video_stream_id_raw" stream,
      f "video_stream_camera_id_raw" camera,
      text "video_stream_id_basis"
        (if stream = 0 then "UNQUALIFIED_ZERO" else "REPORTED_STREAM_INDEX"),
      text "video_stream_camera_id_basis"
        (if camera = 0 then "SENDER_OR_UNAVAILABLE_EXTENSION"
        else if 1 ≤ camera ∧ camera ≤ 6 then "ATTACHED_CAMERA_REPORTED"
        else "UNKNOWN_RETAINED")] }

def cameraCaptureStatus (p : List UInt8) : Decoded :=
  let image := u8At p 16
  let video := u8At p 17
  let count := i32At p 18
  let device := u8At p 22
  { channel := .event
    tBootUs := some (bootUs p 0)
    fields := [
      f "camera_image_status_raw" image,
      f "camera_video_status_raw" video,
      f "camera_image_count_raw" count,
      f "camera_device_id_raw" device,
      ff "camera_image_interval_s_reported" (f32At p 4),
      ff "camera_available_capacity_mib_raw" (f32At p 12),
      text "camera_image_status_reported"
        (if image = 0 then "IDLE"
        else if image = 1 then "CAPTURING"
        else if image = 2 then "INTERVAL_IDLE"
        else if image = 3 then "INTERVAL_CAPTURING"
        else "UNKNOWN"),
      text "camera_video_status_reported"
        (if video = 0 then "IDLE" else if video = 1 then "CAPTURING" else "UNKNOWN"),
      text "camera_id_basis"
        (if device = 0 then "SENDER_COMPONENT_OR_EXTENSION_UNAVAILABLE"
        else if 1 ≤ device ∧ device ≤ 6 then "ATTACHED_CAMERA_REPORTED"
        else "UNKNOWN"),
      text "camera_image_count_status"
        (if 1 ≤ count then "REPORTED"
        else if count = 0 then "ZERO_OR_EXTENSION_UNAVAILABLE"
        else "UNQUALIFIED_NEGATIVE"),
      text "camera_recording_time_status"
        (if u32At p 8 = 0 then "NOT_PROVIDED" else "REPORTED"),
      text "camera_capacity_status"
        (if (f32At p 12).lt (.ofRat 0) then "UNQUALIFIED_NEGATIVE" else "REPORTED")] ++
    (if 0 < count then [f "camera_image_count_reported" count] else []) ++
    (if 0 < u32At p 8 then
      [ff "camera_recording_time_s_reported" ((asF64 (u32At p 8)).div (.ofRat 1000))]
    else []) ++
    (if (F64.ofRat 0).le (f32At p 12) then
      [ff "camera_available_capacity_bytes_reported" ((f32At p 12).mul (.ofRat 1048576))]
    else []) }

def scaledImu (sensor : Int64) (p : List UInt8) : Decoded :=
  let temperature := i16At p 22
  { channel := .onboard
    tBootUs := some (bootUs p 0)
    fields :=
      [f "imu_sensor_index_reported" sensor] ++
      ([(4, "acceleration_m_s2", (F64.ofRat (980665 / 100000)).div (.ofRat 1000)),
          (10, "angular_velocity_rad_s", .ofRat (1 / 1000)),
          (16, "magnetic_field_t", .ofRat (1 / 10000000))].flatMap
        fun (offset, quantity, scale) =>
          [("x", 0), ("y", 2), ("z", 4)].map fun (axis, step) =>
            ff ("scaled_imu_" ++ quantity ++ "_" ++ axis)
              ((asF64 (i16At p (offset + step))).mul scale)) ++ [
      f "imu_temperature_cdeg_raw" temperature,
      ("imu_temperature_k", kelvinOrBlank temperature),
      text "imu_temperature_status" (temperatureStatus temperature)] }

def scaledPressure (sensor : Int64) (p : List UInt8) : Decoded :=
  let temperature := i16At p 14
  { channel := .onboard
    tBootUs := some (bootUs p 0)
    fields := [
      f "pressure_sensor_index_reported" sensor,
      ff "pressure_absolute_pa" ((f32At p 4).mul (.ofRat 100)),
      ff "pressure_differential_pa" ((f32At p 8).mul (.ofRat 100)),
      ff "pressure_temperature_k"
        (((asF64 (i16At p 12)).div (.ofRat 100)).add (.ofRat (27315 / 100))),
      f "differential_temperature_cdeg_raw" temperature,
      ("differential_temperature_k", kelvinOrBlank temperature),
      text "differential_temperature_status" (temperatureStatus temperature)] }

def distanceSensor (p : List UInt8) : Decoded :=
  let time := u32At p 0
  let covariance := u8At p 13
  let quality := u8At p 38
  { channel := .onboard
    tBootUs := some (time.toUInt64 * 1000)
    fields :=
      [f "DISTANCE_SENSOR.time_boot_ms" time] ++
      ([("min_distance_m", 4), ("max_distance_m", 6), ("reported_distance_m", 8)].map
        fun (name, offset) =>
          ff ("DISTANCE_SENSOR." ++ name) ((asF64 (u16At p offset)).div (.ofRat 100))) ++
      ([("type_code", 10), ("sensor_id", 11), ("orientation_code", 12),
          ("variance_cm2_raw", 13), ("signal_quality_percent_raw", 38)].map
        fun (name, offset) => f ("DISTANCE_SENSOR." ++ name) (u8At p offset)) ++
      [("DISTANCE_SENSOR.variance_m2",
        if covariance = 255 then .blank
        else .f64 ((asF64 covariance).div (.ofRat 10000)))] ++
      ([("horizontal_fov_rad", 14), ("vertical_fov_rad", 18)].map fun (name, offset) =>
        let value := f32At p offset
        ("DISTANCE_SENSOR." ++ name, if value.eq (.ofRat 0) then .blank else .f64 value)) ++
      (["w", "x", "y", "z"].zipIdx.map fun (axis, index) =>
        ff ("DISTANCE_SENSOR." ++ ("orientation_quaternion_" ++ axis ++ "_reported"))
          (f32At p (22 + index * 4))) ++ [
      text "DISTANCE_SENSOR.range_state"
        (if quality = 1 then "INVALID_SIGNAL"
        else if u16At p 8 < u16At p 4 ∨ u16At p 6 < u16At p 8 then "OUTSIDE_DECLARED_RANGE"
        else "WITHIN_DECLARED_RANGE_NOT_PHYSICAL_VALIDATION"),
      text "DISTANCE_SENSOR.signal_quality_state"
        (if quality = 0 then "NOT_PROVIDED"
        else if quality = 1 then "INVALID_SIGNAL"
        else "REPORTED_PERCENT")] }

/-- A voltage slot of the ten cells or of the four that came later: its value, where it has one,
and its status. -/
def batterySlot (p : List UInt8) (index : ℕ) : Fields :=
  let raw := u16At p (if index < 10 then 10 + index * 2 else 41 + (index - 10) * 2)
  let (missing, status) : Bool × String :=
    if index < 10 then
      (raw = 65535, if raw = 65535 then "ABSENT_SLOT" else "CELL_OR_AGGREGATE_SEGMENT")
    else
      (raw ≤ 1,
        if raw = 0 then "NOT_SUPPORTED_OR_ABSENT"
        else if raw = 1 then "ZERO_OR_ONE_MV_AMBIGUOUS"
        else "REPORTED_EXTENSION_SLOT")
  [("battery_voltage_slot_v_" ++ (index + 1).repr,
      if missing then .blank else .f64 ((asF64 raw).mul (.ofRat (1 / 1000)))),
    text ("battery_voltage_slot_status_" ++ (index + 1).repr) status]

def batteryStatus (p : List UInt8) : Decoded :=
  let temperature := i16At p 8
  { channel := .event
    fields := [
      f "battery_id_reported" (u8At p 32),
      f "battery_function_code_reported" (u8At p 33),
      f "battery_type_code_reported" (u8At p 34),
      f "battery_charge_state_code_reported" (u8At p 40),
      f "battery_mode_code_reported" (u8At p 49),
      f "battery_fault_mask_reported" (u32At p 50),
      value "battery_current_a" (i16At p 30) (-1) (.ofRat (1 / 100)),
      value "battery_consumed_ah" (i32At p 0) (-1) (.ofRat (1 / 1000)),
      value "battery_consumed_j" (i32At p 4) (-1) (.ofRat 100),
      value "battery_remaining_fraction" (i8At p 35) (-1) (.ofRat (1 / 100)),
      value "battery_time_remaining_s" (i32At p 36) 0 (.ofRat 1),
      ("battery_temperature_k",
        if temperature = 32767 then .blank
        else .f64 (((asF64 temperature).mul (.ofRat (1 / 100))).add (.ofRat (27315 / 100)))),
      text "battery_current_sign_basis" "SOURCE_REPORTED_SIGN_NOT_INFERRED",
      text "battery_fault_mask_applicability"
        (if u8At p 40 = 5 ∨ u8At p 40 = 6 then "FAILED_OR_UNHEALTHY_REPORTED"
        else "NOT_INTERPRETED_FOR_THIS_CHARGE_STATE")] ++
      (List.range 14).flatMap (batterySlot p) }

def autopilotVersion (p : List UInt8) : Decoded :=
  let version := u32At p 16
  let release := version &&& 255
  let channel :=
    if 0 ≤ release ∧ release ≤ 63 then "DEV"
    else if 64 ≤ release ∧ release ≤ 127 then "ALPHA"
    else if 128 ≤ release ∧ release ≤ 191 then "BETA"
    else if 192 ≤ release ∧ release ≤ 254 then "RC"
    else "OFFICIAL"
  let uid2 := bytesAt 18 p 60
  let uidKind :=
    if uid2.any (· ≠ 0) then "UID2" else if u64At p 8 ≠ 0 then "UID" else "NOT_PROVIDED"
  { fields :=
      ([("flight_sw_version", version), ("major", version >>> 24),
          ("minor", (version >>> 16) &&& 255), ("patch", (version >>> 8) &&& 255),
          ("release_type_code", release), ("middleware_sw_version", u32At p 20),
          ("os_sw_version", u32At p 24), ("board_version", u32At p 28),
          ("vendor_id", u16At p 32), ("product_id", u16At p 34)].map
        fun (name, value) => f ("AUTOPILOT_VERSION." ++ name) value) ++
      ([("release_channel_reported", channel), ("uid_preference_reported", uidKind),
          ("identity_basis", "SELF_REPORTED_NOT_AUTHENTICATED"),
          ("capabilities_hex", hexLower (beBytes 8 (u64At p 0).toNat)),
          ("uid_hex", hexLower (beBytes 8 (u64At p 8).toNat)), ("uid2_hex", hexLower uid2)].map
        fun (name, value) => text ("AUTOPILOT_VERSION." ++ name) value) ++
      ([("flight", 36), ("middleware", 44), ("os", 52)].map fun (name, offset) =>
        text ("AUTOPILOT_VERSION." ++ (name ++ "_custom_bytes_hex"))
          (hexLower (bytesAt 8 p offset))) }

/-- Six numbers after the time, in a frame. -/
def motion (source : String) (names : List String) (frame : String) (p : List UInt8) :
    Decoded where
  tBootUs := some (bootUs p 0)
  fields :=
    [f (source ++ ".time_boot_ms") (u32At p 0)] ++
    (names.zipIdx.map fun (name, index) =>
      ff (source ++ ("." ++ name)) (f32At p (4 + index * 4))) ++
    [text (source ++ ".frame") frame]

def attitude (p : List UInt8) : Decoded :=
  motion "ATTITUDE"
    ["roll_rad", "pitch_rad", "yaw_rad", "rollspeed_rad_s", "pitchspeed_rad_s",
      "yawspeed_rad_s"]
    "AERONAUTICAL_Z_DOWN_Y_RIGHT_X_FRONT_INTRINSIC_ZYX" p

def localPositionNed (p : List UInt8) : Decoded :=
  motion "LOCAL_POSITION_NED"
    ["north_m", "east_m", "down_m", "north_velocity_m_s", "east_velocity_m_s",
      "down_velocity_m_s"]
    "LOCAL_NED_ORIGIN_UNSPECIFIED" p

/-- The name of a code in a table, or the code itself. -/
def nameOfCode (names : List String) (code : ℕ) : String :=
  (names[code]?).getD ("UNKNOWN_" ++ code.repr)

def heartbeat (p : List UInt8) : Decoded where
  channel := .heartbeat
  fields := [
    f "HEARTBEAT.custom_mode" (u32At p 0),
    f "HEARTBEAT.type" (u8At p 4),
    f "HEARTBEAT.autopilot" (u8At p 5),
    f "HEARTBEAT.base_mode" (u8At p 6),
    f "HEARTBEAT.reported_armed" (flag (u8At p 6 &&& 128 ≠ 0)),
    f "HEARTBEAT.system_status" (u8At p 7),
    f "HEARTBEAT.mavlink_version" (u8At p 8),
    text "system_state_reported"
      (nameOfCode
        ["UNINIT", "BOOT", "CALIBRATING", "STANDBY", "ACTIVE", "CRITICAL", "EMERGENCY",
          "POWEROFF", "FLIGHT_TERMINATION"]
        (u8At p 7).toNatClampNeg)]

def sysStatus (p : List UInt8) : Decoded where
  channel := .event
  fields := [
    f "SYS_STATUS.onboard_control_sensors_present" (u32At p 0),
    f "SYS_STATUS.onboard_control_sensors_enabled" (u32At p 4),
    f "SYS_STATUS.onboard_control_sensors_health" (u32At p 8),
    f "SYS_STATUS.load" (u16At p 12),
    f "SYS_STATUS.voltage_battery" (u16At p 14),
    f "SYS_STATUS.current_battery" (i16At p 16),
    f "SYS_STATUS.drop_rate_comm" (u16At p 18),
    f "SYS_STATUS.errors_comm" (u16At p 20),
    f "SYS_STATUS.battery_remaining" (i8At p 30)] ++
    ((List.range 4).map fun index =>
      f ("SYS_STATUS.errors_count" ++ (index + 1).repr) (u16At p (22 + index * 2))) ++ [
    value "battery_voltage_v" (u16At p 14) 65535 (.ofRat (1 / 1000)),
    value "battery_current_a" (i16At p 16) (-1) (.ofRat (1 / 100)),
    value "battery_remaining_fraction" (i8At p 30) (-1) (.ofRat (1 / 100)),
    ff "communication_drop_fraction" ((asF64 (u16At p 18)).div (.ofRat 10000))]

def missionCurrent (p : List UInt8) : Decoded :=
  let total := u16At p 2
  let mode := u8At p 5
  { channel := .event
    fields := [
      f "MISSION_CURRENT.seq" (u16At p 0),
      f "MISSION_CURRENT.total" (u16At p 2),
      f "MISSION_CURRENT.mission_state" (u8At p 4),
      f "MISSION_CURRENT.mission_mode" (u8At p 5),
      f "mission_current_sequence" (u16At p 0),
      text "mission_state_reported"
        (nameOfCode ["UNKNOWN", "NO_MISSION", "NOT_STARTED", "ACTIVE", "PAUSED", "COMPLETE"]
          (u8At p 4).toNatClampNeg),
      ("mission_total_items", if total = 0 ∨ total = 65535 then .blank else .i64 total),
      text "mission_total_disposition"
        (if total = 0 then "NOT_SUPPORTED"
        else if total = 65535 then "NO_MISSION_REPORTED"
        else "REPORTED_EXCLUDING_HOME"),
      text "mission_mode_reported"
        (nameOfCode ["UNKNOWN", "MISSION_MODE_REPORTED", "SUSPENDED_REPORTED"]
          mode.toNatClampNeg)] ++
      ([("mission_plan_id_reported", 6), ("fence_plan_id_reported", 10),
          ("rally_plan_id_reported", 14)].map fun (name, offset) =>
        let id := u32At p offset
        (name, if id = 0 then .blank else .i64 id)) }

def missionItemReached (p : List UInt8) : Decoded where
  channel := .event
  fields := [
    f "MISSION_ITEM_REACHED.seq" (u16At p 0),
    f "mission_item_reached_sequence_reported" (u16At p 0),
    text "mission_reach_disposition" "REPORTED_NOT_PHYSICAL_VERIFICATION"]

/-- A time before the year 2000 is no anchor. -/
def systemTime (p : List UInt8) : Decoded :=
  let unix := u64At p 0
  { fields := [
      f "SYSTEM_TIME.time_unix_usec" unix.toInt64,
      f "SYSTEM_TIME.time_boot_ms" (u32At p 8)]
    tBootUs := some (bootUs p 8)
    anchorUnixUs := if 946684800000000 < unix then some unix.toInt64 else none }

def gpsFixType (code : Int64) : String :=
  (["NO_GPS", "NO_FIX", "2D_FIX", "3D_FIX", "DGPS", "RTK_FLOAT", "RTK_FIXED", "STATIC",
    "PPP"][code.toNatClampNeg]?).getD "UNKNOWN_RETAINED"

def gpsRawInt (p : List UInt8) : Decoded :=
  let t := u64At p 0
  let latitude := (asF64 (i32At p 8)).div (.ofRat 10000000)
  let longitude := (asF64 (i32At p 12)).div (.ofRat 10000000)
  let latitudeInDomain := F64.within (.ofRat (-90)) (.ofRat 90) latitude
  let longitudeInDomain := F64.within (.ofRat (-180)) (.ofRat 180) longitude
  { channel := .gpsEkf
    tBootUs := if t < 1000000000000000 then some t else none
    fields := [
      f "GPS_RAW_INT.time_usec" t.toInt64,
      f "GPS_RAW_INT.lat" (i32At p 8),
      f "GPS_RAW_INT.lon" (i32At p 12),
      f "GPS_RAW_INT.eph" (u16At p 20),
      f "GPS_RAW_INT.vel" (u16At p 24),
      f "GPS_RAW_INT.fix_type" (u8At p 28),
      f "GPS_RAW_INT.satellites_visible" (u8At p 29),
      text "gps_fix_type_reported" (gpsFixType (u8At p 28)),
      ("gps_satellites_visible_reported",
        if u8At p 29 = 255 then .blank else .i64 (u8At p 29)),
      ("gps_ground_speed_m_s_reported",
        if u16At p 24 = 65535 then .blank else .f64 ((asF64 (u16At p 24)).div (.ofRat 100))),
      ("gps_hdop_reported",
        if u16At p 20 = 65535 then .blank else .f64 ((asF64 (u16At p 20)).div (.ofRat 100))),
      text "gps_rtk_status_basis"
        ("REPORTED_FIX_TYPE_ONLY_CORRECTION_LINK_BASE_STATION_AND_AUTHENTICATION_ABSENT_FROM_"
          ++ "THIS_MESSAGE_WHILE_UNCERTAINTY_EXTENSION_FIELDS_EXIST_BUT_ARE_NOT_DECODED_IN_"
          ++ "THIS_PATH"),
      text "gps_channel_basis" "SHARED_CHANNEL_NAME_ONLY_NOT_A_FUSED_OR_EKF_SOLUTION",
      ("gps_latitude_deg_reported", if latitudeInDomain then .f64 latitude else .blank),
      ("gps_longitude_deg_reported", if longitudeInDomain then .f64 longitude else .blank),
      text "gps_coordinate_domain_disposition"
        (match latitudeInDomain, longitudeInDomain with
        | true, true => "WITHIN_DECLARED_DEGREE_DOMAIN"
        | false, true => "LATITUDE_OUTSIDE_DEGREE_DOMAIN_DERIVED_VALUE_WITHHELD"
        | true, false => "LONGITUDE_OUTSIDE_DEGREE_DOMAIN_DERIVED_VALUE_WITHHELD"
        | false, false => "BOTH_OUTSIDE_DEGREE_DOMAIN_DERIVED_VALUES_WITHHELD")] }

def globalPositionInt (p : List UInt8) : Decoded where
  channel := .gpsEkf
  tBootUs := some (bootUs p 0)
  fields := [
    f "GLOBAL_POSITION_INT.time_boot_ms" (u32At p 0),
    f "GLOBAL_POSITION_INT.lat" (i32At p 4),
    f "GLOBAL_POSITION_INT.lon" (i32At p 8),
    f "GLOBAL_POSITION_INT.alt" (i32At p 12)]

/-- No channels are no input. -/
def rcChannels (p : List UInt8) : Decoded where
  channel := .rc
  tBootUs := some (bootUs p 0)
  stale := u8At p 40 = 0
  fields := [
    f "RC_CHANNELS.time_boot_ms" (u32At p 0),
    f "RC_CHANNELS.chan1_raw" (u16At p 4),
    f "RC_CHANNELS.chan3_raw" (u16At p 8),
    f "RC_CHANNELS.chancount" (u8At p 40),
    f "RC_CHANNELS.rssi" (u8At p 41)]

def radioStatus (p : List UInt8) : Decoded where
  channel := .linkStats
  fields := [
    f "RADIO_STATUS.rxerrors" (u16At p 0),
    f "RADIO_STATUS.fixed" (u16At p 2),
    f "RADIO_STATUS.rssi" (u8At p 4),
    f "RADIO_STATUS.remrssi" (u8At p 5),
    f "RADIO_STATUS.txbuf" (u8At p 6),
    f "RADIO_STATUS.noise" (u8At p 7),
    f "RADIO_STATUS.remnoise" (u8At p 8)]

def ekfStatusReport (p : List UInt8) : Decoded where
  channel := .gpsEkf
  fields := [
    ff "EKF_STATUS_REPORT.velocity_variance" (f32At p 0),
    ff "EKF_STATUS_REPORT.pos_horiz_variance" (f32At p 4),
    ff "EKF_STATUS_REPORT.compass_variance" (f32At p 12),
    f "EKF_STATUS_REPORT.flags" (u16At p 20)]

def statustext (p : List UInt8) : Decoded where
  channel := .event
  fields := [
    f "STATUSTEXT.severity" (u8At p 0),
    text "STATUSTEXT.text" (fromUtf8Lossy ((bytesAt 50 p 1).takeWhile (· ≠ 0)))]

def decode (msgid : UInt32) (p : List UInt8) : Decoded :=
  match msgid.toNat with
  | 20 => paramRequestRead p
  | 22 => paramValue p
  | 62 => navControllerOutput p
  | 270 => videoStreamStatus p
  | 262 => cameraCaptureStatus p
  | 26 => scaledImu 1 p
  | 116 => scaledImu 2 p
  | 129 => scaledImu 3 p
  | 29 => scaledPressure 1 p
  | 137 => scaledPressure 2 p
  | 143 => scaledPressure 3 p
  | 132 => distanceSensor p
  | 147 => batteryStatus p
  | 148 => autopilotVersion p
  | 30 => attitude p
  | 32 => localPositionNed p
  | 0 => heartbeat p
  | 1 => sysStatus p
  | 42 => missionCurrent p
  | 46 => missionItemReached p
  | 2 => systemTime p
  | 24 => gpsRawInt p
  | 33 => globalPositionInt p
  | 65 => rcChannels p
  | 109 => radioStatus p
  | 193 => ekfStatusReport p
  | 253 => statustext p
  | other => { fields := [f "msgid" (.ofNat other)] }

/-! ## 4. What is reported beside it -/

def baseSensors : List String :=
  ["gyro3d", "accel3d", "mag3d", "absolute_pressure", "differential_pressure", "gps",
    "optical_flow", "vision_position", "laser_position", "external_ground_truth",
    "angular_rate_control", "attitude_stabilization", "yaw_position", "altitude_control",
    "xy_position_control", "motor_outputs", "rc_receiver", "gyro3d_2", "accel3d_2", "mag3d_2",
    "geofence", "ahrs", "terrain", "reverse_motor", "logging", "battery", "proximity", "satcom",
    "prearm_check", "obstacle_avoidance", "propulsion"]

def extendedSensors : List String :=
  ["recovery_system", "leak", "gyro3d_3", "accel3d_3", "gyro3d_4", "accel3d_4", "mag3d_3",
    "mag3d_4"]

/-- The three masks sensor by sensor; the extended ones count where the message declares them
and the wire can carry them. -/
def reportedSensorStatus (p : List UInt8) (wireV2 : Bool) : Fields :=
  let declared := bit (u32At p 0) 31
  let available := declared && wireV2
  [f "SYS_STATUS.extended_declared_reported" (flag declared),
    text "SYS_STATUS.extended_interpretation"
      (if available then "DECLARED_MAVLINK2" else "NOT_DECLARED_OR_MAVLINK1"),
    ff "SYS_STATUS.mainloop_load_fraction_reported" ((asF64 (u16At p 12)).div (.ofRat 1000))] ++
  ["present", "enabled", "healthy"].zipIdx.flatMap fun (state, index) =>
    let mask := u32At p (index * 4)
    let extended := u32At p (31 + index * 4)
    (baseSensors.zipIdx.map fun (name, i) =>
      f ("SYS_STATUS." ++ (name ++ "." ++ state ++ "_reported")) (flag (bit mask i))) ++
    [("SYS_STATUS." ++ (state ++ "_extended_raw"),
        if wireV2 then .i64 extended else .blank),
      ("SYS_STATUS." ++ (state ++ "_extended_unknown_bits"),
        if available then .i64 (extended &&& ~~~255) else .blank)] ++
    extendedSensors.zipIdx.map fun (name, i) =>
      ("SYS_STATUS." ++ (name ++ "." ++ state ++ "_reported"),
        if available then .i64 (flag (bit extended i)) else .blank)

/-- One of the eighteen channels, counted from one. -/
def rcChannelFields (p : List UInt8) (channel : ℕ) : Fields :=
  let count := u8At p 40
  let raw := u16At p (4 + (channel - 1) * 2)
  [f ("RC_CHANNELS." ++ ("channel" ++ channel.repr ++ "_raw")) raw,
    text ("RC_CHANNELS." ++ ("channel" ++ channel.repr ++ "_basis"))
      (if raw = 65535 then "UNUSED_UINT16_MAX"
      else if count = 0 then "VALUE_PRESENT_BUT_NO_CHANNELS_REPORTED"
      else "REPORTED_DURATION_US_NOT_OPERATOR_INTENT")] ++
  if raw ≠ 65535 ∧ count ≠ 0 then
    [f ("RC_CHANNELS." ++ ("channel" ++ channel.repr ++ "_duration_us")) raw]
  else []

def reportedRcChannels (p : List UInt8) : Fields :=
  let count := u8At p 40
  (List.range' 1 18).flatMap (rcChannelFields p) ++
  [text "RC_CHANNELS.count_basis"
      (if 18 < count then "MORE_CHANNELS_REPORTED_THAN_THIS_MESSAGE_CARRIES"
      else if count = 0 then "NO_CHANNELS_AVAILABLE_REPORTED"
      else "REPORTED_CHANNEL_COUNT"),
    text "RC_CHANNELS.rssi_basis"
      (if u8At p 41 = 255 then "UNAVAILABLE_UINT8_MAX" else "DEVICE_DEPENDENT_RAW_SCALE")]

/-- A message with what is asked for beside it. -/
def decodeWith (rcChannelsToo wireV2 : Bool) (msgid : UInt32) (p : List UInt8) : Decoded :=
  let d := decode msgid p
  { d with
    fields := d.fields ++ (if msgid = 65 ∧ rcChannelsToo then reportedRcChannels p else []) ++
      if msgid = 1 then reportedSensorStatus p wireV2 else [] }

/-! ## 5. Names -/

/-- A name outside the namespace of the reader. -/
def OwnName (name : String) : Prop := ¬ "MAVLINK.".toList <+: name.toList

theorem ownName_ofList {cs : List Char} (h : ¬ ['M', 'A', 'V', 'L', 'I', 'N', 'K', '.'] <+: cs) :
    OwnName (String.ofList cs) := by
  have hcs : (String.ofList cs).toList = cs := String.toList_ofList
  rw [OwnName, hcs]
  exact h

/-- The source of a name keeps it out of the namespace, whatever follows. -/
theorem ownName_append {source : List Char}
    (hs : ¬ ['M', 'A', 'V', 'L', 'I', 'N', 'K', '.'] <+: source)
    (hm : ¬ source <+: ['M', 'A', 'V', 'L', 'I', 'N', 'K', '.']) (name : String) :
    OwnName (String.ofList source ++ name) := by
  intro h
  have hsource : (String.ofList source ++ name).toList = source ++ name.toList := by simp
  rw [hsource] at h
  have hfront : source <+: source ++ name.toList := List.prefix_append _ _
  rcases Nat.le_total 8 source.length with hle | hle
  · exact hs (List.prefix_of_prefix_length_le h hfront hle)
  · exact hm (List.prefix_of_prefix_length_le hfront h hle)

def OwnNames (fields : Fields) : Prop := ∀ field ∈ fields, OwnName field.1

section OwnNames

variable {fields more : Fields}

@[simp] theorem ownNames_nil : OwnNames [] := List.forall_mem_nil _

@[simp] theorem ownNames_cons {field : String × FieldValue} :
    OwnNames (field :: fields) ↔ OwnName field.1 ∧ OwnNames fields := List.forall_mem_cons

@[simp] theorem ownNames_append :
    OwnNames (fields ++ more) ↔ OwnNames fields ∧ OwnNames more := List.forall_mem_append

@[simp] theorem ownNames_map {α : Type} {g : α → String × FieldValue} {l : List α} :
    OwnNames (l.map g) ↔ ∀ a ∈ l, OwnName (g a).1 := List.forall_mem_map

@[simp] theorem ownNames_flatMap {α : Type} {g : α → Fields} {l : List α} :
    OwnNames (l.flatMap g) ↔ ∀ a ∈ l, OwnNames (g a) := by
  simp only [OwnNames, List.mem_flatMap, forall_exists_index, and_imp]
  exact ⟨fun h a ha field hf => h field a ha hf, fun h field a ha hf => h a ha field hf⟩

@[simp] theorem ownNames_ite {c : Prop} [Decidable c] :
    OwnNames (if c then fields else more) ↔ (c → OwnNames fields) ∧ (¬ c → OwnNames more) := by
  split <;> simp [*]

end OwnNames

section Messages

variable (p : List UInt8)

-- The messages whose names are written out.

theorem ownNames_paramRequestRead : OwnNames (paramRequestRead p).fields := by
  simp only [paramRequestRead, ownNames_cons, ownNames_nil, and_true]
  and_intros <;> exact ownName_ofList (by decide)

theorem ownNames_paramValue : OwnNames (paramValue p).fields := by
  simp only [paramValue, ownNames_cons, ownNames_nil, and_true]
  and_intros <;> exact ownName_ofList (by decide)

theorem ownNames_videoStreamStatus : OwnNames (videoStreamStatus p).fields := by
  simp only [videoStreamStatus, ownNames_cons, ownNames_nil, and_true]
  and_intros <;> exact ownName_ofList (by decide)

theorem ownNames_heartbeat : OwnNames (heartbeat p).fields := by
  simp only [heartbeat, ownNames_cons, ownNames_nil, and_true]
  and_intros <;> exact ownName_ofList (by decide)

theorem ownNames_missionItemReached : OwnNames (missionItemReached p).fields := by
  simp only [missionItemReached, ownNames_cons, ownNames_nil, and_true]
  and_intros <;> exact ownName_ofList (by decide)

theorem ownNames_systemTime : OwnNames (systemTime p).fields := by
  simp only [systemTime, ownNames_cons, ownNames_nil, and_true]
  and_intros <;> exact ownName_ofList (by decide)

theorem ownNames_gpsRawInt : OwnNames (gpsRawInt p).fields := by
  simp only [gpsRawInt, ownNames_cons, ownNames_nil, and_true]
  and_intros <;> exact ownName_ofList (by decide)

theorem ownNames_globalPositionInt : OwnNames (globalPositionInt p).fields := by
  simp only [globalPositionInt, ownNames_cons, ownNames_nil, and_true]
  and_intros <;> exact ownName_ofList (by decide)

theorem ownNames_rcChannels : OwnNames (rcChannels p).fields := by
  simp only [rcChannels, ownNames_cons, ownNames_nil, and_true]
  and_intros <;> exact ownName_ofList (by decide)

theorem ownNames_radioStatus : OwnNames (radioStatus p).fields := by
  simp only [radioStatus, ownNames_cons, ownNames_nil, and_true]
  and_intros <;> exact ownName_ofList (by decide)

theorem ownNames_ekfStatusReport : OwnNames (ekfStatusReport p).fields := by
  simp only [ekfStatusReport, ownNames_cons, ownNames_nil, and_true]
  and_intros <;> exact ownName_ofList (by decide)

theorem ownNames_statustext : OwnNames (statustext p).fields := by
  simp only [statustext, ownNames_cons, ownNames_nil, and_true]
  and_intros <;> exact ownName_ofList (by decide)

theorem ownNames_cameraCaptureStatus : OwnNames (cameraCaptureStatus p).fields := by
  simp only [cameraCaptureStatus, ownNames_append, ownNames_ite, ownNames_cons, ownNames_nil,
    implies_true, and_true]
  and_intros <;> first
    | exact ownName_ofList (by decide)
    | exact fun _ => ownName_ofList (by decide)

theorem ownNames_scaledPressure (sensor : Int64) : OwnNames (scaledPressure sensor p).fields := by
  simp only [scaledPressure, ownNames_cons, ownNames_nil, and_true]
  and_intros <;> exact ownName_ofList (by decide)

theorem ownNames_missionCurrent : OwnNames (missionCurrent p).fields := by
  simp only [missionCurrent, ownNames_append, ownNames_cons, ownNames_nil, List.map_cons,
    List.map_nil, and_true]
  and_intros <;> exact ownName_ofList (by decide)

-- The messages whose names are put together: what they begin with decides.

theorem ownNames_navControllerOutput : OwnNames (navControllerOutput p).fields := by
  simp only [navControllerOutput, ownNames_append, ownNames_map, ownNames_cons, ownNames_nil,
    and_true]
  refine ⟨fun a _ => ownName_append (by decide) (by decide) _, ?_⟩
  and_intros <;> exact ownName_ofList (by decide)

theorem ownNames_scaledImu (sensor : Int64) : OwnNames (scaledImu sensor p).fields := by
  simp only [scaledImu, ownNames_append, ownNames_flatMap, ownNames_map, ownNames_cons,
    ownNames_nil, and_true]
  refine ⟨⟨ownName_ofList (by decide), fun a _ b _ => ?_⟩, ?_⟩
  · rw [ff_name, String.append_assoc, String.append_assoc]
    exact ownName_append (by decide) (by decide) _
  · and_intros <;> exact ownName_ofList (by decide)

theorem ownNames_distanceSensor : OwnNames (distanceSensor p).fields := by
  have hname (name : String) : OwnName ("DISTANCE_SENSOR." ++ name) :=
    ownName_append (by decide) (by decide) name
  simp only [distanceSensor, ownNames_append, ownNames_map, f_name, ff_name, hname,
    ownNames_cons, ownNames_nil, implies_true, and_true]
  and_intros <;> exact ownName_ofList (by decide)

theorem ownNames_batterySlot (index : ℕ) : OwnNames (batterySlot p index) := by
  simp only [batterySlot, ownNames_cons, ownNames_nil, and_true]
  exact ⟨ownName_append (by decide) (by decide) _, ownName_append (by decide) (by decide) _⟩

theorem ownNames_batteryStatus : OwnNames (batteryStatus p).fields := by
  simp only [batteryStatus, ownNames_append, ownNames_flatMap, ownNames_batterySlot,
    ownNames_cons, ownNames_nil, implies_true, and_true]
  and_intros <;> exact ownName_ofList (by decide)

theorem ownNames_autopilotVersion : OwnNames (autopilotVersion p).fields := by
  have hname (name : String) : OwnName ("AUTOPILOT_VERSION." ++ name) :=
    ownName_append (by decide) (by decide) name
  simp only [autopilotVersion, ownNames_append, ownNames_map, f_name, text_name, hname,
    implies_true, and_true]

theorem ownNames_attitude : OwnNames (attitude p).fields := by
  simp only [attitude, motion, ownNames_append, ownNames_map, ownNames_cons, ownNames_nil,
    and_true]
  refine ⟨⟨?_, fun a _ => ?_⟩, ?_⟩ <;> exact ownName_append (by decide) (by decide) _

theorem ownNames_localPositionNed : OwnNames (localPositionNed p).fields := by
  simp only [localPositionNed, motion, ownNames_append, ownNames_map, ownNames_cons,
    ownNames_nil, and_true]
  refine ⟨⟨?_, fun a _ => ?_⟩, ?_⟩ <;> exact ownName_append (by decide) (by decide) _

theorem ownNames_sysStatus : OwnNames (sysStatus p).fields := by
  simp only [sysStatus, ownNames_append, ownNames_map, ownNames_cons, ownNames_nil, and_true]
  refine ⟨⟨?_, fun a _ => ownName_append (by decide) (by decide) _⟩, ?_⟩ <;>
    and_intros <;> exact ownName_ofList (by decide)

theorem ownNames_decode (msgid : UInt32) : OwnNames (decode msgid p).fields := by
  unfold decode
  split
  · exact ownNames_paramRequestRead p
  · exact ownNames_paramValue p
  · exact ownNames_navControllerOutput p
  · exact ownNames_videoStreamStatus p
  · exact ownNames_cameraCaptureStatus p
  · exact ownNames_scaledImu p 1
  · exact ownNames_scaledImu p 2
  · exact ownNames_scaledImu p 3
  · exact ownNames_scaledPressure p 1
  · exact ownNames_scaledPressure p 2
  · exact ownNames_scaledPressure p 3
  · exact ownNames_distanceSensor p
  · exact ownNames_batteryStatus p
  · exact ownNames_autopilotVersion p
  · exact ownNames_attitude p
  · exact ownNames_localPositionNed p
  · exact ownNames_heartbeat p
  · exact ownNames_sysStatus p
  · exact ownNames_missionCurrent p
  · exact ownNames_missionItemReached p
  · exact ownNames_systemTime p
  · exact ownNames_gpsRawInt p
  · exact ownNames_globalPositionInt p
  · exact ownNames_rcChannels p
  · exact ownNames_radioStatus p
  · exact ownNames_ekfStatusReport p
  · exact ownNames_statustext p
  · exact ownNames_cons.mpr ⟨ownName_ofList (by decide), ownNames_nil⟩

theorem ownNames_reportedSensorStatus (wireV2 : Bool) :
    OwnNames (reportedSensorStatus p wireV2) := by
  have hname (name : String) : OwnName ("SYS_STATUS." ++ name) :=
    ownName_append (by decide) (by decide) name
  simp only [reportedSensorStatus, ownNames_append, ownNames_flatMap, ownNames_map, f_name, hname,
    ownNames_cons, ownNames_nil, implies_true, and_true]
  and_intros <;> exact ownName_ofList (by decide)

theorem ownNames_reportedRcChannels : OwnNames (reportedRcChannels p) := by
  have hname (name : String) : OwnName ("RC_CHANNELS." ++ name) :=
    ownName_append (by decide) (by decide) name
  simp only [reportedRcChannels, rcChannelFields, ownNames_append, ownNames_flatMap, f_name,
    text_name, hname, ownNames_ite, ownNames_cons, ownNames_nil, implies_true, and_true, true_and]
  and_intros <;> exact ownName_ofList (by decide)

/-- **No message reports under a name of the reader.** The names are literals, except for those
that a message carries in its payload, which have a prefix in front. -/
theorem ownNames_decodeWith (rcChannelsToo wireV2 : Bool) (msgid : UInt32) :
    OwnNames (decodeWith rcChannelsToo wireV2 msgid p).fields := by
  simp [decodeWith, ownNames_decode, ownNames_reportedRcChannels,
    ownNames_reportedSensorStatus]

end Messages

end Musubi.Reference.Tlog
