/-
# The DataFlash writer

`reference-writers/src/bin.rs`: the events of a flight controller as a log that describes itself.
The log begins with the definitions of all types of records and with what the vehicle says of
itself, and it ends before the first event of another boot.

A record is built value by value, and it is finished only when its values take what its definition
declares; in the source the check is an assertion on the length of a buffer.  Here a record keeps
its values, each with the width in which it is written, so that what was written can be compared
with what is read value by value.  That the assertion never fails is a property of the records
that are made of events (`typed_recs`), and with it the log is a concatenation (`eq_of_render`).

Two values go from one event to the next, the number of the next text and the last heading; an
event that has no heading repeats the last one.
-/
import Musubi.FloatSingle
import Musubi.Lib.Saturating
import Musubi.Lib.Words
import Musubi.Reference.Scalars
import Musubi.Scenario.Timeline

namespace Musubi.Writers.Bin

open Lib Lib.Checked Musubi.Core Reference Scenario

/-! ## 1. Definitions -/

def head : List UInt8 := [0xA3, 0x95]

def fmtMsgid : UInt8 := 128

structure MsgDef where
  msgid : UInt8
  name : String
  format : String
  labels : String
deriving DecidableEq

def formatCharLen (c : UInt8) : ℕ :=
  match letter c with
  | 'a' => 64
  | 'b' | 'B' | 'M' => 1
  | 'h' | 'H' | 'c' | 'C' => 2
  | 'i' | 'I' | 'f' | 'e' | 'E' | 'L' => 4
  | 'd' | 'q' | 'Q' => 8
  | 'n' => 4
  | 'N' => 16
  | 'Z' => 64
  | _ => 0

def recordLen (format : String) : ℕ := 3 + ((utf8 format).map formatCharLen).sum

def defFmt : MsgDef := ⟨fmtMsgid, "FMT", "BBnNZ", "Type,Length,Name,Format,Columns"⟩

def defParm : MsgDef := ⟨32, "PARM", "QNff", "TimeUS,Name,Value,Default"⟩

def defGps : MsgDef :=
  ⟨129, "GPS", "QBBIHBcLLeffffB",
    "TimeUS,I,Status,GMS,GWk,NSats,HDop,Lat,Lng,Alt,Spd,GCrs,VZ,Yaw,U"⟩

def defGpa : MsgDef :=
  ⟨130, "GPA", "QBCCCCfBIHeHH", "TimeUS,I,VDop,HAcc,VAcc,SAcc,YAcc,VV,SMS,Delta,AEl,RTCMFU,RTCMFD"⟩

def defUbx1 : MsgDef :=
  ⟨131, "UBX1", "QBHBBHI", "TimeUS,Instance,noisePerMS,jamInd,aPower,agcCnt,config"⟩

def defXkf4 : MsgDef :=
  ⟨132, "XKF4", "QBcccccfffHBIHb", "TimeUS,C,SV,SP,SH,SM,SVT,errRP,OFN,OFE,FS,TS,SS,GPS,PI"⟩

def defBat : MsgDef :=
  ⟨133, "BAT", "QBfffffcfBBB", "TimeUS,Inst,Volt,VoltR,Curr,CurrTot,EnrgTot,Temp,Res,RemPct,H,SH"⟩

def defRcin : MsgDef :=
  ⟨134, "RCIN", "QHHHHHHHHHHHHHH", "TimeUS,C1,C2,C3,C4,C5,C6,C7,C8,C9,C10,C11,C12,C13,C14"⟩

def defRssi : MsgDef := ⟨135, "RSSI", "Qff", "TimeUS,RXRSSI,RXLQ"⟩

def defRad : MsgDef :=
  ⟨136, "RAD", "QBBBBBHH", "TimeUS,RSSI,RemRSSI,TxBuf,Noise,RemNoise,RxErrors,Fixed"⟩

def defMode : MsgDef := ⟨137, "MODE", "QMBB", "TimeUS,Mode,ModeNum,Rsn"⟩

def defAtt : MsgDef :=
  ⟨138, "ATT", "QccccCCCCB", "TimeUS,DesRoll,Roll,DesPitch,Pitch,DesYaw,Yaw,ErrRP,ErrYaw,AEKF"⟩

def defErr : MsgDef := ⟨139, "ERR", "QBB", "TimeUS,Subsys,ECode"⟩

def defEv : MsgDef := ⟨140, "EV", "QB", "TimeUS,Id"⟩

def defMsg : MsgDef := ⟨141, "MSG", "QBBZ", "TimeUS,ID,Seq,Message"⟩

def defArm : MsgDef := ⟨142, "ARM", "QBIBB", "TimeUS,ArmState,ArmChecks,Forced,Method"⟩

def defPowr : MsgDef := ⟨143, "POWR", "QffHHB", "TimeUS,Vcc,VServo,Flags,AccFlags,Safety"⟩

def defs : List MsgDef :=
  [defFmt, defParm, defMsg, defMode, defErr, defEv, defArm, defGps, defGpa, defUbx1, defXkf4,
    defBat, defPowr, defRcin, defRssi, defRad, defAtt]

/-! ## 2. Records -/

/-- The widths in which values are written. -/
inductive Width
  | u8 | i8 | u16 | i16 | u32 | i32 | u64 | f32
  | str (n : ℕ)
deriving DecidableEq

def Width.size : Width → ℕ
  | .u8 | .i8 => 1
  | .u16 | .i16 => 2
  | .u32 | .i32 | .f32 => 4
  | .u64 => 8
  | .str n => n

inductive Value
  | u8 (v : UInt8)
  | i8 (v : Int8)
  | u16 (v : UInt16)
  | i16 (v : Int16)
  | u32 (v : UInt32)
  | i32 (v : Int32)
  | u64 (v : UInt64)
  | f32 (v : F32)
  | str (s : String) (n : ℕ)

def Value.width : Value → Width
  | .u8 _ => .u8
  | .i8 _ => .i8
  | .u16 _ => .u16
  | .i16 _ => .i16
  | .u32 _ => .u32
  | .i32 _ => .i32
  | .u64 _ => .u64
  | .f32 _ => .f32
  | .str _ n => .str n

/-- What a value puts into the buffer. -/
def Value.bytes : Value → List UInt8
  | .u8 v => [v]
  | .i8 v => [v.toUInt8]
  | .u16 v => leBytes 2 v.toNat
  | .i16 v => leBytes 2 v.toUInt16.toNat
  | .u32 v => leBytes 4 v.toNat
  | .i32 v => leBytes 4 v.toUInt32.toNat
  | .u64 v => leBytes 8 v.toNat
  | .f32 v => leBytes 4 v.bits.toNat
  | .str s n => zeroPadded n (utf8 s)

theorem Value.length_bytes (v : Value) : v.bytes.length = v.width.size := by
  cases v <;> simp [bytes, width, Width.size]

/-- A record by its definition and the values that have been pushed into it. -/
structure Rec where
  msgDef : MsgDef
  values : List Value

namespace Rec

/-- The head of the record and its values. -/
def buf (r : Rec) : List UInt8 := head ++ r.msgDef.msgid :: r.values.flatMap Value.bytes

/-- Refused by an assertion unless the values take what the definition declares. -/
def finish {ε : Type} (r : Rec) : Checked ε (List UInt8) :=
  if r.buf.length = recordLen r.msgDef.format then .ok r.buf else .error .panic

end Rec

def fmtRec (d : MsgDef) : Rec :=
  ⟨defFmt, [.u8 d.msgid, .u8 (.ofNat (recordLen d.format)), .str d.name 4, .str d.format 16,
    .str d.labels 64]⟩

def fmtRecord {ε : Type} (d : MsgDef) : Checked ε (List UInt8) := (fmtRec d).finish

def parmRec (tUs : UInt64) (name : String) (value : F32) : Rec :=
  ⟨defParm, [.u64 tUs, .str name 16, .f32 value, .f32 value]⟩

def msgRec (tUs : UInt64) (seq : UInt8) (text : String) : Rec :=
  ⟨defMsg, [.u64 tUs, .u8 0, .u8 seq, .str text 64]⟩

def msgRecord {ε : Type} (tUs : UInt64) (seq : UInt8) (text : String) : Checked ε (List UInt8) :=
  (msgRec tUs seq text).finish

def armRec (tUs : UInt64) : Rec := ⟨defArm, [.u64 tUs, .u8 1, .u32 0, .u8 0, .u8 1]⟩

def parms : List (String × F32) :=
  [("SYSID_THISMAV", .ofRat 1), ("LOG_BITMASK", .ofRat 65535), ("LOG_DISARMED", .ofRat 0)]

def headerBlock {ε : Type} (tUs : UInt64) (vehicle : String) : Checked ε (List UInt8) := do
  let formats ← defs.mapM fmtRecord
  let settings ← parms.mapM fun p => (parmRec tUs p.1 p.2).finish
  let version ← msgRecord tUs 0 (vehicle ++ " V4.5.0 (synthetic)")
  let origin ← msgRecord tUs 1 "Musubi pre-demo synthetic dataflash (public format spec)"
  let arm ← (armRec tUs).finish
  return formats.flatten ++ settings.flatten ++ version ++ origin ++ arm

/-! ## 3. The writer -/

/-- The log so far, the counter of the next text, and the last heading. -/
structure Out where
  bytes : List UInt8
  msgSeq : UInt8
  lastHdgCdeg : UInt16

def write {ε : Type} (o : Out) (r : Rec) : Checked ε Out := do
  let bytes ← r.finish
  return { o with bytes := o.bytes ++ bytes }

def attRec (t : UInt64) (lastHdgCdeg : UInt16) : Rec :=
  let yaw := lastHdgCdeg / 100 * 100
  ⟨defAtt, [.u64 t, .i16 0, .i16 12, .i16 0, .i16 (-20), .u16 yaw, .u16 yaw, .u16 5, .u16 3,
    .u8 1]⟩

def batRec (t : UInt64) (voltageMv : UInt16) (batteryRemaining : Int8) : Rec :=
  let v := (F32.ofInt voltageMv.toNat).div (.ofRat 1000)
  ⟨defBat, [.u64 t, .u8 0, .f32 v, .f32 (v.add (.ofRat (2 / 10))), .f32 (.ofRat (85 / 10)),
    .f32 (.ofRat 0), .f32 (.ofRat 0), .i16 2500, .f32 (.ofRat (12 / 1000)),
    .u8 (max batteryRemaining 0).toUInt8, .u8 1, .u8 100]⟩

def powrRec (t : UInt64) : Rec :=
  ⟨defPowr, [.u64 t, .f32 (.ofRat (502 / 100)), .f32 (.ofRat 0), .u16 0, .u16 0, .u8 1]⟩

def gpsRec (t : UInt64) (week : UInt16 × UInt32) (fixType satellites : UInt8) (ephCm : UInt16)
    (latE7 lonE7 altMm : Int32) : Rec :=
  ⟨defGps, [.u64 t, .u8 0, .u8 fixType, .u32 week.2, .u16 week.1, .u8 satellites,
    .i16 ephCm.toInt16, .i32 latE7, .i32 lonE7, .i32 (altMm / 10), .f32 (.ofRat 1),
    .f32 (.ofRat 90), .f32 (.ofRat 0), .f32 (.ofRat 0), .u8 1]⟩

def gpaRec (t : UInt64) (ephCm : UInt16) (altMm : Int32) : Rec :=
  ⟨defGpa, [.u64 t, .u8 0, .u16 (satMulU16 ephCm 2), .u16 ephCm, .u16 (satMulU16 ephCm 2), .u16 50,
    .f32 (.ofRat 0), .u8 1, .u32 (t / 1000).toUInt32, .u16 200, .i32 (altMm / 10), .u16 0,
    .u16 0]⟩

def ubx1Rec (t : UInt64) (jamInd : UInt8) : Rec :=
  ⟨defUbx1, [.u64 t, .u8 0, .u16 (80 + jamInd.toUInt16), .u8 jamInd, .u8 0, .u16 5000, .u32 0]⟩

def radRec (t : UInt64) (rssi remrssi noise : UInt8) (rxerrors : UInt16) : Rec :=
  ⟨defRad, [.u64 t, .u8 rssi, .u8 remrssi, .u8 100, .u8 noise, .u8 (satAddU8 noise 2),
    .u16 rxerrors, .u16 0]⟩

def rcinRec (t : UInt64) (chans : Sticks UInt16) : Rec :=
  ⟨defRcin, [.u64 t, .u16 chans.1, .u16 chans.2.1, .u16 chans.2.2.1, .u16 chans.2.2.2] ++
    List.replicate 10 (.u16 0)⟩

def rssiRec (t : UInt64) (rssiPct lqPct : UInt8) : Rec :=
  ⟨defRssi, [.u64 t, .f32 ((F32.ofInt rssiPct.toNat).div (.ofRat 100)), .f32 (.ofInt lqPct.toNat)]⟩

def xkf4Rec (t : UInt64) (v p h m : Int16) (solutionStatus : UInt32) (timeouts : UInt8)
    (offsetNorthM : F32) : Rec :=
  ⟨defXkf4, [.u64 t, .u8 0, .i16 v, .i16 p, .i16 h, .i16 m, .i16 0, .f32 (.ofRat 0),
    .f32 offsetNorthM, .f32 (.ofRat 0), .u16 0, .u8 timeouts, .u32 solutionStatus,
    .u16 (if timeouts ≠ 0 then 7 else 0), .i8 0]⟩

def modeRec (t : UInt64) (mode reason : UInt8) : Rec :=
  ⟨defMode, [.u64 t, .u8 mode, .u8 mode, .u8 reason]⟩

def errRec (t : UInt64) (subsys ecode : UInt8) : Rec :=
  ⟨defErr, [.u64 t, .u8 subsys, .u8 ecode]⟩

def renderEvent (timeline : Timeline) (o : Out) (e : Event) : Checked WriteError Out := do
  let t := e.tBootUs
  match e.kind with
  | .heartbeat _ _ => write o (attRec t o.lastHdgCdeg)
  | .sysStatus voltageMv batteryRemaining _ => do
    let o ← write o (batRec t voltageMv batteryRemaining)
    write o (powrRec t)
  | .gpsRawInt fixType satellites ephCm latE7 lonE7 altMm jamInd timeValid => do
    let wallUs ← timeline.hostUs e
    let week := if timeValid then gpsWeekMs wallUs else (0, 0)
    let o ← write o (gpsRec t week fixType satellites ephCm latE7 lonE7 altMm)
    let o ← write o (gpaRec t ephCm altMm)
    write o (ubx1Rec t jamInd)
  | .globalPositionInt _ _ _ hdgCdeg => return { o with lastHdgCdeg := hdgCdeg }
  | .radioStatus rssi remrssi noise rxerrors => write o (radRec t rssi remrssi noise rxerrors)
  | .statusText _ text => do
    let o ← write o (msgRec t o.msgSeq text)
    return { o with msgSeq := o.msgSeq + 1 }
  | .rcIn chans rssiPct lqPct _ => do
    let o ← write o (rcinRec t chans)
    write o (rssiRec t rssiPct lqPct)
  | .ekfStatus v p h m solutionStatus timeouts offsetNorthM =>
    write o (xkf4Rec t v p h m solutionStatus timeouts offsetNorthM)
  | .modeChange mode reason => write o (modeRec t mode reason)
  | .err subsys ecode => write o (errRec t subsys ecode)
  | .reboot _ => return o
  | .handsetRow _ _ _ _ _ _ _ _ | .blackboxRow _ _ _ _ _ _ _ _ _ _ | .videoPresence _ => return o

/-- The loop over the events, which another boot ends. -/
def renderEvents (timeline : Timeline) : Out → List Event → Checked WriteError Out
  | o, [] => return o
  | o, e :: events => do
    if e.bootEpoch ≠ 0 then return o
    else
      let o ← renderEvent timeline o e
      renderEvents timeline o events

def mismatch (assetId : String) : WriteError :=
  .formatMismatch assetId "known-family synthetic ardupilot_dataflash_bin"

def vehicleFor : Family → Option String
  | .unknown => none
  | .ugv => some "ArduRover"
  | .fixedWing => some "ArduPlane"
  | .fpv => some "ArduCopter"

def render (timeline : Timeline) (assetId : String) : Checked WriteError (List UInt8) := do
  let events ← fcEventsFor timeline assetId .arduPilotBin "ardupilot_dataflash_bin"
  if ∃ e ∈ events, e.family = .unknown then fail (mismatch assetId)
  else
    let first ← index events 0
    match vehicleFor first.family with
    | none => fail (mismatch assetId)
    | some vehicle => do
      let block ← headerBlock first.tBootUs vehicle
      let o ← renderEvents timeline ⟨block, 2, 0⟩ events
      return o.bytes

/-! ## 4. What is written -/

/-- The letters of a format that values of this width stand for. -/
def Width.letters : Width → List Char
  | .u8 => ['B', 'M']
  | .i8 => ['b']
  | .u16 => ['H', 'C']
  | .i16 => ['h', 'c']
  | .u32 => ['I', 'E']
  | .i32 => ['i', 'e', 'L']
  | .u64 => ['Q']
  | .f32 => ['f']
  | .str n => if n = 4 then ['n'] else if n = 16 then ['N'] else if n = 64 then ['Z'] else []

/-- Does a value of this width stand for a letter? -/
def Width.writes (w : Width) (c : UInt8) : Bool := letter c ∈ w.letters

/-- A format and the widths of its values, one for each letter. -/
def matched : List UInt8 → List Width → Bool
  | [], [] => true
  | c :: cs, w :: ws => w.writes c && matched cs ws
  | _, _ => false

/-- A record with the values that its definition declares: their widths are those that the letters
of its format stand for. -/
def Rec.Typed (r : Rec) : Prop := matched (utf8 r.msgDef.format) (r.values.map Value.width) = true

instance (r : Rec) : Decidable r.Typed := inferInstanceAs (Decidable (_ = true))

theorem Width.mem_letters_str {n : ℕ} {l : Char} : l ∈ (Width.str n).letters →
    l = 'n' ∧ n = 4 ∨ l = 'N' ∧ n = 16 ∨ l = 'Z' ∧ n = 64 := by
  intro h
  rw [letters] at h
  split at h
  · next hn => exact Or.inl ⟨List.mem_singleton.mp h, hn⟩
  split at h
  · next hn => exact Or.inr (Or.inl ⟨List.mem_singleton.mp h, hn⟩)
  split at h
  · next hn => exact Or.inr (Or.inr ⟨List.mem_singleton.mp h, hn⟩)
  · cases h

theorem Width.size_of_writes {w : Width} {c : UInt8} (h : w.writes c = true) :
    formatCharLen c = w.size := by
  have h : letter c ∈ w.letters := of_decide_eq_true h
  unfold formatCharLen
  generalize letter c = l at h
  cases w with
  | str n => rcases mem_letters_str h with ⟨rfl, rfl⟩ | ⟨rfl, rfl⟩ | ⟨rfl, rfl⟩ <;> rfl
  | _ =>
    simp only [letters, List.mem_cons, List.not_mem_nil, or_false] at h
    rcases h with rfl | rfl | rfl <;> rfl

theorem sum_of_matched : ∀ {cs : List UInt8} {ws : List Width}, matched cs ws = true →
    (cs.map formatCharLen).sum = (ws.map Width.size).sum
  | [], [], _ => rfl
  | c :: cs, w :: ws, h => by
    obtain ⟨hw, hmore⟩ := Bool.and_eq_true_iff.mp h
    rw [List.map_cons, List.sum_cons, List.map_cons, List.sum_cons, Width.size_of_writes hw,
      sum_of_matched hmore]

theorem Rec.length_buf (r : Rec) :
    r.buf.length = 3 + ((r.values.map Value.width).map Width.size).sum := by
  have hvalues : r.values.map (fun v => v.bytes.length) =
      (r.values.map Value.width).map Width.size := by
    rw [List.map_map]
    exact List.map_congr_left fun v _ => v.length_bytes
  rw [buf, List.length_append, List.length_cons, List.length_flatMap, hvalues]
  simp only [head, List.length_cons, List.length_nil]
  omega

theorem Rec.Typed.length_buf {r : Rec} (h : r.Typed) :
    r.buf.length = recordLen r.msgDef.format := by
  rw [Rec.length_buf, recordLen, sum_of_matched h]

/-- **A record with the values that its definition declares is finished**, which is to say that
the assertion on its length holds. -/
theorem Rec.Typed.finish {ε : Type} {r : Rec} (h : r.Typed) :
    (r.finish : Checked ε (List UInt8)) = .ok r.buf := if_pos h.length_buf

/-- What the vehicle says of itself. -/
def header (tUs : UInt64) (vehicle : String) : List Rec :=
  parms.map (fun p => parmRec tUs p.1 p.2) ++
    [msgRec tUs 0 (vehicle ++ " V4.5.0 (synthetic)"),
      msgRec tUs 1 "Musubi pre-demo synthetic dataflash (public format spec)", armRec tUs]

/-- The records of an event, behind texts and a heading. -/
def recs (timeline : Timeline) (msgSeq : UInt8) (lastHdgCdeg : UInt16) (e : Event) : List Rec :=
  let t := e.tBootUs
  match e.kind with
  | .heartbeat _ _ => [attRec t lastHdgCdeg]
  | .sysStatus voltageMv batteryRemaining _ => [batRec t voltageMv batteryRemaining, powrRec t]
  | .gpsRawInt fixType satellites ephCm latE7 lonE7 altMm jamInd timeValid =>
    [gpsRec t (if timeValid then gpsWeekMs (timeline.wallUs e) else (0, 0)) fixType satellites
      ephCm latE7 lonE7 altMm, gpaRec t ephCm altMm, ubx1Rec t jamInd]
  | .radioStatus rssi remrssi noise rxerrors => [radRec t rssi remrssi noise rxerrors]
  | .statusText _ text => [msgRec t msgSeq text]
  | .rcIn chans rssiPct lqPct _ => [rcinRec t chans, rssiRec t rssiPct lqPct]
  | .ekfStatus v p h m solutionStatus timeouts offsetNorthM =>
    [xkf4Rec t v p h m solutionStatus timeouts offsetNorthM]
  | .modeChange mode reason => [modeRec t mode reason]
  | .err subsys ecode => [errRec t subsys ecode]
  | _ => []

def nextSeq (msgSeq : UInt8) (e : Event) : UInt8 :=
  match e.kind with
  | .statusText _ _ => msgSeq + 1
  | _ => msgSeq

def nextHdg (lastHdgCdeg : UInt16) (e : Event) : UInt16 :=
  match e.kind with
  | .globalPositionInt _ _ _ hdgCdeg => hdgCdeg
  | _ => lastHdgCdeg

def body (timeline : Timeline) : UInt8 → UInt16 → List Event → List Rec
  | _, _, [] => []
  | msgSeq, lastHdgCdeg, e :: events =>
    recs timeline msgSeq lastHdgCdeg e ++
      body timeline (nextSeq msgSeq e) (nextHdg lastHdgCdeg e) events

/-- What a log holds behind the definitions. -/
def log (timeline : Timeline) (assetId : String) : List Rec :=
  match eventsFor timeline assetId .fc with
  | [] => []
  | first :: more =>
    header first.tBootUs ((vehicleFor first.family).getD "") ++
      body timeline 2 0 (firstBoot (first :: more))

/-- The widths of the values of each record, against its format. -/
theorem matched_att :
    matched (utf8 defAtt.format) [.u64, .i16, .i16, .i16, .i16, .u16, .u16, .u16, .u16,
      .u8] = true := by
  decide

theorem matched_bat :
    matched (utf8 defBat.format) [.u64, .u8, .f32, .f32, .f32, .f32, .f32, .i16, .f32,
      .u8, .u8, .u8] = true := by
  decide

theorem matched_powr :
    matched (utf8 defPowr.format) [.u64, .f32, .f32, .u16, .u16, .u8] = true := by
  decide

theorem matched_gps :
    matched (utf8 defGps.format) [.u64, .u8, .u8, .u32, .u16, .u8, .i16, .i32, .i32,
      .i32, .f32, .f32, .f32, .f32, .u8] = true := by
  decide

theorem matched_gpa :
    matched (utf8 defGpa.format) [.u64, .u8, .u16, .u16, .u16, .u16, .f32, .u8, .u32,
      .u16, .i32, .u16, .u16] = true := by
  decide

theorem matched_ubx1 :
    matched (utf8 defUbx1.format) [.u64, .u8, .u16, .u8, .u8, .u16, .u32] = true := by
  decide

theorem matched_rad :
    matched (utf8 defRad.format) [.u64, .u8, .u8, .u8, .u8, .u8, .u16, .u16] = true := by
  decide

theorem matched_rcin :
    matched (utf8 defRcin.format) (.u64 :: .replicate 14 .u16) = true := by
  decide

theorem matched_rssi : matched (utf8 defRssi.format) [.u64, .f32, .f32] = true := by decide

theorem matched_xkf4 :
    matched (utf8 defXkf4.format) [.u64, .u8, .i16, .i16, .i16, .i16, .i16, .f32, .f32,
      .f32, .u16, .u8, .u32, .u16, .i8] = true := by
  decide

theorem matched_mode :
    matched (utf8 defMode.format) [.u64, .u8, .u8, .u8] = true := by
  decide

theorem matched_err : matched (utf8 defErr.format) [.u64, .u8, .u8] = true := by decide

theorem matched_fmt :
    matched (utf8 defFmt.format) [.u8, .u8, .str 4, .str 16, .str 64] = true := by
  decide

theorem matched_parm :
    matched (utf8 defParm.format) [.u64, .str 16, .f32, .f32] = true := by
  decide

theorem matched_msg :
    matched (utf8 defMsg.format) [.u64, .u8, .u8, .str 64] = true := by
  decide

theorem matched_arm :
    matched (utf8 defArm.format) [.u64, .u8, .u32, .u8, .u8] = true := by
  decide

theorem typed_fmtRec (d : MsgDef) : (fmtRec d).Typed := matched_fmt

theorem typed_parmRec (tUs : UInt64) (name : String) (value : F32) :
    (parmRec tUs name value).Typed :=
  matched_parm

theorem typed_msgRec (tUs : UInt64) (seq : UInt8) (text : String) : (msgRec tUs seq text).Typed :=
  matched_msg

theorem typed_armRec (tUs : UInt64) : (armRec tUs).Typed := matched_arm

/-- **Every record of an event has the values that its definition declares.** One case for each
kind of event. -/
theorem typed_recs (timeline : Timeline) (msgSeq : UInt8) (lastHdgCdeg : UInt16) (e : Event) :
    ∀ r ∈ recs timeline msgSeq lastHdgCdeg e, r.Typed := by
  have hone {r : Rec} (h : r.Typed) : ∀ s ∈ [r], s.Typed := List.forall_mem_singleton.mpr h
  unfold recs
  cases e.kind with
  | heartbeat => exact hone matched_att
  | sysStatus =>
    exact List.forall_mem_cons.mpr ⟨matched_bat,
      hone matched_powr⟩
  | gpsRawInt =>
    exact List.forall_mem_cons.mpr ⟨matched_gps,
      List.forall_mem_cons.mpr ⟨matched_gpa,
        hone matched_ubx1⟩⟩
  | radioStatus => exact hone matched_rad
  | statusText => exact hone (typed_msgRec _ _ _)
  | rcIn =>
    exact List.forall_mem_cons.mpr ⟨matched_rcin,
      hone matched_rssi⟩
  | ekfStatus => exact hone matched_xkf4
  | modeChange => exact hone matched_mode
  | err => exact hone matched_err
  | globalPositionInt | reboot | handsetRow | blackboxRow | videoPresence =>
    exact List.forall_mem_nil _

/-! ## 5. The log of an asset -/

section Log

variable {ε : Type} {timeline : Timeline}

theorem mapM_finish {α : Type} {f : α → Rec} (l : List α) (h : ∀ a, (f a).Typed) :
    (l.mapM fun a => (f a).finish : Checked ε (List (List UInt8))) =
      .ok (l.map fun a => (f a).buf) := by
  induction l with
  | nil => rfl
  | cons a l ih => rw [List.mapM_cons, (h a).finish, ok_bind, ih, ok_bind]; rfl

theorem headerBlock_eq (tUs : UInt64) (vehicle : String) :
    (headerBlock tUs vehicle : Checked ε (List UInt8)) =
      .ok ((defs.map fmtRec ++ header tUs vehicle).flatMap Rec.buf) := by
  have hformats : (defs.mapM fmtRecord : Checked ε (List (List UInt8))) =
      .ok (defs.map fun d => (fmtRec d).buf) := mapM_finish defs typed_fmtRec
  have hparms := mapM_finish (ε := ε) parms fun p => typed_parmRec tUs p.1 p.2
  unfold headerBlock msgRecord
  rw [hformats, ok_bind, hparms, ok_bind, (typed_msgRec _ _ _).finish, ok_bind,
    (typed_msgRec _ _ _).finish, ok_bind, (typed_armRec _).finish, ok_bind]
  simp [header, List.flatMap_def, Function.comp_def, pure, Except.pure]

theorem write_eq {o : Out} {r : Rec} (h : r.Typed) :
    (write o r : Checked ε Out) = .ok { o with bytes := o.bytes ++ r.buf } := by
  rw [write, h.finish]
  rfl

/-- **An event adds its records.** The wall time of a fix is the one thing that may not fit. -/
theorem renderEvent_eq_ok {o o' : Out} {e : Event} :
    renderEvent timeline o e = .ok o' ↔ timeline.FixDated e ∧
      o' = ⟨o.bytes ++ (recs timeline o.msgSeq o.lastHdgCdeg e).flatMap Rec.buf,
        nextSeq o.msgSeq e, nextHdg o.lastHdgCdeg e⟩ := by
  have hone (r : Rec) : [r].flatMap Rec.buf = r.buf := List.append_nil _
  have htwo (r s : Rec) : [r, s].flatMap Rec.buf = r.buf ++ s.buf :=
    congrArg (r.buf ++ ·) (hone s)
  have hput {a b : Out} : (.ok a : Checked WriteError Out) = .ok b ↔ True ∧ b = a :=
    ⟨fun h => ⟨trivial, (Except.ok.inj h).symm⟩, fun h => congrArg _ h.2.symm⟩
  have htyped := typed_recs timeline o.msgSeq o.lastHdgCdeg e
  revert htyped
  unfold renderEvent Timeline.FixDated recs nextSeq nextHdg
  cases e.kind with
  | heartbeat | radioStatus | ekfStatus | modeChange | err =>
    intro htyped
    dsimp only
    rw [write_eq (htyped _ List.mem_cons_self), hone]
    exact hput
  | statusText =>
    intro htyped
    dsimp only
    rw [write_eq (htyped _ List.mem_cons_self), ok_bind, hone]
    exact hput
  | sysStatus | rcIn =>
    intro htyped
    dsimp only
    rw [write_eq (htyped _ List.mem_cons_self), ok_bind,
      write_eq (htyped _ (List.mem_cons_of_mem _ List.mem_cons_self)), htwo, List.append_assoc]
    exact hput
  | gpsRawInt fixType satellites ephCm latE7 lonE7 altMm jamInd timeValid =>
    intro htyped
    dsimp only
    have hthree (r s t : Rec) : [r, s, t].flatMap Rec.buf = r.buf ++ (s.buf ++ t.buf) :=
      congrArg (r.buf ++ ·) (htwo s t)
    by_cases hdated : timeline.Dated e
    · rw [Timeline.hostUs_eq_ok.mpr ⟨hdated, rfl⟩, ok_bind,
        write_eq (htyped _ List.mem_cons_self), ok_bind,
        write_eq (htyped _ (List.mem_cons_of_mem _ List.mem_cons_self)), ok_bind,
        write_eq (htyped _ (List.mem_cons_of_mem _ (List.mem_cons_of_mem _ List.mem_cons_self))),
        hthree, List.append_assoc, List.append_assoc]
      exact ⟨fun h => ⟨hdated, (Except.ok.inj h).symm⟩, fun h => congrArg _ h.2.symm⟩
    · refine iff_of_false (fun h => ?_) fun h => hdated h.1
      obtain ⟨us, hus, -⟩ := bind_eq_ok.mp h
      exact hdated (Timeline.hostUs_eq_ok.mp hus).1
  | globalPositionInt | reboot | handsetRow | blackboxRow | videoPresence =>
    intro _
    dsimp only
    rw [List.flatMap_nil, List.append_nil]
    exact hput

/-- The loop is that over the events before another boot. -/
theorem renderEvents_eq_ok {events : List Event} : ∀ {o o' : Out},
    renderEvents timeline o events = .ok o' →
      (∀ e ∈ firstBoot events, timeline.FixDated e) ∧ o'.bytes = o.bytes ++
        (body timeline o.msgSeq o.lastHdgCdeg (firstBoot events)).flatMap Rec.buf := by
  induction events with
  | nil =>
    intro o o' h
    cases h
    exact ⟨List.forall_mem_nil _, (List.append_nil _).symm⟩
  | cons e events ih =>
    intro o o' h
    rw [renderEvents] at h
    by_cases hboot : e.bootEpoch = 0
    · rw [if_neg (not_not.mpr hboot)] at h
      obtain ⟨o1, he, hmore⟩ := bind_eq_ok.mp h
      obtain ⟨hfix, rfl⟩ := renderEvent_eq_ok.mp he
      obtain ⟨hall, hbytes⟩ := ih hmore
      rw [firstBoot_cons events hboot]
      refine ⟨List.forall_mem_cons.mpr ⟨hfix, hall⟩, ?_⟩
      rw [hbytes, body, List.flatMap_append, List.append_assoc]
    · rw [if_pos hboot] at h
      cases h
      rw [firstBoot_cons_of_ne events hboot]
      exact ⟨List.forall_mem_nil _, (List.append_nil _).symm⟩

/-- **What the writer writes of an asset**: the definitions, what the vehicle says of itself, and
the records of the events of the first boot. -/
theorem eq_of_render {assetId : String} {bytes : List UInt8}
    (h : render timeline assetId = .ok bytes) :
    eventsFor timeline assetId .fc ≠ [] ∧
      (∀ e ∈ firstBoot (eventsFor timeline assetId .fc), timeline.FixDated e) ∧
      bytes = (defs.map fmtRec).flatMap Rec.buf ++ (log timeline assetId).flatMap Rec.buf := by
  obtain ⟨events, hevents, h⟩ := bind_eq_ok.mp h
  obtain ⟨hne, rfl⟩ := eq_of_fcEventsFor hevents
  refine ⟨hne, ?_⟩
  split at h
  · cases h
  rw [log]
  generalize eventsFor timeline assetId .fc = events at h hne ⊢
  cases events with
  | nil => exact absurd rfl hne
  | cons first more =>
    rw [index, List.getElem?_cons_zero, ok_bind] at h
    dsimp only
    cases hvehicle : vehicleFor first.family with
    | none =>
      rw [hvehicle] at h
      cases h
    | some vehicle =>
      rw [hvehicle] at h
      dsimp only at h
      rw [headerBlock_eq, ok_bind] at h
      obtain ⟨o, ho, h⟩ := bind_eq_ok.mp h
      cases h
      obtain ⟨hfix, hbytes⟩ := renderEvents_eq_ok ho
      refine ⟨hfix, ?_⟩
      rw [hbytes, Option.getD_some, List.flatMap_append, List.flatMap_append, List.append_assoc]

end Log

end Musubi.Writers.Bin
