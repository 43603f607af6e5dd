/-
# The TLOG writer

`reference-writers/src/tlog.rs` and the messages of `reference-writers/src/mavlink.rs`: the events
of a ground station, each as the messages that it would have sent, every message behind the wall
time of its event and numbered modulo 256.

A message is its id, the seed of its checksum and its payload, and the log is the list of messages
that were sent (`log`), each with the word before it and its counter; the bytes come last.  The
writer fails for an asset without events, for a family that has no type of vehicle, and for a date
that does not fit, and for nothing else (`render_eq_ok`).
-/
import Musubi.FloatSingle
import Musubi.Lib.Saturating
import Musubi.Lib.Words
import Musubi.Scenario.Timeline
import Musubi.Writers.Mavlink

namespace Musubi.Writers.Tlog

open Lib Lib.Checked Musubi.Core Mavlink Reference Scenario

variable {ε : Type}

/-! ## 1. Messages -/

/-- A message by its id, the seed of its checksum and its payload. -/
structure Message where
  id : UInt32 × UInt8
  payload : List UInt8
deriving DecidableEq

def Message.frame (m : Message) (seq : UInt8) : Checked ε (List UInt8) :=
  Writers.frame seq m.id m.payload

def heartbeat (customMode : UInt32) (mavType systemStatus : UInt8) : Message where
  id := (0, 50)
  payload := pack [(4, customMode.toNat), (1, mavType.toNat), (1, 3), (1, 0x81),
    (1, systemStatus.toNat), (1, 3)]

def sysStatus (voltageMv : UInt16) (batteryRemaining : Int8) (dropRateComm : UInt16) :
    Message where
  id := (1, 124)
  payload := pack [(4, 0), (4, 0), (4, 0), (2, 500), (2, voltageMv.toNat),
    (2, (-1 : Int16).toUInt16.toNat), (2, dropRateComm.toNat), (2, 0), (2, 0), (2, 0), (2, 0),
    (2, 0), (1, batteryRemaining.toUInt8.toNat)]

def gpsRawInt (timeUsec : UInt64) (latE7 lonE7 altMm : Int32) (ephCm : UInt16)
    (fixType satellites : UInt8) : Message where
  id := (24, 24)
  payload := pack [(8, timeUsec.toNat), (4, latE7.toUInt32.toNat), (4, lonE7.toUInt32.toNat),
    (4, altMm.toUInt32.toNat), (2, ephCm.toNat), (2, (satMulU16 ephCm 2).toNat), (2, 100),
    (2, 9000), (1, fixType.toNat), (1, satellites.toNat)]

def radioStatus (rssi remrssi noise : UInt8) (rxerrors : UInt16) : Message where
  id := (109, 185)
  payload := pack [(2, rxerrors.toNat), (2, 0), (1, rssi.toNat), (1, remrssi.toNat), (1, 100),
    (1, noise.toNat), (1, (satAddU8 noise 2).toNat)]

def statustext (severity : UInt8) (text : String) : Message where
  id := (253, 83)
  payload := severity :: zeroPadded 50 (utf8 text)

def systemTime (timeUnixUsec : UInt64) (timeBootMs : UInt32) : Message where
  id := (2, 137)
  payload := pack [(8, timeUnixUsec.toNat), (4, timeBootMs.toNat)]

def rcChannels (timeBootMs : UInt32) (chans : Sticks UInt16) (chancount rssi : UInt8) :
    Message where
  id := (65, 118)
  payload := pack ([(4, timeBootMs.toNat), (2, chans.1.toNat), (2, chans.2.1.toNat),
    (2, chans.2.2.1.toNat), (2, chans.2.2.2.toNat)] ++ List.replicate 14 (2, 0) ++
    [(1, chancount.toNat), (1, rssi.toNat)])

def ekfStatusReport (velocityVariance posHorizVariance compassVariance : F32) (flags : UInt16) :
    Message where
  id := (193, 71)
  payload := pack [(4, velocityVariance.bits.toNat), (4, posHorizVariance.bits.toNat),
    (4, (F32.ofRat (1 / 10)).bits.toNat), (4, compassVariance.bits.toNat),
    (4, (F32.ofRat 0).bits.toNat), (2, flags.toNat), (4, (F32.ofRat 0).bits.toNat)]

/-! ## 2. The frame of a position -/

structure GpiFields where
  timeBootMs : UInt32
  lat : Int32
  lon : Int32
  alt : Int32
  relativeAlt : Int32
  vx : Int16 := 0
  vy : Int16 := 0
  vz : Int16 := 0
  hdg : UInt16

/-- The payload of a position. -/
def GpiFields.words (f : GpiFields) : List (ℕ × ℕ) :=
  [(4, f.timeBootMs.toNat), (4, f.lat.toUInt32.toNat), (4, f.lon.toUInt32.toNat),
    (4, f.alt.toUInt32.toNat), (4, f.relativeAlt.toUInt32.toNat), (2, f.vx.toUInt16.toNat),
    (2, f.vy.toUInt16.toNat), (2, f.vz.toUInt16.toNat), (2, f.hdg.toNat)]

/-- With two zeros for the checksum. -/
def buildGlobalPositionIntFrame (seq : UInt8) (f : GpiFields) : List UInt8 :=
  [0xFD, 28, 0x00, 0x00, seq, 0x01, 0x01, 33, 0, 0] ++ pack f.words ++ [0x00, 0x00]

def globalPositionInt (seq : UInt8) (timeBootMs : UInt32) (latE7 lonE7 altMm : Int32)
    (hdgCdeg : UInt16) : Checked ε (List UInt8) := do
  let f := buildGlobalPositionIntFrame seq
    { timeBootMs, lat := latE7, lon := lonE7, alt := altMm, relativeAlt := altMm, hdg := hdgCdeg }
  let len ← sub f.length 2
  sealCrc (f.take len) 104

/-- The same as a message. -/
def positionMessage (timeBootMs : UInt32) (latE7 lonE7 altMm : Int32) (hdgCdeg : UInt16) :
    Message where
  id := (33, 104)
  payload := pack (GpiFields.words
    { timeBootMs, lat := latE7, lon := lonE7, alt := altMm, relativeAlt := altMm, hdg := hdgCdeg })

theorem globalPositionInt_eq (seq : UInt8) (timeBootMs : UInt32) (latE7 lonE7 altMm : Int32)
    (hdgCdeg : UInt16) :
    (globalPositionInt seq timeBootMs latE7 lonE7 altMm hdgCdeg : Checked ε _) =
      (positionMessage timeBootMs latE7 lonE7 altMm hdgCdeg).frame seq := by
  let words := GpiFields.words
    { timeBootMs, lat := latE7, lon := lonE7, alt := altMm, relativeAlt := altMm, hdg := hdgCdeg }
  have hlength : (pack words).length = 28 := length_pack words
  have hunsealed : unsealed seq 33 (pack words) =
      [0xFD, 28, 0x00, 0x00, seq, 0x01, 0x01, 33, 0, 0] ++ pack words := by
    rw [unsealed, hlength]
    rfl
  unfold globalPositionInt buildGlobalPositionIntFrame
  rw [← hunsealed]
  have htwo : 2 ≤ (unsealed seq 33 (pack words) ++ [0x00, 0x00]).length := by
    rw [List.length_append]
    exact Nat.le_add_left _ _
  dsimp only
  rw [sub, if_pos htwo, ok_bind, List.length_append, List.length_cons, List.length_singleton,
    Nat.add_sub_cancel, List.take_left]
  rfl

/-! ## 3. The writer -/

/-- The log so far and the counter of the next frame. -/
structure Out where
  bytes : List UInt8
  seq : UInt8

/-- A frame behind the wall time, most significant byte first. -/
def emit (o : Out) (hostUs : ℤ) (frame : List UInt8) : Out where
  bytes := o.bytes ++ beBytes 8 (UInt64.ofInt hostUs).toNat ++ frame
  seq := o.seq + 1

def mavTypeFor : Family → UInt8
  | .unknown => 0
  | .ugv => 10
  | .fixedWing => 1
  | .fpv => 2

/-- Milliseconds since boot. -/
def bootMs (e : Event) : UInt32 := (e.tBootUs / 1000).toUInt32

/-- The strength of a received signal; 255 where there is none. -/
def rcRssi (rssiPct : UInt8) (valid : Bool) : UInt8 :=
  if valid then (rssiPct.toUInt16 * 254 / 100).toUInt8 else 255

/-- Position known, and positions jumping. -/
def ekfFlags (solutionStatus : UInt32) : UInt16 :=
  (if solutionStatus &&& 0x2000 ≠ 0 then 16 else 0) |||
    (if solutionStatus &&& 0x4000 ≠ 0 then 32768 else 0)

/-- A hundredth of a variance. -/
def hundredth (v : Int16) : F32 := (F32.ofInt v.toInt).div (.ofInt 100)

def send (hostUs : ℤ) (o : Out) (m : Message) : Checked ε Out := do
  let frame ← m.frame o.seq
  return emit o hostUs frame

def renderEvent (timeline : Timeline) (mavType : UInt8) (o : Out) (e : Event) :
    Checked WriteError Out := do
  let hostUs ← timeline.hostUs e
  match e.kind with
  | .heartbeat customMode systemStatus => do
    let o ← send hostUs o (heartbeat customMode mavType systemStatus)
    send hostUs o (systemTime (.ofInt hostUs) (bootMs e))
  | .sysStatus voltageMv batteryRemaining dropRateComm =>
    send hostUs o (sysStatus voltageMv batteryRemaining dropRateComm)
  | .gpsRawInt fixType satellites ephCm latE7 lonE7 altMm _ _ =>
    send hostUs o (gpsRawInt e.tBootUs latE7 lonE7 altMm ephCm fixType satellites)
  | .globalPositionInt latE7 lonE7 altMm hdgCdeg => do
    let frame ← globalPositionInt o.seq (bootMs e) latE7 lonE7 altMm hdgCdeg
    return emit o hostUs frame
  | .radioStatus rssi remrssi noise rxerrors =>
    send hostUs o (radioStatus rssi remrssi noise rxerrors)
  | .statusText severity text => send hostUs o (statustext severity text)
  | .rcIn chans rssiPct _ valid =>
    send hostUs o (rcChannels (bootMs e) chans (if valid then 4 else 0) (rcRssi rssiPct valid))
  | .ekfStatus v p _ m solutionStatus _ _ =>
    send hostUs o
      (ekfStatusReport (hundredth v) (hundredth p) (hundredth m) (ekfFlags solutionStatus))
  | .modeChange _ _ | .err _ _ | .reboot _ => return o
  | .handsetRow _ _ _ _ _ _ _ _ | .blackboxRow _ _ _ _ _ _ _ _ _ _ | .videoPresence _ => return o

def render (timeline : Timeline) (assetId : String) : Checked WriteError (List UInt8) :=
  match eventsFor timeline assetId .gcs with
  | [] => fail (.noEvents assetId .gcs)
  | first :: more =>
    if ∃ e ∈ first :: more, e.family = .unknown then
      fail (.formatMismatch assetId "known-family synthetic mavlink_tlog")
    else do
      let o ← (first :: more).foldlM (renderEvent timeline (mavTypeFor first.family)) ⟨[], 0⟩
      return o.bytes

/-! ## 4. What is sent -/

/-- The messages of an event. -/
def messages (timeline : Timeline) (mavType : UInt8) (e : Event) : List Message :=
  match e.kind with
  | .heartbeat customMode systemStatus =>
    [heartbeat customMode mavType systemStatus,
      systemTime (.ofInt (timeline.wallUs e)) (bootMs e)]
  | .sysStatus voltageMv batteryRemaining dropRateComm =>
    [sysStatus voltageMv batteryRemaining dropRateComm]
  | .gpsRawInt fixType satellites ephCm latE7 lonE7 altMm _ _ =>
    [gpsRawInt e.tBootUs latE7 lonE7 altMm ephCm fixType satellites]
  | .globalPositionInt latE7 lonE7 altMm hdgCdeg =>
    [positionMessage (bootMs e) latE7 lonE7 altMm hdgCdeg]
  | .radioStatus rssi remrssi noise rxerrors => [radioStatus rssi remrssi noise rxerrors]
  | .statusText severity text => [statustext severity text]
  | .rcIn chans rssiPct _ valid =>
    [rcChannels (bootMs e) chans (if valid then 4 else 0) (rcRssi rssiPct valid)]
  | .ekfStatus v p _ m solutionStatus _ _ =>
    [ekfStatusReport (hundredth v) (hundredth p) (hundredth m) (ekfFlags solutionStatus)]
  | _ => []

/-- A message on the wire: the word before it and its counter. -/
structure Sent where
  word : UInt64
  seq : UInt8
  message : Message

/-- The frame of a message, sealed. -/
def Sent.frame (x : Sent) : List UInt8 :=
  unsealed x.seq x.message.id.1 x.message.payload ++
    leBytes 2 (sealOf (unsealed x.seq x.message.id.1 x.message.payload) x.message.id.2).toNat

def Sent.bytes (x : Sent) : List UInt8 := beBytes 8 x.word.toNat ++ x.frame

/-- Messages with their words, numbered from a counter on. -/
def number : UInt8 → List (UInt64 × Message) → List Sent
  | _, [] => []
  | seq, m :: ms => ⟨m.1, seq, m.2⟩ :: number (seq + 1) ms

/-- What is sent of an event. -/
def told (timeline : Timeline) (mavType : UInt8) (e : Event) : List (UInt64 × Message) :=
  (messages timeline mavType e).map fun m => (.ofInt (timeline.wallUs e), m)

/-- What a log of the events holds. -/
def sent (timeline : Timeline) (mavType : UInt8) (events : List Event) : List Sent :=
  number 0 (events.flatMap (told timeline mavType))

/-- The log after messages. -/
def Out.add (o : Out) (ms : List (UInt64 × Message)) : Out where
  bytes := o.bytes ++ (number o.seq ms).flatMap Sent.bytes
  seq := o.seq + UInt8.ofNat ms.length

theorem frame_eq_sent (m : Message) (seq : UInt8) (word : UInt64) :
    (m.frame seq : Checked ε _) = .ok (Sent.frame ⟨word, seq, m⟩) := frame_eq m.id.2

@[simp] theorem Out.add_nil (o : Out) : o.add [] = o := by
  obtain ⟨bytes, seq⟩ := o
  simp [Out.add, number]

theorem Out.add_cons (o : Out) (m : UInt64 × Message) (ms : List (UInt64 × Message)) :
    o.add (m :: ms) = (o.add [m]).add ms := by
  have hcount : o.seq + UInt8.ofNat (ms.length + 1) =
      o.seq + 1 + UInt8.ofNat ms.length := by
    rw [Nat.add_comm, UInt8.ofNat_add, UInt8.add_assoc]
    rfl
  simp only [Out.add, number, List.flatMap_cons, List.flatMap_nil, List.append_nil,
    List.append_assoc, List.length_cons, hcount]
  rfl

theorem Out.add_append (ms more : List (UInt64 × Message)) :
    ∀ o : Out, o.add (ms ++ more) = (o.add ms).add more := by
  induction ms with
  | nil =>
    intro o
    rw [Out.add_nil, List.nil_append]
  | cons m ms ih =>
    intro o
    rw [List.cons_append, Out.add_cons, ih, Out.add_cons o m ms]

theorem send_eq (hostUs : ℤ) (o : Out) (m : Message) :
    (send hostUs o m : Checked ε Out) = .ok (o.add [(.ofInt hostUs, m)]) := by
  rw [send, frame_eq_sent m o.seq (.ofInt hostUs), ok_bind]
  simp [emit, Out.add, number, Sent.bytes, pure, Except.pure]

/-- **An event that has a date adds its messages.** -/
theorem renderEvent_eq {timeline : Timeline} {mavType : UInt8} {e : Event}
    (hdated : timeline.Dated e) (o : Out) :
    renderEvent timeline mavType o e = .ok (o.add (told timeline mavType e)) := by
  have hus := (Timeline.hostUs_eq_ok (ε := WriteError)).mpr ⟨hdated, rfl⟩
  unfold renderEvent told messages
  rw [hus, ok_bind]
  cases e.kind with
  | heartbeat customMode systemStatus =>
    dsimp only
    rw [send_eq, ok_bind, send_eq, ← Out.add_append]
    rfl
  | globalPositionInt latE7 lonE7 altMm hdgCdeg =>
    dsimp only
    rw [globalPositionInt_eq, ← send]
    exact send_eq _ o _
  | sysStatus | gpsRawInt | radioStatus | statusText | rcIn | ekfStatus => exact send_eq _ o _
  | modeChange | err | reboot | handsetRow | blackboxRow | videoPresence =>
    exact congrArg Except.ok o.add_nil.symm

/-- One that has none stops the writer. -/
theorem dated_of_renderEvent {timeline : Timeline} {mavType : UInt8} {e : Event} {o o' : Out}
    (h : renderEvent timeline mavType o e = .ok o') : timeline.Dated e := by
  obtain ⟨us, hus, -⟩ := bind_eq_ok.mp h
  exact (Timeline.hostUs_eq_ok.mp hus).1

theorem foldlM_renderEvent {timeline : Timeline} {mavType : UInt8} {events : List Event} :
    ∀ {o o' : Out}, events.foldlM (renderEvent timeline mavType) o = .ok o' ↔
      (∀ e ∈ events, timeline.Dated e) ∧ o' = o.add (events.flatMap (told timeline mavType)) := by
  induction events with
  | nil =>
    intro o o'
    rw [List.foldlM_nil, List.flatMap_nil, Out.add_nil]
    exact ⟨fun h => ⟨List.forall_mem_nil _, (Except.ok.inj h).symm⟩, fun h => congrArg _ h.2.symm⟩
  | cons e events ih =>
    intro o o'
    rw [List.foldlM_cons, bind_eq_ok, List.flatMap_cons, Out.add_append, List.forall_mem_cons]
    constructor
    · rintro ⟨o1, he, hmore⟩
      have hdated := dated_of_renderEvent he
      rw [renderEvent_eq hdated] at he
      cases he
      exact ⟨⟨hdated, (ih.mp hmore).1⟩, (ih.mp hmore).2⟩
    · rintro ⟨⟨hdated, hmore⟩, ho⟩
      exact ⟨_, renderEvent_eq hdated o, ih.mpr ⟨hmore, ho⟩⟩

/-- The type of vehicle that a log says its asset is: that of its first event. -/
def mavTypeOf (events : List Event) : UInt8 :=
  (events.head?.map fun e => mavTypeFor e.family).getD 0

/-- What a log of an asset holds. -/
def log (timeline : Timeline) (assetId : String) : List Sent :=
  let events := eventsFor timeline assetId .gcs
  sent timeline (mavTypeOf events) events

/-- **The writer writes the messages of the events**, when there are some, of a known family and
with dates that fit. -/
theorem render_eq_ok {timeline : Timeline} {assetId : String} {bytes : List UInt8} :
    render timeline assetId = .ok bytes ↔
      eventsFor timeline assetId .gcs ≠ [] ∧
      (∀ e ∈ eventsFor timeline assetId .gcs, e.family ≠ .unknown) ∧
      (∀ e ∈ eventsFor timeline assetId .gcs, timeline.Dated e) ∧
      bytes = (log timeline assetId).flatMap Sent.bytes := by
  unfold render log
  cases eventsFor timeline assetId .gcs with
  | nil => exact iff_of_false (fun h => by cases h) fun h => h.1 rfl
  | cons first more =>
    dsimp only
    split
    · next hunknown =>
      obtain ⟨e, he, hfamily⟩ := hunknown
      exact iff_of_false (fun h => by cases h) fun h => h.2.1 e he hfamily
    · next hknown =>
      have hknown : ∀ e ∈ first :: more, e.family ≠ .unknown :=
        fun e he hfamily => hknown ⟨e, he, hfamily⟩
      simp only [bind_eq_ok, foldlM_renderEvent]
      constructor
      · rintro ⟨o, ⟨hdated, rfl⟩, hbytes⟩
        exact ⟨List.cons_ne_nil _ _, hknown, hdated, (Except.ok.inj hbytes).symm⟩
      · rintro ⟨-, -, hdated, rfl⟩
        exact ⟨_, ⟨hdated, rfl⟩, rfl⟩

end Musubi.Writers.Tlog
