/-
# Timelines

`reference-scenario/src/lib.rs` and `reference-writers/src/lib.rs`: what happens to each asset and
when, and which of it a writer of one kind of log takes.  An event has two clocks, the scenario's
and that of the boot, and `hostUs` is the first of them as a wall time.

The writers read two things from an asset, what recordings it has and in which format its flight
controller logs; what a scenario says about links and drifting clocks has gone into the events
when they reach a writer.  The wall time of an event is a sum of 64 bits.  `Dated` says that it
fits, and the results about reading a written log back ask it of the events that are written with
a wall time.
-/
import Musubi.FloatArith
import Musubi.Lib.CheckedInt
import Musubi.Pipeline.Eval

namespace Musubi.Scenario

open Lib Lib.Checked Reference

/-! ## 1. Assets -/

inductive FcLogFormat
  | arduPilotBin
  | px4Ulog
  | blackboxCsv
deriving DecidableEq, Repr

/-- Of an asset the writers read which recordings it has and in which format its flight
controller logs.  Where it stands, what its link is and how its clocks drift is in the events. -/
structure Asset where
  assetId : String
  sources : List SourceRole
  fcLog : FcLogFormat
deriving DecidableEq

/-! ## 2. Events -/

/-- Four values, one for each channel of the sticks. -/
abbrev Sticks (α : Type) := α × α × α × α

inductive EventKind
  | heartbeat (customMode : UInt32) (systemStatus : UInt8)
  | sysStatus (voltageMv : UInt16) (batteryRemaining : Int8) (dropRateComm : UInt16)
  | gpsRawInt (fixType satellites : UInt8) (ephCm : UInt16) (latE7 lonE7 altMm : Int32)
      (jamInd : UInt8) (timeValid : Bool)
  | globalPositionInt (latE7 lonE7 altMm : Int32) (hdgCdeg : UInt16)
  | radioStatus (rssi remrssi noise : UInt8) (rxerrors : UInt16)
  | statusText (severity : UInt8) (text : String)
  | rcIn (chans : Sticks UInt16) (rssiPct lqPct : UInt8) (valid : Bool)
  | ekfStatus (sqrtvarVX100 sqrtvarPX100 sqrtvarHX100 sqrtvarMX100 : Int16)
      (solutionStatus : UInt32) (timeouts : UInt8) (offsetNorthM : F32)
  | modeChange (mode reason : UInt8)
  | err (subsys ecode : UInt8)
  | reboot (epoch : UInt8)
  | handsetRow (rssDbm : Int16) (rqlyPct : UInt8) (rsnrDb : Int8) (tpwrMw : UInt16) (rxbtV : F32)
      (sats : UInt8) (gpsDeg : Option (F64 × F64)) (linkAlive : Bool)
  | blackboxRow (loopIteration : UInt32) (rcCommand : Sticks Int16) (vbatV amperageA : F32)
      (rssi : Option UInt16) (gpsNumSat : UInt8) (gpsDeg : Option (F64 × F64))
      (failsafePhase : UInt8) (rxSignalReceived rxFlightChannelsValid : Bool)
  | videoPresence (present : Bool)
deriving DecidableEq

structure Event where
  tMs : UInt64
  tBootUs : UInt64
  bootEpoch : UInt8
  assetId : String
  family : Family
  source : SourceRole
  channel : ChannelId
  kind : EventKind
deriving DecidableEq

structure Timeline where
  t0UnixUs : Int64
  assets : List Asset
  events : List Event
deriving DecidableEq

def Timeline.asset (timeline : Timeline) (assetId : String) : Option Asset :=
  timeline.assets.find? fun a => a.assetId = assetId

/-! ## 3. Wall times -/

/-- `t0_unix_us + (t_ms as i64) * 1000`, as an integer. -/
def Timeline.wallUs (timeline : Timeline) (e : Event) : ℤ :=
  timeline.t0UnixUs.toInt + e.tMs.toInt64.toInt * 1000

/-- The same on 64 bits. -/
def Timeline.hostUs {ε : Type} (timeline : Timeline) (e : Event) : Checked ε ℤ := do
  let sinceStart ← i64 (e.tMs.toInt64.toInt * 1000)
  i64 (timeline.t0UnixUs.toInt + sinceStart)

/-- The wall time of an event fits: its milliseconds as microseconds, and the sum with the time at
which the scenario starts. -/
structure Timeline.Dated (timeline : Timeline) (e : Event) : Prop where
  sinceStart : InI64 (e.tMs.toInt64.toInt * 1000)
  wall : InI64 (timeline.wallUs e)

theorem Timeline.hostUs_eq_ok {ε : Type} {timeline : Timeline} {e : Event} {us : ℤ} :
    (timeline.hostUs e : Checked ε ℤ) = .ok us ↔ timeline.Dated e ∧ us = timeline.wallUs e := by
  unfold hostUs
  by_cases hsince : InI64 (e.tMs.toInt64.toInt * 1000)
  · rw [i64_eq hsince, ok_bind, ← wallUs]
    by_cases hwall : InI64 (timeline.wallUs e)
    · rw [i64_eq hwall]
      constructor
      · intro h
        cases h
        exact ⟨⟨hsince, hwall⟩, rfl⟩
      · rintro ⟨-, rfl⟩
        rfl
    · rw [i64_panics hwall]
      exact iff_of_false (fun h => by cases h) fun h => hwall h.1.wall
  · rw [i64_panics hsince]
    exact iff_of_false (fun h => by cases h) fun h => hsince h.1.sinceStart

/-- Only the time of a fix is written as a wall time. -/
def Timeline.FixDated (timeline : Timeline) (e : Event) : Prop :=
  match e.kind with
  | .gpsRawInt _ _ _ _ _ _ _ _ => timeline.Dated e
  | _ => True

/-- The week and the millisecond in it that a GPS receiver counts. -/
def gpsWeekMs (unixUs : ℤ) : UInt16 × UInt32 :=
  let gpsMs := unixUs.tdiv 1000 - 315964800 * 1000 + 18 * 1000
  (.ofInt (gpsMs / (7 * 86400 * 1000)), .ofInt (gpsMs % (7 * 86400 * 1000)))

/-! ## 4. What a writer takes -/

inductive WriteError
  | noEvents (assetId : String) (source : SourceRole)
  | formatMismatch (assetId format : String)
deriving DecidableEq, Repr

/-- Before it in time or with it. -/
def Event.notAfter (a b : Event) : Prop := a.tMs ≤ b.tMs

instance : DecidableRel Event.notAfter := fun _ _ => inferInstanceAs (Decidable (_ ≤ _))

def eventsFor (timeline : Timeline) (assetId : String) (source : SourceRole) : List Event :=
  (timeline.events.filter fun e => e.assetId = assetId ∧ e.source = source).insertionSort
    Event.notAfter

def fcEventsFor (timeline : Timeline) (assetId : String) (expected : FcLogFormat)
    (format : String) : Checked WriteError (List Event) :=
  if (timeline.asset assetId).all fun a => a.fcLog ≠ expected ∨ .fc ∉ a.sources then
    fail (.formatMismatch assetId format)
  else
    let events := eventsFor timeline assetId .fc
    if events = [] then fail (.noEvents assetId .fc) else return events

/-- The events of a flight controller, of which there are some: a log without any is refused, and
so is one of another format. -/
theorem eq_of_fcEventsFor {timeline : Timeline} {assetId format : String}
    {expected : FcLogFormat} {events : List Event}
    (h : fcEventsFor timeline assetId expected format = .ok events) :
    events ≠ [] ∧ events = eventsFor timeline assetId .fc := by
  rw [fcEventsFor] at h
  split at h
  · cases h
  dsimp only at h
  split at h
  · cases h
  next hne =>
  obtain rfl := Except.ok.inj h
  exact ⟨hne, rfl⟩

/-- The events before another boot. -/
def firstBoot (events : List Event) : List Event := events.takeWhile fun e => e.bootEpoch = 0

theorem firstBoot_cons {e : Event} (events : List Event) (h : e.bootEpoch = 0) :
    firstBoot (e :: events) = e :: firstBoot events :=
  List.takeWhile_cons_of_pos (p := fun e : Event => decide (e.bootEpoch = 0)) (decide_eq_true h)

theorem firstBoot_cons_of_ne {e : Event} (events : List Event) (h : e.bootEpoch ≠ 0) :
    firstBoot (e :: events) = [] :=
  List.takeWhile_cons_of_neg (p := fun e : Event => decide (e.bootEpoch = 0)) (by simpa using h)

end Musubi.Scenario
