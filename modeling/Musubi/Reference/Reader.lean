/-
# Readers

`reference-readers/src/lib.rs`: what a reader of recordings returns, and what it fails with.  A
reader returns observations; the clock, the confidence in its times and the role of the source
come from the profile.  An error names a line or an offset of the log, or the declaration of the
profile that the format cannot honour.  A slice carries the bound on its length that the language
promises of every object, so that the arithmetic of offsets needs no assumption elsewhere.

`reference-readers/src/profile.rs`: the two declarations of a profile that a format must honour
before a reader may rely on them.  A clock rate can be declared for the one format that pairs both
clocks in its records, with an uncertainty no finer than its readings; a sender can be selected for
the one format whose frames come from several.  A declaration for any other format is refused by
the profile, before a byte of a log is read.
-/
import Musubi.Lib.Result
import Musubi.Reference.Observation

namespace Musubi.Reference

open Lib Musubi.Core

/-! ## 1. Errors and observations -/

inductive ReadError
  | notImplemented (format ledger : String)
  | unsupportedFormat (format : String)
  | malformed (offset : ℕ) (what : String)
  | profile (s : String)
deriving DecidableEq, Repr

def ReadError.display : ReadError → String
  | .notImplemented format ledger =>
    "reader for " ++ format ++ " not implemented (" ++ ledger ++ ")"
  | .unsupportedFormat format => "no reader for format " ++ format
  | .malformed offset what => "malformed input at byte " ++ offset.repr ++ ": " ++ what
  | .profile s => "profile error: " ++ s

/-- The bytes of a slice: no object is larger than `isize::MAX`. -/
structure Slice where
  bytes : List UInt8
  length_lt : bytes.length < 2 ^ 63

def observation (sha256 : List UInt8 → Digest) (profile : FamilyProfile) (tMs : Int64)
    (channel : ChannelId) (fields : Fields) (stale : Bool) : Observation where
  tMs := tMs
  clockBasis := profile.defaultClockBasis
  timeConfidence := defaultTimeConfidence profile.defaultClockBasis
  sourceRole := profile.sourceRole
  channel := channel
  fields := fields
  stale := stale
  digest := observationDigest sha256 tMs channel fields
  tBootUs := none
  anchorUnixUs := none
  wallMs := if profile.defaultClockBasis = .hostReceived then some tMs else none

/-! ## 2. The declared clock rate -/

structure ClockRateFile where
  anchorUncertaintyUs : Int64
  minSpanUs : Int64
  maxAbsRatePpm : Int64
deriving DecidableEq

/-- The formats with paired anchors, each with the finest uncertainty its readings allow. -/
def clockRateFormats : List (String × Int64) := [("ardupilot_dataflash_bin", 1000)]

def declaredClockRate (profileId format : String) (clockRate : Option ClockRateFile) :
    Except ReadError (Option ClockRateConfig) :=
  let refuse (why : String) : Except ReadError (Option ClockRateConfig) :=
    .error (.profile (profileId ++ ": clock_rate " ++ why))
  match clockRate with
  | none => .ok none
  | some c =>
    match clockRateFormats.find? (·.1 = format) with
    | none =>
      refuse ("is not honoured by format '" ++ format
        ++ "'; it produces no paired in-log anchors")
    | some (_, floorUs) =>
      if c.anchorUncertaintyUs < floorUs then
        refuse ("needs a declared anchor_uncertainty_us of at least " ++ toString floorUs
          ++ " us for format '" ++ format ++ "': its reference reading is quantized that "
          ++ "coarsely, so a finer half-width would claim a precision the recording does not "
          ++ "contain. This floor only refuses an impossible precision - it is not evidence "
          ++ "that the pairing latency is bounded, and the real pairing error stays the "
          ++ "operator's to declare in full")
      else if c.minSpanUs < 1 then refuse "needs a declared positive min_span_us"
      else if c.maxAbsRatePpm < 1 then
        refuse ("needs a declared positive max_abs_rate_ppm; no universal acceptable clock rate "
          ++ "is supplied")
      else .ok (some ⟨c.anchorUncertaintyUs, c.minSpanUs, c.maxAbsRatePpm⟩)

/-! ## 3. The declared sender -/

structure SenderFile where
  systemId : UInt8
  componentId : UInt8
deriving DecidableEq

def senderSelectingFormats : List String := ["mavlink_tlog"]

def declaredSender (profileId format : String) (selectedSender : Option SenderFile) :
    Except ReadError (Option SenderSelection) :=
  let refuse (why : String) : Except ReadError (Option SenderSelection) :=
    .error (.profile (profileId ++ ": selected_sender " ++ why))
  match selectedSender with
  | none => .ok none
  | some s =>
    if format ∉ senderSelectingFormats then
      refuse ("is not honoured by format '" ++ format
        ++ "'; its records carry no reported sender tuple")
    else if s.systemId = 0 ∨ s.componentId = 0 then
      refuse ("needs a nonzero system_id and component_id; a zero id is not an addressable "
        ++ "recorded sender and would select nothing")
    else .ok (some ⟨s.systemId, s.componentId⟩)

end Musubi.Reference
