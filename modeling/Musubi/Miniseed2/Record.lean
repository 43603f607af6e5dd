/-
# miniSEED 2 records and parse errors

The data of `miniseed2/src/lib.rs`: a decoded record, the blockettes it keeps, and every way a
parse can fail.  Offsets and lengths are natural numbers; the machine integers of the wire format
keep their widths; times, which are `i64` microseconds within the years 1900 to 2100, are
integers.

An error names the place in the input where it was found, and the value that was found there if
there is one.  Words of the wire format are big-endian and are read with a check that they are
there (section 3).
-/
import Musubi.Lib.Bytes
import Musubi.Lib.Checked

namespace Musubi.Miniseed2

open Lib Lib.Checked

/-! ## 1. Records -/

/-- One blockette of the chain; `offset` is within the record. -/
structure Blockette where
  kind : UInt16
  offset : ℕ
  raw : List UInt8
deriving DecidableEq, Repr

/-- Where the blockette ends within the record. -/
def Blockette.stop (b : Blockette) : ℕ := b.offset + b.raw.length

structure BTime where
  year : UInt16
  dayOfYear : UInt16
  hour : UInt8
  minute : UInt8
  second : UInt8
  tenthMs : UInt16
deriving DecidableEq, Repr

structure Record where
  offset : ℕ
  recordLength : ℕ
  sequence : String
  quality : Char
  network : String
  station : String
  location : String
  channel : String
  start : BTime
  startUnixUsRaw : ℤ
  startUnixUs : ℤ
  sampleCountDeclared : ℕ
  sampleCountDecoded : ℕ
  rateFactor : Int16
  rateMultiplier : Int16
  samplePeriodUs : ℤ
  activityFlags : UInt8
  ioClockFlags : UInt8
  dataQualityFlags : UInt8
  timeCorrectionTicks : Int32
  timeCorrectionApplied : Bool
  encoding : UInt8
  wordOrder : UInt8
  dataBeginOffset : ℕ
  blockettes : List Blockette
  reservedGap : List UInt8
  timingQualityPercent : Option UInt8
  microsecondOffset : Option Int8
  samples : List Int32
  steimX0 : Int32
  steimXn : Int32
  steimSurplusDiffs : ℕ
deriving DecidableEq

/-- `NET.STA.LOC.CHA`. -/
def Record.sourceId (r : Record) : String :=
  r.network ++ "." ++ r.station ++ "." ++ r.location ++ "." ++ r.channel

/-! ## 2. Parse errors -/

inductive ParseError
  | emptyInput
  | truncated (offset : ℕ)
  | trailingBytes (offset len : ℕ)
  | badHeaderIdentifier (offset : ℕ) (field : String)
  | missingBlockette1000 (offset : ℕ)
  | badBlocketteChain (offset : ℕ) (what : String)
  | unsupportedBlockette (offset : ℕ) (kind : UInt16) (what : String)
  | unsupportedEncoding (offset : ℕ) (code : UInt8)
  | unsupportedWordOrder (offset : ℕ) (code : UInt8)
  | unsupportedSteimNibble (offset : ℕ) (code dnib : UInt8)
  | badStartTime (offset : ℕ) (what : String)
  | badSampleRate (offset : ℕ)
  | samplePeriodNotRepresentable (offset : ℕ) (rateFactor rateMultiplier : Int16)
  | sampleSpanNotRepresentable (offset sampleCountDeclared : ℕ) (samplePeriodUs : ℤ)
  | unalignedFramePayload (offset dataBytes : ℕ)
  | sampleCountShortfall (offset declared decoded : ℕ)
  | reverseIntegrationMismatch (offset : ℕ) (expected actual : Int32)
  | nonMonotonicRecords (offset : ℕ) (previousStartUnixUs startUnixUs : ℤ)
deriving DecidableEq

/-- Where the input could not be read on. -/
def ParseError.offset : ParseError → ℕ
  | .emptyInput => 0
  | .truncated offset => offset
  | .trailingBytes offset _ => offset
  | .badHeaderIdentifier offset _ => offset
  | .missingBlockette1000 offset => offset
  | .badBlocketteChain offset _ => offset
  | .unsupportedBlockette offset _ _ => offset
  | .unsupportedEncoding offset _ => offset
  | .unsupportedWordOrder offset _ => offset
  | .unsupportedSteimNibble offset _ _ => offset
  | .badStartTime offset _ => offset
  | .badSampleRate offset => offset
  | .samplePeriodNotRepresentable offset _ _ => offset
  | .sampleSpanNotRepresentable offset _ _ => offset
  | .unalignedFramePayload offset _ => offset
  | .sampleCountShortfall offset _ _ => offset
  | .reverseIntegrationMismatch offset _ _ => offset
  | .nonMonotonicRecords offset _ _ => offset

def ParseError.display : ParseError → String
  | .emptyInput => "empty input"
  | .truncated offset => "truncated record header at " ++ offset.repr
  | .trailingBytes offset len =>
    len.repr ++ " trailing bytes at " ++ offset.repr ++ " are not a whole record"
  | .badHeaderIdentifier offset field =>
    "record at " ++ offset.repr ++ " has an unusable " ++ field ++ " identifier"
  | .missingBlockette1000 offset => "record at " ++ offset.repr ++ " has no blockette 1000"
  | .badBlocketteChain offset what =>
    "bad blockette chain in record at " ++ offset.repr ++ ": " ++ what
  | .unsupportedBlockette offset kind what =>
    "record at " ++ offset.repr ++ " carries blockette " ++ kind.toNat.repr ++ ": " ++ what
  | .unsupportedEncoding offset code =>
    "record at " ++ offset.repr ++ " uses encoding " ++ code.toNat.repr
      ++ "; only 10 (Steim-1) and 11 (Steim-2) are decoded"
  | .unsupportedWordOrder offset code =>
    "record at " ++ offset.repr ++ " declares word order " ++ code.toNat.repr
      ++ "; only 1 (big-endian) is decoded"
  | .unsupportedSteimNibble offset code dnib =>
    "record at " ++ offset.repr ++ " uses undefined Steim nibble " ++ code.toNat.repr ++ "/"
      ++ dnib.toNat.repr
  | .badStartTime offset what =>
    "record at " ++ offset.repr ++ " has an unusable start time: " ++ what
  | .badSampleRate offset => "record at " ++ offset.repr ++ " has a zero sample rate"
  | .samplePeriodNotRepresentable offset rateFactor rateMultiplier =>
    "record at " ++ offset.repr ++ " declares rate " ++ toString rateFactor ++ "/"
      ++ toString rateMultiplier ++ ", whose period is not a whole microsecond"
  | .sampleSpanNotRepresentable offset sampleCountDeclared samplePeriodUs =>
    "record at " ++ offset.repr ++ " declares " ++ sampleCountDeclared.repr ++ " samples of "
      ++ toString samplePeriodUs ++ " us, which leaves the representable time range"
  | .unalignedFramePayload offset dataBytes =>
    "record at " ++ offset.repr ++ " has a " ++ dataBytes.repr
      ++ "-byte data area, which is not a whole number of 64-byte Steim frames"
  | .sampleCountShortfall offset declared decoded =>
    "record at " ++ offset.repr ++ " declares " ++ declared.repr
      ++ " samples but the frames carry " ++ decoded.repr
  | .reverseIntegrationMismatch offset expected actual =>
    "record at " ++ offset.repr ++ " ends at " ++ toString actual
      ++ ", but its reverse integration constant is " ++ toString expected
  | .nonMonotonicRecords offset previousStartUnixUs startUnixUs =>
    "record at " ++ offset.repr ++ " starts at " ++ toString startUnixUs ++ " us, before "
      ++ toString previousStartUnixUs ++ " us in the same stream"

/-- A computation of the decoder. -/
abbrev Parse := Checked ParseError

/-! ## 3. Words of the wire format -/

def fixedHeader : ℕ := 48

def frameLength : ℕ := 64

def steim1 : UInt8 := 10

def steim2 : UInt8 := 11

def be16 (bytes : List UInt8) (pos : ℕ) : Parse UInt16 := do
  let b0 ← index bytes pos
  let b1 ← index bytes (pos + 1)
  return UInt16.ofNat (ofBeBytes [b0, b1])

def be32 (bytes : List UInt8) (pos : ℕ) : Parse UInt32 := do
  let b0 ← index bytes pos
  let b1 ← index bytes (pos + 1)
  let b2 ← index bytes (pos + 2)
  let b3 ← index bytes (pos + 3)
  return UInt32.ofNat (ofBeBytes [b0, b1, b2, b3])

end Musubi.Miniseed2
