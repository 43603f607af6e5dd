/-
# The miniSEED 2 parser

`parse`, `parse_record`, `read_chain` and the header arithmetic of `miniseed2/src/lib.rs`.  Every
index and every slice of the source is a checked operation here, so a panic would show, and the
two `while` loops run under a bound on their rounds, so not coming back would show too.
`parse_record` is cut into the passes its comments mark: the identifiers, the blockette chain, the
checks that tie the chain to the header, the times, and the data area.

There are three ways for a computation to end (`Parse`): with a value, with one of the parser's
own errors, which name the offset and what was wrong there, and with a fault, a panic or a loop
out of rounds.  The results are that faults do not occur, whatever the bytes are, and what the
values are.

Times are integers here, and the sums of 64 bits that the code computes are proved to fit in
`Miniseed2.SampleTimes`; where the code itself checks a sum, as with the span of a record, the
check is in the model.
-/
import Musubi.Miniseed2.Steim

namespace Musubi.Miniseed2

open Lib Lib.Checked

/-! ## 1. Header fields -/

def isAsciiDigit (b : UInt8) : Bool := 0x30 ≤ b.toNat ∧ b.toNat ≤ 0x39

def isAsciiAlphanumeric (b : UInt8) : Bool :=
  isAsciiDigit b ∨ (0x41 ≤ b.toNat ∧ b.toNat ≤ 0x5A) ∨ (0x61 ≤ b.toNat ∧ b.toNat ≤ 0x7A)

def isSpace (b : UInt8) : Bool := b = 0x20

/-- The ASCII whitespace that `trim_end` takes off. -/
def isAsciiWhitespace (b : UInt8) : Bool := b = 0x20 ∨ (0x09 ≤ b.toNat ∧ b.toNat ≤ 0x0D)

/-- A header text field without its trailing spaces.  It is called on bytes that have been
checked to be ASCII, where `from_utf8_lossy` takes each byte for its character. -/
def ascii (bytes : List UInt8) : String :=
  String.ofList (((bytes.reverse.dropWhile isAsciiWhitespace).reverse).map
    fun b => Char.ofNat b.toNat)

/-- The text fields after the quality byte: where they are and what they are called. -/
def headerFields : List (ℕ × ℕ × String) :=
  [(8, 13, "station"), (13, 15, "location"), (15, 18, "channel"), (18, 20, "network")]

/-- The identifiers are checked before anything is built from them. -/
def checkIdentifiers (available : List UInt8) (offset : ℕ) : Parse Unit := do
  let sequence ← slice available 0 6
  if !sequence.all (fun b => isAsciiDigit b || isSpace b) then
    fail (.badHeaderIdentifier offset "sequence number")
  else do
    let quality ← index available 6
    if !(quality = 0x44 || quality = 0x52 || quality = 0x51 || quality = 0x4D) then
      fail (.badHeaderIdentifier offset "data quality")
    else
      headerFields.foldlM
        (fun _ f => do
          let field ← slice available f.1 f.2.1
          if !field.all (fun b => isAsciiAlphanumeric b || isSpace b) then
            fail (.badHeaderIdentifier offset f.2.2)
          else return ())
        ()

/-! ## 2. Times -/

def isLeap (year : ℤ) : Bool := (year % 4 = 0 ∧ year % 100 ≠ 0) ∨ year % 400 = 0

/-- Days from 1970-01-01 in the proleptic Gregorian calendar.  The source divides towards zero,
and only where the dividend is not negative. -/
def daysFromCivil (year month day : ℤ) : ℤ :=
  let y := if month ≤ 2 then year - 1 else year
  let era := (if 0 ≤ y then y else y - 399).tdiv 400
  let yoe := y - era * 400
  let mp := (month + 9).tmod 12
  let doy := (153 * mp + 2).tdiv 5 + day - 1
  let doe := yoe * 365 + yoe.tdiv 4 - yoe.tdiv 100 + doy
  era * 146097 + doe - 719468

def btimeUnixUs (t : BTime) (offset : ℕ) : Parse ℤ :=
  let bad := fun what => fail (.badStartTime offset what)
  if ¬ (1900 ≤ t.year.toNat ∧ t.year.toNat ≤ 2100) then bad "year outside 1900..=2100"
  else
    let daysInYear := if isLeap t.year.toNat then 366 else 365
    if t.dayOfYear.toNat = 0 ∨ daysInYear < t.dayOfYear.toNat then
      bad "day of year outside the year"
    else if 23 < t.hour.toNat then bad "hour above 23"
    else if 59 < t.minute.toNat then bad "minute above 59"
    else if 59 < t.second.toNat then bad "second above 59 (leap second not convertible)"
    else if 9999 < t.tenthMs.toNat then bad "0.0001 s ticks above 9999"
    else
      let days := daysFromCivil t.year.toNat 1 1 + t.dayOfYear.toNat - 1
      let seconds := days * 86400 + t.hour.toNat * 3600 + t.minute.toNat * 60 + t.second.toNat
      .ok (seconds * 1000000 + t.tenthMs.toNat * 100)

/-- The sample rate as a rational, from the two header integers. -/
def rateRatio (factor multiplier : Int16) : Option (ℤ × ℤ) :=
  let f := factor.toInt
  let m := multiplier.toInt
  if f = 0 ∨ m = 0 then none
  else if 0 < f then
    if 0 < m then some (f * m, 1) else some (f, -m)
  else
    if 0 < m then some (m, -f) else some (1, f * m)

def samplePeriodUs (factor multiplier : Int16) (offset : ℕ) : Parse ℤ :=
  match rateRatio factor multiplier with
  | none => fail (.badSampleRate offset)
  | some (num, den) =>
    let scaled := 1000000 * den
    if scaled.tmod num ≠ 0 then fail (.samplePeriodNotRepresentable offset factor multiplier)
    else .ok (scaled.tdiv num)

/-- The value is an `i64`. -/
def fitsI64 (v : ℤ) : Bool := -2 ^ 63 ≤ v ∧ v < 2 ^ 63

/-! ## 3. The blockette chain -/

structure ChainState where
  blockettes : List Blockette
  recordLength : Option ℕ
  next : ℕ
  previousEnd : ℕ

/-- The record length after a blockette: what it declares if it is a blockette 1000, else what
was known. -/
def declaredLength (available : List UInt8) (offset : ℕ) (kind : UInt16) (next stop : ℕ)
    (known : Option ℕ) : Parse (Option ℕ) :=
  if kind = 1000 then
    if stop < next + 8 then
      fail (.badBlocketteChain offset "blockette 1000 is shorter than 8 bytes")
    else do
      let power ← index available (next + 6)
      if ¬ (8 ≤ power.toNat ∧ power.toNat ≤ 24) then
        fail (.badBlocketteChain offset "blockette 1000 declares an unusable record length")
      else return some (2 ^ power.toNat)
  else return known

/-- One round of `read_chain`. -/
def readChainRound (available : List UInt8) (offset dataBeginOffset : ℕ) (s : ChainState) :
    Parse (ChainState ⊕ ChainState) :=
  let bad := fun what => fail (.badBlocketteChain offset what)
  if s.next = 0 then return .inr s
  else if s.next < s.previousEnd then bad "blockette offset does not advance"
  else if available.length < s.next + 4 then bad "blockette offset outside record"
  else do
    let kind ← be16 available s.next
    let following := (← be16 available (s.next + 2)).toNat
    if following ≠ 0 ∧ following ≤ s.next then bad "blockette offset does not advance"
    else do
      let stop :=
        if following ≠ 0 then following
        else if s.next < dataBeginOffset then dataBeginOffset
        else s.next + 4
      if available.length < stop ∨ stop < s.next + 4 then
        bad "blockette extends outside record"
      else do
        let recordLength ← declaredLength available offset kind s.next stop s.recordLength
        if kind = 1001 ∧ stop < s.next + 8 then bad "blockette 1001 is shorter than 8 bytes"
        else do
          let raw ← slice available s.next stop
          return .inl
            { blockettes := s.blockettes ++ [{ kind := kind, offset := s.next, raw := raw }]
              recordLength := recordLength
              next := following
              previousEnd := stop }

/-- The blockettes in chain order, and the record length that blockette 1000 declares. -/
def readChain (available : List UInt8) (offset firstBlockette dataBeginOffset : ℕ) :
    Parse (List Blockette × ℕ) := do
  let s ← loop (readChainRound available offset dataBeginOffset) (available.length + 1)
    { blockettes := [], recordLength := none, next := firstBlockette, previousEnd := fixedHeader }
  match s.recordLength with
  | none => fail (.missingBlockette1000 offset)
  | some recordLength => return (s.blockettes, recordLength)

/-! ## 4. One record -/

/-- The checks that tie the chain to the header. -/
def checkChain (offset recordLength dataBeginOffset sampleCountDeclared blocketteCount : ℕ)
    (blockettes : List Blockette) : Parse Unit :=
  let bad := fun what => fail (.badBlocketteChain offset what)
  if blockettes.any (fun b => recordLength < b.stop) then bad "blockette offset outside record"
  else if recordLength < dataBeginOffset ∨
      (0 < sampleCountDeclared ∧ dataBeginOffset < fixedHeader) then
    bad "data begin offset outside record"
  else if blockettes.length ≠ blocketteCount then
    bad "header blockette count does not match the chain"
  else if fixedHeader ≤ dataBeginOffset ∧ blockettes.any (fun b => dataBeginOffset < b.stop) then
    bad "a blockette reaches into the declared data area"
  else if [1000, 1001].any (fun kind => 1 < (blockettes.filter (·.kind = kind)).length) then
    bad "a decoding blockette is declared more than once"
  else
    match blockettes.find? (·.kind = 100) with
    | some b => fail (.unsupportedBlockette offset b.kind
        "an actual sample rate that overrides the header rate this decoder uses")
    | none => return ()

/-- The bytes between the last blockette and the data area. -/
def reservedGap (record : List UInt8) (recordLength dataBeginOffset : ℕ)
    (blockettes : List Blockette) : Parse (List UInt8) :=
  match blockettes.getLast? with
  | some b =>
    if b.stop < dataBeginOffset ∧ dataBeginOffset ≤ recordLength then
      slice record b.stop dataBeginOffset
    else return []
  | none => return []

/-- The data area: what the header declares, and nothing when it points into itself. -/
def dataArea (record : List UInt8) (recordLength dataBeginOffset : ℕ) : Parse (List UInt8) :=
  if fixedHeader ≤ dataBeginOffset ∧ dataBeginOffset ≤ recordLength then
    slice record dataBeginOffset record.length
  else return []

/-- `b.map(|b| b.raw[i])`. -/
def rawByte (b : Option Blockette) (i : ℕ) : Parse (Option UInt8) :=
  match b with
  | none => return none
  | some b => return some (← index b.raw i)

def parseRecord (bytes : List UInt8) (offset : ℕ) : Parse Record := do
  let available ← slice bytes offset bytes.length
  if available.length < fixedHeader then fail (.truncated offset)
  else do
    checkIdentifiers available offset
    let sequence := ascii (← slice available 0 6)
    let quality := Char.ofNat (← index available 6).toNat
    let station := ascii (← slice available 8 13)
    let location := ascii (← slice available 13 15)
    let channel := ascii (← slice available 15 18)
    let network := ascii (← slice available 18 20)
    let start : BTime :=
      { year := ← be16 available 20
        dayOfYear := ← be16 available 22
        hour := ← index available 24
        minute := ← index available 25
        second := ← index available 26
        tenthMs := ← be16 available 28 }
    let sampleCountDeclared := (← be16 available 30).toNat
    let rateFactor := (← be16 available 32).toInt16
    let rateMultiplier := (← be16 available 34).toInt16
    let activityFlags ← index available 36
    let ioClockFlags ← index available 37
    let dataQualityFlags ← index available 38
    let blocketteCountDeclared := (← index available 39).toNat
    let timeCorrectionTicks := (← be32 available 40).toInt32
    let dataBeginOffset := (← be16 available 44).toNat
    let firstBlockette := (← be16 available 46).toNat
    let (blockettes, recordLength) ← readChain available offset firstBlockette dataBeginOffset
    if available.length < recordLength then fail (.trailingBytes offset available.length)
    else do
      let record ← slice available 0 recordLength
      checkChain offset recordLength dataBeginOffset sampleCountDeclared blocketteCountDeclared
        blockettes
      match blockettes.find? (·.kind = 1000) with
      | none => fail (.missingBlockette1000 offset)
      | some b1000 => do
        let encoding ← index b1000.raw 4
        let wordOrder ← index b1000.raw 5
        if wordOrder ≠ 1 then fail (.unsupportedWordOrder offset wordOrder)
        else if encoding ≠ steim1 ∧ encoding ≠ steim2 then
          fail (.unsupportedEncoding offset encoding)
        else do
          let b1001 := blockettes.find? (·.kind = 1001)
          let timingQualityPercent ← rawByte b1001 4
          let microsecondOffset := (← rawByte b1001 5).map UInt8.toInt8
          let startUnixUsRaw ← btimeUnixUs start offset
          let timeCorrectionApplied : Bool := activityFlags &&& 0x02 ≠ 0
          let startUnixUs := startUnixUsRaw +
            (if timeCorrectionApplied then 0 else timeCorrectionTicks.toInt * 100) +
            (microsecondOffset.getD 0).toInt
          let samplePeriodUs ← samplePeriodUs rateFactor rateMultiplier offset
          let span := samplePeriodUs * sampleCountDeclared
          if ¬ (fitsI64 span ∧ fitsI64 (startUnixUs + span)) then
            fail (.sampleSpanNotRepresentable offset sampleCountDeclared samplePeriodUs)
          else do
            let reservedGap ← reservedGap record recordLength dataBeginOffset blockettes
            let data ← dataArea record recordLength dataBeginOffset
            if data.length % frameLength ≠ 0 then
              fail (.unalignedFramePayload offset data.length)
            else do
              let (steimX0, steimXn, samples, steimSurplusDiffs) ←
                decodeSamples data encoding sampleCountDeclared offset
              return {
                offset, recordLength, sequence, quality, network, station, location, channel,
                start, startUnixUsRaw, startUnixUs, sampleCountDeclared,
                sampleCountDecoded := samples.length, rateFactor, rateMultiplier, samplePeriodUs,
                activityFlags, ioClockFlags, dataQualityFlags, timeCorrectionTicks,
                timeCorrectionApplied, encoding, wordOrder, dataBeginOffset, blockettes,
                reservedGap, timingQualityPercent, microsecondOffset, samples, steimX0, steimXn,
                steimSurplusDiffs }

/-! ## 5. The input -/

/-- One round of `parse`: the next record, unless it goes back in time. -/
def parseRound (bytes : List UInt8) (s : ℕ × List Record) :
    Parse ((ℕ × List Record) ⊕ List Record) :=
  let (offset, records) := s
  if offset < bytes.length then do
    let record ← parseRecord bytes offset
    match records.reverse.find? (·.sourceId = record.sourceId) with
    | some previous =>
      if record.startUnixUs < previous.startUnixUs then
        fail (.nonMonotonicRecords offset previous.startUnixUs record.startUnixUs)
      else return .inl (offset + record.recordLength, records ++ [record])
    | none => return .inl (offset + record.recordLength, records ++ [record])
  else return .inr records

def parse (bytes : List UInt8) : Parse (List Record) :=
  if bytes.isEmpty then fail .emptyInput
  else loop (parseRound bytes) (bytes.length + 1) (0, [])

end Musubi.Miniseed2
