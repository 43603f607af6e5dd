/-
# The records tile the input

`parse` on an arbitrary byte string: it comes back, no index, slice or shift is out of range, and
the records of an accepted input lie end to end from its first byte to its last, each with the
structure its own header and blockettes declare (`RecordOf`, `Tiles`).

The judgments go bottom up, one a function of the source, in the order they are called.  `Safe x
P` says that `x` ends in one of the parser's errors or in a value with `P`, and never in a fault,
so composing two of them follows the code, and what a value is comes along for free.

Two loops need more than composition.  The chain of blockettes goes forward (`Miniseed2.Chain`),
and `parse` itself goes forward because an accepted record is at least 256 bytes long; its
invariant (`ParseInv`) is that the records so far tile the input up to the offset, in the order of
their starts for each source, and that each has the times of its header.  A record that starts
before one of its own source is refused, which keeps the order when a record is added.
-/
import Musubi.Miniseed2.Chain

namespace Musubi.Miniseed2

open Lib Lib.Checked

/-! ## 1. Steim frames -/

theorem safe_signExtend {bits : UInt32} {width : ℕ} (hpos : 1 ≤ width) (hle : width ≤ 32) :
    Safe (signExtend bits width) fun _ => True := by
  unfold signExtend
  refine (safe_sub hle).bind fun shift hshift => ?_
  refine (safe_shl (by omega)).bind fun up _ => ?_
  exact safe_sar (by omega)

/-- The packings fill at most a word. -/
theorem safe_widthCount {encoding code dnib : UInt8} {offset : ℕ} :
    Safe (widthCount encoding code dnib offset) fun r =>
      1 ≤ r.1 ∧ 1 ≤ r.2 ∧ r.2 * r.1 ≤ 32 := by
  unfold widthCount
  repeat' split
  all_goals first | exact safe_fail _ | exact safe_ok (by decide)

theorem safe_unpackWord {word : UInt32} {width count : ℕ} {diffs : List Int32}
    (hwidth : 1 ≤ width) (hcount : 1 ≤ count) (hfill : count * width ≤ 32) :
    Safe (unpackWord word width count diffs) fun _ => True := by
  refine safe_foldlM _ trivial fun diffs i hi _ => ?_
  have hi := List.mem_range.mp hi
  have hle : width ≤ 32 := (Nat.le_mul_of_pos_left width hcount).trans hfill
  unfold unpackField
  refine (safe_sub hcount).bind fun n hn => ?_
  refine (safe_sub (by omega)).bind fun back hback => ?_
  subst hback hn
  refine (safe_shr (unpackField_shift_lt hwidth hcount hfill i)).bind fun bits _ => ?_
  exact (safe_signExtend hwidth hle).bind fun _ _ => trivial

theorem safe_decodeWord {encoding : UInt8} {offset : ℕ} {frame : List UInt8} {control : UInt32}
    {frameIndex : ℕ} {diffs : List Int32} {wordIndex : ℕ} (hframe : frame.length = 64)
    (hword : wordIndex < 16) :
    Safe (decodeWord encoding offset frame control frameIndex diffs wordIndex)
      fun _ => True := by
  unfold decodeWord
  split
  · exact trivial
  refine (safe_sub (by omega)).bind fun n hn => ?_
  refine (safe_shr (by omega)).bind fun shifted _ => ?_
  dsimp only
  split
  · exact trivial
  refine (safe_be32 (by omega)).bind fun word _ => ?_
  refine (safe_shr (by omega)).bind fun top _ => ?_
  exact safe_widthCount.bind fun r hr => safe_unpackWord hr.1 hr.2.1 hr.2.2

theorem length_of_mem_chunksExact {α : Type} {n : ℕ} {l c : List α} (h : c ∈ chunksExact n l) :
    c.length = n := by
  obtain ⟨i, hi, rfl⟩ := List.mem_map.mp h
  have hi := List.mem_range.mp hi
  have hle : n * (i + 1) ≤ l.length :=
    (Nat.mul_le_mul_left n hi).trans (Nat.mul_div_le l.length n)
  rw [List.length_take, List.length_drop]
  rw [Nat.mul_add, Nat.mul_one] at hle
  omega

theorem safe_decodeFrame {encoding : UInt8} {offset : ℕ} {acc : Int32 × Int32 × List Int32}
    {indexed : List UInt8 × ℕ} (hframe : indexed.1.length = 64) :
    Safe (decodeFrame encoding offset acc indexed) fun _ => True := by
  obtain ⟨x0, xn, diffs⟩ := acc
  obtain ⟨frame, frameIndex⟩ := indexed
  dsimp only at hframe
  simp only [decodeFrame]
  refine (safe_be32 (by omega)).bind fun control _ => ?_
  refine Safe.bind (P := fun _ => True) ?_ fun p _ => ?_
  · unfold integrationConstants
    split
    · refine (safe_be32 (by omega)).bind fun first _ => ?_
      exact (safe_be32 (by omega)).bind fun last _ => trivial
    · exact trivial
  · refine Safe.bind (P := fun _ => True) ?_ fun _ _ => trivial
    refine safe_foldlM _ trivial fun diffs i hi _ => safe_decodeWord hframe ?_
    have := List.mem_range'_1.mp hi
    omega

theorem safe_decodeSteim {data : List UInt8} {encoding : UInt8} {offset : ℕ} :
    Safe (decodeSteim data encoding offset) fun _ => True :=
  safe_foldlM _ trivial fun _ _ hmem _ =>
    safe_decodeFrame (length_of_mem_chunksExact (List.fst_mem_of_mem_zipIdx hmem))

/-- The running sums, as the loop of the reverse integration builds them. -/
theorem foldl_integrate (steps : List Int32) : ∀ (value : Int32) (samples : List Int32),
    (steps.foldl (fun (value, samples) d => (value + d, samples ++ [value + d]))
      (value, samples ++ [value])).2 = samples ++ steps.scanl (· + ·) value := by
  induction steps with
  | nil => intro value samples; rfl
  | cons d steps ih =>
    intro value samples
    rw [List.foldl_cons, ih, List.scanl_cons, List.append_assoc, List.singleton_append]

theorem safe_integrate {x0 xn : Int32} {diffs : List Int32} {declared offset : ℕ} :
    Safe (integrate x0 xn diffs declared offset) fun r => r.1.length = declared := by
  unfold integrate
  split
  · exact safe_pure (by simp_all)
  refine Safe.guard fun hshort => ?_
  refine (safe_slice (by omega) (by omega)).bind fun steps hsteps => ?_
  have hsums := foldl_integrate steps x0 []
  rw [List.nil_append, List.nil_append] at hsums
  dsimp only
  refine Safe.guard fun hlast => ?_
  refine (safe_sub (by omega)).bind fun surplus _ => safe_pure ?_
  rw [hsums, List.length_scanl, hsteps.2]
  omega

theorem safe_decodeSamples {data : List UInt8} {encoding : UInt8} {declared offset : ℕ} :
    Safe (decodeSamples data encoding declared offset) fun r => r.2.2.1.length = declared := by
  unfold decodeSamples
  exact safe_decodeSteim.bind fun _ _ => safe_integrate.bind fun _ h => safe_pure h

/-! ## 2. Header and chain checks -/

theorem safe_checkIdentifiers {available : List UInt8} {offset : ℕ}
    (h : fixedHeader ≤ available.length) :
    Safe (checkIdentifiers available offset) fun _ => True := by
  unfold fixedHeader at h
  unfold checkIdentifiers
  refine (safe_slice (by omega) (by omega)).bind fun sequence _ => Safe.guard fun _ => ?_
  refine (safe_index (by omega)).bind fun quality _ => Safe.guard fun _ => ?_
  refine safe_foldlM _ trivial fun _ f hf _ => ?_
  have hf : f.1 ≤ f.2.1 ∧ f.2.1 ≤ available.length := by
    simp only [headerFields, List.mem_cons, List.not_mem_nil, or_false] at hf
    rcases hf with rfl | rfl | rfl | rfl <;> exact ⟨by decide, by dsimp only; omega⟩
  exact (safe_slice hf.1 hf.2).bind fun field _ => Safe.guard fun _ => trivial

theorem safe_btimeUnixUs {t : BTime} {offset : ℕ} :
    Safe (btimeUnixUs t offset) fun _ => True := by
  simp only [btimeUnixUs]
  refine Safe.guard fun _ => Safe.guard fun _ => Safe.guard fun _ => Safe.guard fun _ => ?_
  exact Safe.guard fun _ => Safe.guard fun _ => trivial

theorem safe_samplePeriodUs {factor multiplier : Int16} {offset : ℕ} :
    Safe (samplePeriodUs factor multiplier offset) fun _ => True := by
  unfold samplePeriodUs
  split
  · exact safe_fail _
  · exact Safe.guard fun _ => trivial

/-- The chain fits the header: inside the record, before the data area, as many blockettes as
declared, and one of each decoding kind at most. -/
structure ChainFits (recordLength dataBeginOffset sampleCountDeclared blocketteCount : ℕ)
    (blockettes : List Blockette) : Prop where
  inRecord : ∀ b ∈ blockettes, b.stop ≤ recordLength
  dataBegin_le : dataBeginOffset ≤ recordLength
  dataBegin_ge : 0 < sampleCountDeclared → fixedHeader ≤ dataBeginOffset
  count_eq : blockettes.length = blocketteCount
  beforeData : fixedHeader ≤ dataBeginOffset → ∀ b ∈ blockettes, b.stop ≤ dataBeginOffset
  once1000 : (blockettes.filter (·.kind = 1000)).length ≤ 1
  once1001 : (blockettes.filter (·.kind = 1001)).length ≤ 1

theorem safe_checkChain
    {offset recordLength dataBeginOffset sampleCountDeclared blocketteCount : ℕ}
    {blockettes : List Blockette} :
    Safe (checkChain offset recordLength dataBeginOffset sampleCountDeclared blocketteCount
      blockettes) fun _ =>
      ChainFits recordLength dataBeginOffset sampleCountDeclared blocketteCount blockettes := by
  simp only [checkChain]
  refine Safe.guard fun hrecord => Safe.guard fun hdata => Safe.guard fun hcount => ?_
  refine Safe.guard fun hbefore => Safe.guard fun honce => ?_
  simp only [List.any_eq_true, decide_eq_true_eq, not_exists, not_and, not_lt, List.mem_cons,
    List.not_mem_nil, or_false, forall_eq_or_imp, forall_eq] at hrecord hbefore honce
  have hfits : ChainFits recordLength dataBeginOffset sampleCountDeclared blocketteCount
      blockettes :=
    { inRecord := hrecord
      dataBegin_le := by omega
      dataBegin_ge := fun hsamples => by omega
      count_eq := not_not.mp hcount
      beforeData := hbefore
      once1000 := honce.1
      once1001 := honce.2 }
  split
  · exact safe_fail _
  · exact safe_pure hfits

theorem safe_reservedGap {record : List UInt8} {recordLength dataBeginOffset : ℕ}
    {blockettes : List Blockette} (hlen : record.length = recordLength) :
    Safe (reservedGap record recordLength dataBeginOffset blockettes) fun _ => True := by
  unfold reservedGap
  split
  · split
    · rename_i h
      exact (safe_slice (Nat.le_of_lt h.1) (hlen ▸ h.2)).mono fun _ _ => trivial
    · exact trivial
  · exact trivial

theorem safe_dataArea {record : List UInt8} {recordLength dataBeginOffset : ℕ}
    (hlen : record.length = recordLength) :
    Safe (dataArea record recordLength dataBeginOffset) fun _ => True := by
  unfold dataArea
  split
  · rename_i h
    exact (safe_slice (hlen ▸ h.2) (Nat.le_refl _)).mono fun _ _ => trivial
  · exact trivial

/-! ## 3. One record -/

/-- Where the data area starts: where the header says, and at the end of the record when the
header declares none. -/
def Record.dataStart (r : Record) : ℕ :=
  if fixedHeader ≤ r.dataBeginOffset then r.dataBeginOffset else r.recordLength

/-- The record is what its own header and blockettes say, at its place in `bytes`: its length is
declared by the one blockette 1000, its blockettes lie end to end before its data, as they stand
in the bytes, and its samples are those of its data area. -/
structure RecordOf (bytes : List UInt8) (r : Record) : Prop where
  inBytes : r.offset + r.recordLength ≤ bytes.length
  declared : ∃ b, r.blockettes.filter (·.kind = 1000) = [b] ∧
    ∃ power : UInt8, b.raw[6]? = some power ∧ r.recordLength = 2 ^ power.toNat
  chained : ∃ a b, fixedHeader ≤ a ∧
    EndToEnd Blockette.offset Blockette.stop a r.blockettes b
  verbatim : ∀ b ∈ r.blockettes,
    b.raw = (bytes.drop (r.offset + b.offset)).take b.raw.length
  inRecord : ∀ b ∈ r.blockettes, b.stop ≤ r.recordLength
  beforeData : ∀ b ∈ r.blockettes, b.stop ≤ r.dataStart
  dataStart_le : r.dataStart ≤ r.recordLength
  counted : ∃ n : UInt8, bytes[r.offset + 39]? = some n ∧ r.blockettes.length = n.toNat
  sampled : ∃ n : UInt16, be16 bytes (r.offset + 30) = .ok n ∧ r.sampleCountDeclared = n.toNat
  decoded : r.samples.length = r.sampleCountDeclared ∧
    r.sampleCountDecoded = r.sampleCountDeclared

/-- The times of the record, and where its data begin, are those of its header: the start with its
corrections, the period of the declared rate, and a span that fits. -/
structure HeaderOf (bytes : List UInt8) (r : Record) : Prop where
  dataBegin : ∃ n : UInt16, be16 bytes (r.offset + 44) = .ok n ∧ r.dataBeginOffset = n.toNat
  started : btimeUnixUs r.start r.offset = .ok r.startUnixUsRaw
  corrected : r.startUnixUs = r.startUnixUsRaw +
    (if r.timeCorrectionApplied then 0 else r.timeCorrectionTicks.toInt * 100) +
    (r.microsecondOffset.getD 0).toInt
  rated : ∃ factor multiplier : UInt16, be16 bytes (r.offset + 32) = .ok factor ∧
    be16 bytes (r.offset + 34) = .ok multiplier ∧
    r.rateFactor = factor.toInt16 ∧ r.rateMultiplier = multiplier.toInt16
  period : samplePeriodUs r.rateFactor r.rateMultiplier r.offset = .ok r.samplePeriodUs
  spanFits : fitsI64 (r.samplePeriodUs * r.sampleCountDeclared) ∧
    fitsI64 (r.startUnixUs + r.samplePeriodUs * r.sampleCountDeclared)

theorem be16_drop (l : List UInt8) (n i : ℕ) : be16 (l.drop n) i = be16 l (n + i) := by
  simp only [be16, index, List.getElem?_drop, Nat.add_assoc]

/-- Of the blockettes 1000 there is one, and it is the one that declares the length. -/
theorem DeclaresLength.unique {blockettes : List Blockette} {recordLength : ℕ}
    (h : DeclaresLength blockettes recordLength)
    (honce : (blockettes.filter (·.kind = 1000)).length ≤ 1) :
    ∃ b, blockettes.filter (·.kind = 1000) = [b] ∧
      ∃ power : UInt8, b.raw[6]? = some power ∧ recordLength = 2 ^ power.toNat := by
  obtain ⟨b, hb, hkind, power, hraw, -, -, hlen⟩ := h
  have hmem : b ∈ blockettes.filter (·.kind = 1000) :=
    List.mem_filter.mpr ⟨hb, decide_eq_true hkind⟩
  obtain ⟨c, hc⟩ := List.length_eq_one_iff.mp (Nat.le_antisymm honce (List.length_pos_of_mem hmem))
  rw [hc, List.mem_singleton] at hmem
  subst hmem
  exact ⟨b, hc, power, hraw, hlen⟩

theorem safe_rawByte {b : Option Blockette} {i : ℕ} (h : ∀ x, b = some x → i < x.raw.length) :
    Safe (rawByte b i) fun _ => True := by
  cases b with
  | none => exact trivial
  | some b => exact (safe_index (h b rfl)).bind fun _ _ => trivial

/-- **One record.** From any place in the input, `parse_record` stays in bounds, and a record it
returns stands at that place and is what its header says. -/
theorem safe_parseRecord {bytes : List UInt8} {offset : ℕ} (hoffset : offset ≤ bytes.length) :
    Safe (parseRecord bytes offset) fun r =>
      r.offset = offset ∧ 256 ≤ r.recordLength ∧ RecordOf bytes r ∧ HeaderOf bytes r := by
  simp only [parseRecord]
  refine (safe_slice hoffset (Nat.le_refl _)).bind fun available havailable => ?_
  obtain ⟨havailable, hlen⟩ := havailable
  rw [List.take_of_length_le (by rw [List.length_drop])] at havailable
  refine Safe.guard fun hheader => ?_
  have h48 : 48 ≤ available.length := Nat.le_of_not_lt hheader
  refine (safe_checkIdentifiers h48).bind fun _ _ => ?_
  refine (safe_slice (by omega) (by omega)).bind fun _ _ => ?_
  refine (safe_index (by omega)).bind fun _ _ => ?_
  refine (safe_slice (by omega) (by omega)).bind fun _ _ => ?_
  refine (safe_slice (by omega) (by omega)).bind fun _ _ => ?_
  refine (safe_slice (by omega) (by omega)).bind fun _ _ => ?_
  refine (safe_slice (by omega) (by omega)).bind fun _ _ => ?_
  refine (safe_be16 (by omega)).bind fun year _ => ?_
  refine (safe_be16 (by omega)).bind fun dayOfYear _ => ?_
  refine (safe_index (by omega)).bind fun hour _ => ?_
  refine (safe_index (by omega)).bind fun minute _ => ?_
  refine (safe_index (by omega)).bind fun second _ => ?_
  refine (safe_be16 (by omega)).bind fun tenthMs _ => ?_
  refine (safe_be16 (by omega)).bind fun sampleCount hsampleCount => ?_
  refine (safe_be16 (by omega)).bind fun rateFactor hrateFactor => ?_
  refine (safe_be16 (by omega)).bind fun rateMultiplier hrateMultiplier => ?_
  refine (safe_index (by omega)).bind fun activityFlags _ => ?_
  refine (safe_index (by omega)).bind fun ioClockFlags _ => ?_
  refine (safe_index (by omega)).bind fun dataQualityFlags _ => ?_
  refine (safe_index (by omega)).bind fun blocketteCount hblocketteCount => ?_
  refine (safe_be32 (by omega)).bind fun timeCorrection _ => ?_
  refine (safe_be16 (by omega)).bind fun dataBegin hdataBegin => ?_
  refine (safe_be16 (by omega)).bind fun firstBlockette _ => ?_
  refine (safe_readChain (by omega)).bind fun chain hchain => ?_
  obtain ⟨hplaced, heach, hdeclares⟩ := hchain
  refine Safe.guard fun hfit => ?_
  refine (safe_slice (Nat.zero_le _) (by omega)).bind fun record hrecord => ?_
  refine safe_checkChain.bind fun _ hfits => ?_
  split
  · exact safe_fail _
  rename_i b1000 hfind
  have hkind : b1000.kind = 1000 := by simpa using List.find?_some hfind
  have h8 := (heach b1000 (List.mem_of_find?_eq_some hfind)).long1000 hkind
  refine (safe_index (by omega)).bind fun encoding _ => ?_
  refine (safe_index (by omega)).bind fun wordOrder _ => ?_
  refine Safe.guard fun _ => Safe.guard fun _ => ?_
  have h1001 : ∀ b, chain.1.find? (·.kind = 1001) = some b → 8 ≤ b.raw.length := fun b hb =>
    (heach b (List.mem_of_find?_eq_some hb)).long1001 (by simpa using List.find?_some hb)
  refine (safe_rawByte fun b hb => Nat.lt_of_lt_of_le (by decide) (h1001 b hb)).bind
    fun timingQuality _ => ?_
  refine (safe_rawByte fun b hb => Nat.lt_of_lt_of_le (by decide) (h1001 b hb)).bind
    fun microsecondOffset _ => ?_
  refine safe_btimeUnixUs.returned.bind fun startUnixUsRaw hstarted => ?_
  refine safe_samplePeriodUs.returned.bind fun period hperiod => Safe.guard fun hspan => ?_
  have hrecordLength : record.length = chain.2 := hrecord.2
  refine (safe_reservedGap hrecordLength).bind fun gap _ => ?_
  refine (safe_dataArea hrecordLength).bind fun data _ => Safe.guard fun _ => ?_
  refine safe_decodeSamples.bind fun decoded hdecoded => safe_pure ⟨rfl, hdeclares.pos, ?_, ?_⟩
  · have hinput : offset + chain.2 ≤ bytes.length := by omega
    have hstart : (if fixedHeader ≤ dataBegin.toNat then dataBegin.toNat else chain.2) ≤
        chain.2 := by
      split
      · exact hfits.dataBegin_le
      · exact Nat.le_refl _
    exact
      { inBytes := hinput
        declared := hdeclares.unique hfits.once1000
        chained := hplaced
        verbatim := by
          intro b hb
          rw [← List.drop_drop, ← havailable]
          exact (heach b hb).raw_eq
        inRecord := hfits.inRecord
        beforeData := by
          intro b hb
          simp only [Record.dataStart]
          split
          · exact hfits.beforeData ‹_› b hb
          · exact hfits.inRecord b hb
        dataStart_le := hstart
        counted := ⟨blocketteCount, by rw [← List.getElem?_drop, ← havailable, hblocketteCount],
          hfits.count_eq⟩
        sampled := ⟨sampleCount, by rw [← be16_drop, ← havailable, hsampleCount], rfl⟩
        decoded := ⟨hdecoded, hdecoded⟩ }
  · exact
      { dataBegin := ⟨dataBegin, by rw [← be16_drop, ← havailable, hdataBegin], rfl⟩
        started := hstarted.1
        corrected := rfl
        rated := ⟨rateFactor, rateMultiplier, by rw [← be16_drop, ← havailable, hrateFactor],
          by rw [← be16_drop, ← havailable, hrateMultiplier], rfl, rfl⟩
        period := hperiod.1
        spanFits := not_not.mp hspan }

/-! ## 4. The input -/

/-- The records lie end to end over the input, each is what its header says, and the records
of one source never go back in time. -/
structure Tiles (bytes : List UInt8) (records : List Record) (stop : ℕ) : Prop where
  endToEnd : EndToEnd Record.offset (fun r => r.offset + r.recordLength) 0 records stop
  each : ∀ r ∈ records, RecordOf bytes r
  monotone : records.Pairwise fun r r' =>
    r.sourceId = r'.sourceId → r.startUnixUs ≤ r'.startUnixUs

/-- A record that does not go back behind the last one of its source goes back behind none. -/
theorem monotone_concat {records : List Record} {record : Record}
    (h : records.Pairwise fun r r' => r.sourceId = r'.sourceId → r.startUnixUs ≤ r'.startUnixUs)
    (hlast : ∀ previous, records.reverse.find? (·.sourceId = record.sourceId) = some previous →
      previous.startUnixUs ≤ record.startUnixUs) :
    (records ++ [record]).Pairwise fun r r' =>
      r.sourceId = r'.sourceId → r.startUnixUs ≤ r'.startUnixUs := by
  refine List.pairwise_append.mpr ⟨h, List.pairwise_singleton _ _, fun r hr r' hr' hid => ?_⟩
  obtain rfl := List.mem_singleton.mp hr'
  cases hfind : records.reverse.find? (·.sourceId = r'.sourceId) with
  | none =>
    have hnone := List.find?_eq_none.mp hfind r (List.mem_reverse.mpr hr)
    exact absurd (decide_eq_true hid) hnone
  | some previous =>
    have hle := hlast previous hfind
    obtain ⟨hprev, l₁, l₂, hsplit, hnone⟩ := List.find?_eq_some_iff_append.mp hfind
    have hprev : previous.sourceId = r'.sourceId := by simpa using hprev
    have hrev : records.reverse.Pairwise fun r' r =>
        r.sourceId = r'.sourceId → r.startUnixUs ≤ r'.startUnixUs := List.pairwise_reverse.mpr h
    have hmem : r ∈ l₁ ++ previous :: l₂ := hsplit ▸ List.mem_reverse.mpr hr
    rw [hsplit] at hrev
    rcases List.mem_append.mp hmem with hr | hr
    · have hother := hnone r hr
      simp [hid] at hother
    · rcases List.mem_cons.mp hr with rfl | hr
      · exact hle
      · have hcons := (List.pairwise_append.mp hrev).2.1
        exact (List.rel_of_pairwise_cons hcons hr (hid.trans hprev.symm)).trans hle

/-- What holds before every round of `parse`: the records so far tile the input up to the offset,
and each is what its header says. -/
structure ParseInv (bytes : List UInt8) (s : ℕ × List Record) : Prop where
  offset_le : s.1 ≤ bytes.length
  tiles : Tiles bytes s.2 s.1
  headers : ∀ r ∈ s.2, HeaderOf bytes r

theorem safe_parseRound {bytes : List UInt8} {s : ℕ × List Record} (hs : ParseInv bytes s) :
    Safe (parseRound bytes s)
      (Sum.elim
        (fun s' => ParseInv bytes s' ∧ bytes.length - s'.1 < bytes.length - s.1)
        (fun records => Tiles bytes records bytes.length ∧ ∀ r ∈ records, HeaderOf bytes r)) := by
  obtain ⟨offset, records⟩ := s
  obtain ⟨hle, htiles, hheaders⟩ := hs
  dsimp only at hle htiles hheaders
  simp only [parseRound]
  split
  · rename_i hlt
    refine (safe_parseRecord hle).bind fun record hrecord => ?_
    obtain ⟨hat, hlong, hof, hheaded⟩ := hrecord
    have hin := hof.inBytes
    have hnext : (∀ previous, records.reverse.find? (·.sourceId = record.sourceId) =
        some previous → previous.startUnixUs ≤ record.startUnixUs) →
        ParseInv bytes (offset + record.recordLength, records ++ [record]) ∧
        bytes.length - (offset + record.recordLength) < bytes.length - offset := by
      intro hlast
      refine ⟨⟨by omega, ⟨?_, ?_, monotone_concat htiles.monotone hlast⟩, ?_⟩, by omega⟩
      · rw [← hat]
        exact htiles.endToEnd.concat hat
      · intro r hr
        rcases List.mem_append.mp hr with hr | hr
        · exact htiles.each r hr
        · obtain rfl := List.mem_singleton.mp hr
          exact hof
      · intro r hr
        rcases List.mem_append.mp hr with hr | hr
        · exact hheaders r hr
        · obtain rfl := List.mem_singleton.mp hr
          exact hheaded
    split
    · rename_i previous hfind
      refine Safe.guard fun hback => safe_pure (hnext fun p hp => ?_)
      obtain rfl := Option.some.inj (hfind.symm.trans hp)
      exact not_lt.mp hback
    · rename_i hfind
      exact safe_pure (hnext fun p hp => nomatch hfind.symm.trans hp)
  · rename_i hge
    obtain rfl : offset = bytes.length := by omega
    exact safe_pure ⟨htiles, hheaders⟩

/-- **What `parse` returns.** There is at least one record, as an empty input is an error. -/
theorem safe_parse (bytes : List UInt8) :
    Safe (parse bytes) fun records =>
      records ≠ [] ∧ Tiles bytes records bytes.length ∧ ∀ r ∈ records, HeaderOf bytes r := by
  unfold parse
  refine Safe.guard fun hne => ?_
  refine (safe_loop (I := ParseInv bytes) (fun s => bytes.length - s.1)
    (fun s hs => safe_parseRound hs) _ ?_ (by omega)).mono fun records h => ⟨?_, h⟩
  · exact ⟨Nat.zero_le _, ⟨rfl, fun _ hr => (List.not_mem_nil hr).elim, List.Pairwise.nil⟩,
      fun _ hr => (List.not_mem_nil hr).elim⟩
  · rintro rfl
    have hzero : 0 = bytes.length := h.1.endToEnd
    exact hne (List.isEmpty_iff_length_eq_zero.mpr hzero.symm)

/-- **`parse` comes back on every input, in bounds, and accepts only tilings.** It fails with one
of its own errors or returns records that lie end to end from the first byte to the last, each of
them what its header and its blockettes say, and none behind an earlier one of its source.  There
is no hypothesis: the bytes are any list, and the two alternatives leave out a panic and a loop
without end, for which the model has outcomes of their own. -/
theorem parse_tiles (bytes : List UInt8) :
    (∃ e, parse bytes = .error (.fail e)) ∨
      ∃ records, parse bytes = .ok records ∧ records ≠ [] ∧ Tiles bytes records bytes.length := by
  have hsafe : Safe (parse bytes) fun records =>
      records ≠ [] ∧ Tiles bytes records bytes.length :=
    (safe_parse bytes).mono fun _ h => ⟨h.1, h.2.1⟩
  exact hsafe.cases

end Musubi.Miniseed2
