/-
# The checksum of MAVLink frames

`reference-writers/src/mavlink.rs` seals a frame with CRC-16/MCRF4XX, and two readers check it,
the one of recordings and the one of distances.  Each of the three crates has its own loop, which
folds a byte in nibbles; each of the loops computes the check one bit at a time.

The specification is the division by the polynomial, bit by bit, as a fold over bits (`Lib.Crc`).
A loop folds bytes, and what it does to one byte agrees with eight steps of the specification: a
step is linear, so eight of them are a shift and the entry of a table (`Crc.byteStep_eq_table`),
and the source's shifts of nibbles compute that entry, for each of the 256 bytes.  Concatenation
comes from folding.

What a frame adds is where the check starts and which byte, specific to the message, is added at
its end; sections 3 and 4 say that writer and readers mean the same bytes.
-/
import Musubi.Contracts.MavlinkRange
import Musubi.Lib.Crc
import Musubi.Reference.Tlog

namespace Musubi.Writers

open Lib Lib.Checked Musubi.Core Mavlink

/-! ## 1. The writer -/

def crcX25 (bytes : List UInt8) (init : UInt16) : UInt16 :=
  bytes.foldl (fun crc b =>
    let tmp := b ^^^ (crc &&& 0xFF).toUInt8
    let tmp := tmp ^^^ (tmp <<< 4)
    (crc >>> 8) ^^^ (tmp.toUInt16 <<< 8) ^^^ (tmp.toUInt16 <<< 3) ^^^ (tmp.toUInt16 >>> 4)) init

variable {ε : Type}

def sealCrc (frameWithoutCrc : List UInt8) (crcExtra : UInt8) : Checked ε (List UInt8) := do
  let covered ← slice frameWithoutCrc 1 frameWithoutCrc.length
  let crc := crcX25 covered 0xFFFF
  let crc := crcX25 [crcExtra] crc
  return frameWithoutCrc ++ leBytes 2 crc.toNat

/-- Header and payload of an unsigned frame of version 2. -/
def unsealed (seq : UInt8) (msgid : UInt32) (payload : List UInt8) : List UInt8 :=
  [mavlink2Magic, UInt8.ofNat payload.length, 0x00, 0x00, seq, 1, 1, (msgid &&& 0xFF).toUInt8,
    ((msgid >>> 8) &&& 0xFF).toUInt8, ((msgid >>> 16) &&& 0xFF).toUInt8] ++ payload

def frame (seq : UInt8) (message : UInt32 × UInt8) (payload : List UInt8) :
    Checked ε (List UInt8) :=
  sealCrc (unsealed seq message.1 payload) message.2

/-! ## 2. The loops -/

/-- **CRC-16/MCRF4XX, one bit at a time**: reflected, polynomial `0x8408`. -/
def mcrf4xx (bytes : List UInt8) (init : UInt16) : UInt16 :=
  .ofBitVec (Crc.checksum 0x8408#16 init.toBitVec (bytes.map UInt8.toBitVec))

/-- The entry of the table for a byte, folded in nibbles. -/
def entry (t : UInt8) : UInt16 :=
  let tmp := t ^^^ (t <<< 4)
  (tmp.toUInt16 <<< 8) ^^^ (tmp.toUInt16 <<< 3) ^^^ (tmp.toUInt16 >>> 4)

/-- The same on a word of 16 bits. -/
def wideEntry (tmp : UInt16) : UInt16 :=
  let tmp := tmp ^^^ ((tmp <<< 4) &&& 0xFF)
  (tmp <<< 8) ^^^ (tmp <<< 3) ^^^ (tmp >>> 4)

theorem entry_eq : ∀ t : BitVec 8,
    (entry (.ofBitVec t)).toBitVec = Crc.bitSteps 0x8408#16 8 (t.setWidth 16) := by
  decide +kernel

theorem wideEntry_eq : ∀ t : BitVec 8,
    wideEntry (UInt8.ofBitVec t).toUInt16 = entry (.ofBitVec t) := by
  decide +kernel

/-- The index of a step: the byte and the low byte of the check. -/
def lowByte (crc : UInt16) (b : UInt8) : UInt8 := b ^^^ (crc &&& 0xFF).toUInt8

theorem toBitVec_lowByte (crc : UInt16) (b : UInt8) :
    (lowByte crc b).toBitVec = crc.toBitVec.setWidth 8 ^^^ b.toBitVec := by
  have hmask : (crc &&& 0xFF).toUInt8.toBitVec = crc.toBitVec.setWidth 8 := by
    rw [UInt16.toBitVec_toUInt8, UInt16.toBitVec_and, BitVec.setWidth_and]
    exact BitVec.and_allOnes
  rw [lowByte, UInt8.toBitVec_xor, hmask, BitVec.xor_comm]

/-- Eight steps over bits, by the table. -/
theorem byteStep_eq (crc : UInt16) (b : UInt8) :
    UInt16.ofBitVec (Crc.byteStep 0x8408#16 crc.toBitVec b.toBitVec) =
      (crc >>> 8) ^^^ entry (lowByte crc b) := by
  rw [Crc.byteStep_eq_table, ← toBitVec_lowByte, ← entry_eq]
  rfl

/-- A loop whose steps are eight steps over bits. -/
theorem foldl_eq_mcrf4xx {step : UInt16 → UInt8 → UInt16}
    (hstep : ∀ crc b, step crc b = (crc >>> 8) ^^^ entry (lowByte crc b)) (bytes : List UInt8) :
    ∀ init, bytes.foldl step init = mcrf4xx bytes init := by
  induction bytes with
  | nil =>
    intro init
    rfl
  | cons b bytes ih =>
    intro init
    rw [List.foldl_cons, ih, hstep, ← byteStep_eq]
    rfl

theorem crcX25_eq (bytes : List UInt8) (init : UInt16) :
    crcX25 bytes init = mcrf4xx bytes init := by
  refine foldl_eq_mcrf4xx (fun crc b => ?_) bytes init
  rw [entry, UInt16.xor_assoc, UInt16.xor_assoc, UInt16.xor_assoc]
  rfl

theorem tlog_crcX25_eq (bytes : List UInt8) (init : UInt16) :
    Reference.Tlog.crcX25 bytes init = mcrf4xx bytes init :=
  crcX25_eq bytes init

theorem distanceCrc_eq (bytes : List UInt8) (init : UInt16) :
    Contracts.distanceCrc bytes init = mcrf4xx bytes init := by
  refine foldl_eq_mcrf4xx (fun crc b => ?_) bytes init
  have hmask : (crc &&& 0xFF).toUInt8.toUInt16 = crc &&& 0xFF := by
    apply UInt16.toNat_inj.mp
    simp [Nat.and_two_pow_sub_one_eq_mod _ 8]
  have hindex : b.toUInt16 ^^^ (crc &&& 0xFF) = (lowByte crc b).toUInt16 := by
    rw [lowByte, UInt8.toUInt16_xor, hmask]
  have hwide : wideEntry (lowByte crc b).toUInt16 = entry (lowByte crc b) :=
    wideEntry_eq (lowByte crc b).toBitVec
  rw [Contracts.distanceCrcStep, hindex, ← hwide, wideEntry, UInt16.xor_assoc, UInt16.xor_assoc,
    UInt16.xor_assoc]

theorem mcrf4xx_append (xs ys : List UInt8) (init : UInt16) :
    mcrf4xx (xs ++ ys) init = mcrf4xx ys (mcrf4xx xs init) := by
  unfold mcrf4xx
  rw [List.map_append, Crc.checksum_append]

/-! ## 3. Sealed frames -/

/-- The check of a frame behind its magic byte. -/
def sealOf (f : List UInt8) (extra : UInt8) : UInt16 := mcrf4xx (f.tail ++ [extra]) 0xFFFF

theorem sealCrc_eq {f : List UInt8} (hne : f ≠ []) (extra : UInt8) :
    (sealCrc f extra : Checked ε (List UInt8)) = .ok (f ++ leBytes 2 (sealOf f extra).toNat) := by
  obtain ⟨b, f, rfl⟩ := List.exists_cons_of_ne_nil hne
  have hcovered : ((b :: f).drop 1).take ((b :: f).length - 1) = f := by
    rw [List.length_cons, Nat.add_sub_cancel]
    exact List.take_length
  rw [sealCrc, slice_eq (Nat.succ_le_of_lt (List.length_pos_of_ne_nil hne)) (le_refl _), ok_bind,
    hcovered]
  dsimp only
  rw [crcX25_eq, crcX25_eq, ← mcrf4xx_append]
  rfl

theorem ofNat_ofLeBytes_leBytes (crc : UInt16) :
    UInt16.ofNat (ofLeBytes (leBytes 2 crc.toNat)) = crc := by
  have hlt : crc.toNat < 256 ^ 2 := crc.toNat_lt
  rw [ofLeBytes_leBytes, Nat.mod_eq_of_lt hlt, UInt16.ofNat_toNat]

section Sealed

variable {f rest : List UInt8} {extra : UInt8}

/-- What a reader finds where it expects the check. -/
theorem read_sealed (hne : f ≠ []) :
    (slice (f ++ leBytes 2 (sealOf f extra).toNat ++ rest) 1 f.length : Checked ε _) =
      .ok f.tail ∧
    ∃ low high, UInt16.ofNat (ofLeBytes [low, high]) = sealOf f extra ∧
      (index (f ++ leBytes 2 (sealOf f extra).toNat ++ rest) f.length : Checked ε _) = .ok low ∧
      (index (f ++ leBytes 2 (sealOf f extra).toNat ++ rest) (f.length + 1) : Checked ε _) =
        .ok high := by
  obtain ⟨low, high, hbytes⟩ := List.length_eq_two.mp (length_leBytes 2 (sealOf f extra).toNat)
  have hcheck := ofNat_ofLeBytes_leBytes (sealOf f extra)
  rw [hbytes] at hcheck
  rw [hbytes, List.append_assoc]
  refine ⟨?_, low, high, hcheck, ?_, ?_⟩
  · rw [slice_eq (Nat.succ_le_of_lt (List.length_pos_of_ne_nil hne)) (by simp)]
    obtain ⟨b, f, rfl⟩ := List.exists_cons_of_ne_nil hne
    simp
  · unfold index
    simp
  · unfold index
    simp

/-- **A sealed frame passes the check of the recordings**, whatever comes after it. -/
theorem checkCrc_sealed (hne : f ≠ []) (off : ℕ) {h : Reference.Tlog.FrameHeader}
    (hextra : Reference.Tlog.crcExtra h.msgid = some extra)
    (hlength : h.hdrLen + h.payloadLen = f.length) :
    Reference.Tlog.checkCrc off (f ++ leBytes 2 (sealOf f extra).toNat ++ rest) h = .ok () := by
  obtain ⟨hcovered, low, high, hcheck, hlow, hhigh⟩ :=
    @read_sealed Reference.Tlog.Malformed f rest extra hne
  unfold Reference.Tlog.checkCrc
  rw [hextra]
  dsimp only
  rw [hlength, hcovered, ok_bind, hlow, ok_bind, hhigh, ok_bind, tlog_crcX25_eq, tlog_crcX25_eq,
    ← mcrf4xx_append, hcheck]
  exact if_neg (not_not.mpr (rfl : mcrf4xx _ _ = sealOf f extra))

/-- **And that of the distances**, which ends where the frame does. -/
theorem checkDistanceCrc_sealed {len : ℕ} (hlength : f.length = 10 + len) :
    Contracts.checkDistanceCrc
      (f ++ leBytes 2 (sealOf f Contracts.distanceCrcExtra).toNat) len = .ok () := by
  have hne : f ≠ [] := List.ne_nil_of_length_pos (by omega)
  obtain ⟨hcovered, low, high, hcheck, hlow, hhigh⟩ :=
    @read_sealed String f [] Contracts.distanceCrcExtra hne
  rw [List.append_nil, hlength] at hcovered hlow hhigh
  rw [show 10 + len + 1 = 11 + len by omega] at hhigh
  rw [Contracts.checkDistanceCrc, hcovered, ok_bind, hlow, ok_bind, hhigh, ok_bind,
    distanceCrc_eq, hcheck]
  exact if_neg (not_not.mpr (rfl : mcrf4xx _ _ = sealOf f Contracts.distanceCrcExtra))

end Sealed

/-! ## 4. Written frames -/

section Written

variable {seq : UInt8} {msgid : UInt32} {payload : List UInt8}

theorem length_unsealed : (unsealed seq msgid payload).length = 10 + payload.length := by
  rw [unsealed, List.length_append]
  rfl

theorem unsealed_ne_nil : unsealed seq msgid payload ≠ [] := List.cons_ne_nil _ _

theorem frame_eq (extra : UInt8) :
    (frame seq (msgid, extra) payload : Checked ε (List UInt8)) =
      .ok (unsealed seq msgid payload ++
        leBytes 2 (sealOf (unsealed seq msgid payload) extra).toNat) :=
  sealCrc_eq unsealed_ne_nil extra

/-- Three bytes hold a message id. -/
theorem msgid_unsealed (rest : List UInt8) (hmsgid : msgid.toNat < 2 ^ 24) :
    (headerOf (unsealed seq msgid payload ++ rest)).msgid = msgid := by
  apply UInt32.toNat_inj.mp
  rw [headerOf]
  refine (msgid_toNat _ _ _).trans ?_
  simp only [unsealed, List.cons_append, List.getD_cons_succ, List.getD_cons_zero]
  have hmask (x : UInt32) : (x &&& 0xFF).toUInt8.toNat = x.toNat % 256 := by
    simp [Nat.and_two_pow_sub_one_eq_mod _ 8]
  rw [hmask, hmask, hmask]
  simp [Nat.shiftRight_eq_div_pow]
  omega

/-- The reader of recordings finds the header. -/
theorem readHeader_unsealed (off : ℕ) (rest : List UInt8) (hmsgid : msgid.toNat < 2 ^ 24)
    (hlength : payload.length < 256) :
    Reference.Tlog.readHeader off (unsealed seq msgid payload ++ rest) =
      .ok ⟨10, payload.length, msgid, false⟩ := by
  have hheader : HasHeader (unsealed seq msgid payload ++ rest) := by
    refine ⟨rfl, ?_⟩
    rw [List.length_append, length_unsealed]
    omega
  have hindex : (index (unsealed seq msgid payload ++ rest) 0 :
      Checked Reference.Tlog.Malformed UInt8) = .ok mavlink2Magic := rfl
  have hflags : (headerOf (unsealed seq msgid payload ++ rest)).incompatFlags = 0 := rfl
  have hlen : (headerOf (unsealed seq msgid payload ++ rest)).len.toNat = payload.length := by
    show (UInt8.ofNat payload.length).toNat = payload.length
    rw [UInt8.toNat_ofNat', Nat.mod_eq_of_lt hlength]
  rw [Reference.Tlog.readHeader, hindex, ok_bind, if_pos rfl, parseMavlink2Header_ok hheader,
    mapErr_ok, ok_bind, hlen, msgid_unsealed rest hmsgid, hflags, if_neg (by decide)]
  rfl

/-- The decoder of distances reads on behind the check. -/
theorem decodeMavlinkDistance_sealed (sha256 : List UInt8 → Digest) {sourceId : String}
    (hsource : Northbound.WirePolicy.trim sourceId.toList ≠ []) (hpos : 1 ≤ payload.length)
    (hle : payload.length ≤ 39) :
    let written := unsealed seq 132 payload ++
      leBytes 2 (sealOf (unsealed seq 132 payload) Contracts.distanceCrcExtra).toNat
    Contracts.decodeMavlinkDistance sha256 written sourceId =
      some <$> Contracts.distanceOfFrame sha256 written sourceId payload.length := by
  intro written
  have hwritten : written.length = payload.length + 12 := by
    rw [List.length_append, length_unsealed, length_leBytes]
    omega
  have hmagic : (index written 0 : Checked String UInt8) = .ok 0xFD := rfl
  have hflags : (index written 2 : Checked String UInt8) = .ok 0 := rfl
  have hlen : (index written 1 : Checked String UInt8) = .ok (UInt8.ofNat payload.length) := rfl
  have hmsgid : (slice written 7 10 : Checked String (List UInt8)) = .ok [132, 0, 0] := by
    rw [slice_eq (by decide) (by omega)]
    rfl
  have htoNat : (UInt8.ofNat payload.length).toNat = payload.length := by
    rw [UInt8.toNat_ofNat', Nat.mod_eq_of_lt (by omega)]
  have hnonzero : UInt8.ofNat payload.length ≠ 0 := by
    intro h
    rw [h] at htoNat
    exact absurd htoNat.symm (Nat.ne_of_gt hpos)
  have hcheck : Contracts.checkDistanceCrc written payload.length = .ok () :=
    checkDistanceCrc_sealed length_unsealed
  rw [Contracts.decodeMavlinkDistance, if_neg hsource, if_neg (by omega), hmagic, ok_bind, hflags,
    ok_bind, hlen, ok_bind, hmsgid, ok_bind, if_neg (by decide), htoNat,
    if_neg (fun h => h.elim hnonzero fun hne => hne hwritten), if_neg (not_not.mpr rfl),
    if_neg (by omega), hcheck, ok_bind]
  rfl

end Written

/-! ## 5. Agreement -/

/-- **Writer and readers agree on the check.** On every byte string and from every starting value
the three loops compute CRC-16/MCRF4XX, and a concatenation is checked part by part.  So what the
writer seals passes the check of either reader that adds the same byte: any sealed bytes where the
reader expects a frame of that length, and the frames that the writer makes from header to check.
The bounds on the id and the payload are the widths of their fields in a header; of a distance the
reader bounds the payload further, and its source has to have a name. -/
theorem x25_agreement (sha256 : List UInt8 → Digest) :
    (∀ bytes init, Contracts.distanceCrc bytes init = mcrf4xx bytes init ∧
      Reference.Tlog.crcX25 bytes init = mcrf4xx bytes init ∧
      crcX25 bytes init = mcrf4xx bytes init) ∧
    (∀ xs ys init, mcrf4xx (xs ++ ys) init = mcrf4xx ys (mcrf4xx xs init)) ∧
    (∀ f extra, f ≠ [] → ∃ written, (sealCrc f extra : Checked Empty _) = .ok written ∧
      (∀ off rest h, Reference.Tlog.crcExtra h.msgid = some extra →
        h.hdrLen + h.payloadLen = f.length →
        Reference.Tlog.checkCrc off (written ++ rest) h = .ok ()) ∧
      (∀ len, extra = Contracts.distanceCrcExtra → f.length = 10 + len →
        Contracts.checkDistanceCrc written len = .ok ())) ∧
    ∀ seq msgid extra payload, msgid.toNat < 2 ^ 24 → payload.length < 256 →
      ∃ written, (frame seq (msgid, extra) payload : Checked Empty _) = .ok written ∧
      (Reference.Tlog.crcExtra msgid = some extra → ∀ off rest,
        ∃ h, Reference.Tlog.readHeader off (written ++ rest) = .ok h ∧
          Reference.Tlog.checkCrc off (written ++ rest) h = .ok ()) ∧
      (msgid = 132 → extra = Contracts.distanceCrcExtra → 1 ≤ payload.length →
        payload.length ≤ 39 → ∀ sourceId, Northbound.WirePolicy.trim sourceId.toList ≠ [] →
        Contracts.decodeMavlinkDistance sha256 written sourceId =
          some <$> Contracts.distanceOfFrame sha256 written sourceId payload.length) := by
  refine ⟨fun bytes init => ?_, mcrf4xx_append, ?_, ?_⟩
  · exact ⟨distanceCrc_eq bytes init, tlog_crcX25_eq bytes init, crcX25_eq bytes init⟩
  · intro f extra hne
    refine ⟨_, sealCrc_eq hne extra, ?_, ?_⟩
    · intro off rest h hextra hlength
      exact checkCrc_sealed hne off hextra hlength
    · rintro len rfl hlength
      exact checkDistanceCrc_sealed hlength
  · intro seq msgid extra payload hmsgid hlength
    refine ⟨_, frame_eq extra, ?_, ?_⟩
    · intro hextra off rest
      refine ⟨⟨10, payload.length, msgid, false⟩, ?_, ?_⟩
      · rw [List.append_assoc]
        exact readHeader_unsealed off _ hmsgid hlength
      · exact checkCrc_sealed unsealed_ne_nil off hextra length_unsealed.symm
    · rintro rfl rfl hpos hle sourceId hsource
      exact decodeMavlinkDistance_sealed sha256 hsource hpos hle

/-- A heartbeat, as the reader of recordings checks it. -/
theorem heartbeat_agreement :
    ∃ written, (frame 7 (0, 50) [0, 0, 0, 0, 2, 3, 81, 4, 3] : Checked Empty _) = .ok written ∧
      ∃ h, Reference.Tlog.readHeader 0 (written ++ []) = .ok h ∧
        Reference.Tlog.checkCrc 0 (written ++ []) h = .ok () := by
  obtain ⟨written, hwritten, hreader, -⟩ := (x25_agreement Sha256.hash).2.2.2 7 0 50
    [0, 0, 0, 0, 2, 3, 81, 4, 3] (by decide) (by decide)
  exact ⟨written, hwritten, hreader rfl 0 []⟩

end Musubi.Writers
