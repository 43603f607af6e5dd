/-
# Position messages read back

`reference-writers/src/frame.rs` writes a `GLOBAL_POSITION_INT` frame, and `adapter-mavlink` reads
one.  A sender may cut zero bytes off the end of the payload, in the middle of a field too, and
the reader puts them back: what it reads is the payload with zeros behind it, whatever the header,
the checksum and the signature say.

So truncation is undone before any field is looked at.  `decode_frame` says this of every payload
that is not empty and not too long, and the two directions are then short: a payload and zeros is
the payload that was cut (`Truncates`), and the fields of a payload are those that it was written
from (`readFields_payload`), with the little-endian words of the library.

Everything in a frame that is not payload is a parameter (`Framing`): the sequence number, the
ids, the flags, the checksum bytes, the signature if the flag is set.  A reader that depended on
one of them would fail the statement.
-/
import Musubi.Mavlink.Frame

namespace Musubi.Mavlink

open Lib Lib.Checked

/-! ## 1. Writing -/

/-- The payload: the fields in their order, little-endian. -/
def GlobalPositionInt.payload (m : GlobalPositionInt) : List UInt8 :=
  leBytes 4 m.timeBootMs.toNat ++ leBytes 4 m.lat.toUInt32.toNat ++
    leBytes 4 m.lon.toUInt32.toNat ++ leBytes 4 m.alt.toUInt32.toNat ++
    leBytes 4 m.relativeAlt.toUInt32.toNat ++ leBytes 2 m.vx.toUInt16.toNat ++
    leBytes 2 m.vy.toUInt16.toNat ++ leBytes 2 m.vz.toUInt16.toNat ++ leBytes 2 m.hdg.toNat

/-- The frame of `build_global_position_int_frame`: unsigned, and with zeros for a checksum. -/
def buildGlobalPositionIntFrame (seq : UInt8) (f : GlobalPositionInt) : List UInt8 :=
  [mavlink2Magic, 28, 0x00, 0x00, seq, 0x01, 0x01,
    (msgidGlobalPositionInt &&& 0xFF).toUInt8, ((msgidGlobalPositionInt >>> 8) &&& 0xFF).toUInt8,
    ((msgidGlobalPositionInt >>> 16) &&& 0xFF).toUInt8] ++ f.payload ++ [0x00, 0x00]

/-- What a frame has beside its payload; the signature is there when the flag says so.  Checksum
and signature are any bytes of the right number. -/
structure Framing where
  incompatFlags : UInt8
  compatFlags : UInt8
  seq : UInt8
  sysid : UInt8
  compid : UInt8
  checksum : List UInt8
  signature : List UInt8
  checksum_length : checksum.length = crcLen
  signature_length : signature.length =
    if incompatFlags &&& iflagSigned ≠ 0 then signatureLen else 0

/-- The frame of a position message with that payload. -/
def Framing.frame (f : Framing) (payload : List UInt8) : List UInt8 :=
  [mavlink2Magic, UInt8.ofNat payload.length, f.incompatFlags, f.compatFlags, f.seq, f.sysid,
    f.compid, 33, 0, 0] ++ payload ++ f.checksum ++ f.signature

/-- Zero bytes cut off the end of a payload, of which at least one byte is left. -/
structure Truncates (payload truncated : List UInt8) : Prop where
  pos : truncated ≠ []
  zeros : ∃ n, payload = truncated ++ List.replicate n 0

/-! ## 2. Reading -/

/-- The fields of a payload of full length. -/
def readFields (p : List UInt8) : Decode GlobalPositionInt := do
  let timeBootMs ← leU32 p 0
  let lat ← leI32 p 4
  let lon ← leI32 p 8
  let alt ← leI32 p 12
  let relativeAlt ← leI32 p 16
  let vx ← leI16 p 20
  let vy ← leI16 p 22
  let vz ← leI16 p 24
  let hdg ← leU16 p 26
  return { timeBootMs, lat, lon, alt, relativeAlt, vx, vy, vz, hdg }

theorem decodePayload_eq (frame : List UInt8) (header : Mavlink2Header) :
    decodeGlobalPositionIntPayload frame header =
      if header.len = 0 ∨ globalPositionIntLen < header.len.toNat then
        fail (.badPayloadLen header.len)
      else (payloadSlice frame header).bind fun truncated =>
        (copyFront (List.replicate globalPositionIntLen 0) truncated).bind readFields := rfl

/-- The payload of a frame. -/
theorem payloadSlice_frame (f : Framing) {payload : List UInt8}
    (hlen : payload.length ≤ globalPositionIntLen) :
    payloadSlice (f.frame payload) (headerOf (f.frame payload)) = .ok payload := by
  have hdeclared : (headerOf (f.frame payload)).len.toNat = payload.length := by
    change (UInt8.ofNat payload.length).toNat = _
    rw [UInt8.toNat_ofNat', Nat.mod_eq_of_lt (Nat.lt_of_le_of_lt hlen (by decide))]
  have hsignature : (headerOf (f.frame payload)).signatureBytes = f.signature.length :=
    f.signature_length.symm
  have hchecksum := f.checksum_length
  have htotal : (f.frame payload).length =
      headerLen + payload.length + f.checksum.length + f.signature.length := by
    simp only [Framing.frame, List.length_append, List.length_cons, List.length_nil, headerLen]
  unfold payloadSlice
  dsimp only
  rw [hdeclared, hsignature, if_neg (by omega), slice_eq (by omega) (by omega)]
  have hdrop : (f.frame payload).drop headerLen = payload ++ f.checksum ++ f.signature := rfl
  rw [hdrop, Nat.add_sub_cancel_left, List.append_assoc, List.take_left]

/-- **A frame is read by its payload and zeros.** The payload is one that a length byte can
declare of a position message; of the framing nothing is assumed. -/
theorem decode_frame (f : Framing) {payload : List UInt8} (hne : payload ≠ [])
    (hlen : payload.length ≤ globalPositionIntLen) : decodeGlobalPositionInt (f.frame payload) =
      readFields (payload ++ List.replicate (globalPositionIntLen - payload.length) 0) := by
  have hpos := List.length_pos_of_ne_nil hne
  have hheader : HasHeader (f.frame payload) := by
    refine ⟨rfl, ?_⟩
    simp only [Framing.frame, List.length_append, List.length_cons, List.length_nil]
    omega
  have hdeclared : (headerOf (f.frame payload)).len.toNat = payload.length := by
    change (UInt8.ofNat payload.length).toNat = _
    rw [UInt8.toNat_ofNat', Nat.mod_eq_of_lt (Nat.lt_of_le_of_lt hlen (by decide))]
  have hrange : ¬ ((headerOf (f.frame payload)).len = 0 ∨
      globalPositionIntLen < (headerOf (f.frame payload)).len.toNat) := by
    rw [← UInt8.toNat_inj, hdeclared]
    change ¬ (payload.length = 0 ∨ _)
    omega
  have hfit : payload.length ≤ (List.replicate globalPositionIntLen (0 : UInt8)).length := by
    rwa [List.length_replicate]
  rw [decodeGlobalPositionInt_headerOf hheader rfl, decodePayload_eq, if_neg hrange,
    payloadSlice_frame f hlen]
  change (copyFront (List.replicate globalPositionIntLen 0) payload).bind readFields = _
  rw [copyFront_eq hfit, List.drop_replicate]
  rfl

/-! ## 3. What was written -/

theorem ofLeBytes_u16 (v : UInt16) : UInt16.ofNat (ofLeBytes (leBytes 2 v.toNat)) = v := by
  rw [ofLeBytes_leBytes, Nat.mod_eq_of_lt (Nat.lt_of_lt_of_le v.toNat_lt (by decide)),
    UInt16.ofNat_toNat]

theorem ofLeBytes_u32 (v : UInt32) : UInt32.ofNat (ofLeBytes (leBytes 4 v.toNat)) = v := by
  rw [ofLeBytes_leBytes, Nat.mod_eq_of_lt (Nat.lt_of_lt_of_le v.toNat_lt (by decide)),
    UInt32.ofNat_toNat]

theorem leI16_of {p : List UInt8} {o : ℕ} {v : Int16} (h : leU16 p o = .ok v.toUInt16) :
    leI16 p o = .ok v := by
  rw [leI16, h]
  rfl

theorem leI32_of {p : List UInt8} {o : ℕ} {v : Int32} (h : leU32 p o = .ok v.toUInt32) :
    leI32 p o = .ok v := by
  rw [leI32, h]
  rfl

/-- **The fields of a payload are those that it was written from**, each in its own width and
sign. -/
theorem readFields_payload (m : GlobalPositionInt) : readFields m.payload = .ok m := by
  have htime : leU32 m.payload 0 = .ok m.timeBootMs :=
    congrArg Except.ok (ofLeBytes_u32 m.timeBootMs)
  have hlat : leI32 m.payload 4 = .ok m.lat :=
    leI32_of (congrArg Except.ok (ofLeBytes_u32 m.lat.toUInt32))
  have hlon : leI32 m.payload 8 = .ok m.lon :=
    leI32_of (congrArg Except.ok (ofLeBytes_u32 m.lon.toUInt32))
  have halt : leI32 m.payload 12 = .ok m.alt :=
    leI32_of (congrArg Except.ok (ofLeBytes_u32 m.alt.toUInt32))
  have hrelative : leI32 m.payload 16 = .ok m.relativeAlt :=
    leI32_of (congrArg Except.ok (ofLeBytes_u32 m.relativeAlt.toUInt32))
  have hvx : leI16 m.payload 20 = .ok m.vx :=
    leI16_of (congrArg Except.ok (ofLeBytes_u16 m.vx.toUInt16))
  have hvy : leI16 m.payload 22 = .ok m.vy :=
    leI16_of (congrArg Except.ok (ofLeBytes_u16 m.vy.toUInt16))
  have hvz : leI16 m.payload 24 = .ok m.vz :=
    leI16_of (congrArg Except.ok (ofLeBytes_u16 m.vz.toUInt16))
  have hhdg : leU16 m.payload 26 = .ok m.hdg :=
    congrArg Except.ok (ofLeBytes_u16 m.hdg)
  unfold readFields
  rw [htime, ok_bind, hlat, ok_bind, hlon, ok_bind, halt, ok_bind, hrelative, ok_bind, hvx, ok_bind,
    hvy, ok_bind, hvz, ok_bind, hhdg, ok_bind]
  rfl

theorem length_payload (m : GlobalPositionInt) : m.payload.length = globalPositionIntLen := rfl

/-! ## 4. Truncation -/

/-- Zeros that were cut off come back. -/
theorem Truncates.restore {payload truncated : List UInt8} (h : Truncates payload truncated)
    (hlen : payload.length = globalPositionIntLen) :
    truncated.length ≤ globalPositionIntLen ∧
      truncated ++ List.replicate (globalPositionIntLen - truncated.length) 0 = payload := by
  obtain ⟨-, n, rfl⟩ := h
  rw [List.length_append, List.length_replicate] at hlen
  refine ⟨by omega, ?_⟩
  rw [← hlen, Nat.add_sub_cancel_left]

/-- The unsigned frame of the writer is one of these. -/
def writerFraming (seq : UInt8) : Framing where
  incompatFlags := 0
  compatFlags := 0
  seq := seq
  sysid := 1
  compid := 1
  checksum := [0, 0]
  signature := []
  checksum_length := rfl
  signature_length := by decide

theorem buildGlobalPositionIntFrame_eq (seq : UInt8) (m : GlobalPositionInt) :
    buildGlobalPositionIntFrame seq m = (writerFraming seq).frame m.payload := by
  unfold buildGlobalPositionIntFrame Framing.frame
  rw [length_payload]
  simp only [writerFraming, List.append_nil]
  rfl

/-- **Position messages are read back under truncation**, from signed and unsigned frames with any
sequence number and ids; and however many of the zero bytes were cut off, one message is read.
`Truncates` leaves at least one byte, as the protocol does: an empty payload is refused by the
reader.  The second part is the writer of this repository; the third compares two truncations
under two framings, of a payload that need not come from a writer. -/
theorem decode_truncated :
    (∀ (m : GlobalPositionInt) (f : Framing) (truncated : List UInt8),
      Truncates m.payload truncated → decodeGlobalPositionInt (f.frame truncated) = .ok m) ∧
    (∀ (seq : UInt8) (m : GlobalPositionInt),
      decodeGlobalPositionInt (buildGlobalPositionIntFrame seq m) = .ok m) ∧
    ∀ (payload a b : List UInt8) (f g : Framing), payload.length = globalPositionIntLen →
      Truncates payload a → Truncates payload b →
      decodeGlobalPositionInt (f.frame a) = decodeGlobalPositionInt (g.frame b) := by
  have hread (payload : List UInt8) (hlen : payload.length = globalPositionIntLen)
      (f : Framing) (truncated : List UInt8) (h : Truncates payload truncated) :
      decodeGlobalPositionInt (f.frame truncated) = readFields payload := by
    obtain ⟨hle, hrestore⟩ := h.restore hlen
    rw [decode_frame f h.pos hle, hrestore]
  refine ⟨fun m f truncated h => ?_, fun seq m => ?_, fun payload a b f g hlen ha hb => ?_⟩
  · rw [hread m.payload (length_payload m) f truncated h, readFields_payload]
  · have hwhole : Truncates m.payload m.payload :=
      ⟨List.ne_nil_of_length_eq_add_one (length_payload m), 0, (List.append_nil _).symm⟩
    rw [buildGlobalPositionIntFrame_eq, hread m.payload (length_payload m) _ _ hwhole,
      readFields_payload]
  · rw [hread payload hlen f a ha, hread payload hlen g b hb]

def signedFraming : Framing where
  incompatFlags := 1
  compatFlags := 0
  seq := 7
  sysid := 42
  compid := 1
  checksum := [0xAB, 0xCD]
  signature := List.replicate signatureLen 0x5A
  checksum_length := rfl
  signature_length := by decide

/-- A second after boot at zero, cut in the middle of the first field. -/
theorem decode_truncated_signed :
    decodeGlobalPositionInt (signedFraming.frame [0xE8, 0x03]) =
      .ok ⟨1000, 0, 0, 0, 0, 0, 0, 0, 0⟩ :=
  decode_truncated.1 ⟨1000, 0, 0, 0, 0, 0, 0, 0, 0⟩ signedFraming [0xE8, 0x03]
    ⟨by decide, 26, by decide⟩

end Musubi.Mavlink
