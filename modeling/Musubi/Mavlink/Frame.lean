/-
# MAVLink2 frames

`adapter-mavlink/src/lib.rs`: the header, the length checks and the decoder of
`GLOBAL_POSITION_INT`.  A frame is ten header bytes, the payload whose length the header declares,
two checksum bytes that nobody reads here, and a signature of thirteen bytes when the header says
so.

Two checks look at the length.  `payloadSlice` asks for AT LEAST header, payload and signature,
which is what reading needs; `rejectFrameLengthAmbiguity` asks for EXACTLY these and the checksum.
A frame between the two is readable and is set aside, so both stay in the model as they are.

Bytes are indexed with a check at every place where the source indexes a slice, and an index out
of range would be a panic.  Section 3 says what the header fields are as functions of the bytes
alone, and section 4 that the decoder computes them; the rest of the adapter uses these and no
longer the decoder.
-/
import Musubi.Core.Quality
import Musubi.Lib.Bytes

namespace Musubi.Mavlink

open Lib Lib.Checked

/-! ## 1. The wire format -/

def mavlink2Magic : UInt8 := 0xFD

def headerLen : ℕ := 10

def msgidGlobalPositionInt : UInt32 := 33

def globalPositionIntLen : ℕ := 28

def iflagSigned : UInt8 := 0x01

def signatureLen : ℕ := 13

def crcLen : ℕ := 2

def mavlink2MaxFrameBytes : ℕ := headerLen + 255 + crcLen + signatureLen

structure GlobalPositionInt where
  timeBootMs : UInt32
  lat : Int32
  lon : Int32
  alt : Int32
  relativeAlt : Int32
  vx : Int16
  vy : Int16
  vz : Int16
  hdg : UInt16
deriving DecidableEq, Repr

structure Mavlink2Header where
  len : UInt8
  incompatFlags : UInt8
  compatFlags : UInt8
  seq : UInt8
  sysid : UInt8
  compid : UInt8
  msgid : UInt32
deriving DecidableEq, Repr

inductive DecodeError
  | notMavlink2 (magic : UInt8)
  | tooShort (have' need : ℕ)
  | unexpectedMsgId (msgid : UInt32)
  | badPayloadLen (len : UInt8)
deriving DecidableEq, Repr

/-- `Debug`. -/
def DecodeError.debug : DecodeError → String
  | .notMavlink2 magic => r"NotMavlink2 { magic: " ++ magic.toNat.repr ++ r" }"
  | .tooShort have' need =>
    r"TooShort { have: " ++ have'.repr ++ ", need: " ++ need.repr ++ r" }"
  | .unexpectedMsgId msgid => r"UnexpectedMsgId { msgid: " ++ msgid.toNat.repr ++ r" }"
  | .badPayloadLen len => r"BadPayloadLen { len: " ++ len.toNat.repr ++ r" }"

abbrev Decode := Checked DecodeError

/-! ## 2. Decoding -/

def parseMavlink2Header (frame : List UInt8) : Decode Mavlink2Header :=
  match frame.head? with
  | none => fail (.tooShort frame.length headerLen)
  | some magic =>
    if magic ≠ mavlink2Magic then fail (.notMavlink2 magic)
    else if frame.length < headerLen then fail (.tooShort frame.length headerLen)
    else do
      let len ← index frame 1
      let incompatFlags ← index frame 2
      let compatFlags ← index frame 3
      let seq ← index frame 4
      let sysid ← index frame 5
      let compid ← index frame 6
      let b7 ← index frame 7
      let b8 ← index frame 8
      let b9 ← index frame 9
      return {
        len, incompatFlags, compatFlags, seq, sysid, compid
        msgid := b7.toUInt32 ||| (b8.toUInt32 <<< 8) ||| (b9.toUInt32 <<< 16) }

/-- What the signature flag adds to the length. -/
def Mavlink2Header.signatureBytes (header : Mavlink2Header) : ℕ :=
  if header.incompatFlags &&& iflagSigned ≠ 0 then signatureLen else 0

def payloadSlice (frame : List UInt8) (header : Mavlink2Header) : Decode (List UInt8) :=
  let payloadLen := header.len.toNat
  let need := headerLen + payloadLen + header.signatureBytes
  if frame.length < need then fail (.tooShort frame.length need)
  else slice frame headerLen (headerLen + payloadLen)

def leU16 (p : List UInt8) (o : ℕ) : Decode UInt16 := do
  let b0 ← index p o
  let b1 ← index p (o + 1)
  return UInt16.ofNat (ofLeBytes [b0, b1])

def leI16 (p : List UInt8) (o : ℕ) : Decode Int16 := return (← leU16 p o).toInt16

def leU32 (p : List UInt8) (o : ℕ) : Decode UInt32 := do
  let b0 ← index p o
  let b1 ← index p (o + 1)
  let b2 ← index p (o + 2)
  let b3 ← index p (o + 3)
  return UInt32.ofNat (ofLeBytes [b0, b1, b2, b3])

def leI32 (p : List UInt8) (o : ℕ) : Decode Int32 := return (← leU32 p o).toInt32

/-- Read the payload, with the zero bytes the sender cut off put back. -/
def decodeGlobalPositionIntPayload (frame : List UInt8) (header : Mavlink2Header) :
    Decode GlobalPositionInt :=
  if header.len = 0 ∨ globalPositionIntLen < header.len.toNat then
    fail (.badPayloadLen header.len)
  else do
    let truncated ← payloadSlice frame header
    let p ← copyFront (List.replicate globalPositionIntLen 0) truncated
    let timeBootMs ← leU32 p 0
    let lat ← leI32 p 4
    let lon ← leI32 p 8
    let alt ← leI32 p 12
    let relativeAlt ← leI32 p 16
    let vx ← leI16 p 20
    let vy ← leI16 p 22
    let vz ← leI16 p 24
    let hdg ← leU16 p 26
    return { timeBootMs, lat, lon, alt, relativeAlt, vx, vy, vz, hdg }

def decodeGlobalPositionInt (frame : List UInt8) : Decode GlobalPositionInt := do
  let header ← parseMavlink2Header frame
  if header.msgid ≠ msgidGlobalPositionInt then fail (.unexpectedMsgId header.msgid)
  else decodeGlobalPositionIntPayload frame header

/-- The whole frame is as long as its header says, checksum included. -/
def rejectFrameLengthAmbiguity (totalLen : ℕ) (header : Mavlink2Header) :
    Checked Core.QuarantineReject Unit :=
  let expected := headerLen + header.len.toNat + crcLen + header.signatureBytes
  if totalLen = expected then pure () else fail (.frameLengthMismatch expected totalLen)

/-! ## 3. What the bytes say -/

/-- The frame starts like a MAVLink2 frame and has a whole header. -/
def HasHeader (frame : List UInt8) : Prop := frame.head? = some 0xFD ∧ 10 ≤ frame.length

instance (frame : List UInt8) : Decidable (HasHeader frame) :=
  inferInstanceAs (Decidable (_ ∧ _))

/-- The declared payload length. -/
def declaredLen (frame : List UInt8) : ℕ := (frame.getD 1 0).toNat

/-- The lowest bit of the incompatibility flags. -/
def Signed (frame : List UInt8) : Prop := (frame.getD 2 0).toNat % 2 = 1

instance (frame : List UInt8) : Decidable (Signed frame) :=
  inferInstanceAs (Decidable (_ = _))

/-- The message id, 24 bits little-endian. -/
def wireMsgid (frame : List UInt8) : ℕ :=
  (frame.getD 7 0).toNat + 256 * (frame.getD 8 0).toNat + 65536 * (frame.getD 9 0).toNat

/-- Header, payload and signature: what reading the payload asks for. -/
def minimumLength (frame : List UInt8) : ℕ :=
  10 + declaredLen frame + if Signed frame then 13 else 0

/-- The same and the checksum: what a frame has. -/
def expectedLength (frame : List UInt8) : ℕ :=
  10 + declaredLen frame + 2 + if Signed frame then 13 else 0

/-! ## 4. The decoder reads them -/

/-- The header fields of a frame that has them. -/
def headerOf (frame : List UInt8) : Mavlink2Header where
  len := frame.getD 1 0
  incompatFlags := frame.getD 2 0
  compatFlags := frame.getD 3 0
  seq := frame.getD 4 0
  sysid := frame.getD 5 0
  compid := frame.getD 6 0
  msgid := (frame.getD 7 0).toUInt32 ||| ((frame.getD 8 0).toUInt32 <<< 8) |||
    ((frame.getD 9 0).toUInt32 <<< 16)

section Header

variable {frame : List UInt8}

/-- Without a header the decoder returns an error of its own. -/
theorem parseMavlink2Header_fail (h : ¬ HasHeader frame) :
    ∃ e, parseMavlink2Header frame = fail e := by
  cases frame with
  | nil => exact ⟨_, rfl⟩
  | cons magic rest =>
    by_cases hmagic : magic = mavlink2Magic
    · have hshort : (magic :: rest).length < headerLen := by
        by_contra hlong
        exact h ⟨by rw [hmagic]; rfl, not_lt.mp hlong⟩
      refine ⟨.tooShort (magic :: rest).length headerLen, ?_⟩
      simp only [parseMavlink2Header, List.head?_cons]
      rw [if_neg (not_not.mpr hmagic), if_pos hshort]
    · refine ⟨.notMavlink2 magic, ?_⟩
      simp only [parseMavlink2Header, List.head?_cons]
      rw [if_pos hmagic]

theorem index_getD {i : ℕ} (h : i < frame.length) :
    (index frame i : Decode UInt8) = .ok (frame.getD i 0) := by
  rw [index_eq h, List.getD, List.getElem?_eq_getElem h, Option.getD_some]

/-- With one, it returns the fields as they stand. -/
theorem parseMavlink2Header_ok (h : HasHeader frame) :
    parseMavlink2Header frame = .ok (headerOf frame) := by
  obtain ⟨hmagic, hlen⟩ := h
  have hread : ∀ i < 10, (index frame i : Decode UInt8) = .ok (frame.getD i 0) := by
    intro i hi
    exact index_getD (hi.trans_le hlen)
  unfold parseMavlink2Header
  rw [hmagic]
  dsimp only
  have hlong : ¬ frame.length < headerLen := not_lt.mpr hlen
  rw [if_neg (by decide), if_neg hlong, hread 1 (by decide), ok_bind, hread 2 (by decide),
    ok_bind, hread 3 (by decide), ok_bind, hread 4 (by decide), ok_bind, hread 5 (by decide),
    ok_bind, hread 6 (by decide), ok_bind, hread 7 (by decide), ok_bind, hread 8 (by decide),
    ok_bind, hread 9 (by decide), ok_bind]
  rfl

/-- Three bytes side by side are a number below `2 ^ 24`. -/
theorem msgid_toNat (b7 b8 b9 : UInt8) :
    (b7.toUInt32 ||| (b8.toUInt32 <<< 8) ||| (b9.toUInt32 <<< 16)).toNat =
      b7.toNat + 256 * b8.toNat + 65536 * b9.toNat := by
  have h7 := b7.toNat_lt
  have h8 := b8.toNat_lt
  have h9 := b9.toNat_lt
  have e8 : (b8.toUInt32 <<< 8).toNat = b8.toNat <<< 8 := by
    simp [UInt32.toNat_shiftLeft, Nat.shiftLeft_eq]
    omega
  have e9 : (b9.toUInt32 <<< 16).toNat = b9.toNat <<< 16 := by
    simp [UInt32.toNat_shiftLeft, Nat.shiftLeft_eq]
    omega
  have o1 : b7.toNat ||| b8.toNat <<< 8 = b8.toNat <<< 8 + b7.toNat := by
    rw [Nat.or_comm, Nat.shiftLeft_add_eq_or_of_lt h7]
  have o2 : b8.toNat <<< 8 + b7.toNat < 2 ^ 16 := by
    rw [Nat.shiftLeft_eq]
    omega
  rw [UInt32.toNat_or, UInt32.toNat_or, e8, e9, UInt8.toNat_toUInt32, o1, Nat.or_comm,
    ← Nat.shiftLeft_add_eq_or_of_lt o2, Nat.shiftLeft_eq, Nat.shiftLeft_eq]
  omega

theorem msgid_headerOf :
    (headerOf frame).msgid = msgidGlobalPositionInt ↔ wireMsgid frame = 33 := by
  rw [← UInt32.toNat_inj, headerOf, msgid_toNat]
  exact Iff.rfl

theorem signatureBytes_headerOf :
    (headerOf frame).signatureBytes = if Signed frame then 13 else 0 := by
  have hbit : (frame.getD 2 0 &&& iflagSigned).toNat = (frame.getD 2 0).toNat % 2 := by
    rw [UInt8.toNat_and]
    exact Nat.and_two_pow_sub_one_eq_mod _ 1
  unfold Mavlink2Header.signatureBytes headerOf
  dsimp only
  by_cases h : Signed frame
  · rw [if_pos h, if_pos]
    · rfl
    intro h0
    rw [h0, h] at hbit
    exact absurd hbit (by decide)
  · rw [if_neg h, if_neg]
    rw [not_not, ← UInt8.toNat_inj, hbit]
    exact Nat.mod_two_ne_one.mp h

/-- The payload is read when the frame has the minimum length. -/
theorem payloadSlice_headerOf :
    if frame.length < minimumLength frame then ∃ e, payloadSlice frame (headerOf frame) = fail e
    else ∃ p, payloadSlice frame (headerOf frame) = .ok p ∧ p.length = declaredLen frame := by
  have hneed : headerLen + (headerOf frame).len.toNat + (headerOf frame).signatureBytes =
      minimumLength frame := by
    rw [signatureBytes_headerOf]
    rfl
  unfold payloadSlice
  dsimp only
  rw [hneed]
  split
  · exact ⟨.tooShort frame.length (minimumLength frame), rfl⟩
  · rename_i h
    have hb : headerLen + (headerOf frame).len.toNat ≤ frame.length := by omega
    have hs := @safe_slice DecodeError UInt8 frame _ _ (Nat.le_add_right headerLen
      (headerOf frame).len.toNat) hb
    rcases hs.cases with ⟨e, he⟩ | ⟨p, hp, -, hlen⟩
    · rw [slice_eq (Nat.le_add_right _ _) hb] at he
      cases he
    · refine ⟨p, hp, ?_⟩
      rw [hlen]
      exact Nat.add_sub_cancel_left _ _

/-- The fields of a payload of full length are there to be read. -/
theorem leU16_ok {p : List UInt8} {o : ℕ} (h : o + 1 < p.length) :
    ∃ v, leU16 p o = .ok v := by
  refine ⟨UInt16.ofNat (ofLeBytes [p[o], p[o + 1]]), ?_⟩
  rw [leU16, index_eq (by omega), index_eq h]
  rfl

theorem leI16_ok {p : List UInt8} {o : ℕ} (h : o + 1 < p.length) :
    ∃ v, leI16 p o = .ok v := by
  obtain ⟨v, hv⟩ := leU16_ok h
  exact ⟨v.toInt16, by rw [leI16, hv]; rfl⟩

theorem leU32_ok {p : List UInt8} {o : ℕ} (h : o + 3 < p.length) :
    ∃ v, leU32 p o = .ok v := by
  refine ⟨UInt32.ofNat (ofLeBytes [p[o], p[o + 1], p[o + 2], p[o + 3]]), ?_⟩
  rw [leU32, index_eq (by omega), index_eq (by omega), index_eq (by omega), index_eq h]
  rfl

theorem leI32_ok {p : List UInt8} {o : ℕ} (h : o + 3 < p.length) :
    ∃ v, leI32 p o = .ok v := by
  obtain ⟨v, hv⟩ := leU32_ok h
  exact ⟨v.toInt32, by rw [leI32, hv]; rfl⟩

/-- The payload of a position message decodes when the declared length is in range and the
frame has the minimum length, and is refused otherwise. -/
theorem decodePayload_headerOf :
    if (1 ≤ declaredLen frame ∧ declaredLen frame ≤ 28) ∧ minimumLength frame ≤ frame.length then
      ∃ msg, decodeGlobalPositionIntPayload frame (headerOf frame) = .ok msg
    else ∃ e, decodeGlobalPositionIntPayload frame (headerOf frame) = fail e := by
  have hlen : (headerOf frame).len = 0 ↔ declaredLen frame = 0 := by
    rw [← UInt8.toNat_inj]
    exact Iff.rfl
  have hbad : ((headerOf frame).len = 0 ∨ globalPositionIntLen < (headerOf frame).len.toNat) ↔
      ¬ (1 ≤ declaredLen frame ∧ declaredLen frame ≤ 28) := by
    rw [hlen]
    change (declaredLen frame = 0 ∨ 28 < declaredLen frame) ↔ _
    omega
  have hslice := @payloadSlice_headerOf frame
  unfold decodeGlobalPositionIntPayload
  by_cases hrange : 1 ≤ declaredLen frame ∧ declaredLen frame ≤ 28
  · rw [if_neg (fun h => (hbad.mp h) hrange)]
    by_cases hmin : frame.length < minimumLength frame
    · rw [if_pos hmin] at hslice
      obtain ⟨e, he⟩ := hslice
      rw [if_neg (fun h => absurd h.2 (not_le.mpr hmin)), he]
      exact ⟨e, rfl⟩
    · rw [if_neg hmin] at hslice
      obtain ⟨p, hp, hplen⟩ := hslice
      rw [if_pos ⟨hrange, not_lt.mp hmin⟩, hp]
      have hfit : p.length ≤ (List.replicate globalPositionIntLen (0 : UInt8)).length := by
        rw [List.length_replicate, hplen]
        exact hrange.2
      have hfull : (p ++ (List.replicate globalPositionIntLen (0 : UInt8)).drop p.length).length =
          28 := by
        rw [List.length_append, List.length_drop, List.length_replicate]
        rw [List.length_replicate] at hfit
        exact Nat.add_sub_cancel' hfit
      obtain ⟨v0, h0⟩ := leU32_ok (hfull.symm ▸ (by decide : 0 + 3 < 28))
      obtain ⟨v1, h1⟩ := leI32_ok (hfull.symm ▸ (by decide : 4 + 3 < 28))
      obtain ⟨v2, h2⟩ := leI32_ok (hfull.symm ▸ (by decide : 8 + 3 < 28))
      obtain ⟨v3, h3⟩ := leI32_ok (hfull.symm ▸ (by decide : 12 + 3 < 28))
      obtain ⟨v4, h4⟩ := leI32_ok (hfull.symm ▸ (by decide : 16 + 3 < 28))
      obtain ⟨v5, h5⟩ := leI16_ok (hfull.symm ▸ (by decide : 20 + 1 < 28))
      obtain ⟨v6, h6⟩ := leI16_ok (hfull.symm ▸ (by decide : 22 + 1 < 28))
      obtain ⟨v7, h7⟩ := leI16_ok (hfull.symm ▸ (by decide : 24 + 1 < 28))
      obtain ⟨v8, h8⟩ := leU16_ok (hfull.symm ▸ (by decide : 26 + 1 < 28))
      refine ⟨⟨v0, v1, v2, v3, v4, v5, v6, v7, v8⟩, ?_⟩
      rw [ok_bind, copyFront_eq hfit, ok_bind, h0, ok_bind, h1, ok_bind, h2, ok_bind, h3, ok_bind,
        h4, ok_bind, h5, ok_bind, h6, ok_bind, h7, ok_bind, h8, ok_bind]
      rfl
  · rw [if_pos (hbad.mpr hrange), if_neg (fun h => hrange h.1)]
    exact ⟨.badPayloadLen (headerOf frame).len, rfl⟩

/-- The decoder of whole frames, on a frame that is a position message. -/
theorem decodeGlobalPositionInt_headerOf (h : HasHeader frame) (hid : wireMsgid frame = 33) :
    decodeGlobalPositionInt frame = decodeGlobalPositionIntPayload frame (headerOf frame) := by
  rw [decodeGlobalPositionInt, parseMavlink2Header_ok h, ok_bind,
    if_neg (not_not.mpr (msgid_headerOf.mpr hid))]

end Header

end Musubi.Mavlink
