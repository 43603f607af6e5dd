/-
# Steim decoding

`decode_steim`, `sign_extend` and the reverse integration of `parse_record`.  A data area is read
frame by frame, a frame word by word: the control word says how each of the other words is packed,
and the first two words after it in the first frame are the integration constants.

Differences are 32-bit numbers and samples are their sums, modulo 2^32, as in the code.  After as
many samples as the header declares the sum must be the second constant; differences that are left
are counted and reported, and are no error.
-/
import Musubi.Miniseed2.Record

namespace Musubi.Miniseed2

open Lib Lib.Checked

/-- `chunks_exact`: the whole chunks of `n` elements, a remainder left out. -/
def chunksExact {α : Type} (n : ℕ) (l : List α) : List (List α) :=
  (List.range (l.length / n)).map fun i => (l.drop (n * i)).take n

/-- Keep the low `width` bits and repeat their sign. -/
def signExtend (bits : UInt32) (width : ℕ) : Parse Int32 := do
  let shift ← sub 32 width
  let up ← shl bits shift
  sar up.toInt32 shift

/-- How a word of this code is packed: the width and the number of its differences. -/
def widthCount (encoding code dnib : UInt8) (offset : ℕ) : Parse (ℕ × ℕ) :=
  if code = 1 then .ok (8, 4)
  else if encoding = steim1 ∧ code = 2 then .ok (16, 2)
  else if encoding = steim1 ∧ code = 3 then .ok (32, 1)
  else if encoding = steim2 ∧ code = 2 then
    if dnib = 1 then .ok (30, 1)
    else if dnib = 2 then .ok (15, 2)
    else if dnib = 3 then .ok (10, 3)
    else fail (.unsupportedSteimNibble offset code dnib)
  else if encoding = steim2 ∧ code = 3 then
    if dnib = 0 then .ok (6, 5)
    else if dnib = 1 then .ok (5, 6)
    else if dnib = 2 then .ok (4, 7)
    else fail (.unsupportedSteimNibble offset code dnib)
  else fail (.unsupportedSteimNibble offset code dnib)

/-- One difference of a word, counted from its high bits. -/
def unpackField (word : UInt32) (width count : ℕ) (diffs : List Int32) (i : ℕ) :
    Parse (List Int32) := do
  let back ← sub (← sub count 1) i
  let bits ← shr word (back * width)
  return diffs ++ [← signExtend bits width]

def unpackWord (word : UInt32) (width count : ℕ) (diffs : List Int32) : Parse (List Int32) :=
  (List.range count).foldlM (unpackField word width count) diffs

/-- The shifts of a word are in range when the fields fit into the word. -/
theorem unpackField_shift_lt {width count : ℕ} (hwidth : 1 ≤ width) (hcount : 1 ≤ count)
    (hfill : count * width ≤ 32) (i : ℕ) : (count - 1 - i) * width < 32 := by
  have hmul : (count - 1 - i) * width ≤ (count - 1) * width :=
    Nat.mul_le_mul_right width (Nat.sub_le _ _)
  have hlast : (count - 1) * width = count * width - width := by rw [Nat.sub_mul, Nat.one_mul]
  have hone : width ≤ count * width := Nat.le_mul_of_pos_left width hcount
  omega

/-- One word of a frame.  In frame 0 the words 1 and 2 are the integration constants, whatever
their nibbles say. -/
def decodeWord (encoding : UInt8) (offset : ℕ) (frame : List UInt8) (control : UInt32)
    (frameIndex : ℕ) (diffs : List Int32) (wordIndex : ℕ) : Parse (List Int32) :=
  if frameIndex = 0 ∧ (wordIndex = 1 ∨ wordIndex = 2) then return diffs
  else do
    let shifted ← shr control (← sub 30 (2 * wordIndex))
    let code := (shifted &&& 0b11).toUInt8
    if code = 0 then return diffs
    else do
      let word ← be32 frame (4 * wordIndex)
      let dnib := (← shr word 30).toUInt8
      let (width, count) ← widthCount encoding code dnib offset
      unpackWord word width count diffs

/-- X0 and Xn after a frame: frame 0 carries them. -/
def integrationConstants (frame : List UInt8) (frameIndex : ℕ) (known : Int32 × Int32) :
    Parse (Int32 × Int32) :=
  if frameIndex = 0 then do
    let x0 ← be32 frame 4
    let xn ← be32 frame 8
    return (x0.toInt32, xn.toInt32)
  else return known

/-- One frame. -/
def decodeFrame (encoding : UInt8) (offset : ℕ) (acc : Int32 × Int32 × List Int32)
    (indexed : List UInt8 × ℕ) : Parse (Int32 × Int32 × List Int32) := do
  let (x0, xn, diffs) := acc
  let (frame, frameIndex) := indexed
  let control ← be32 frame 0
  let (x0, xn) ← integrationConstants frame frameIndex (x0, xn)
  let diffs ← (List.range' 1 15).foldlM (decodeWord encoding offset frame control frameIndex)
    diffs
  return (x0, xn, diffs)

/-- X0, Xn and the differences of all frames. -/
def decodeSteim (data : List UInt8) (encoding : UInt8) (offset : ℕ) :
    Parse (Int32 × Int32 × List Int32) :=
  (chunksExact frameLength data).zipIdx.foldlM (decodeFrame encoding offset) (0, 0, [])

/-- The reverse integration of `parse_record`: the samples from X0 and the differences, the
first difference left out, checked against Xn, with the number of differences beyond the
declared samples. -/
def integrate (x0 xn : Int32) (diffs : List Int32) (declared offset : ℕ) :
    Parse (List Int32 × ℕ) :=
  if declared = 0 then return ([], diffs.length)
  else if diffs.length < declared then
    fail (.sampleCountShortfall offset declared diffs.length)
  else do
    let steps ← slice diffs 1 declared
    let (_, samples) := steps.foldl
      (fun (value, samples) d => (value + d, samples ++ [value + d])) (x0, [x0])
    let last := samples.getLast?.getD x0
    if last ≠ xn then fail (.reverseIntegrationMismatch offset xn last)
    else return (samples, ← sub diffs.length declared)

/-- Decoding and integration of a data area. -/
def decodeSamples (data : List UInt8) (encoding : UInt8) (declared offset : ℕ) :
    Parse (Int32 × Int32 × List Int32 × ℕ) := do
  let (x0, xn, diffs) ← decodeSteim data encoding offset
  let (samples, surplus) ← integrate x0 xn diffs declared offset
  return (x0, xn, samples, surplus)

end Musubi.Miniseed2
