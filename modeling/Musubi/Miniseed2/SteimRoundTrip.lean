/-
# Steim decoding undoes Steim packing

`decode_steim` on the bytes of a `Layout`, and the reverse integration on what it returns.  The
argument goes from bits to bytes to frames: a signed field reads back (`signExtend_eq` with
`field_packFields`), a cell reads back (`decodeWord_cell`), a frame appends the differences of its
cells (`decodeFrame_eq`), and a data area is its frames.

Each level has a lemma in the form that the loop above it needs, with the accumulator as a
variable: decoding from `acc` gives `acc` and the differences.  The places that the decoder skips,
the two constants of the first frame, are a side condition of the lemma about a cell and are
discharged once, by the place where the cells of a first frame begin.

After that there are no bits left.  Summing the differences from the first constant gives the
samples, as sums and differences modulo 2^32 undo each other; the first difference is not used,
because the first sample is the constant itself.
-/
import Mathlib.Tactic.LinearCombination
import Mathlib.Tactic.Linarith
import Musubi.Lib.Segments
import Musubi.Miniseed2.SteimPacking
import Musubi.Miniseed2.Tiling

namespace Musubi.Miniseed2

open Lib Lib.Checked

/-! ## 1. Signed fields -/

/-- Scaling a balanced remainder by a power of two. -/
theorem bmod_mul_two_pow (a : ℤ) {w : ℕ} (hw : 1 ≤ w) (s : ℕ) :
    (a * 2 ^ s).bmod (2 ^ (w + s)) = a.bmod (2 ^ w) * 2 ^ s := by
  have hhalf : (2 : ℤ) ^ w = 2 * 2 ^ (w - 1) := by rw [← pow_succ', Nat.sub_add_cancel hw]
  have hpos : (0 : ℤ) ≤ 2 ^ s := Int.le_of_lt (Int.pow_pos (by decide))
  obtain ⟨hlo, hhi, k, hk⟩ := (Int.bmod_eq_iff (Nat.two_pow_pos w)).mp (rfl : a.bmod (2 ^ w) = _)
  push_cast at hlo hhi hk
  -- twice the remainder lies within the modulus on both sides, and scaling keeps that
  have hlo' : -(2 : ℤ) ^ w * 2 ^ s ≤ a.bmod (2 ^ w) * 2 * 2 ^ s :=
    mul_le_mul_of_nonneg_right (by omega) hpos
  have hhi' : a.bmod (2 ^ w) * 2 * 2 ^ s < 2 ^ w * 2 ^ s :=
    mul_lt_mul_of_pos_right (by omega) (Int.pow_pos (by decide))
  have hshift : a * 2 ^ s = a.bmod (2 ^ w) * 2 ^ s - (2 ^ (w + s) : ℕ) * k := by
    push_cast
    rw [pow_add]
    linear_combination -(2 : ℤ) ^ s * hk
  rw [hshift, Int.sub_mul_bmod_self_left]
  refine Int.bmod_eq_of_le_mul_two ?_ ?_ <;> push_cast <;> rw [pow_add] <;> linarith

/-- **`sign_extend` is the balanced remainder** of the bits modulo the width.  The width is that
of a field, between one bit and a whole word, so the two shifts are in range. -/
theorem signExtend_eq (bits : UInt32) {width : ℕ} (hpos : 1 ≤ width) (hle : width ≤ 32) :
    signExtend bits width = .ok (Int32.ofInt ((bits.toNat : ℤ).bmod (2 ^ width))) := by
  rw [signExtend, sub_eq hle]
  simp only [bind, Except.bind]
  rw [shl_eq (by omega)]
  simp only []
  rw [sar_eq (by omega)]
  congr 1
  rw [← Int32.toInt_inj, Int32.toInt_ofInt]
  change ((bits.toBitVec <<< (32 - width)).sshiftRight (32 - width)).toInt = _
  have hmodulus : 2 ^ 32 = 2 ^ (width + (32 - width)) := by rw [Nat.add_sub_cancel' hle]
  have hpow : (0 : ℤ) < 2 ^ (32 - width) := Int.pow_pos (by decide)
  have hbits := Int.le_bmod (x := bits.toNat) (Nat.two_pow_pos width)
  have hbits' := Int.bmod_lt (x := bits.toNat) (Nat.two_pow_pos width)
  have hwidth : (2 : ℤ) ^ width ≤ 2 ^ 32 := by
    exact_mod_cast Nat.pow_le_pow_right (by decide : 0 < 2) hle
  rw [BitVec.toInt_sshiftRight, BitVec.toInt_shiftLeft, Int.shiftRight_eq_div_pow,
    Nat.shiftLeft_eq, hmodulus]
  push_cast
  change (bits.toNat * 2 ^ (32 - width) : ℤ).bmod _ / _ = _
  rw [bmod_mul_two_pow _ hpos, Int.mul_ediv_cancel _ (Int.ne_of_gt hpow)]
  change _ = Int.bmod _ (2 ^ 32)
  -- a balanced remainder for a smaller modulus is one for a larger
  push_cast at hbits hbits'
  refine (Int.bmod_eq_of_le_mul_two ?_ ?_).symm <;> push_cast <;> omega

/-! ## 2. Packed words -/

namespace PackedWord

variable {encoding : UInt8} (w : PackedWord encoding)

theorem packing_bounds (p : Packing) :
    1 ≤ p.width ∧ p.width ≤ 32 ∧ 1 ≤ p.count ∧ p.count * p.width ≤ 32 := by
  cases p <;> decide

theorem length_fields : w.fields.length = w.packing.count := by
  rw [fields, List.length_map, w.length_eq]

theorem fields_lt : ∀ v ∈ w.fields, v < 2 ^ w.packing.width := by
  intro v hv
  obtain ⟨d, -, rfl⟩ := List.mem_map.mp hv
  exact toField_lt _ _

/-- The name, the spare bits and the differences fill the word and no more. -/
theorem head_lt : (w.packing.head w.spare + 1) * 2 ^ (w.packing.width * w.packing.count) ≤
    2 ^ 32 := by
  obtain ⟨p, -, -, -, -, spare, hspare⟩ := w
  dsimp only
  cases p <;>
    simp only [Packing.head, Packing.spareBits, Packing.dnib, Packing.width, Packing.count] at * <;>
    omega

theorem toNat_word : w.word.toNat =
    w.packing.head w.spare * 2 ^ (w.packing.width * w.fields.length) +
      packFields w.packing.width w.fields := by
  have hlt := packFields_lt w.fields_lt
  have hhead := w.head_lt
  rw [w.length_fields] at hlt ⊢
  rw [Nat.add_mul, Nat.one_mul] at hhead
  rw [word, w.length_eq, UInt32.toNat_ofNat']
  exact Nat.mod_eq_of_lt (by omega)

/-- **A difference reads back** from its place in the word.  What stands above it in the word is
shifted in and cut off by the extension. -/
theorem signExtend_field {i : ℕ} (hi : i < w.diffs.length) :
    signExtend ⟨w.word.toBitVec >>> ((w.packing.count - 1 - i) * w.packing.width)⟩
      w.packing.width = .ok w.diffs[i] := by
  obtain ⟨hwidth, hle, -, -⟩ := packing_bounds w.packing
  have hi' : i < w.fields.length := by rwa [fields, List.length_map]
  have hfield := field_packFields w.fields_lt (w.packing.head w.spare) i hi'
  have hget : w.fields[i] = toField w.packing.width w.diffs[i].toInt := List.getElem_map _
  rw [← toNat_word, w.length_fields, hget] at hfield
  have hbits : (UInt32.ofBitVec (w.word.toBitVec >>>
      ((w.packing.count - 1 - i) * w.packing.width))).toNat =
      w.word.toNat / 2 ^ ((w.packing.count - 1 - i) * w.packing.width) := by
    rw [UInt32.toNat_ofBitVec, BitVec.toNat_ushiftRight, Nat.shiftRight_eq_div_pow]
    rfl
  have hcast : ((2 ^ w.packing.width : ℕ) : ℤ) = 2 ^ w.packing.width := by push_cast; rfl
  rw [signExtend_eq _ hwidth hle, hbits, ← Int.emod_bmod, hcast]
  have hmod := congrArg (Nat.cast : ℕ → ℤ) hfield
  push_cast at hmod
  push_cast
  rw [hmod, bmod_toField hwidth (w.fits _ (List.getElem_mem hi)), Int32.ofInt_toInt]

/-- **The differences of a word read back**, in the order in which they were packed, the first one
in the highest place. -/
theorem unpackWord_eq (acc : List Int32) :
    unpackWord w.word w.packing.width w.packing.count acc = .ok (acc ++ w.diffs) := by
  obtain ⟨hwidth, hle, hcount, hfill⟩ := packing_bounds w.packing
  have hloop := foldlM_range'_eq (f := unpackField w.word w.packing.width w.packing.count)
    (g := fun d => [d]) w.diffs 0 acc fun i hi acc => by
      have hi' : i < w.packing.count := w.length_eq ▸ hi
      simp only [unpackField, bind, Except.bind, sub_eq hcount, Nat.zero_add,
        sub_eq (Nat.le_sub_one_of_lt hi'), shr_eq (unpackField_shift_lt hwidth hcount hfill i),
        w.signExtend_field hi]
      rfl
  rw [w.length_eq, ← List.range_eq_range', List.flatMap_singleton'] at hloop
  exact hloop

/-- The two high bits of the word are its name, where it has one. -/
theorem word_div_two_pow {dnib : ℕ} (h : w.packing.dnib = some dnib) :
    w.word.toNat / 2 ^ 30 = dnib := by
  have hlt := packFields_lt w.fields_lt
  have hspare := w.spare_lt
  have hbits : w.packing.width * w.fields.length + w.packing.spareBits = 30 := by
    rw [w.length_fields]
    revert h
    cases w.packing <;> intro h
    case four8 | two16 | one32 => cases h
    all_goals rfl
  have hhead : w.packing.head w.spare = dnib * 2 ^ w.packing.spareBits + w.spare := by
    simp only [Packing.head, h]
  rw [toNat_word, ← hbits, Nat.pow_add, ← Nat.div_div_eq_div_mul, Nat.add_comm,
    Nat.add_mul_div_right _ _ (Nat.two_pow_pos _), Nat.div_eq_of_lt hlt, Nat.zero_add, hhead,
    Nat.add_comm, Nat.add_mul_div_right _ _ (Nat.two_pow_pos _), Nat.div_eq_of_lt hspare,
    Nat.zero_add]

/-- The decoder finds the packing from the nibble and the name, so it unpacks with the width that
the word was packed with. -/
theorem widthCount_eq (offset : ℕ) :
    widthCount encoding (UInt8.ofNat w.packing.code) (UInt8.ofNat (w.word.toNat / 2 ^ 30))
      offset = .ok (w.packing.width, w.packing.count) := by
  have hlegal := w.legal
  have hname : ∀ dnib, w.packing.dnib = some dnib → w.word.toNat / 2 ^ 30 = dnib :=
    fun dnib => w.word_div_two_pow
  generalize w.word.toNat / 2 ^ 30 = top at hname ⊢
  revert hlegal hname
  cases w.packing <;> intro hlegal hname <;>
    simp only [Packing.ofEncoding, decide_eq_true_eq] at hlegal
  case four8 => rfl
  case two16 | one32 => rw [hlegal]; rfl
  all_goals
    rw [hlegal, hname _ rfl]
    rfl

end PackedWord

/-! ## 3. Words and frames in bytes -/

theorem be32_eq_of_take {l : List UInt8} {i v : ℕ} (h : (l.drop i).take 4 = beBytes 4 v)
    (hv : v < 2 ^ 32) : be32 l i = .ok (UInt32.ofNat v) := by
  have hlen := congrArg List.length h
  rw [List.length_take, List.length_drop, length_beBytes] at hlen
  have hblock : (l.drop i).take 4 = [l[i], l[i + 1], l[i + 2], l[i + 3]] := by
    rw [List.drop_eq_getElem_cons (by omega), List.drop_eq_getElem_cons (by omega),
      List.drop_eq_getElem_cons (by omega), List.drop_eq_getElem_cons (by omega)]
    rfl
  rw [be32, index_eq (by omega), index_eq (by omega), index_eq (by omega), index_eq (by omega)]
  simp only [bind, Except.bind, pure, Except.pure]
  have hmod : v % 256 ^ 4 = v := Nat.mod_eq_of_lt hv
  rw [← hblock, h, ofBeBytes_beBytes, hmod]

theorem length_wordBytes (words : List UInt32) : (wordBytes words).length = 4 * words.length :=
  length_flatMap_blocks fun _ _ => length_beBytes 4 _

theorem chunksExact_flatMap_blocks {α β : Type} {f : α → List β} {n : ℕ} (hn : 0 < n)
    {l : List α} (h : ∀ x ∈ l, (f x).length = n) : chunksExact n (l.flatMap f) = l.map f := by
  rw [chunksExact, length_flatMap_blocks h, Nat.mul_div_cancel_left _ hn]
  refine List.ext_getElem (by simp) fun i _ hi => ?_
  rw [List.length_map] at hi
  rw [List.getElem_map, List.getElem_map, List.getElem_range, take_drop_flatMap_blocks h hi]

/-- A word reads back from its place. -/
theorem be32_wordBytes {words : List UInt32} {i : ℕ} {word : UInt32} (h : words[i]? = some word) :
    be32 (wordBytes words) (4 * i) = .ok word := by
  obtain ⟨hi, rfl⟩ := List.getElem?_eq_some_iff.mp h
  have hblock := take_drop_flatMap_blocks (f := fun w : UInt32 => beBytes 4 w.toNat) (n := 4)
    (fun _ _ => length_beBytes 4 _) hi
  have hword := be32_eq_of_take hblock words[i].toNat_lt
  rwa [UInt32.ofNat_toNat] at hword

/-- A nibble reads back from the control word: the shift of the code brings it to the lowest two
bits. -/
theorem control_nibble {nibbles : List (Fin 4)} (hlen : nibbles.length = 16) {i : ℕ}
    (hi : i < nibbles.length) :
    (UInt32.ofBitVec ((UInt32.ofNat (packFields 2 (nibbles.map Fin.val))).toBitVec >>>
      (30 - 2 * i)) &&& 0b11).toUInt8 = UInt8.ofNat nibbles[i] := by
  have hlt : ∀ v ∈ nibbles.map Fin.val, v < 2 ^ 2 := by
    intro v hv
    obtain ⟨n, -, rfl⟩ := List.mem_map.mp hv
    exact n.isLt
  have hfield := field_packFields hlt 0 i (by rwa [List.length_map])
  have hcontrol := packFields_lt hlt
  have hshift : (nibbles.length - 1 - i) * 2 = 30 - 2 * i := by omega
  simp only [List.length_map, hshift, Nat.zero_mul, Nat.zero_add, List.getElem_map] at hfield
  rw [List.length_map, hlen] at hcontrol
  rw [← UInt8.toNat_inj, UInt32.toNat_toUInt8, UInt32.toNat_and, UInt32.toNat_ofBitVec,
    BitVec.toNat_ushiftRight, Nat.shiftRight_eq_div_pow, UInt32.toNat_toBitVec,
    UInt32.toNat_ofNat_of_lt' hcontrol, UInt8.toNat_ofNat']
  change (_ &&& 2 ^ 2 - 1) % _ = _
  rw [Nat.and_two_pow_sub_one_eq_mod, hfield]

/-! ## 4. Frames -/

/-- **A cell reads back** from its nibble and its word.  `hfree` keeps the two places out that
hold constants; `hcode` and `hword` say where in the frame the nibble and the word of the cell
are. -/
theorem decodeWord_cell {encoding : UInt8} (c : Cell encoding) {offset frameIndex i : ℕ}
    {frame : List UInt8} {control : UInt32} (hfree : ¬ (frameIndex = 0 ∧ (i = 1 ∨ i = 2)))
    (hi : i < 16)
    (hcode : (UInt32.ofBitVec (control.toBitVec >>> (30 - 2 * i)) &&& 0b11).toUInt8 =
      UInt8.ofNat c.code)
    (hword : be32 frame (4 * i) = .ok c.word) (acc : List Int32) :
    decodeWord encoding offset frame control frameIndex acc i = .ok (acc ++ c.diffs) := by
  rw [decodeWord, if_neg hfree, sub_eq (by omega)]
  simp only [bind, Except.bind]
  rw [shr_eq (by omega)]
  simp only []
  rw [hcode]
  cases c with
  | blank word =>
    have hblank : UInt8.ofNat (Cell.blank word : Cell encoding).code = 0 := rfl
    rw [if_pos hblank, Cell.diffs, List.append_nil]
    rfl
  | packed w =>
    have hpacking : (Cell.packed w).code.val = w.packing.code ∧
        UInt8.ofNat w.packing.code ≠ 0 := by
      rw [Cell.code]
      cases w.packing <;> decide
    have hdnib : (UInt32.ofBitVec (w.word.toBitVec >>> 30)).toUInt8 =
        UInt8.ofNat (w.word.toNat / 2 ^ 30) := by
      rw [← UInt8.toNat_inj, UInt32.toNat_toUInt8, UInt32.toNat_ofBitVec,
        BitVec.toNat_ushiftRight, Nat.shiftRight_eq_div_pow, UInt32.toNat_toBitVec,
        UInt8.toNat_ofNat']
    rw [hpacking.1, if_neg hpacking.2, hword, Cell.word]
    simp only []
    rw [shr_eq (by decide)]
    simp only []
    rw [hdnib, w.widthCount_eq]
    exact w.unpackWord_eq acc

section Frame

variable {encoding : UInt8} {nibbles : List (Fin 4)} {words : List UInt32}
  {cells : List (Cell encoding)}

/-- **The cells of a frame read back**, each at its place after the words before them.  Those
words are the control word alone, or in a first frame the constants too; their nibbles may be
anything. -/
theorem foldlM_decodeWord (offset frameIndex : ℕ) (nibbles : List (Fin 4)) (words : List UInt32)
    (hnibbles : nibbles.length = words.length + 1) (hlen : words.length + cells.length = 15)
    (hfree : frameIndex = 0 → words.length = 2) (acc : List Int32) :
    (List.range' nibbles.length cells.length).foldlM
      (decodeWord encoding offset
        (frameBytes (nibbles ++ cells.map Cell.code) (words ++ cells.map Cell.word))
        (UInt32.ofNat (packFields 2 ((nibbles ++ cells.map Cell.code).map Fin.val))) frameIndex)
      acc = .ok (acc ++ cells.flatMap Cell.diffs) := by
  refine foldlM_range'_eq cells nibbles.length acc fun i hi acc => ?_
  have hlength : (nibbles ++ cells.map Cell.code).length = 16 := by
    rw [List.length_append, List.length_map]
    omega
  have hplace : nibbles.length + i < (nibbles ++ cells.map Cell.code).length := by omega
  refine decodeWord_cell cells[i] (by omega) (by omega) ?_ ?_ acc
  · rw [control_nibble hlength hplace, List.getElem_append_right (Nat.le_add_right _ _)]
    simp only [Nat.add_sub_cancel_left, List.getElem_map]
  · -- the word stands one place further, after the control word
    have hplace : 4 * (nibbles.length + i) = 4 * (words.length + i + 1) := by omega
    rw [hplace]
    refine be32_wordBytes ?_
    rw [List.getElem?_cons_succ, List.getElem?_append_right (Nat.le_add_right _ _),
      Nat.add_sub_cancel_left, List.getElem?_map, List.getElem?_eq_getElem hi, Option.map_some]

theorem length_frameBytes (h : words.length = 15) : (frameBytes nibbles words).length = 64 := by
  rw [frameBytes, length_wordBytes, List.length_cons, h]

theorem be32_frameBytes_zero : be32 (frameBytes nibbles words) 0 =
    .ok (UInt32.ofNat (packFields 2 (nibbles.map Fin.val))) :=
  be32_wordBytes (i := 0) rfl

end Frame

/-- A frame that is not the first appends the differences of its cells. -/
theorem decodeFrame_eq {encoding : UInt8} (f : SteimFrame encoding) {offset frameIndex : ℕ}
    (hindex : 1 ≤ frameIndex) (x0 xn : Int32) (diffs : List Int32) :
    decodeFrame encoding offset (x0, xn, diffs) (f.bytes, frameIndex) =
      .ok (x0, xn, diffs ++ f.cells.flatMap Cell.diffs) := by
  have hfirst : frameIndex ≠ 0 := by omega
  have hcells := foldlM_decodeWord offset frameIndex [f.ownNibble] [] rfl
    (by rw [f.length_eq]; rfl) (fun h => absurd h hfirst) diffs
  simp only [f.length_eq, List.singleton_append, List.nil_append, List.length_singleton]
    at hcells
  simp only [decodeFrame, SteimFrame.bytes, be32_frameBytes_zero, integrationConstants,
    if_neg hfirst, bind, Except.bind, pure, Except.pure]
  rw [hcells]

theorem foldlM_decodeFrame {encoding : UInt8} {offset : ℕ} {x0 xn : Int32}
    (frames : List (SteimFrame encoding)) : ∀ (start : ℕ) (diffs : List Int32), 1 ≤ start →
      ((frames.map SteimFrame.bytes).zipIdx start).foldlM (decodeFrame encoding offset)
        (x0, xn, diffs) =
          .ok (x0, xn, diffs ++ frames.flatMap fun f => f.cells.flatMap Cell.diffs) := by
  induction frames with
  | nil =>
    intro start diffs _
    rw [List.flatMap_nil, List.append_nil]
    rfl
  | cons f frames ih =>
    intro start diffs hstart
    rw [List.map_cons, List.zipIdx_cons, List.foldlM_cons, decodeFrame_eq f hstart,
      List.flatMap_cons, ← List.append_assoc]
    exact ih (start + 1) _ (Nat.le_succ_of_le hstart)

/-! ## 5. Data areas -/

namespace Layout

variable {encoding : UInt8} (l : Layout encoding)

/-- The first frame gives the integration constants and the differences of its cells. -/
theorem decodeFrame_firstBytes (offset : ℕ) (known : Int32 × Int32) (diffs : List Int32) :
    decodeFrame encoding offset (known.1, known.2, diffs) (l.firstBytes, 0) =
      .ok (l.x0, l.xn, diffs ++ l.cells.flatMap Cell.diffs) := by
  have hcells := foldlM_decodeWord offset 0 [l.ownNibble, l.x0Nibble, l.xnNibble]
    [l.x0.toUInt32, l.xn.toUInt32] rfl (by rw [l.length_eq]; rfl) (fun _ => rfl) diffs
  have hx0 : be32 l.firstBytes 4 = .ok l.x0.toUInt32 :=
    be32_wordBytes (i := 1) rfl
  have hxn : be32 l.firstBytes 8 = .ok l.xn.toUInt32 :=
    be32_wordBytes (i := 2) rfl
  have hskip : ∀ frame control, (List.range' 1 15).foldlM
      (decodeWord encoding offset frame control 0) diffs =
        (List.range' 3 13).foldlM (decodeWord encoding offset frame control 0) diffs :=
    fun _ _ => rfl
  simp only [l.length_eq, List.cons_append, List.nil_append, List.length_cons, List.length_nil]
    at hcells
  simp only [decodeFrame, integrationConstants, hx0, hxn, hskip, bind, Except.bind, pure,
    Except.pure, if_true]
  simp only [firstBytes, be32_frameBytes_zero]
  rw [hcells]
  rfl

theorem length_firstBytes : l.firstBytes.length = 64 := by
  refine length_frameBytes ?_
  simp only [List.length_cons, List.length_map, l.length_eq]

theorem length_frame_bytes (f : SteimFrame encoding) : f.bytes.length = 64 := by
  refine length_frameBytes ?_
  rw [List.length_map, f.length_eq]

/-- The chunks of the data area are its frames. -/
theorem chunksExact_bytes :
    chunksExact frameLength l.bytes = l.firstBytes :: l.frames.map SteimFrame.bytes := by
  have hblocks : ∀ b ∈ l.firstBytes :: l.frames.map SteimFrame.bytes, (id b).length = 64 := by
    intro b hb
    rcases List.mem_cons.mp hb with rfl | hb
    · exact l.length_firstBytes
    · obtain ⟨f, -, rfl⟩ := List.mem_map.mp hb
      exact length_frame_bytes f
  have hbytes : l.bytes = (l.firstBytes :: l.frames.map SteimFrame.bytes).flatMap id := by
    rw [bytes, List.flatMap_cons, List.flatMap_map]
    rfl
  rw [hbytes, frameLength, chunksExact_flatMap_blocks (by decide) hblocks, List.map_id]

/-- **A data area decodes** to its constants and its differences, blank words adding none. -/
theorem decodeSteim_bytes (offset : ℕ) :
    decodeSteim l.bytes encoding offset = .ok (l.x0, l.xn, l.diffs) := by
  rw [decodeSteim, l.chunksExact_bytes, List.zipIdx_cons, List.foldlM_cons,
    l.decodeFrame_firstBytes offset (0, 0) [], List.nil_append]
  exact foldlM_decodeFrame l.frames 1 _ (Nat.le_refl _)

end Layout

/-! ## 6. Reverse integration -/

theorem length_successiveDiffs (samples : List Int32) :
    (successiveDiffs samples).length = samples.length - 1 := by
  rw [successiveDiffs, List.length_zipWith, List.length_tail]
  omega

/-- Running sums of the successive differences are the samples, wrapping included: sums and
differences wrap alike. -/
theorem scanl_successiveDiffs (rest : List Int32) : ∀ value : Int32,
    (successiveDiffs (value :: rest)).scanl (· + ·) value = value :: rest := by
  induction rest with
  | nil =>
    intro value
    rfl
  | cons next rest ih =>
    intro value
    have hstep : value + (next - value) = next := by rw [Int32.add_comm, Int32.sub_add_cancel]
    have hcons : successiveDiffs (value :: next :: rest) =
        (next - value) :: successiveDiffs (next :: rest) := rfl
    rw [hcons, List.scanl_cons, hstep, ih]

/-- The reverse integration gives samples back from their differences, and checks the last. -/
theorem integrate_successiveDiffs (value : Int32) (rest : List Int32) (xn d0 : Int32)
    (surplus : List Int32) (offset : ℕ) :
    integrate value xn (d0 :: successiveDiffs (value :: rest) ++ surplus) (rest.length + 1)
        offset =
      if (value :: rest).getLast (List.cons_ne_nil _ _) = xn
      then .ok (value :: rest, surplus.length)
      else fail (.reverseIntegrationMismatch offset xn
        ((value :: rest).getLast (List.cons_ne_nil _ _))) := by
  have hlen := length_successiveDiffs (value :: rest)
  rw [List.length_cons, Nat.add_sub_cancel] at hlen
  have htotal : (d0 :: successiveDiffs (value :: rest) ++ surplus).length =
      rest.length + 1 + surplus.length := by
    rw [List.length_append, List.length_cons, hlen]
  have hsteps : ((d0 :: successiveDiffs (value :: rest) ++ surplus).drop 1).take
      (rest.length + 1 - 1) = successiveDiffs (value :: rest) := by
    rw [List.cons_append, List.drop_succ_cons, List.drop_zero, Nat.add_sub_cancel, ← hlen,
      List.take_left]
  have hsums := foldl_integrate (successiveDiffs (value :: rest)) value []
  rw [List.nil_append, List.nil_append, scanl_successiveDiffs] at hsums
  rw [integrate, if_neg (Nat.succ_ne_zero _), htotal, if_neg (by omega), slice_eq (by omega)
    (by omega), hsteps]
  simp only [bind, Except.bind, hsums]
  rw [List.getLast?_eq_getLast_of_ne_nil (List.cons_ne_nil _ _), Option.getD_some, ite_not,
    sub_eq (by omega), Nat.add_sub_cancel_left]
  rfl

/-! ## 7. The round trip -/

/-- **Decoding undoes every legal packing.** However the differences of a record's samples are
packed, after any first difference and before any surplus, the decoder returns the samples when Xn
is the last of them, and an error naming Xn and the last sample when it is not.  `hdiffs` says
what the layout packs: a difference that is free, the differences of the samples, and whatever
comes behind.  The number of samples is the one that the header declares, at least one; the
samples are arbitrary words, also where their differences wrap around. -/
theorem decodeSamples_layout {encoding : UInt8} (l : Layout encoding) (rest : List Int32)
    (d0 : Int32) (surplus : List Int32)
    (hdiffs : l.diffs = d0 :: successiveDiffs (l.x0 :: rest) ++ surplus) (offset : ℕ) :
    decodeSamples l.bytes encoding (l.x0 :: rest).length offset =
      if (l.x0 :: rest).getLast (List.cons_ne_nil _ _) = l.xn
      then .ok (l.x0, l.xn, l.x0 :: rest, surplus.length)
      else fail (.reverseIntegrationMismatch offset l.xn
        ((l.x0 :: rest).getLast (List.cons_ne_nil _ _))) := by
  rw [decodeSamples, l.decodeSteim_bytes offset]
  simp only [bind, Except.bind]
  rw [hdiffs, List.length_cons, integrate_successiveDiffs]
  by_cases hlast : (l.x0 :: rest).getLast (List.cons_ne_nil _ _) = l.xn
  · rw [if_pos hlast, if_pos hlast]
    rfl
  · rw [if_neg hlast, if_neg hlast]
    rfl

theorem twoFrames_decodes : decodeSamples twoFrames.bytes steim2 12 0 =
    .ok (1000, 1110, [1000, 872, 999, 1000, 992, 999, 999, 998, 1000, 1003, 1007, 1110], 1) :=
  (decodeSamples_layout twoFrames [872, 999, 1000, 992, 999, 999, 998, 1000, 1003, 1007, 1110]
    77 [-16384] (by decide) 0).trans (if_pos (by decide))

end Musubi.Miniseed2
