/-
# Legal Steim packings

What a Steim encoder may write, stated from the format and not from the decoder: the nine ways a
word can hold differences, the frames of a control word and fifteen cells, and the bytes of a data
area.  `Layout` carries the well-formedness of all of it in its fields, so that every layout is
legal by type; nibbles of the cells that hold the integration constants, unused bits and blank
words are free.

The encoder of an actual recorder chooses one of many layouts for the same samples: it may pack
seven small differences in a word or one, leave a word blank, end a frame early.  The round trip
is about all of them, and what a layout SAYS is its constants and the differences of its cells in
their order (`Layout.diffs`).

Encodings one and two of the format differ in the packings they have (`Packing.ofEncoding`); a
packed word carries the proof that its packing is one of the encoding, so that a word of the other
kind cannot be built.
-/
import Musubi.Lib.BitField
import Musubi.Miniseed2.Steim

namespace Musubi.Miniseed2

open Lib

/-! ## 1. Words -/

/-- The packings, each by its number of differences and their width. -/
inductive Packing
  | four8
  | two16
  | one32
  | one30
  | two15
  | three10
  | five6
  | six5
  | seven4
deriving DecidableEq, Repr

namespace Packing

def count : Packing → ℕ
  | four8 => 4
  | two16 => 2
  | one32 => 1
  | one30 => 1
  | two15 => 2
  | three10 => 3
  | five6 => 5
  | six5 => 6
  | seven4 => 7

def width : Packing → ℕ
  | four8 => 8
  | two16 => 16
  | one32 => 32
  | one30 => 30
  | two15 => 15
  | three10 => 10
  | five6 => 6
  | six5 => 5
  | seven4 => 4

/-- The control nibble of a word so packed. -/
def code : Packing → ℕ
  | four8 => 1
  | two16 => 2
  | one32 => 3
  | one30 => 2
  | two15 => 2
  | three10 => 2
  | five6 => 3
  | six5 => 3
  | seven4 => 3

/-- The two high bits of the word, where the packing uses them to name itself. -/
def dnib : Packing → Option ℕ
  | four8 => none
  | two16 => none
  | one32 => none
  | one30 => some 1
  | two15 => some 2
  | three10 => some 3
  | five6 => some 0
  | six5 => some 1
  | seven4 => some 2

/-- The packing belongs to the encoding. -/
def ofEncoding (encoding : UInt8) : Packing → Bool
  | four8 => encoding = steim1 ∨ encoding = steim2
  | two16 => encoding = steim1
  | one32 => encoding = steim1
  | one30 => encoding = steim2
  | two15 => encoding = steim2
  | three10 => encoding = steim2
  | five6 => encoding = steim2
  | six5 => encoding = steim2
  | seven4 => encoding = steim2

/-- The bits of the word between its name and its differences. -/
def spareBits (p : Packing) : ℕ :=
  match p.dnib with
  | none => 0
  | some _ => 30 - p.width * p.count

/-- What stands above the differences: the name, then the spare bits. -/
def head (p : Packing) (spare : ℕ) : ℕ :=
  match p.dnib with
  | none => 0
  | some dnib => dnib * 2 ^ p.spareBits + spare

end Packing

/-- A word of differences, each within the width of the packing, as many as the packing holds.
What is left of the word is `spare`, any number of so many bits. -/
structure PackedWord (encoding : UInt8) where
  packing : Packing
  legal : packing.ofEncoding encoding = true
  diffs : List Int32
  length_eq : diffs.length = packing.count
  fits : ∀ d ∈ diffs, FitsField packing.width d.toInt
  spare : ℕ
  spare_lt : spare < 2 ^ packing.spareBits

/-- The fields of the differences. -/
def PackedWord.fields {encoding : UInt8} (w : PackedWord encoding) : List ℕ :=
  w.diffs.map fun d => toField w.packing.width d.toInt

/-- The 32 bits of the word. -/
def PackedWord.word {encoding : UInt8} (w : PackedWord encoding) : UInt32 :=
  UInt32.ofNat (w.packing.head w.spare * 2 ^ (w.packing.width * w.diffs.length) +
    packFields w.packing.width w.fields)

/-! ## 2. Frames -/

/-- A word of a frame after the control word: blank, with any bits in it, or packed. -/
inductive Cell (encoding : UInt8)
  | blank (word : UInt32)
  | packed (w : PackedWord encoding)

namespace Cell

variable {encoding : UInt8}

def code : Cell encoding → Fin 4
  | blank _ => 0
  | packed w => Fin.ofNat 4 w.packing.code

def word : Cell encoding → UInt32
  | blank word => word
  | packed w => w.word

def diffs : Cell encoding → List Int32
  | blank _ => []
  | packed w => w.diffs

end Cell

/-- Words one after the other, each big-endian. -/
def wordBytes (words : List UInt32) : List UInt8 := words.flatMap fun w => beBytes 4 w.toNat

/-- A frame: the control word with sixteen nibbles, then fifteen words. -/
def frameBytes (nibbles : List (Fin 4)) (words : List UInt32) : List UInt8 :=
  wordBytes (UInt32.ofNat (packFields 2 (nibbles.map Fin.val)) :: words)

/-- A frame that is not the first: fifteen cells, and the nibble of the control word itself, which
nobody reads. -/
structure SteimFrame (encoding : UInt8) where
  ownNibble : Fin 4
  cells : List (Cell encoding)
  length_eq : cells.length = 15

def SteimFrame.bytes {encoding : UInt8} (f : SteimFrame encoding) : List UInt8 :=
  frameBytes (f.ownNibble :: f.cells.map Cell.code) (f.cells.map Cell.word)

/-- A data area: the first frame with the integration constants and thirteen cells, then the
other frames. -/
structure Layout (encoding : UInt8) where
  x0 : Int32
  xn : Int32
  ownNibble : Fin 4
  x0Nibble : Fin 4
  xnNibble : Fin 4
  cells : List (Cell encoding)
  length_eq : cells.length = 13
  frames : List (SteimFrame encoding)

namespace Layout

variable {encoding : UInt8} (l : Layout encoding)

def firstBytes : List UInt8 :=
  frameBytes (l.ownNibble :: l.x0Nibble :: l.xnNibble :: l.cells.map Cell.code)
    (l.x0.toUInt32 :: l.xn.toUInt32 :: l.cells.map Cell.word)

/-- The bytes of the data area. -/
def bytes : List UInt8 := l.firstBytes ++ l.frames.flatMap SteimFrame.bytes

/-- The differences, in the order of the words. -/
def diffs : List Int32 :=
  l.cells.flatMap Cell.diffs ++ l.frames.flatMap fun f => f.cells.flatMap Cell.diffs

end Layout

/-- The differences of successive samples, as the 32-bit subtraction gives them. -/
def successiveDiffs (samples : List Int32) : List Int32 :=
  List.zipWith (fun next value => next - value) samples.tail samples

/-! ## 3. A layout -/

theorem fits_of_all {width : ℕ} {diffs : List Int32}
    (h : diffs.all (fun d => FitsField width d.toInt) = true) :
    ∀ d ∈ diffs, FitsField width d.toInt := by
  intro d hd
  exact of_decide_eq_true (List.all_eq_true.mp h d hd)

/-- Two frames of Steim-2: four differences of 8 bits, a blank cell and seven of 4 bits with
two spare bits in the first, two of 15 bits in the second. -/
def twoFrames : Layout steim2 where
  x0 := 1000
  xn := 1110
  ownNibble := 0
  x0Nibble := 3
  xnNibble := 0
  cells :=
    [.packed ⟨.four8, by decide, [77, -128, 127, 1], by decide, fits_of_all (by decide), 0,
        by decide⟩,
      .blank 0xdeadbeef,
      .packed ⟨.seven4, by decide, [-8, 7, 0, -1, 2, 3, 4], by decide, fits_of_all (by decide), 2,
        by decide⟩] ++ List.replicate 10 (.blank 0)
  length_eq := rfl
  frames :=
    [⟨0, List.replicate 14 (.blank 0) ++
      [.packed ⟨.two15, by decide, [103, -16384], by decide, fits_of_all (by decide), 0,
        by decide⟩], rfl⟩]

end Musubi.Miniseed2
