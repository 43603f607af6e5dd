/-
# SHA-256

The hash of FIPS 180-4 over byte strings, executable.  A development that takes its hash as a
parameter can be instantiated with this one, and a digest pinned by the verified program can be
recomputed in the kernel.

Words are `UInt32`, so addition is modulo `2 ^ 32` as the standard has it.  The message schedule
keeps the last sixteen words and yields them one at a time.  Nothing is proved of the function;
that it does not collide is never true of all messages and is assumed by a client, of the messages
that it has.
-/
import Musubi.Lib.Bytes

namespace Lib.Sha256

def rotr (x n : UInt32) : UInt32 := (x >>> n) ||| (x <<< (32 - n))

def bigSigma0 (x : UInt32) : UInt32 := rotr x 2 ^^^ rotr x 13 ^^^ rotr x 22

def bigSigma1 (x : UInt32) : UInt32 := rotr x 6 ^^^ rotr x 11 ^^^ rotr x 25

def smallSigma0 (x : UInt32) : UInt32 := rotr x 7 ^^^ rotr x 18 ^^^ (x >>> 3)

def smallSigma1 (x : UInt32) : UInt32 := rotr x 17 ^^^ rotr x 19 ^^^ (x >>> 10)

def ch (x y z : UInt32) : UInt32 := (x &&& y) ^^^ (~~~x &&& z)

def maj (x y z : UInt32) : UInt32 := (x &&& y) ^^^ (x &&& z) ^^^ (y &&& z)

/-- The round constants. -/
def constants : List UInt32 :=
  [0x428a2f98, 0x71374491, 0xb5c0fbcf, 0xe9b5dba5, 0x3956c25b, 0x59f111f1, 0x923f82a4, 0xab1c5ed5,
   0xd807aa98, 0x12835b01, 0x243185be, 0x550c7dc3, 0x72be5d74, 0x80deb1fe, 0x9bdc06a7, 0xc19bf174,
   0xe49b69c1, 0xefbe4786, 0x0fc19dc6, 0x240ca1cc, 0x2de92c6f, 0x4a7484aa, 0x5cb0a9dc, 0x76f988da,
   0x983e5152, 0xa831c66d, 0xb00327c8, 0xbf597fc7, 0xc6e00bf3, 0xd5a79147, 0x06ca6351, 0x14292967,
   0x27b70a85, 0x2e1b2138, 0x4d2c6dfc, 0x53380d13, 0x650a7354, 0x766a0abb, 0x81c2c92e, 0x92722c85,
   0xa2bfe8a1, 0xa81a664b, 0xc24b8b70, 0xc76c51a3, 0xd192e819, 0xd6990624, 0xf40e3585, 0x106aa070,
   0x19a4c116, 0x1e376c08, 0x2748774c, 0x34b0bcb5, 0x391c0cb3, 0x4ed8aa4a, 0x5b9cca4f, 0x682e6ff3,
   0x748f82ee, 0x78a5636f, 0x84c87814, 0x8cc70208, 0x90befffa, 0xa4506ceb, 0xbef9a3f7, 0xc67178f2]

/-- The eight working variables. -/
structure State where
  a : UInt32
  b : UInt32
  c : UInt32
  d : UInt32
  e : UInt32
  f : UInt32
  g : UInt32
  h : UInt32

def initial : State :=
  ⟨0x6a09e667, 0xbb67ae85, 0x3c6ef372, 0xa54ff53a, 0x510e527f, 0x9b05688c, 0x1f83d9ab, 0x5be0cd19⟩

/-- One round, with its constant and its schedule word. -/
def round (s : State) (kw : UInt32 × UInt32) : State :=
  let t1 := s.h + bigSigma1 s.e + ch s.e s.f s.g + kw.1 + kw.2
  let t2 := bigSigma0 s.a + maj s.a s.b s.c
  ⟨t1 + t2, s.a, s.b, s.c, s.d + t1, s.e, s.f, s.g⟩

/-- The next `n` words of the schedule whose last sixteen words are given, oldest first. -/
def schedule : ℕ → List UInt32 → List UInt32
  | n + 1, [w0, w1, w2, w3, w4, w5, w6, w7, w8, w9, w10, w11, w12, w13, w14, w15] =>
    w0 :: schedule n [w1, w2, w3, w4, w5, w6, w7, w8, w9, w10, w11, w12, w13, w14, w15,
      smallSigma1 w14 + w9 + smallSigma0 w1 + w0]
  | _, _ => []

/-- Group bytes into big-endian words. -/
def words : List UInt8 → List UInt32
  | b0 :: b1 :: b2 :: b3 :: bs => UInt32.ofNat (ofBeBytes [b0, b1, b2, b3]) :: words bs
  | _ => []

/-- Absorb one 64-byte block. -/
def compress (s : State) (block : List UInt8) : State :=
  let t := (constants.zip (schedule 64 (words block))).foldl round s
  ⟨s.a + t.a, s.b + t.b, s.c + t.c, s.d + t.d, s.e + t.e, s.f + t.f, s.g + t.g, s.h + t.h⟩

/-- Absorb `n` blocks. -/
def blocks : ℕ → State → List UInt8 → State
  | 0, s, _ => s
  | n + 1, s, bs => blocks n (compress s (bs.take 64)) (bs.drop 64)

/-- The message, a one bit, zeros up to eight bytes short of a block, the length in bits. -/
def pad (msg : List UInt8) : List UInt8 :=
  msg ++ 0x80 :: (List.replicate ((119 - msg.length % 64) % 64) 0 ++ beBytes 8 (8 * msg.length))

/-- The eight words of the digest, as bytes. -/
def digestBytes (s : State) : List UInt8 :=
  [s.a, s.b, s.c, s.d, s.e, s.f, s.g, s.h].flatMap fun w => beBytes 4 w.toNat

theorem length_digestBytes (s : State) : (digestBytes s).length = 32 := by
  simp [digestBytes]

/-- The SHA-256 digest of a message. -/
def hash (msg : List UInt8) : Vector UInt8 32 :=
  let padded := pad msg
  let digest := digestBytes (blocks (padded.length / 64) initial padded)
  ⟨digest.toArray, by rw [List.size_toArray]; exact length_digestBytes _⟩

set_option maxRecDepth 4000 in
/-- The standard's first example, the message `abc`. -/
example : (hash [0x61, 0x62, 0x63]).toList =
    beBytes 32 0xba7816bf8f01cfea414140de5dae2223b00361a396177a9cb410ff61f20015ad := by
  decide +kernel

end Lib.Sha256
