/-
# Decoding UTF-8

Bytes are read one at a time: between characters, or within one, where so many bytes are still
owed and the next one lies in a range.  A byte out of its range ends what was begun, which is then
invalid as a whole, and is read again as a first byte.  So the chunks are those of the
maximal-subpart rule: the lossy text has one replacement character for each chunk that is no
character, and the strict reading says where the first of them is and how long.

A text survives encoding in either reading (section 3).  The sections after that are for programs
that cut bytes at ASCII characters: such a byte ends whatever was begun, so the bytes in front of
it and behind it are read independently (`utf8ChunksFrom_cut`), and they are texts when the whole
is.
-/
import Mathlib.Algebra.Order.Ring.Nat
import Musubi.Lib.Result
import Musubi.Lib.Text

namespace Lib

/-! ## 1. Chunks -/

/-- A character that is not finished: the bytes seen and owed, the range of the next byte, and
the bits so far. -/
structure Utf8Pending where
  seen : ℕ
  owed : ℕ
  low : ℕ
  high : ℕ
  bits : ℕ
deriving DecidableEq, Repr

inductive Utf8Chunk
  | char (c : Char)
  | invalid (length : ℕ)
  | incomplete
deriving DecidableEq, Repr

/-- What a first byte of several begins. -/
def utf8Lead (b : UInt8) : Option Utf8Pending :=
  let v := b.toNat
  if v < 0xC2 then none
  else if v < 0xE0 then some ⟨1, 1, 0x80, 0xBF, v - 0xC0⟩
  else if v = 0xE0 then some ⟨1, 2, 0xA0, 0xBF, 0⟩
  else if v = 0xED then some ⟨1, 2, 0x80, 0x9F, 0xD⟩
  else if v < 0xF0 then some ⟨1, 2, 0x80, 0xBF, v - 0xE0⟩
  else if v = 0xF0 then some ⟨1, 3, 0x90, 0xBF, 0⟩
  else if v < 0xF4 then some ⟨1, 3, 0x80, 0xBF, v - 0xF0⟩
  else if v = 0xF4 then some ⟨1, 3, 0x80, 0x8F, 4⟩
  else none

/-- A byte between characters: a chunk of its own, or the first byte of several. -/
def utf8First (b : UInt8) : Utf8Chunk ⊕ Utf8Pending :=
  if b.toNat < 0x80 then .inl (.char (Char.ofNat b.toNat))
  else
    match utf8Lead b with
    | some p => .inr p
    | none => .inl (.invalid 1)

/-- The chunks of a byte string of which a character may have begun. -/
def utf8ChunksFrom : Option Utf8Pending → List UInt8 → List Utf8Chunk
  | none, [] => []
  | some _, [] => [.incomplete]
  | none, b :: bytes =>
    match utf8First b with
    | .inl chunk => chunk :: utf8ChunksFrom none bytes
    | .inr p => utf8ChunksFrom (some p) bytes
  | some p, b :: bytes =>
    if p.low ≤ b.toNat ∧ b.toNat ≤ p.high then
      let bits := p.bits * 64 + (b.toNat - 0x80)
      if p.owed = 1 then .char (Char.ofNat bits) :: utf8ChunksFrom none bytes
      else utf8ChunksFrom (some ⟨p.seen + 1, p.owed - 1, 0x80, 0xBF, bits⟩) bytes
    else
      .invalid p.seen ::
        match utf8First b with
        | .inl chunk => chunk :: utf8ChunksFrom none bytes
        | .inr q => utf8ChunksFrom (some q) bytes

def utf8Chunks (bytes : List UInt8) : List Utf8Chunk := utf8ChunksFrom none bytes

/-! ## 2. The two readings -/

def Utf8Chunk.lossy : Utf8Chunk → Char
  | .char c => c
  | _ => '\uFFFD'

/-- `String::from_utf8_lossy`. -/
def fromUtf8Lossy (bytes : List UInt8) : String :=
  String.ofList ((utf8Chunks bytes).map Utf8Chunk.lossy)

/-- Where a byte string stops being UTF-8, and how long the chunk is that does not fit; there is
none when the bytes end within a character. -/
structure Utf8Error where
  validUpTo : ℕ
  errorLen : Option ℕ
deriving DecidableEq, Repr

def Utf8Error.display (e : Utf8Error) : String :=
  match e.errorLen with
  | some length =>
    "invalid utf-8 sequence of " ++ length.repr ++ " bytes from index " ++ e.validUpTo.repr
  | none => "incomplete utf-8 byte sequence from index " ++ e.validUpTo.repr

/-- The characters of the chunks, of which `position` bytes have been read. -/
def utf8Text : ℕ → List Utf8Chunk → Except Utf8Error (List Char)
  | _, [] => .ok []
  | position, .char c :: chunks => (utf8Text (position + c.utf8Size) chunks).map (c :: ·)
  | position, .invalid length :: _ => .error ⟨position, some length⟩
  | position, .incomplete :: _ => .error ⟨position, none⟩

/-- `str::from_utf8`. -/
def fromUtf8 (bytes : List UInt8) : Except Utf8Error String :=
  (utf8Text 0 (utf8Chunks bytes)).map String.ofList

/-- An overlong form, a truncated character before an ASCII one, and a truncated end. -/
example : utf8Chunks [0xC0, 0x80, 0xE2, 0x82, 0x41, 0xF0, 0x9F] =
    [.invalid 1, .invalid 1, .invalid 2, .char 'A', .incomplete] := by decide

/-! ## 3. What was encoded reads back -/

theorem toNat_ofNat_byte {n : ℕ} (h : n < 256) : (UInt8.ofNat n).toNat = n := by
  rw [UInt8.toNat_ofNat', Nat.mod_eq_of_lt h]

theorem pending_congr {seen owed low high m n : ℕ} (h : m = n) :
    some (Utf8Pending.mk seen owed low high m) = some ⟨seen, owed, low, high, n⟩ := by rw [h]

/-- A first byte of several. -/
theorem utf8ChunksFrom_lead {b : UInt8} {p : Utf8Pending} (bytes : List UInt8)
    (hb : 0x80 ≤ b.toNat) (hp : utf8Lead b = some p) :
    utf8ChunksFrom none (b :: bytes) = utf8ChunksFrom (some p) bytes := by
  rw [utf8ChunksFrom, utf8First, if_neg (Nat.not_lt.mpr hb), hp]

/-- A byte in its range that finishes a character. -/
theorem utf8ChunksFrom_last {p : Utf8Pending} {b : UInt8} (bytes : List UInt8)
    (hb : p.low ≤ b.toNat ∧ b.toNat ≤ p.high) (howed : p.owed = 1) :
    utf8ChunksFrom (some p) (b :: bytes) =
      .char (Char.ofNat (p.bits * 64 + (b.toNat - 0x80))) :: utf8ChunksFrom none bytes := by
  rw [utf8ChunksFrom, if_pos hb, if_pos howed]

/-- A byte in its range that does not. -/
theorem utf8ChunksFrom_next {p : Utf8Pending} {b : UInt8} (bytes : List UInt8)
    (hb : p.low ≤ b.toNat ∧ b.toNat ≤ p.high) (howed : p.owed ≠ 1) :
    utf8ChunksFrom (some p) (b :: bytes) =
      utf8ChunksFrom (some ⟨p.seen + 1, p.owed - 1, 0x80, 0xBF,
        p.bits * 64 + (b.toNat - 0x80)⟩) bytes := by
  rw [utf8ChunksFrom, if_pos hb, if_neg howed]

/-- The bytes of one character. -/
theorem utf8ChunksFrom_encode (c : Char) (bytes : List UInt8) :
    utf8ChunksFrom none (String.utf8EncodeChar c ++ bytes) =
      .char c :: utf8ChunksFrom none bytes := by
  have hc : Char.ofNat c.val.toNat = c := Char.ofNat_toNat c
  have hvalid : c.val.toNat < 0xD800 ∨ 0xDFFF < c.val.toNat ∧ c.val.toNat < 0x110000 := c.valid
  generalize hv : c.val.toNat = v at *
  unfold String.utf8EncodeChar
  dsimp only
  rw [hv]
  split
  · next h1 =>
    have hb := toNat_ofNat_byte (n := v) (by omega)
    rw [List.singleton_append, utf8ChunksFrom, utf8First, hb, if_pos (by omega), hc]
  split
  · next h1 h2 =>
    have hb0 := toNat_ofNat_byte (n := v / 64 % 0x20 + 0xc0) (by omega)
    have hb1 := toNat_ofNat_byte (n := v % 0x40 + 0x80) (by omega)
    have hlead : utf8Lead (UInt8.ofNat (v / 64 % 0x20 + 0xc0)) =
        some ⟨1, 1, 0x80, 0xBF, v / 64⟩ := by
      unfold utf8Lead
      simp only [hb0]
      rw [if_neg (by omega), if_pos (by omega)]
      exact pending_congr (by omega)
    rw [List.cons_append, List.singleton_append, utf8ChunksFrom_lead _ (by omega) hlead,
      utf8ChunksFrom_last _ (by simp only [hb1]; omega) rfl]
    simp only [hb1]
    rw [show v / 64 * 64 + (v % 0x40 + 0x80 - 0x80) = v by omega, hc]
  split
  · next h1 h2 h3 =>
    have hb0 := toNat_ofNat_byte (n := v / 4096 % 0x10 + 0xe0) (by omega)
    have hb1 := toNat_ofNat_byte (n := v / 64 % 0x40 + 0x80) (by omega)
    have hb2 := toNat_ofNat_byte (n := v % 0x40 + 0x80) (by omega)
    obtain ⟨low, high, hlead, hrange⟩ : ∃ low high, utf8Lead (UInt8.ofNat (v / 4096 % 0x10 + 0xe0))
        = some ⟨1, 2, low, high, v / 4096⟩ ∧
          low ≤ v / 64 % 0x40 + 0x80 ∧ v / 64 % 0x40 + 0x80 ≤ high := by
      unfold utf8Lead
      simp only [hb0]
      rw [if_neg (by omega), if_neg (by omega)]
      split
      · exact ⟨0xA0, 0xBF, pending_congr (by omega), by omega, by omega⟩
      split
      · exact ⟨0x80, 0x9F, pending_congr (by omega), by omega, by omega⟩
      rw [if_pos (by omega)]
      exact ⟨0x80, 0xBF, pending_congr (by omega), by omega, by omega⟩
    rw [List.cons_append, List.cons_append, List.singleton_append,
      utf8ChunksFrom_lead _ (by omega) hlead,
      utf8ChunksFrom_next _ (by simp only [hb1]; omega) (by simp),
      utf8ChunksFrom_last _ (by simp only [hb2]; omega) rfl]
    simp only [hb1, hb2]
    rw [show (v / 4096 * 64 + (v / 64 % 0x40 + 0x80 - 0x80)) * 64 + (v % 0x40 + 0x80 - 0x80) = v
      by omega, hc]
  · next h1 h2 h3 =>
    have hb0 := toNat_ofNat_byte (n := v / 262144 % 0x08 + 0xf0) (by omega)
    have hb1 := toNat_ofNat_byte (n := v / 4096 % 0x40 + 0x80) (by omega)
    have hb2 := toNat_ofNat_byte (n := v / 64 % 0x40 + 0x80) (by omega)
    have hb3 := toNat_ofNat_byte (n := v % 0x40 + 0x80) (by omega)
    obtain ⟨low, high, hlead, hrange⟩ : ∃ low high,
        utf8Lead (UInt8.ofNat (v / 262144 % 0x08 + 0xf0)) =
          some ⟨1, 3, low, high, v / 262144⟩ ∧
          low ≤ v / 4096 % 0x40 + 0x80 ∧ v / 4096 % 0x40 + 0x80 ≤ high := by
      unfold utf8Lead
      simp only [hb0]
      rw [if_neg (by omega), if_neg (by omega), if_neg (by omega), if_neg (by omega),
        if_neg (by omega)]
      split
      · exact ⟨0x90, 0xBF, pending_congr (by omega), by omega, by omega⟩
      split
      · exact ⟨0x80, 0xBF, pending_congr (by omega), by omega, by omega⟩
      rw [if_pos (by omega)]
      exact ⟨0x80, 0x8F, pending_congr (by omega), by omega, by omega⟩
    rw [List.cons_append, List.cons_append, List.cons_append, List.singleton_append,
      utf8ChunksFrom_lead _ (by omega) hlead,
      utf8ChunksFrom_next _ (by simp only [hb1]; omega) (by simp),
      utf8ChunksFrom_next _ (by simp only [hb2]; omega) (by simp),
      utf8ChunksFrom_last _ (by simp only [hb3]; omega) rfl]
    simp only [hb1, hb2, hb3]
    rw [show ((v / 262144 * 64 + (v / 4096 % 0x40 + 0x80 - 0x80)) * 64 +
      (v / 64 % 0x40 + 0x80 - 0x80)) * 64 + (v % 0x40 + 0x80 - 0x80) = v by omega, hc]

/-- **The bytes of a text are the chunks of its characters.** -/
theorem utf8Chunks_encode (cs : List Char) :
    utf8Chunks (cs.flatMap String.utf8EncodeChar) = cs.map .char := by
  induction cs with
  | nil => rfl
  | cons c cs ih =>
    rw [List.flatMap_cons, utf8Chunks, utf8ChunksFrom_encode, List.map_cons]
    exact congrArg _ ih

/-! ## 4. The bytes of a text -/

/-- The bytes of a text are those of its characters. -/
theorem toByteArray_toList (s : String) :
    s.toByteArray.data.toList = s.toList.flatMap String.utf8EncodeChar := by
  have hbytes : s.toByteArray = s.toList.utf8Encode := by
    rw [← String.toByteArray_ofList, String.ofList_toList]
  rw [hbytes, List.utf8Encode]
  simp

/-- The byte of an ASCII character is in the bytes of no other character. -/
theorem mem_utf8EncodeChar {c d : Char} (hc : c.toNat < 0x80) :
    UInt8.ofNat c.toNat ∈ String.utf8EncodeChar d ↔ d = c := by
  have hbyte := toNat_ofNat_byte (n := c.toNat) (by omega)
  have hne {n : ℕ} (hn : 0x80 ≤ n ∧ n < 256) : UInt8.ofNat c.toNat ≠ UInt8.ofNat n := by
    intro h
    have hnat := congrArg UInt8.toNat h
    rw [hbyte, toNat_ofNat_byte hn.2] at hnat
    omega
  have hlarge (h : ¬ d.val.toNat ≤ 0x7F) : d ≠ c := by
    rintro rfl
    exact h (Nat.le_of_lt_succ hc)
  unfold String.utf8EncodeChar
  dsimp only
  split
  · next h =>
    have hsmall := toNat_ofNat_byte (n := d.val.toNat) (by omega)
    rw [List.mem_singleton]
    constructor
    · intro heq
      have hnat := congrArg UInt8.toNat heq
      rw [hbyte, hsmall] at hnat
      exact Char.toNat_inj.mp hnat.symm
    · rintro rfl
      rfl
  split
  · next h _ =>
    refine iff_of_false ?_ (hlarge h)
    simp only [List.mem_cons, List.not_mem_nil, or_false, not_or]
    exact ⟨hne (by omega), hne (by omega)⟩
  split
  · next h _ _ =>
    refine iff_of_false ?_ (hlarge h)
    simp only [List.mem_cons, List.not_mem_nil, or_false, not_or]
    exact ⟨hne (by omega), hne (by omega), hne (by omega)⟩
  · next h _ _ =>
    refine iff_of_false ?_ (hlarge h)
    simp only [List.mem_cons, List.not_mem_nil, or_false, not_or]
    exact ⟨hne (by omega), hne (by omega), hne (by omega), hne (by omega)⟩

/-- The bytes of an ASCII text. -/
theorem toByteArray_ascii {cs : List Char} (h : ∀ c ∈ cs, c.toNat < 0x80) :
    (String.ofList cs).toByteArray.data.toList = cs.map fun c => UInt8.ofNat c.toNat := by
  rw [toByteArray_toList, String.toList_ofList]
  induction cs with
  | nil => rfl
  | cons c cs ih =>
    rw [List.forall_mem_cons] at h
    have hone : String.utf8EncodeChar c = [UInt8.ofNat c.toNat] := by
      unfold String.utf8EncodeChar
      exact if_pos (Nat.le_of_lt_succ h.1)
    rw [List.flatMap_cons, hone, ih h.2, List.map_cons, List.singleton_append]

/-- **An ASCII character is in a text exactly when its byte is.** -/
theorem mem_toByteArray {c : Char} (hc : c.toNat < 0x80) (s : String) :
    UInt8.ofNat c.toNat ∈ s.toByteArray.data.toList ↔ c ∈ s.toList := by
  rw [toByteArray_toList, List.mem_flatMap]
  constructor
  · rintro ⟨d, hd, hmem⟩
    rwa [(mem_utf8EncodeChar hc).mp hmem] at hd
  · intro hmem
    exact ⟨c, hmem, (mem_utf8EncodeChar hc).mpr rfl⟩

/-- **The pieces of an encoded text** are the encoded pieces. -/
theorem splitOn_encode {sep : Char} (hsep : sep.toNat < 0x80) (s : List Char) :
    (s.flatMap String.utf8EncodeChar).splitOn (UInt8.ofNat sep.toNat) =
      (s.splitOn sep).map fun piece => piece.flatMap String.utf8EncodeChar := by
  induction s with
  | nil => rfl
  | cons c s ih =>
    obtain ⟨first, rest, hsplit⟩ := List.exists_cons_of_ne_nil (List.splitOn_ne_nil sep s)
    rw [List.splitOn_cons_eq_if_modifyHead, List.flatMap_cons]
    rw [hsplit, List.map_cons] at ih
    by_cases hc : c = sep
    · have hone : String.utf8EncodeChar sep = [UInt8.ofNat sep.toNat] := by
        unfold String.utf8EncodeChar
        exact if_pos (Nat.le_of_lt_succ hsep)
      rw [if_pos (beq_iff_eq.mpr hc), hc, hone, List.singleton_append,
        List.splitOn_cons_eq_if_modifyHead, if_pos (beq_self_eq_true _), ih, hsplit]
      rfl
    · rw [if_neg (by simpa using hc), hsplit, List.modifyHead_cons, List.map_cons,
        List.flatMap_cons]
      have hbytes : UInt8.ofNat sep.toNat ∉ String.utf8EncodeChar c :=
        fun hmem => hc ((mem_utf8EncodeChar hsep).mp hmem)
      rw [splitOn_append_of_notMem hbytes, ih, List.modifyHead_cons]

/-! ## 5. Cuts at ASCII characters -/

/-- What has begun will be no ASCII character, and an ASCII character will not go on with it. -/
structure Utf8Pending.Begun (p : Utf8Pending) : Prop where
  owed : 0 < p.owed
  low : 0x80 ≤ p.low
  large : 0x80 ≤ (p.bits * 64 + (p.low - 0x80)) * 64 ^ (p.owed - 1)

theorem begun_of_utf8Lead {b : UInt8} {p : Utf8Pending} (h : utf8Lead b = some p) : p.Begun := by
  unfold utf8Lead at h
  dsimp only at h
  split_ifs at h <;> cases h <;> constructor <;> dsimp only <;> omega

/-- One byte: the chunks that end with it, and what is pending behind it. -/
def utf8Step : Option Utf8Pending → UInt8 → List Utf8Chunk × Option Utf8Pending
  | none, b =>
    match utf8First b with
    | .inl chunk => ([chunk], none)
    | .inr p => ([], some p)
  | some p, b =>
    if p.low ≤ b.toNat ∧ b.toNat ≤ p.high then
      let bits := p.bits * 64 + (b.toNat - 0x80)
      if p.owed = 1 then ([.char (Char.ofNat bits)], none)
      else ([], some ⟨p.seen + 1, p.owed - 1, 0x80, 0xBF, bits⟩)
    else
      match utf8First b with
      | .inl chunk => ([.invalid p.seen, chunk], none)
      | .inr q => ([.invalid p.seen], some q)

theorem utf8ChunksFrom_cons (state : Option Utf8Pending) (b : UInt8) (bytes : List UInt8) :
    utf8ChunksFrom state (b :: bytes) =
      (utf8Step state b).1 ++ utf8ChunksFrom (utf8Step state b).2 bytes := by
  cases state with
  | none =>
    rw [utf8ChunksFrom, utf8Step]
    cases utf8First b <;> rfl
  | some p =>
    rw [utf8ChunksFrom, utf8Step]
    split
    · dsimp only
      split <;> rfl
    · cases utf8First b <;> rfl

theorem begun_of_utf8First {b : UInt8} {p : Utf8Pending} (h : utf8First b = .inr p) :
    p.Begun := by
  unfold utf8First at h
  split at h
  · cases h
  · cases hlead : utf8Lead b with
    | none =>
      rw [hlead] at h
      cases h
    | some q =>
      rw [hlead] at h
      cases h
      exact begun_of_utf8Lead hlead

theorem toNat_ofNat_char {n : ℕ} (h : 0 < (Char.ofNat n).toNat) : (Char.ofNat n).toNat = n := by
  by_cases hn : n.isValidChar
  · rw [Char.ofNat, dif_pos hn]
    rfl
  · rw [Char.ofNat, dif_neg hn] at h
    cases h

/-- An ASCII character that is a first byte. -/
theorem toNat_of_utf8First {b : UInt8} {c : Char} (hpos : 0 < c.toNat)
    (h : utf8First b = .inl (.char c)) : c.toNat = b.toNat := by
  unfold utf8First at h
  split at h
  · cases h
    exact toNat_ofNat_char hpos
  · cases hlead : utf8Lead b <;> rw [hlead] at h <;> cases h

/-- What is pending behind a byte has begun. -/
theorem begun_utf8Step {state : Option Utf8Pending} (hstate : ∀ p ∈ state, p.Begun) (b : UInt8) :
    ∀ p ∈ (utf8Step state b).2, p.Begun := by
  intro q hq
  cases state with
  | none =>
    rw [utf8Step] at hq
    cases h : utf8First b with
    | inl chunk =>
      rw [h] at hq
      cases hq
    | inr p =>
      rw [h] at hq
      cases hq
      exact begun_of_utf8First h
  | some p =>
    have hp := hstate p rfl
    rw [utf8Step] at hq
    split at hq
    · dsimp only at hq
      split at hq
      · cases hq
      · next howed =>
        have howed' := hp.owed
        cases hq
        refine ⟨by dsimp only; omega, Nat.le_refl _, ?_⟩
        have hlarge := hp.large
        have hsplit : 64 ^ (p.owed - 1) = 64 * 64 ^ (p.owed - 1 - 1) := by
          rw [← Nat.pow_succ']
          congr 1
          omega
        dsimp only
        rw [Nat.sub_self, Nat.add_zero, Nat.mul_assoc, ← hsplit]
        exact Nat.le_trans hlarge (Nat.mul_le_mul_right _ (by omega))
    · cases h : utf8First b with
      | inl chunk =>
        rw [h] at hq
        cases hq
      | inr r =>
        rw [h] at hq
        cases hq
        exact begun_of_utf8First h

/-- **An ASCII character that ends with a byte is that byte.** -/
theorem toNat_of_mem_utf8Step {state : Option Utf8Pending} (hstate : ∀ p ∈ state, p.Begun)
    {b : UInt8} {c : Char} (hpos : 0 < c.toNat) (hc : c.toNat < 0x80)
    (hmem : .char c ∈ (utf8Step state b).1) : c.toNat = b.toNat := by
  cases state with
  | none =>
    rw [utf8Step] at hmem
    cases h : utf8First b with
    | inl chunk =>
      rw [h] at hmem
      rw [← List.mem_singleton.mp hmem] at h
      exact toNat_of_utf8First hpos h
    | inr p =>
      rw [h] at hmem
      cases hmem
  | some p =>
    have hp := hstate p rfl
    rw [utf8Step] at hmem
    split at hmem
    · dsimp only at hmem
      split at hmem
      · next howed =>
        -- a character of several bytes is larger
        have hlarge := hp.large
        have heq := Utf8Chunk.char.inj (List.mem_singleton.mp hmem)
        rw [howed, Nat.sub_self, Nat.pow_zero, Nat.mul_one] at hlarge
        have hvalue := toNat_ofNat_char (heq ▸ hpos)
        rw [← heq] at hvalue
        omega
      · cases hmem
    · cases h : utf8First b with
      | inl chunk =>
        rw [h] at hmem
        rcases List.mem_cons.mp hmem with hmem | hmem
        · cases hmem
        · rw [← List.mem_singleton.mp hmem] at h
          exact toNat_of_utf8First hpos h
      | inr q =>
        rw [h] at hmem
        cases List.mem_singleton.mp hmem

/-- An ASCII character of the chunks is among the bytes. -/
theorem mem_of_char_mem_chunks {c : Char} (hpos : 0 < c.toNat) (hc : c.toNat < 0x80)
    (bytes : List UInt8) : ∀ {state : Option Utf8Pending}, (∀ p ∈ state, p.Begun) →
      .char c ∈ utf8ChunksFrom state bytes → UInt8.ofNat c.toNat ∈ bytes := by
  induction bytes with
  | nil =>
    intro state _ hmem
    cases state with
    | none => cases hmem
    | some p => cases List.mem_singleton.mp hmem
  | cons b bytes ih =>
    intro state hstate hmem
    rw [utf8ChunksFrom_cons] at hmem
    rcases List.mem_append.mp hmem with hmem | hmem
    · rw [toNat_of_mem_utf8Step hstate hpos hc hmem, UInt8.ofNat_toNat]
      exact List.mem_cons_self
    · exact List.mem_cons_of_mem _ (ih (begun_utf8Step hstate b) hmem)

/-- An ASCII byte is a chunk by itself, and nothing is pending behind it. -/
theorem utf8Step_ascii {state : Option Utf8Pending} (hstate : ∀ p ∈ state, p.Begun) {b : UInt8}
    (hb : b.toNat < 0x80) : utf8Step state b =
      (state.toList.map (fun p => .invalid p.seen) ++ [.char (Char.ofNat b.toNat)], none) := by
  have hfirst : utf8First b = .inl (.char (Char.ofNat b.toNat)) := if_pos hb
  cases state with
  | none =>
    rw [utf8Step, hfirst]
    rfl
  | some p =>
    have hlow := (hstate p rfl).low
    rw [utf8Step, if_neg (by omega), hfirst]
    rfl

/-- **Behind an ASCII byte the reading begins again**: the bytes are characters when those before
it and those behind it are. -/
theorem utf8ChunksFrom_cut {b : UInt8} (hb : b.toNat < 0x80) (before behind : List UInt8) :
    ∀ {state : Option Utf8Pending} {cs : List Char}, (∀ p ∈ state, p.Begun) →
      (utf8ChunksFrom state (before ++ b :: behind) = cs.map .char ↔
        ∃ xs ys, utf8ChunksFrom state before = xs.map .char ∧
          utf8Chunks behind = ys.map .char ∧ cs = xs ++ Char.ofNat b.toNat :: ys) := by
  induction before with
  | nil =>
    intro state cs hstate
    rw [List.nil_append, utf8ChunksFrom_cons, utf8Step_ascii hstate hb]
    have hbehind : utf8Chunks behind = utf8ChunksFrom none behind := rfl
    cases state with
    | none =>
      simp only [Option.toList_none, List.map_nil, List.nil_append, List.singleton_append, hbehind]
      constructor
      · intro h
        obtain ⟨y, ys, rfl, hy, hys⟩ := List.map_eq_cons_iff.mp h.symm
        exact ⟨[], ys, rfl, hys.symm, by rw [← Utf8Chunk.char.inj hy, List.nil_append]⟩
      · rintro ⟨xs, ys, hxs, hys, rfl⟩
        obtain rfl := List.map_eq_nil_iff.mp hxs.symm
        rw [hys]
        rfl
    | some p =>
      refine iff_of_false (fun h => ?_) ?_
      · obtain ⟨y, ys, _, hy, _⟩ := List.map_eq_cons_iff.mp h.symm
        cases hy
      · rintro ⟨xs, ys, hxs, _⟩
        obtain ⟨y, ys, _, hy, _⟩ := List.map_eq_cons_iff.mp hxs.symm
        cases hy
  | cons a before ih =>
    intro state cs hstate
    have hcut (cs : List Char) := @ih _ cs (begun_utf8Step hstate a)
    rw [List.cons_append, utf8ChunksFrom_cons, utf8ChunksFrom_cons]
    constructor
    · intro h
      obtain ⟨us, vs, rfl, hus, hvs⟩ := List.append_eq_map_iff.mp h
      obtain ⟨xs, ys, hxs, hys, rfl⟩ := (hcut vs).mp hvs.symm
      exact ⟨us ++ xs, ys, by rw [List.map_append, hus, hxs], hys, by rw [List.append_assoc]⟩
    · rintro ⟨xs, ys, hxs, hys, rfl⟩
      obtain ⟨us, vs, rfl, hus, hvs⟩ := List.append_eq_map_iff.mp hxs
      rw [← hus, (hcut _).mpr ⟨vs, ys, hvs.symm, hys, rfl⟩, List.append_assoc,
        @List.map_append _ _ _ us]

theorem utf8Text_eq_ok {chunks : List Utf8Chunk} : ∀ {cs : List Char} {position : ℕ},
    utf8Text position chunks = .ok cs ↔ chunks = cs.map .char := by
  induction chunks with
  | nil =>
    intro cs position
    rw [utf8Text, eq_comm (a := []), List.map_eq_nil_iff, Except.ok.injEq, eq_comm]
  | cons chunk chunks ih =>
    intro cs position
    cases chunk with
    | char c =>
      rw [utf8Text, eq_comm (a := Utf8Chunk.char c :: chunks), List.map_eq_cons_iff]
      constructor
      · intro h
        obtain ⟨rest, hrest, rfl⟩ := map_eq_ok.mp h
        exact ⟨c, rest, rfl, rfl, (ih.mp hrest).symm⟩
      · rintro ⟨d, rest, rfl, hd, hrest⟩
        rw [ih.mpr hrest.symm, Utf8Chunk.char.inj hd]
        rfl
    | _ =>
      refine iff_of_false (fun h => by cases h) (fun h => ?_)
      obtain ⟨d, rest, _, hd, _⟩ := List.map_eq_cons_iff.mp h.symm
      cases hd

/-- **Bytes are those of a text** when every chunk is a character. -/
theorem fromUtf8_eq_ok {bytes : List UInt8} {text : String} :
    fromUtf8 bytes = .ok text ↔ utf8Chunks bytes = text.toList.map .char := by
  unfold fromUtf8
  rw [map_eq_ok]
  constructor
  · rintro ⟨cs, hcs, rfl⟩
    rw [String.toList_ofList]
    exact utf8Text_eq_ok.mp hcs
  · intro h
    exact ⟨text.toList, utf8Text_eq_ok.mpr h, String.ofList_toList⟩

/-- An ASCII character whose byte does not occur does not occur. -/
theorem notMem_of_fromUtf8 {c : Char} (hpos : 0 < c.toNat) (hc : c.toNat < 0x80)
    {bytes : List UInt8} {text : String} (h : fromUtf8 bytes = .ok text)
    (hmem : UInt8.ofNat c.toNat ∉ bytes) : c ∉ text.toList := by
  intro hchar
  refine hmem (@mem_of_char_mem_chunks c hpos hc bytes none (by simp) ?_)
  have hchunks : utf8ChunksFrom none bytes = text.toList.map .char := fromUtf8_eq_ok.mp h
  rw [hchunks]
  exact List.mem_map_of_mem hchar

/-- **A text in two parts**, with an ASCII character between them. -/
theorem fromUtf8_cut {b : UInt8} (hb : b.toNat < 0x80) {before behind : List UInt8}
    {text : String} : fromUtf8 (before ++ b :: behind) = .ok text ↔
      ∃ first second, fromUtf8 before = .ok first ∧ fromUtf8 behind = .ok second ∧
        text.toList = first.toList ++ Char.ofNat b.toNat :: second.toList := by
  rw [fromUtf8_eq_ok, utf8Chunks, utf8ChunksFrom_cut hb before behind (by simp)]
  constructor
  · rintro ⟨xs, ys, hxs, hys, htext⟩
    refine ⟨String.ofList xs, String.ofList ys, fromUtf8_eq_ok.mpr ?_, fromUtf8_eq_ok.mpr ?_, ?_⟩
    · rwa [String.toList_ofList]
    · rwa [String.toList_ofList]
    · rwa [String.toList_ofList, String.toList_ofList]
  · rintro ⟨first, second, hfirst, hsecond, htext⟩
    exact ⟨first.toList, second.toList, fromUtf8_eq_ok.mp hfirst, fromUtf8_eq_ok.mp hsecond, htext⟩

/-- What has begun ends in a chunk. -/
theorem utf8ChunksFrom_some_ne_nil (bytes : List UInt8) :
    ∀ p : Utf8Pending, utf8ChunksFrom (some p) bytes ≠ [] := by
  induction bytes with
  | nil => exact fun p => List.cons_ne_nil _ _
  | cons b bytes ih =>
    intro p
    rw [utf8ChunksFrom]
    split
    · dsimp only
      split
      · exact List.cons_ne_nil _ _
      · exact ih _
    · exact List.cons_ne_nil _ _

/-- Only no bytes are the empty text. -/
theorem eq_nil_of_fromUtf8 {bytes : List UInt8} {text : String} (h : fromUtf8 bytes = .ok text)
    (hempty : text.toList = []) : bytes = [] := by
  have hchunks := fromUtf8_eq_ok.mp h
  rw [hempty, List.map_nil] at hchunks
  cases bytes with
  | nil => rfl
  | cons b bytes =>
    rw [utf8Chunks, utf8ChunksFrom] at hchunks
    cases hfirst : utf8First b with
    | inl chunk =>
      rw [hfirst] at hchunks
      cases hchunks
    | inr p =>
      rw [hfirst] at hchunks
      exact absurd hchunks (utf8ChunksFrom_some_ne_nil bytes p)

/-! ## 6. The bytes of a text that is read -/


/-- The last byte of a character that is begun. -/
theorem char_of_last {seen low high bits : ℕ} {bytes : List UInt8} {c : Char}
    {chunks : List Utf8Chunk}
    (h : utf8ChunksFrom (some ⟨seen, 1, low, high, bits⟩) bytes = .char c :: chunks) :
    ∃ b rest, bytes = b :: rest ∧ (low ≤ b.toNat ∧ b.toNat ≤ high) ∧
      c = Char.ofNat (bits * 64 + (b.toNat - 0x80)) ∧ utf8ChunksFrom none rest = chunks := by
  cases bytes with
  | nil => cases h
  | cons b rest =>
    rw [utf8ChunksFrom] at h
    split at h
    · next hrange =>
      obtain ⟨hc, hrest⟩ := List.cons.inj h
      exact ⟨b, rest, rfl, hrange, (Utf8Chunk.char.inj hc).symm, hrest⟩
    · cases (List.cons.inj h).1

/-- A byte of a character that is begun, with more to come. -/
theorem char_of_more {seen owed low high bits : ℕ} {bytes : List UInt8} {c : Char}
    {chunks : List Utf8Chunk}
    (h : utf8ChunksFrom (some ⟨seen, owed + 2, low, high, bits⟩) bytes = .char c :: chunks) :
    ∃ b rest, bytes = b :: rest ∧ (low ≤ b.toNat ∧ b.toNat ≤ high) ∧
      utf8ChunksFrom (some ⟨seen + 1, owed + 1, 0x80, 0xBF, bits * 64 + (b.toNat - 0x80)⟩) rest =
        .char c :: chunks := by
  cases bytes with
  | nil => cases h
  | cons b rest =>
    rw [utf8ChunksFrom] at h
    split at h
    · next hrange =>
      dsimp only at h
      rw [if_neg (show ¬owed + 2 = 1 by omega)] at h
      exact ⟨b, rest, rfl, hrange, h⟩
    · cases (List.cons.inj h).1

/-- What the first byte of several says of the character. -/
theorem utf8Lead_cases {b : UInt8} {p : Utf8Pending} (h : utf8Lead b = some p) :
    (0xC2 ≤ b.toNat ∧ b.toNat < 0xE0 ∧ p = ⟨1, 1, 0x80, 0xBF, b.toNat - 0xC0⟩) ∨
    (∃ low high, 0xE0 ≤ b.toNat ∧ b.toNat < 0xF0 ∧ 0x80 ≤ low ∧ high ≤ 0xBF ∧
      (b.toNat = 0xE0 → low = 0xA0) ∧ (b.toNat = 0xED → high = 0x9F) ∧
      p = ⟨1, 2, low, high, b.toNat - 0xE0⟩) ∨
    ∃ low high, 0xF0 ≤ b.toNat ∧ b.toNat ≤ 0xF4 ∧ 0x80 ≤ low ∧ high ≤ 0xBF ∧
      (b.toNat = 0xF0 → low = 0x90) ∧ (b.toNat = 0xF4 → high = 0x8F) ∧
      p = ⟨1, 3, low, high, b.toNat - 0xF0⟩ := by
  unfold utf8Lead at h
  dsimp only at h
  split at h
  · cases h
  split at h
  · exact .inl ⟨by omega, by omega, (Option.some.inj h).symm⟩
  split at h
  · next heq =>
    exact .inr (.inl ⟨0xA0, 0xBF, by omega, by omega, by omega, by omega, by omega, by omega,
      by rw [← Option.some.inj h, heq]⟩)
  split at h
  · next heq =>
    exact .inr (.inl ⟨0x80, 0x9F, by omega, by omega, by omega, by omega, by omega, by omega,
      by rw [← Option.some.inj h, heq]⟩)
  split at h
  · exact .inr (.inl ⟨0x80, 0xBF, by omega, by omega, by omega, by omega, by omega, by omega,
      (Option.some.inj h).symm⟩)
  split at h
  · next heq =>
    exact .inr (.inr ⟨0x90, 0xBF, by omega, by omega, by omega, by omega, by omega, by omega,
      by rw [← Option.some.inj h, heq]⟩)
  split at h
  · exact .inr (.inr ⟨0x80, 0xBF, by omega, by omega, by omega, by omega, by omega, by omega,
      (Option.some.inj h).symm⟩)
  split at h
  · next heq =>
    exact .inr (.inr ⟨0x80, 0x8F, by omega, by omega, by omega, by omega, by omega, by omega,
      by rw [← Option.some.inj h, heq]⟩)
  · cases h

theorem toNat_val_ofNat {v : ℕ} (h : v < 0xD800 ∨ 0xDFFF < v ∧ v < 0x110000) :
    (Char.ofNat v).val.toNat = v := by
  have hvalid : v.isValidChar := h
  rw [Char.ofNat, dif_pos hvalid]
  rfl

theorem ofNat_eq_of_toNat {n : ℕ} {b : UInt8} (h : n = b.toNat) : UInt8.ofNat n = b := by
  rw [h, UInt8.ofNat_toNat]

/-- The bytes of a character that is begun with. -/
theorem encoded_of_lead {b : UInt8} {p : Utf8Pending} (hlead : utf8Lead b = some p)
    {bytes : List UInt8} {c : Char} {chunks : List Utf8Chunk}
    (h : utf8ChunksFrom (some p) bytes = .char c :: chunks) :
    ∃ rest, b :: bytes = String.utf8EncodeChar c ++ rest ∧
      utf8ChunksFrom none rest = chunks := by
  rcases utf8Lead_cases hlead with ⟨hlow, hhigh, rfl⟩ | ⟨low, high, h₁, h₂, h₃, h₄, h₅, h₆, rfl⟩ |
    ⟨low, high, h₁, h₂, h₃, h₄, h₅, h₆, rfl⟩
  · obtain ⟨b₁, bytes, rfl, hrange₁, hc, hrest⟩ := char_of_last h
    have hv : (Char.ofNat ((b.toNat - 0xC0) * 64 + (b₁.toNat - 0x80))).val.toNat =
        (b.toNat - 0xC0) * 64 + (b₁.toNat - 0x80) := toNat_val_ofNat (by omega)
    refine ⟨bytes, ?_, hrest⟩
    rw [hc, String.utf8EncodeChar, hv, if_neg (by omega), if_pos (by omega),
      ofNat_eq_of_toNat (show _ = b.toNat by omega),
      ofNat_eq_of_toNat (show _ = b₁.toNat by omega), List.cons_append, List.cons_append,
      List.nil_append]
  · obtain ⟨b₁, bytes, rfl, hrange₁, h⟩ := char_of_more h
    obtain ⟨b₂, bytes, rfl, hrange₂, hc, hrest⟩ := char_of_last h
    have hv : (Char.ofNat (((b.toNat - 0xE0) * 64 + (b₁.toNat - 0x80)) * 64 +
        (b₂.toNat - 0x80))).val.toNat = ((b.toNat - 0xE0) * 64 + (b₁.toNat - 0x80)) * 64 +
          (b₂.toNat - 0x80) := toNat_val_ofNat (by omega)
    refine ⟨bytes, ?_, hrest⟩
    rw [hc, String.utf8EncodeChar, hv, if_neg (by omega), if_neg (by omega), if_pos (by omega),
      ofNat_eq_of_toNat (show _ = b.toNat by omega),
      ofNat_eq_of_toNat (show _ = b₁.toNat by omega),
      ofNat_eq_of_toNat (show _ = b₂.toNat by omega), List.cons_append, List.cons_append,
      List.cons_append, List.nil_append]
  · obtain ⟨b₁, bytes, rfl, hrange₁, h⟩ := char_of_more h
    obtain ⟨b₂, bytes, rfl, hrange₂, h⟩ := char_of_more h
    obtain ⟨b₃, bytes, rfl, hrange₃, hc, hrest⟩ := char_of_last h
    have hv : (Char.ofNat ((((b.toNat - 0xF0) * 64 + (b₁.toNat - 0x80)) * 64 +
        (b₂.toNat - 0x80)) * 64 + (b₃.toNat - 0x80))).val.toNat =
        (((b.toNat - 0xF0) * 64 + (b₁.toNat - 0x80)) * 64 + (b₂.toNat - 0x80)) * 64 +
          (b₃.toNat - 0x80) := toNat_val_ofNat (by omega)
    refine ⟨bytes, ?_, hrest⟩
    rw [hc, String.utf8EncodeChar, hv, if_neg (by omega), if_neg (by omega), if_neg (by omega),
      ofNat_eq_of_toNat (show _ = b.toNat by omega),
      ofNat_eq_of_toNat (show _ = b₁.toNat by omega),
      ofNat_eq_of_toNat (show _ = b₂.toNat by omega),
      ofNat_eq_of_toNat (show _ = b₃.toNat by omega), List.cons_append, List.cons_append,
      List.cons_append, List.cons_append, List.nil_append]

/-- The bytes of a character that is read. -/
theorem utf8ChunksFrom_eq_char {bytes : List UInt8} {c : Char} {chunks : List Utf8Chunk}
    (h : utf8ChunksFrom none bytes = .char c :: chunks) :
    ∃ rest, bytes = String.utf8EncodeChar c ++ rest ∧ utf8ChunksFrom none rest = chunks := by
  cases bytes with
  | nil => cases h
  | cons b bytes =>
    rw [utf8ChunksFrom, utf8First] at h
    split at h
    · next chunk hchunk =>
      split at hchunk
      · next hascii =>
        obtain rfl := Sum.inl.inj hchunk
        obtain ⟨hc, hrest⟩ := List.cons.inj h
        obtain rfl := Utf8Chunk.char.inj hc
        refine ⟨bytes, ?_, hrest⟩
        have hv : (Char.ofNat b.toNat).val.toNat = b.toNat := toNat_val_ofNat (by omega)
        unfold String.utf8EncodeChar
        dsimp only
        rw [hv, if_pos (by omega), UInt8.ofNat_toNat]
        rfl
      · next hascii =>
        split at hchunk
        · cases hchunk
        · obtain rfl := Sum.inl.inj hchunk
          cases (List.cons.inj h).1
    · next p hp =>
      split at hp
      · cases hp
      next hascii =>
      split at hp
      next q hlead =>
        obtain rfl := Sum.inr.inj hp
        exact encoded_of_lead hlead h
      · cases hp

/-- **The strict reading is exact**: the bytes are those of the text. -/
theorem eq_encode_of_fromUtf8 {bytes : List UInt8} {text : String} (h : fromUtf8 bytes = .ok text) :
    bytes = text.toList.flatMap String.utf8EncodeChar := by
  have hchunks : utf8ChunksFrom none bytes = text.toList.map .char := fromUtf8_eq_ok.mp h
  clear h
  generalize text.toList = cs at hchunks
  induction cs generalizing bytes with
  | nil =>
    have hempty : fromUtf8 bytes = .ok "" := fromUtf8_eq_ok.mpr hchunks
    exact eq_nil_of_fromUtf8 hempty rfl
  | cons c cs ih =>
    obtain ⟨rest, rfl, hrest⟩ := utf8ChunksFrom_eq_char hchunks
    rw [List.flatMap_cons, ih hrest]

end Lib
