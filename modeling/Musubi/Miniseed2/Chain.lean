/-
# The blockette chain

What `read_chain` returns.  Its loop follows offsets that the input chooses, before the record
length is known, so the two questions are whether it comes back and whether it stays in bounds;
the answer to both is that an offset is only followed when it goes forward.

The variant is the number of bytes behind the next offset, and it becomes smaller in every round
that goes on (`safe_readChainRound`).  The invariant says what has been read: the blockettes so
far lie end to end, each of them is in the bytes where it says, and a length that has been
declared is the power of two of a blockette that was read.  `Lib.Halts` makes the result about the
whole loop of the two.

A chain is read from whatever bytes are there, since the record's own end is known only after it.
That it lies inside the record is checked afterwards, in `Miniseed2.Tiling`.
-/
import Musubi.Lib.Segments
import Musubi.Miniseed2.Parse

namespace Musubi.Miniseed2

open Lib Lib.Checked

/-! ## 1. Reading words -/

theorem be16_eq {l : List UInt8} {i : ℕ} (h : i + 1 < l.length) :
    ∃ v, be16 l i = .ok v := by
  refine ⟨UInt16.ofNat (ofBeBytes [l[i], l[i + 1]]), ?_⟩
  rw [be16, index_eq (Nat.lt_of_succ_lt h), index_eq h]
  rfl

theorem safe_be16 {l : List UInt8} {i : ℕ} (h : i + 1 < l.length) :
    Safe (be16 l i) fun v => be16 l i = .ok v := by
  obtain ⟨v, hv⟩ := be16_eq h
  rw [hv]
  exact rfl

theorem safe_be32 {l : List UInt8} {i : ℕ} (h : i + 3 < l.length) :
    Safe (be32 l i) fun v => be32 l i = .ok v := by
  rw [be32, index_eq (Nat.lt_of_succ_lt (Nat.lt_of_succ_lt (Nat.lt_of_succ_lt h))),
    index_eq (Nat.lt_of_succ_lt (Nat.lt_of_succ_lt h)), index_eq (Nat.lt_of_succ_lt h), index_eq h]
  exact rfl

/-! ## 2. One blockette -/

/-- A blockette as it stands in the bytes from the record's start on.  The two kinds that are
decoded are long enough for what is read of them. -/
structure BlocketteOf (available : List UInt8) (b : Blockette) : Prop where
  stop_le : b.stop ≤ available.length
  raw_eq : b.raw = (available.drop b.offset).take b.raw.length
  long : 4 ≤ b.raw.length
  long1000 : b.kind = 1000 → 8 ≤ b.raw.length
  long1001 : b.kind = 1001 → 8 ≤ b.raw.length

/-- The length is the power of two that a blockette 1000 among `blockettes` declares, within the
exponents that the parser takes. -/
def DeclaresLength (blockettes : List Blockette) (recordLength : ℕ) : Prop :=
  ∃ b ∈ blockettes, b.kind = 1000 ∧ ∃ power : UInt8, b.raw[6]? = some power ∧
    8 ≤ power.toNat ∧ power.toNat ≤ 24 ∧ recordLength = 2 ^ power.toNat

theorem DeclaresLength.pos {blockettes : List Blockette} {recordLength : ℕ}
    (h : DeclaresLength blockettes recordLength) : 256 ≤ recordLength := by
  obtain ⟨_, _, _, power, _, hlo, _, rfl⟩ := h
  calc 256 = 2 ^ 8 := rfl
    _ ≤ 2 ^ power.toNat := Nat.pow_le_pow_right (by decide) hlo

/-! ## 3. The loop -/

/-- What holds before every round of `read_chain`: the blockettes so far lie end to end, the
next one, if any, starts where they stop, and the length is one they declare. -/
structure ChainInv (available : List UInt8) (s : ChainState) : Prop where
  placed : s.blockettes = [] ∨ ∃ a, fixedHeader ≤ a ∧
    EndToEnd Blockette.offset Blockette.stop a s.blockettes s.previousEnd ∧
    (s.next = 0 ∨ s.next = s.previousEnd)
  previousEnd_ge : fixedHeader ≤ s.previousEnd
  each : ∀ b ∈ s.blockettes, BlocketteOf available b
  declared : ∀ L, s.recordLength = some L → DeclaresLength s.blockettes L

/-- Bytes left to walk. -/
def chainVariant (available : List UInt8) (s : ChainState) : ℕ :=
  if s.next = 0 then 0 else available.length - s.next + 1

theorem safe_declaredLength {available : List UInt8} {offset next stop : ℕ} {kind : UInt16}
    {known : Option ℕ} (hstop : stop ≤ available.length) :
    Safe (declaredLength available offset kind next stop known) fun r =>
      (kind = 1000 ∧ next + 8 ≤ stop ∧ ∃ power : UInt8, available[next + 6]? = some power ∧
        8 ≤ power.toNat ∧ power.toNat ≤ 24 ∧ r = some (2 ^ power.toNat)) ∨
      (kind ≠ 1000 ∧ r = known) := by
  unfold declaredLength
  split
  · rename_i hkind
    refine Safe.guard fun hlong => ?_
    refine (safe_index (by omega)).bind fun power hpower => ?_
    refine Safe.guard fun hpow => ?_
    obtain ⟨hlo, hhi⟩ := not_not.mp hpow
    exact safe_pure (Or.inl ⟨hkind, by omega, power, hpower, hlo, hhi, rfl⟩)
  · exact safe_pure (Or.inr ⟨‹_›, rfl⟩)

theorem DeclaresLength.mono {blockettes blockettes' : List Blockette} {recordLength : ℕ}
    (h : DeclaresLength blockettes recordLength) (hsub : blockettes ⊆ blockettes') :
    DeclaresLength blockettes' recordLength := by
  obtain ⟨b, hb, hrest⟩ := h
  exact ⟨b, hsub hb, hrest⟩

/-- **One round keeps the invariant and goes forward.** A round that ends the loop is in the right
half of the sum, and has the invariant too. -/
theorem safe_readChainRound {available : List UInt8} {offset dataBeginOffset : ℕ}
    {s : ChainState} (hs : ChainInv available s) :
    Safe (readChainRound available offset dataBeginOffset s)
      (Sum.elim
        (fun s' => ChainInv available s' ∧ chainVariant available s' < chainVariant available s)
        (ChainInv available)) := by
  simp only [readChainRound]
  split
  · exact safe_pure hs
  rename_i hnext
  refine Safe.guard fun hadv => Safe.guard fun hroom => ?_
  refine (safe_be16 (by omega)).bind fun kind _ => ?_
  refine (safe_be16 (by omega)).bind fun following _ => ?_
  refine Safe.guard fun hforward => ?_
  generalize hstop : (if following.toNat ≠ 0 then following.toNat
    else if s.next < dataBeginOffset then dataBeginOffset else s.next + 4) = stop
  refine Safe.guard fun hbounds => ?_
  refine (safe_declaredLength (by omega)).bind fun recordLength hlength => ?_
  refine Safe.guard fun h1001 => ?_
  refine (safe_slice (by omega) (by omega)).bind fun raw hraw => ?_
  obtain ⟨hraw, hlen⟩ := hraw
  have hend : s.next + raw.length = stop := by omega
  -- the new blockette
  have hnew : BlocketteOf available { kind := kind, offset := s.next, raw := raw } :=
    { stop_le := (Nat.le_of_eq hend).trans (by omega)
      raw_eq := by rw [hlen]; exact hraw
      long := by rw [hlen]; omega
      long1000 := by
        intro hk
        rcases hlength with ⟨-, h8, -⟩ | ⟨hk', -⟩
        · rw [hlen]; omega
        · exact absurd hk hk'
      long1001 := by
        intro hk
        have h8 := not_and.mp h1001 hk
        rw [hlen]; omega }
  refine safe_pure ⟨⟨?_, ?_, ?_, ?_⟩, ?_⟩
  · -- end to end
    refine Or.inr ?_
    have hnextstop : following.toNat = 0 ∨ following.toNat = stop := by
      by_cases h0 : following.toNat = 0
      · exact Or.inl h0
      · rw [if_pos h0] at hstop
        exact Or.inr hstop
    rcases hs.placed with hnil | ⟨a, ha, hend', hnext'⟩
    · refine ⟨s.next, by have := hs.previousEnd_ge; omega, ?_, hnextstop⟩
      rw [hnil]
      exact ⟨rfl, hend⟩
    · refine ⟨a, ha, ?_, hnextstop⟩
      have hglued := hend'.concat (x := { kind := kind, offset := s.next, raw := raw })
        (hnext'.resolve_left hnext)
      rwa [Blockette.stop, hend] at hglued
  · have := hs.previousEnd_ge
    dsimp only
    omega
  · intro b hb
    rcases List.mem_append.mp hb with hb | hb
    · exact hs.each b hb
    · obtain rfl := List.mem_singleton.mp hb
      exact hnew
  · intro L hL
    rcases hlength with ⟨hk, h8, power, hpower, hlo, hhi, rfl⟩ | ⟨-, rfl⟩
    · refine ⟨_, List.mem_append_right _ (List.mem_singleton_self _), hk, power, ?_, hlo, hhi,
        (Option.some.inj hL).symm⟩
      rw [hraw, List.getElem?_take_of_lt (by omega), List.getElem?_drop, hpower]
    · exact (hs.declared L hL).mono (List.subset_append_left _ _)
  · simp only [chainVariant, if_neg hnext]
    split
    · omega
    · omega

/-- **`read_chain` comes back, stays in bounds, and returns a chain.** The blockettes lie end to
end after the fixed header, each with its bytes, and one of them declares the length.  The offset
of the first blockette is whatever the header says; one that points into the header is an error of
the parser. -/
theorem safe_readChain {available : List UInt8} {offset firstBlockette dataBeginOffset : ℕ}
    (hpos : 0 < available.length) :
    Safe (readChain available offset firstBlockette dataBeginOffset) fun r =>
      (∃ a b, fixedHeader ≤ a ∧ EndToEnd Blockette.offset Blockette.stop a r.1 b) ∧
      (∀ b ∈ r.1, BlocketteOf available b) ∧ DeclaresLength r.1 r.2 := by
  unfold readChain
  refine (safe_loop (I := ChainInv available) (R := ChainInv available) (chainVariant available)
    (fun s hs => safe_readChainRound hs) _ ?_ ?_).bind fun s hs => ?_
  · exact ⟨Or.inl rfl, Nat.le_refl _, fun _ hb => (List.not_mem_nil hb).elim, fun _ h => nomatch h⟩
  · simp only [chainVariant]
    by_cases hzero : firstBlockette = 0
    · rw [if_pos hzero]
      omega
    · rw [if_neg hzero]
      omega
  · cases hL : s.recordLength with
    | none => exact safe_fail _
    | some L =>
      refine safe_pure ⟨?_, hs.each, hs.declared L hL⟩
      rcases hs.placed with hnil | ⟨a, ha, hend, -⟩
      · exact ⟨fixedHeader, fixedHeader, Nat.le_refl _, by rw [hnil]; exact rfl⟩
      · exact ⟨a, _, ha, hend⟩

end Musubi.Miniseed2
