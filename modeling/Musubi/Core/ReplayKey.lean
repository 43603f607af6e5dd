/-
# What a replay key identifies

`replay_key` writes its own serialisation: the observation without its reception, and the claim's
identity.  Its writers are prefix codes, so that two envelopes with one key have one content up to
reception, as long as the length prefixes do not saturate; and what is not written does not
matter.

Reception is the time at which an observation came in and the confidence in it, and of a platform
state the domain as well, which the key does not write.  The same observation heard twice, once
over each of two links, therefore has one key, and the second is refused; a change of mark, of
confidence, of classification or of seal changes no key.

A prefix saturates for a string or a map of `2 ^ 32`.  With strings alone bounded, the entry that
a map of `2 ^ 32` entries has too many is read as what follows a map with one entry fewer.
Section 3 builds the two hosts that show it, with as many counters as a prefix counts and one
more; the keys are made of one character each, in order, so that nobody has to write the map down.
-/
import Musubi.Core.Digest
import Musubi.Core.StoreAndForward
import Musubi.Lib.Utf8

namespace Musubi.Core

open Lib

/-! ## 1. Content up to reception -/

/-- An observation whose reception is left out. -/
def stable (o : HostStateObservation) : HostStateObservation :=
  { o with timestamps := { o.timestamps with receivedAt := 0, timeConfidence := ⟨0⟩ } }

/-- Two observations that differ in their reception alone: of a platform state the domain is left
out too. -/
def SameObservation : ComObject → ComObject → Prop
  | .platformState x, .platformState y =>
    x.platformId = y.platformId ∧ x.position.map canonPosition = y.position.map canonPosition ∧
      x.mode = y.mode ∧ x.timestamps.observedAt = y.timestamps.observedAt
  | .hostStateObservation x, .hostStateObservation y =>
    canonHostStateObservation (stable x) = canonHostStateObservation (stable y)
  | _, _ => False

/-- The strings that a replay key is made of. -/
def strings (e : EvidenceEnvelope) : List String :=
  e.claim.claimId ::
    match e.observation with
    | .platformState ps => ps.platformId :: ps.mode.toList
    | .hostStateObservation o =>
      [o.sourceContractId, o.hostId] ++ o.host.os.id.toList ++ o.host.os.versionId.toList ++
        o.host.kernelRelease.toList ++ o.host.model.toList ++ o.host.cpuTotalTicks.keys ++
        o.network.entries.flatMap fun (name, i) =>
          name :: i.operstate.toList ++ i.counters.keys

/-- The sizes of the maps that a replay key is made of. -/
def mapSizes (e : EvidenceEnvelope) : List ℕ :=
  match e.observation with
  | .platformState _ => []
  | .hostStateObservation o =>
    o.host.cpuTotalTicks.entries.length :: o.network.entries.length ::
      o.network.entries.map fun (_, i) => i.counters.entries.length

theorem mapFits_of {α : Type} {fits : α → Prop} {m : BTreeMap String α}
    (hsize : FitsU32 m.entries.length) (hkeys : ∀ k ∈ m.keys, StrFits k)
    (hvalues : ∀ e ∈ m.entries, fits e.2) : MapFits fits m :=
  ⟨hsize, fun e he => ⟨hkeys e.1 (List.mem_map_of_mem he), hvalues e he⟩⟩

/-- Strings and maps within what their prefixes count make an observation that is. -/
theorem comObjectFits {e : EvidenceEnvelope} (hstrings : ∀ s ∈ strings e, StrFits s)
    (hsizes : ∀ n ∈ mapSizes e, FitsU32 n) : ComObjectFits e.observation := by
  unfold strings at hstrings
  unfold mapSizes at hsizes
  cases hobs : e.observation with
  | platformState ps =>
    rw [hobs] at hstrings
    exact ⟨hstrings _ (by simp), fun s hs => hstrings s (by simp [Option.mem_toList.mpr hs])⟩
  | hostStateObservation o =>
    rw [hobs] at hstrings hsizes
    refine ⟨hstrings _ (by simp), hstrings _ (by simp), ?_, ?_, ?_, ?_, ?_, ?_⟩
    · exact fun s hs => hstrings s (by simp [Option.mem_toList.mpr hs])
    · exact fun s hs => hstrings s (by simp [Option.mem_toList.mpr hs])
    · exact fun s hs => hstrings s (by simp [Option.mem_toList.mpr hs])
    · exact fun s hs => hstrings s (by simp [Option.mem_toList.mpr hs])
    · exact mapFits_of (hsizes _ (by simp)) (fun k hk => hstrings k (by simp [hk]))
        fun _ _ => trivial
    · refine mapFits_of (hsizes _ (by simp)) (fun k hk => ?_) fun entry hentry => ⟨?_, ?_⟩
      · obtain ⟨entry, hentry, rfl⟩ := List.mem_map.mp hk
        refine hstrings _ (List.mem_cons_of_mem _ (List.mem_append_right _ ?_))
        exact List.mem_flatMap.mpr ⟨entry, hentry, by simp⟩
      · intro s hs
        refine hstrings s (List.mem_cons_of_mem _ (List.mem_append_right _ ?_))
        exact List.mem_flatMap.mpr ⟨entry, hentry, by simp [Option.mem_toList.mpr hs]⟩
      · refine mapFits_of (hsizes _ ?_) (fun k hk => ?_) fun _ _ => trivial
        · exact List.mem_cons_of_mem _ (List.mem_cons_of_mem _ (List.mem_map_of_mem hentry))
        · refine hstrings k (List.mem_cons_of_mem _ (List.mem_append_right _ ?_))
          exact List.mem_flatMap.mpr ⟨entry, hentry, by simp [hk]⟩

/-! ## 2. The serialisation is a prefix code -/

/-- What is written of a platform state. -/
def replayPlatformState (buf : List UInt8) (ps : PlatformState) : List UInt8 :=
  pushOptI64 (pushOptStr (pushOpt pushPosition (pushStr buf ps.platformId) ps.position) ps.mode)
    ps.timestamps.observedAt

/-- What is written of a host state. -/
def replayHostState (buf : List UInt8) (o : HostStateObservation) : List UInt8 :=
  pushHostStateObservation (pushOptI64 (extendU64 (pushStr (pushStr buf o.sourceContractId)
    o.hostId) o.sequence) o.timestamps.observedAt) (stable o)

theorem replayPlatformState_code :
    PrefixCode replayPlatformState PlatformState.Fits fun ps =>
      (ps.platformId, ps.position.map canonPosition, ps.mode, ps.timestamps.observedAt) :=
  ((pushStr_code.seq ((pushOpt_code pushPosition_code).seq
    (pushOptStr_code.seq pushOptI64_code))).comap
    (fun ps : PlatformState =>
      (ps.platformId, ps.position, ps.mode, ps.timestamps.observedAt))).refine
    (fun _ _ => rfl) (fun _ h => ⟨h.platformId, fun _ _ => trivial, h.mode, trivial⟩)
    (fun _ _ => Iff.rfl)

theorem stable_fits {o : HostStateObservation} (h : HostStateObservation.Fits o) :
    HostStateObservation.Fits (stable o) :=
  ⟨h.sourceContractId, h.hostId, h.osId, h.osVersionId, h.kernelRelease, h.model,
    h.cpuTotalTicks, h.network⟩

theorem replayHostState_code : PrefixCode replayHostState HostStateObservation.Fits fun o =>
    canonHostStateObservation (stable o) :=
  ((pushStr_code.seq (pushStr_code.seq (extendU64_code.seq (pushOptI64_code.seq
    pushHostStateObservation_code)))).comap
    (fun o : HostStateObservation =>
      (o.sourceContractId, o.hostId, o.sequence, o.timestamps.observedAt, stable o))).refine
    (fun _ _ => rfl)
    (fun _ h => ⟨h.sourceContractId, h.hostId, trivial, trivial, stable_fits h⟩)
    (fun x y => by
      simp only [Prod.mk.injEq, id]
      refine ⟨fun h => h.2.2.2.2, fun h => ⟨?_, ?_, ?_, ?_, h⟩⟩
      · exact (HostStateObservation.mk.inj h).1
      · exact (HostStateObservation.mk.inj h).2.1
      · exact (HostStateObservation.mk.inj h).2.2.1
      · exact (Timestamps.mk.inj (HostStateObservation.mk.inj h).2.2.2.1).1)

/-- What is written of an observation. -/
def replayObservation (buf : List UInt8) : ComObject → List UInt8
  | .platformState ps => replayPlatformState (buf ++ [0x00]) ps
  | .hostStateObservation o => replayHostState (buf ++ [0x01]) o

/-- What the key holds of an observation, as one value. -/
def replayView : ComObject →
    (String × Option Position × Option String × Option Int64) ⊕ HostStateObservation
  | .platformState ps =>
    .inl (ps.platformId, ps.position.map canonPosition, ps.mode, ps.timestamps.observedAt)
  | .hostStateObservation o => .inr (canonHostStateObservation (stable o))

theorem replayView_eq_iff {x y : ComObject} :
    replayView x = replayView y ↔ SameObservation x y := by
  cases x <;> cases y <;> simp [replayView, SameObservation]

theorem replayObservation_code : PrefixCode replayObservation ComObjectFits replayView := by
  have h := (replayPlatformState_code.sum replayHostState_code 0x00 0x01 (by decide)).comap
    (fun o : ComObject =>
      match o with
      | .platformState ps => Sum.inl ps
      | .hostStateObservation o => Sum.inr o)
  refine h.refine (fun _ o => ?_) (fun o ho => ?_) (fun x y => ?_)
  · cases o <;> rfl
  · cases o <;> exact ho
  · cases x <;> cases y <;> simp [replayView]

/-- **The bytes of a replay key are those of the content up to reception.** -/
theorem replayWriter_code : PrefixCode
    (fun buf (e : EvidenceEnvelope) =>
      pushStr (replayObservation buf e.observation) e.claim.claimId)
    (fun e => ComObjectFits e.observation ∧ StrFits e.claim.claimId)
    (fun e => (replayView e.observation, e.claim.claimId)) :=
  (replayObservation_code.seq pushStr_code).comap
    (fun e : EvidenceEnvelope => (e.observation, e.claim.claimId))

theorem replayKeyBytes_eq (e : EvidenceEnvelope) : replayKeyBytes e =
    pushStr (replayObservation replayKeyDomain e.observation) e.claim.claimId := by
  unfold replayKeyBytes replayObservation
  cases e.observation <;> rfl

theorem replayKeyBytes_eq_iff {a b : EvidenceEnvelope}
    (ha : ComObjectFits a.observation ∧ StrFits a.claim.claimId)
    (hb : ComObjectFits b.observation ∧ StrFits b.claim.claimId) :
    replayKeyBytes a = replayKeyBytes b ↔
      SameObservation a.observation b.observation ∧ a.claim.claimId = b.claim.claimId := by
  have hcode := replayWriter_code.eq_iff ha hb
  simp only [Prod.mk.injEq, replayView_eq_iff] at hcode
  rw [← hcode, replayKeyBytes_eq, replayKeyBytes_eq, replayWriter_code.append replayKeyDomain a,
    replayWriter_code.append replayKeyDomain b, List.append_cancel_left_eq]

/-! ## 3. A map of `2 ^ 32` entries -/

/-- A character beyond the basic plane. -/
def tickChar (n : ℕ) : Char := .ofNat (0x10000 + n)

theorem tickChar_toNat {n : ℕ} (h : n < 2 ^ 16) : (tickChar n).toNat = 0x10000 + n := by
  have hvalid : (0x10000 + n).isValidChar := .inr ⟨by omega, by omega⟩
  rw [tickChar, Char.ofNat, dif_pos hvalid]
  rfl

theorem tickChar_lt {m n : ℕ} (h : m < n) (hn : n < 2 ^ 16) : tickChar m < tickChar n := by
  have hm := tickChar_toNat (Nat.lt_trans h hn)
  have hn := tickChar_toNat hn
  change (tickChar m).toNat < (tickChar n).toNat
  omega

/-- A key of three characters; keys come in the order of their numbers. -/
def tickName (i : ℕ) : String :=
  .ofList ['\x00', tickChar (i / 2 ^ 16), tickChar (i % 2 ^ 16)]

theorem tickName_lt {i j : ℕ} (hij : i < j) (hj : j < 2 ^ 32) : tickName i < tickName j := by
  rw [String.lt_iff_toList_lt, tickName, tickName, String.toList_ofList, String.toList_ofList,
    List.cons_lt_cons_iff]
  refine .inr ⟨rfl, List.cons_lt_cons_iff.mpr ?_⟩
  rcases Nat.lt_or_eq_of_le (Nat.div_le_div_right (c := 2 ^ 16) hij.le) with hlt | heq
  · exact .inl (tickChar_lt hlt (by omega))
  · refine .inr ⟨by rw [heq], List.cons_lt_cons_iff.mpr (.inl (tickChar_lt ?_ ?_))⟩
    · omega
    · omega

theorem tickName_lt_last (i : ℕ) : tickName i < "\x0e" := by
  rw [String.lt_iff_toList_lt, tickName, String.toList_ofList]
  exact List.cons_lt_cons_iff.mpr (.inl (by decide))

theorem tickName_fits (i : ℕ) : StrFits (tickName i) := by
  have h (c : Char) : (String.utf8EncodeChar c).length ≤ 4 := by
    rw [String.length_utf8EncodeChar]
    exact c.utf8Size_le_four
  have h₁ := h '\x00'
  have h₂ := h (tickChar (i / 2 ^ 16))
  have h₃ := h (tickChar (i % 2 ^ 16))
  rw [StrFits, FitsU32, utf8, toByteArray_toList, tickName, String.toList_ofList]
  simp only [List.flatMap_cons, List.flatMap_nil, List.length_append, List.length_nil]
  omega

/-- As many entries, all of them zero. -/
def tickEntries (n : ℕ) : List (String × HostStateCounter) :=
  (List.range n).map fun i => (tickName i, ⟨0, none⟩)

theorem tickEntries_sorted {n : ℕ} (h : n ≤ 2 ^ 32) :
    (tickEntries n).Pairwise fun a b => a.1 < b.1 := by
  refine List.pairwise_map.mpr (List.pairwise_lt_range.imp_of_mem fun _ hj hij => ?_)
  exact tickName_lt hij (Nat.lt_of_lt_of_le (List.mem_range.mp hj) h)

/-- A map with as many entries, and what follows it. -/
def ticks (n : ℕ) (h : n ≤ 2 ^ 32) : BTreeMap String HostStateCounter :=
  ⟨tickEntries n, tickEntries_sorted h⟩

/-- A key behind all of these. -/
def lastEntry : String × HostStateCounter := ("\x0e", ⟨0, none⟩)

def ticksAndLast (n : ℕ) (h : n ≤ 2 ^ 32) : BTreeMap String HostStateCounter :=
  ⟨tickEntries n ++ [lastEntry], by
    refine List.pairwise_append.mpr ⟨tickEntries_sorted h, List.pairwise_singleton _ _, ?_⟩
    intro e he e' he'
    obtain ⟨i, -, rfl⟩ := List.mem_map.mp he
    rw [List.mem_singleton.mp he']
    exact tickName_lt_last i⟩

/-- A host with nothing but counters and interfaces. -/
def tickingHost (cpuTotalTicks : BTreeMap String HostStateCounter)
    (network : BTreeMap String HostStateNetworkInterface) (claimId : String) :
    EvidenceEnvelope where
  observation := .hostStateObservation {
    sourceContractId := ""
    hostId := ""
    sequence := 0
    timestamps := ⟨none, 0, ⟨0⟩⟩
    host := ⟨⟨none, none⟩, none, none, none, ⟨none, none, none⟩, ⟨none, none, none, none⟩,
      cpuTotalTicks⟩
    network }
  claim := ⟨claimId, ⟨0⟩, ⟨.ok, "", []⟩, none⟩
  classification := none
  signature := none
  contentDigest := none
  signerId := none
  signedAt := none
  revocationProof := none
  trustAnnotations := none

/-- Zeros, and a length of twelve at the end. -/
def interfaceName : String :=
  "\x00\x00\x00\x00\x00\x00\x00\x00\x00\x00\x0c\x00\x00\x00"

/-- One interface, of which nothing is known. -/
def oneInterface : BTreeMap String HostStateNetworkInterface :=
  BTreeMap.empty.insert interfaceName ⟨none, none, none, none, .empty⟩

def twelveZeros : String := "\x00\x00\x00\x00\x00\x00\x00\x00\x00\x00\x00\x00"

/-- What follows the counters is the same bytes, with and without the last entry. -/
theorem bytes_after_ticks (buf : List UInt8) :
    pushStr (pushEntries pushHostNetworkInterface buf oneInterface) "" =
      pushStr (pushEntries pushHostNetworkInterface
        (pushHostCounter (pushStr buf lastEntry.1) lastEntry.2) .empty) twelveZeros := by
  have hentries := pushEntries_code pushHostNetworkInterface_code
  rw [pushStr_code.append (pushEntries _ buf _), hentries.append buf,
    pushStr_code.append (pushEntries _ _ .empty), hentries.append (pushHostCounter _ _),
    pushHostCounter_code.append, pushStr_code.append buf, List.append_assoc, List.append_assoc,
    List.append_assoc, List.append_assoc]
  refine congrArg (buf ++ ·) ?_
  decide +kernel

/-- **A collision that strings do not explain.**  The hosts have `2 ^ 32 - 1` and `2 ^ 32` counters,
and claims of their own, and their replay keys are made of the same bytes. -/
theorem replayKeyBytes_tickingHost {n : ℕ} (hn : n = 2 ^ 32 - 1) :
    replayKeyBytes (tickingHost (ticks n (by omega)) oneInterface "") =
      replayKeyBytes (tickingHost (ticksAndLast n (by omega)) .empty twelveZeros) := by
  have hlen : u32Saturating (tickEntries n).length =
      u32Saturating (tickEntries n ++ [lastEntry]).length := by
    have hticks : (tickEntries n).length = n := by
      rw [tickEntries, List.length_map, List.length_range]
    rw [List.length_append, List.length_singleton, hticks, u32Saturating, u32Saturating,
      if_pos (by omega), if_neg (by omega), hn]
  have hcounters (buf : List UInt8) : pushHostCounters buf (ticksAndLast n (by omega)) =
      pushHostCounter (pushStr (pushHostCounters buf (ticks n (by omega))) lastEntry.1)
        lastEntry.2 := by
    simp only [pushHostCounters, pushEntries, ticksAndLast, ticks, extendLen]
    rw [← hlen, List.foldl_append, List.foldl_cons, List.foldl_nil]
  simp only [replayKeyBytes_eq, tickingHost, replayObservation, replayHostState, stable,
    pushHostStateObservation]
  rw [hcounters, bytes_after_ticks]

theorem mem_strings_tickingHost {cpuTotalTicks : BTreeMap String HostStateCounter}
    {network : BTreeMap String HostStateNetworkInterface} {claimId s : String}
    (h : s ∈ strings (tickingHost cpuTotalTicks network claimId)) :
    s = claimId ∨ s = "" ∨ s ∈ cpuTotalTicks.keys ∨
      s ∈ network.entries.flatMap fun (name, i) =>
        name :: i.operstate.toList ++ i.counters.keys := by
  simpa [strings, tickingHost] using h

theorem tickName_of_mem_keys {n : ℕ} {h : n ≤ 2 ^ 32} {k : String} (hk : k ∈ (ticks n h).keys) :
    StrFits k := by
  obtain ⟨e, he, rfl⟩ := List.mem_map.mp hk
  obtain ⟨i, -, rfl⟩ := List.mem_map.mp he
  exact tickName_fits i

/-- All strings of the two hosts are short. -/
theorem tickingHost_strings {n : ℕ} (h : n ≤ 2 ^ 32) :
    (∀ s ∈ strings (tickingHost (ticks n h) oneInterface ""), StrFits s) ∧
      ∀ s ∈ strings (tickingHost (ticksAndLast n h) .empty twelveZeros), StrFits s := by
  have hempty : StrFits "" := by unfold StrFits FitsU32; decide
  constructor
  · intro s hs
    rcases mem_strings_tickingHost hs with rfl | rfl | hs | hs
    · exact hempty
    · exact hempty
    · exact tickName_of_mem_keys hs
    · have hname : s = interfaceName := by simpa [oneInterface, BTreeMap.insert, BTreeMap.empty,
        BTreeMap.insertEntry, BTreeMap.keys] using hs
      rw [hname]
      unfold StrFits FitsU32
      decide
  · intro s hs
    rcases mem_strings_tickingHost hs with rfl | rfl | hs | hs
    · unfold StrFits FitsU32
      decide
    · exact hempty
    · obtain ⟨e, he, rfl⟩ := List.mem_map.mp hs
      rcases List.mem_append.mp he with he | he
      · exact tickName_of_mem_keys (h := h) (List.mem_map_of_mem he)
      · rw [List.mem_singleton.mp he]
        unfold StrFits FitsU32
        decide
    · simp [BTreeMap.empty] at hs

/-! ## 4. Replay keys -/

/-- **What a replay key identifies.** For strings and maps within what their prefixes count, and a
hash that does not collide on the two messages, two keys are equal exactly for one claim identity
and one observation up to reception.  No seal, signature, mark, confidence, classification or
reception changes a key; for this no hypothesis is needed, since the bytes themselves are the
same.  The bound on the maps is not in the source: see `replayKey_collision`. -/
theorem replayKey_identifies (sha256 : List UInt8 → Digest) :
    (∀ a b : EvidenceEnvelope,
      (∀ s ∈ strings a, StrFits s) → (∀ n ∈ mapSizes a, FitsU32 n) →
      (∀ s ∈ strings b, StrFits s) → (∀ n ∈ mapSizes b, FitsU32 n) →
      ∀ S : Set (List UInt8), Set.InjOn sha256 S → replayKeyBytes a ∈ S → replayKeyBytes b ∈ S →
        (replayKey sha256 a = replayKey sha256 b ↔
          SameObservation a.observation b.observation ∧ a.claim.claimId = b.claim.claimId)) ∧
    (∀ e : EvidenceEnvelope, replayKey sha256 (sealDigest sha256 e) = replayKey sha256 e) ∧
    ∀ a b : EvidenceEnvelope, SameObservation a.observation b.observation →
      a.claim.claimId = b.claim.claimId → replayKey sha256 a = replayKey sha256 b := by
  have hclaim (e : EvidenceEnvelope) (h : ∀ s ∈ strings e, StrFits s) : StrFits e.claim.claimId :=
    h _ List.mem_cons_self
  refine ⟨fun a b ha hsa hb hsb S hS haS hbS => ?_, fun e => rfl, fun a b hobs hid => ?_⟩
  · rw [← replayKeyBytes_eq_iff ⟨comObjectFits ha hsa, hclaim a ha⟩
      ⟨comObjectFits hb hsb, hclaim b hb⟩]
    exact hS.eq_iff haS hbS
  · have hview : (replayView a.observation, a.claim.claimId) =
        (replayView b.observation, b.claim.claimId) := by
      rw [replayView_eq_iff.mpr hobs, hid]
    have hbytes := replayWriter_code.view hview
    rw [replayKey, replayKey, replayKeyBytes_eq, replayKeyBytes_eq,
      replayWriter_code.append replayKeyDomain a, hbytes, ← replayWriter_code.append]

/-- A seal leaves the key of the pinned sample as it is; another platform has a key of its own. -/
theorem replayKey_identifies_sample :
    replayKey Sha256.hash (sealDigest Sha256.hash goldenSample) =
        replayKey Sha256.hash goldenSample ∧
      (replayKey Sha256.hash tamperedSample = replayKey Sha256.hash goldenSample ↔
        SameObservation tamperedSample.observation goldenSample.observation ∧
          tamperedSample.claim.claimId = goldenSample.claim.claimId) := by
  have hstrings : (∀ s ∈ strings goldenSample, StrFits s) ∧
      ∀ s ∈ strings tamperedSample, StrFits s := by
    unfold StrFits FitsU32
    decide
  have hsizes : (∀ n ∈ mapSizes goldenSample, FitsU32 n) ∧
      ∀ n ∈ mapSizes tamperedSample, FitsU32 n := by
    unfold FitsU32
    decide
  have hne : Sha256.hash (replayKeyBytes goldenSample) ≠
      Sha256.hash (replayKeyBytes tamperedSample) := by decide +kernel
  have hinj : Set.InjOn Sha256.hash
      {replayKeyBytes goldenSample, replayKeyBytes tamperedSample} :=
    Set.injOn_pair.mpr fun h => absurd h hne
  exact ⟨(replayKey_identifies Sha256.hash).2.1 goldenSample,
    (replayKey_identifies Sha256.hash).1 tamperedSample goldenSample hstrings.2 hsizes.2
      hstrings.1 hsizes.1 _ hinj (Or.inr rfl) (Or.inl rfl)⟩

/-- **Short strings are not enough.** -/
theorem replayKey_collision : ¬ ∀ (sha256 : List UInt8 → Digest) (a b : EvidenceEnvelope),
    (∀ s ∈ strings a, StrFits s) → (∀ s ∈ strings b, StrFits s) →
    ∀ S : Set (List UInt8), Set.InjOn sha256 S → replayKeyBytes a ∈ S → replayKeyBytes b ∈ S →
      (replayKey sha256 a = replayKey sha256 b ↔
        SameObservation a.observation b.observation ∧ a.claim.claimId = b.claim.claimId) := by
  intro h
  obtain ⟨ha, hb⟩ := tickingHost_strings (n := 2 ^ 32 - 1) (Nat.sub_le _ _)
  have hbytes := replayKeyBytes_tickingHost rfl
  have hkeys := h Sha256.hash _ _ ha hb {replayKeyBytes _} (Set.injOn_singleton _ _) rfl
    hbytes.symm
  have hid := (hkeys.mp (congrArg Sha256.hash hbytes)).2
  exact absurd hid (by decide)

end Musubi.Core
