/-
# The canonical form decides the content, and so does the digest

`canonical_bytes` writes two variants and some forty fields one after the other with no
separator but their own length prefixes and tags.  This file shows that nothing is lost: each
`push_*` helper is a `Lib.PrefixCode`, so the whole format is one, and equal canonical bytes
mean equal content (`canonicalBytes_eq_iff`).

The CONTENT of an envelope is what the canonical form covers, with every float folded to its
canonical bit pattern: the `canon` functions below normalise the floats, and leave out the
digest and the reserved fields.  `FitsU32` bounds what a `u32` prefix counts -- the bytes of a
string, the entries of a list or a map -- below `2 ^ 32`; past that the prefix saturates.

With a hash that does not collide on the messages at hand, `verify_digest` of an envelope that
carries another envelope's digest then answers OK exactly for equal content.
-/
import Mathlib.Data.Set.Function
import Musubi.Lib.PrefixCode
import Musubi.Lib.Sha256
import Musubi.Core.Canonical

namespace Musubi.Core

open Lib

/-! ## 1. What a `u32` prefix can count -/

def FitsU32 (len : ℕ) : Prop := len < 2 ^ 32

/-- A string shorter than `2 ^ 32` bytes. -/
def StrFits (s : String) : Prop := FitsU32 (utf8 s).length

def OptStrFits (o : Option String) : Prop := ∀ s ∈ o, StrFits s

/-- A map whose entry count fits, all of whose keys and values do.  Its keys are in order, so no
count but that of the entries is written. -/
def MapFits {α : Type} (fits : α → Prop) (m : BTreeMap String α) : Prop :=
  FitsU32 m.entries.length ∧ ∀ e ∈ m.entries, StrFits e.1 ∧ fits e.2

def CountersFit (m : BTreeMap String HostStateCounter) : Prop := MapFits (fun _ => True) m

structure HostStateNetworkInterface.Fits (i : HostStateNetworkInterface) : Prop where
  operstate : OptStrFits i.operstate
  counters : CountersFit i.counters

structure HostStateObservation.Fits (o : HostStateObservation) : Prop where
  sourceContractId : StrFits o.sourceContractId
  hostId : StrFits o.hostId
  osId : OptStrFits o.host.os.id
  osVersionId : OptStrFits o.host.os.versionId
  kernelRelease : OptStrFits o.host.kernelRelease
  model : OptStrFits o.host.model
  cpuTotalTicks : CountersFit o.host.cpuTotalTicks
  network : MapFits HostStateNetworkInterface.Fits o.network

structure PlatformState.Fits (ps : PlatformState) : Prop where
  platformId : StrFits ps.platformId
  mode : OptStrFits ps.mode

def ComObjectFits : ComObject → Prop
  | .platformState ps => PlatformState.Fits ps
  | .hostStateObservation o => HostStateObservation.Fits o

def ConfidenceBasisFits : ConfidenceBasis → Prop
  | .adapterAssigned => True
  | .measured calibrationId => OptStrFits calibrationId

structure Claim.Fits (c : Claim) : Prop where
  claimId : StrFits c.claimId
  reasonCode : StrFits c.mark.reasonCode
  provenance : FitsU32 c.mark.provenance.length ∧ ∀ p ∈ c.mark.provenance, StrFits p
  confidenceBasis : ∀ b ∈ c.confidenceBasis, ConfidenceBasisFits b

/-- Every string, list and map of the content is within what its prefix counts.  Beyond it the
prefix saturates, and where a string ends can no longer be told. -/
structure EnvelopeFits (e : EvidenceEnvelope) : Prop where
  observation : ComObjectFits e.observation
  claim : Claim.Fits e.claim
  classification : OptStrFits e.classification

/-! ## 2. Content: the floats folded -/

def canonF64 (v : F64) : F64 := ⟨f64CanonBits v⟩

def canonF32 (v : F32) : F32 := ⟨f32CanonBits v⟩

def canonPosition (p : Position) : Position :=
  { latDeg := canonF64 p.latDeg, lonDeg := canonF64 p.lonDeg, altM := p.altM.map canonF64 }

def canonTimestamps (t : Timestamps) : Timestamps :=
  { t with timeConfidence := canonF32 t.timeConfidence }

def canonPlatformState (ps : PlatformState) : PlatformState :=
  { ps with
    position := ps.position.map canonPosition
    timestamps := canonTimestamps ps.timestamps }

def canonHostStateLoad (l : HostStateLoad) : HostStateLoad :=
  { oneMin := l.oneMin.map canonF64
    fiveMin := l.fiveMin.map canonF64
    fifteenMin := l.fifteenMin.map canonF64 }

def canonHostStateObservation (o : HostStateObservation) : HostStateObservation :=
  { o with
    timestamps := canonTimestamps o.timestamps
    host := { o.host with
      uptimeSeconds := o.host.uptimeSeconds.map canonF64
      load := canonHostStateLoad o.host.load } }

def canonComObject : ComObject → ComObject
  | .platformState ps => .platformState (canonPlatformState ps)
  | .hostStateObservation o => .hostStateObservation (canonHostStateObservation o)

def canonClaim (c : Claim) : Claim := { c with confidence := canonF32 c.confidence }

/-- What the canonical form covers: observation, claim and classification. -/
def content (e : EvidenceEnvelope) : ComObject × Claim × Option String :=
  (canonComObject e.observation, canonClaim e.claim, e.classification)

/-! ## 3. The scalars and strings are prefix codes -/

theorem extendU32_code : PrefixCode extendU32 (fun _ => True) id :=
  PrefixCode.fixed_id (fun _ => length_leBytes 4 _)
    (fun {x y} _ _ h => UInt32.toNat_inj.mp (leBytes_inj x.toNat_lt y.toNat_lt h))

theorem extendU64_code : PrefixCode extendU64 (fun _ => True) id :=
  PrefixCode.fixed_id (fun _ => length_leBytes 8 _)
    (fun {x y} _ _ h => UInt64.toNat_inj.mp (leBytes_inj x.toNat_lt y.toNat_lt h))

theorem extendI64_code : PrefixCode extendI64 (fun _ => True) id :=
  (extendU64_code.comap Int64.toUInt64).refine (fun _ _ => rfl) (fun _ h => h)
    (fun x y => ⟨fun h => by cases x; cases y; exact congrArg Int64.ofUInt64 h,
      congrArg Int64.toUInt64⟩)

theorem extendF64_code : PrefixCode extendF64 (fun _ => True) canonF64 :=
  (extendU64_code.comap f64CanonBits).refine (fun _ _ => rfl) (fun _ h => h)
    (fun _ _ => (F64.mk.injEq _ _).symm.to_iff)

theorem extendF32_code : PrefixCode extendF32 (fun _ => True) canonF32 :=
  (extendU32_code.comap f32CanonBits).refine (fun _ _ => rfl) (fun _ h => h)
    (fun _ _ => (F32.mk.injEq _ _).symm.to_iff)

/-- A single byte that determines its value.  A prefix code of length one: whatever comes after
it, the byte is read first. -/
theorem tag_code {α : Type} (tag : α → UInt8) (h : Function.Injective tag) :
    PrefixCode (fun buf x => buf ++ [tag x]) (fun _ => True) id :=
  PrefixCode.fixed_id (fun _ => rfl) (fun _ _ he => h (List.singleton_inj.mp he))

theorem extendLen_code : PrefixCode extendLen FitsU32 id :=
  PrefixCode.fixed_id (fun _ => length_leBytes 4 _)
    (fun {x y} hx hy h => by
      have hx' : u32Saturating x = x := if_pos hx
      have hy' : u32Saturating y = y := if_pos hy
      rw [hx', hy'] at h
      exact leBytes_inj hx hy h)

theorem utf8_injective : Function.Injective utf8 := by
  intro s t h
  have h1 : s.toByteArray.data = t.toByteArray.data := Array.toList_inj.mp h
  exact String.toByteArray_inj.mp (ByteArray.ext h1)

/-- Pushing bytes one at a time is appending them; the accumulator is free, because the loop is
entered with bytes already written. -/
theorem foldl_push_bytes (bs : List UInt8) : ∀ buf : List UInt8,
    bs.foldl (fun buf b => buf ++ [b]) buf = buf ++ bs := by
  induction bs with
  | nil => intro buf; rw [List.foldl_nil, List.append_nil]
  | cons b bs ih => intro buf; rw [List.foldl_cons, ih, List.append_assoc, List.singleton_append]

/-- **A string is a counted list of bytes.** -/
theorem pushStr_code : PrefixCode pushStr StrFits id :=
  ((extendLen_code.list (tag_code id Function.injective_id)).comap utf8).refine
    (fun _ _ => (foldl_push_bytes _ _).symm) (fun _ h => ⟨h, fun _ _ => trivial⟩)
    (fun s t => by
      rw [List.map_id, List.map_id]
      exact utf8_injective.eq_iff)

/-! ## 4. Options and maps -/

section Generic

variable {α γ : Type} {push : List UInt8 → α → List UInt8} {ok : α → Prop} {q : α → γ}

theorem pushOpt_code (h : PrefixCode push ok q) :
    PrefixCode (pushOpt push) (fun o => ∀ x ∈ o, ok x) (Option.map q) :=
  (h.option 0x00 0x01 (by decide)).refine
    (fun _ o => by cases o <;> rfl) (fun _ h => h) (fun _ _ => Iff.rfl)

/-- The codes whose view is the value itself. -/
theorem pushOpt_code_id {push : List UInt8 → α → List UInt8} (h : PrefixCode push ok id) :
    PrefixCode (pushOpt push) (fun o => ∀ x ∈ o, ok x) id :=
  (pushOpt_code h).refine (fun _ _ => rfl) (fun _ h => h) (fun _ _ => by
    rw [Option.map_id])

/-- **A map is a counted list of key-value pairs.** -/
theorem pushEntries_code (h : PrefixCode push ok id) :
    PrefixCode (pushEntries push) (MapFits ok) id :=
  ((extendLen_code.list (pushStr_code.seq h)).comap BTreeMap.entries).refine
    (fun _ _ => rfl) (fun _ h => h)
    (fun m m' => by
      have hid : (fun x : String × α => ((id x.1, id x.2) : String × α)) = id := rfl
      rw [hid, List.map_id, List.map_id]
      exact ⟨BTreeMap.ext, congrArg BTreeMap.entries⟩)

end Generic

theorem pushOptI64_code : PrefixCode pushOptI64 (fun _ => True) id :=
  (pushOpt_code_id extendI64_code).refine (fun _ _ => rfl) (fun _ _ _ _ => trivial)
    (fun _ _ => Iff.rfl)

theorem pushOptU64_code : PrefixCode pushOptU64 (fun _ => True) id :=
  (pushOpt_code_id extendU64_code).refine (fun _ _ => rfl) (fun _ _ _ _ => trivial)
    (fun _ _ => Iff.rfl)

theorem pushOptU32_code : PrefixCode pushOptU32 (fun _ => True) id :=
  (pushOpt_code_id extendU32_code).refine (fun _ _ => rfl) (fun _ _ _ _ => trivial)
    (fun _ _ => Iff.rfl)

theorem pushOptF64_code : PrefixCode pushOptF64 (fun _ => True) (Option.map canonF64) :=
  (pushOpt_code extendF64_code).refine (fun _ _ => rfl) (fun _ _ _ _ => trivial)
    (fun _ _ => Iff.rfl)

theorem pushOptStr_code : PrefixCode pushOptStr OptStrFits id := pushOpt_code_id pushStr_code

theorem pushOptBool_code : PrefixCode pushOptBool (fun _ => True) id :=
  (pushOpt_code_id (tag_code (fun b : Bool => if b then 0x01 else 0x00)
    (fun a b => by cases a <;> cases b <;> simp))).refine
    (fun _ _ => rfl) (fun _ _ _ _ => trivial) (fun _ _ => Iff.rfl)

/-! ## 5. Observations

Each record is its fields in writing order.  The three facts about a record are always the
same: the writer is the fields' writers in sequence (by definition), the side condition is the
fields' side conditions, and two records agree in content exactly when the fields do. -/

theorem pushPosition_code : PrefixCode pushPosition (fun _ => True) canonPosition :=
  ((extendF64_code.seq (extendF64_code.seq pushOptF64_code)).comap
    (fun p : Position => (p.latDeg, p.lonDeg, p.altM))).refine
    (fun _ _ => rfl) (fun _ _ => ⟨trivial, trivial, trivial⟩)
    (fun _ _ => by simp only [canonPosition, Position.mk.injEq, Prod.mk.injEq])

theorem pushTimestamps_code : PrefixCode pushTimestamps (fun _ => True) canonTimestamps :=
  ((pushOptI64_code.seq (extendI64_code.seq extendF32_code)).comap
    (fun t : Timestamps => (t.observedAt, t.receivedAt, t.timeConfidence))).refine
    (fun _ _ => rfl) (fun _ _ => ⟨trivial, trivial, trivial⟩)
    (fun _ _ => by simp only [canonTimestamps, Timestamps.mk.injEq, Prod.mk.injEq, id])

theorem platformDomainTag_injective : Function.Injective platformDomainTag := by
  intro a b h
  cases a <;> cases b <;> first | rfl | cases h

theorem pushPlatformDomain_code : PrefixCode pushPlatformDomain (fun _ => True) id :=
  tag_code platformDomainTag platformDomainTag_injective

theorem pushHostCounter_code : PrefixCode pushHostCounter (fun _ => True) id :=
  ((extendU64_code.seq pushOptU64_code).comap
    (fun c : HostStateCounter => (c.raw, c.delta))).refine
    (fun _ _ => rfl) (fun _ _ => ⟨trivial, trivial⟩)
    (fun x y => by
      cases x
      cases y
      simp only [HostStateCounter.mk.injEq, Prod.mk.injEq, id])

theorem pushHostCounters_code : PrefixCode pushHostCounters CountersFit id :=
  pushEntries_code pushHostCounter_code

theorem pushHostNetworkInterface_code :
    PrefixCode pushHostNetworkInterface HostStateNetworkInterface.Fits id :=
  ((pushOptU32_code.seq (pushOptStr_code.seq (pushOptBool_code.seq
    (pushOptU32_code.seq pushHostCounters_code)))).comap
    (fun i : HostStateNetworkInterface =>
      (i.ifindex, i.operstate, i.carrier, i.mtu, i.counters))).refine
    (fun _ _ => rfl) (fun _ h => ⟨trivial, h.operstate, trivial, trivial, h.counters⟩)
    (fun x y => by
      cases x
      cases y
      simp only [HostStateNetworkInterface.mk.injEq, Prod.mk.injEq, id])

/-- The fields of a host-state observation, in writing order. -/
def hostStateFields (o : HostStateObservation) :=
  (o.sourceContractId, o.hostId, o.sequence, o.timestamps, o.host.os.id, o.host.os.versionId,
    o.host.kernelRelease, o.host.model, o.host.uptimeSeconds, o.host.load.oneMin,
    o.host.load.fiveMin, o.host.load.fifteenMin, o.host.memoryKib.memTotal,
    o.host.memoryKib.memAvailable, o.host.memoryKib.swapTotal, o.host.memoryKib.swapFree,
    o.host.cpuTotalTicks, o.network)

theorem pushHostStateObservation_code :
    PrefixCode pushHostStateObservation HostStateObservation.Fits canonHostStateObservation :=
  ((pushStr_code.seq (pushStr_code.seq (extendU64_code.seq (pushTimestamps_code.seq
    (pushOptStr_code.seq (pushOptStr_code.seq (pushOptStr_code.seq (pushOptStr_code.seq
    (pushOptF64_code.seq (pushOptF64_code.seq (pushOptF64_code.seq (pushOptF64_code.seq
    (pushOptU64_code.seq (pushOptU64_code.seq (pushOptU64_code.seq (pushOptU64_code.seq
    (pushHostCounters_code.seq
      (pushEntries_code pushHostNetworkInterface_code)))))))))))))))))).comap
    hostStateFields).refine
    (fun _ _ => rfl)
    (fun _ h => ⟨h.sourceContractId, h.hostId, trivial, trivial, h.osId, h.osVersionId,
      h.kernelRelease, h.model, trivial, trivial, trivial, trivial, trivial, trivial, trivial,
      trivial, h.cpuTotalTicks, h.network⟩)
    (fun ⟨_, _, _, _, ⟨⟨_, _⟩, _, _, _, ⟨_, _, _⟩, ⟨_, _, _, _⟩, _⟩, _⟩
        ⟨_, _, _, _, ⟨⟨_, _⟩, _, _, _, ⟨_, _, _⟩, ⟨_, _, _, _⟩, _⟩, _⟩ => by
      simp only [hostStateFields, canonHostStateObservation, canonHostStateLoad,
        HostStateObservation.mk.injEq, HostStateHost.mk.injEq, HostStateOsIdentity.mk.injEq,
        HostStateLoad.mk.injEq, HostStateMemory.mk.injEq, Prod.mk.injEq, id, and_assoc])

theorem pushPlatformState_code :
    PrefixCode pushPlatformState PlatformState.Fits canonPlatformState :=
  ((pushStr_code.seq ((pushOpt_code pushPosition_code).seq (pushOptStr_code.seq
    (pushTimestamps_code.seq pushPlatformDomain_code)))).comap
    (fun ps : PlatformState =>
      (ps.platformId, ps.position, ps.mode, ps.timestamps, ps.platformDomain))).refine
    (fun _ _ => rfl)
    (fun _ h => ⟨h.platformId, fun _ _ => trivial, h.mode, trivial, trivial⟩)
    (fun _ _ => by
      simp only [canonPlatformState, PlatformState.mk.injEq, Prod.mk.injEq, id])

/-- **The two variants are told apart by their tag.** -/
theorem pushComObject_code : PrefixCode pushComObject ComObjectFits canonComObject := by
  have h := (pushPlatformState_code.sum pushHostStateObservation_code 0x00 0x01
    (by decide)).comap
    (fun o : ComObject =>
      match o with
      | .platformState ps => Sum.inl ps
      | .hostStateObservation o => Sum.inr o)
  refine h.refine (fun _ o => ?_) (fun o ho => ?_) (fun x y => ?_)
  · cases o <;> rfl
  · cases o <;> exact ho
  · cases x <;> cases y <;> simp [canonComObject]

/-! ## 6. Claims and the whole envelope -/

theorem markStatusTag_injective : Function.Injective markStatusTag := by
  intro a b h
  cases a <;> cases b <;> first | rfl | cases h

theorem pushConfidenceBasis_code : PrefixCode pushConfidenceBasis ConfidenceBasisFits id := by
  have h := (PrefixCode.unit.sum pushOptStr_code (0x00 : UInt8) 0x01 (by decide)).comap
    (fun b : ConfidenceBasis =>
      match b with
      | .adapterAssigned => Sum.inl ()
      | .measured calibrationId => Sum.inr calibrationId)
  refine h.refine (fun _ b => ?_) (fun b hb => ?_) (fun x y => ?_)
  · cases b <;> rfl
  · cases b with
    | adapterAssigned => exact trivial
    | measured calibrationId => exact hb
  · cases x <;> cases y <;> simp

theorem pushClaim_code : PrefixCode pushClaim Claim.Fits canonClaim :=
  ((pushStr_code.seq (extendF32_code.seq ((tag_code _ markStatusTag_injective).seq
    (pushStr_code.seq ((extendLen_code.list pushStr_code).seq
      (pushOpt_code_id pushConfidenceBasis_code)))))).comap
    (fun c : Claim => (c.claimId, c.confidence, c.mark.status, c.mark.reasonCode,
      c.mark.provenance, c.confidenceBasis))).refine
    (fun _ _ => rfl)
    (fun _ h => ⟨h.claimId, trivial, trivial, h.reasonCode, h.provenance, h.confidenceBasis⟩)
    (fun ⟨_, _, ⟨_, _, _⟩, _⟩ ⟨_, _, ⟨_, _, _⟩, _⟩ => by
      simp only [canonClaim, Claim.mk.injEq, Mark.mk.injEq, Prod.mk.injEq, id, List.map_id,
        and_assoc])

/-- The canonical form of an envelope, as a writer. -/
theorem canonicalBytes_code :
    PrefixCode (fun buf e => pushOptStr (pushClaim (pushComObject buf e.observation) e.claim)
      e.classification) EnvelopeFits content :=
  ((pushComObject_code.seq (pushClaim_code.seq pushOptStr_code)).comap
    (fun e : EvidenceEnvelope => (e.observation, e.claim, e.classification))).refine
    (fun _ _ => rfl) (fun _ h => ⟨h.observation, h.claim, h.classification⟩)
    (fun _ _ => Iff.rfl)

/-- **Equal canonical bytes mean equal content.** -/
theorem canonicalBytes_eq_iff {a b : EvidenceEnvelope} (ha : EnvelopeFits a)
    (hb : EnvelopeFits b) : canonicalBytes a = canonicalBytes b ↔ content a = content b :=
  canonicalBytes_code.eq_iff ha hb

/-! ## 7. The digest check -/

variable {sha256 : List UInt8 → Digest}

/-- `verify_digest` answers OK exactly when the stored digest is the digest of the canonical
bytes; nothing else of the envelope enters. -/
theorem verifyDigest_ok_iff {e : EvidenceEnvelope} :
    (verifyDigest sha256 e).status = .ok ↔
      e.contentDigest = some (sha256 (canonicalBytes e)) := by
  unfold verifyDigest
  cases h : e.contentDigest with
  | none => simp
  | some stored =>
    by_cases hs : sha256 (canonicalBytes e) = stored
    · simp [hs]
    · simp [hs, Ne.symm hs]

/-- **The canonical form is injective on content, and the digest check compares contents.** The
hash is assumed not to collide on a set `S` of messages that holds the two canonical forms;
nothing is assumed of it elsewhere, since no hash is injective on all messages.  The two
`EnvelopeFits` keep strings, lists and maps below what a `u32` prefix counts, where the prefix
saturates.  The reserved fields of either envelope, its signature and its signer, are arbitrary:
they are not hashed and not compared. -/
theorem canonicalBytes_injective_verifyDigest_exact (sha256 : List UInt8 → Digest)
    (a b : EvidenceEnvelope) (ha : EnvelopeFits a) (hb : EnvelopeFits b) :
    (canonicalBytes a = canonicalBytes b ↔ content a = content b) ∧
      ∀ S : Set (List UInt8), Set.InjOn sha256 S → canonicalBytes a ∈ S → canonicalBytes b ∈ S →
        b.contentDigest = (sealDigest sha256 a).contentDigest →
        ((verifyDigest sha256 b).status = .ok ↔ content a = content b) := by
  have hbytes : canonicalBytes a = canonicalBytes b ↔ content a = content b :=
    canonicalBytes_eq_iff ha hb
  refine ⟨hbytes, fun S hS haS hbS hd => ?_⟩
  rw [verifyDigest_ok_iff, hd, ← hbytes, sealDigest, Option.some.injEq]
  exact hS.eq_iff haS hbS

/-! ## 8. A sample that was tampered with -/

/-- The sample under another platform id, still carrying the sample's digest, with the
reserved fields filled in. -/
def tamperedSample : EvidenceEnvelope :=
  { goldenSample with
    observation := .platformState
      { platformId := "musubi-usv-002"
        position := none
        mode := none
        timestamps := { observedAt := none, receivedAt := 0, timeConfidence := ⟨0x3E4CCCCD⟩ }
        platformDomain := .unknown }
    signature := some [0x01]
    contentDigest := (sealDigest Sha256.hash goldenSample).contentDigest
    signerId := some "key-1"
    signedAt := some 5 }

theorem goldenSample_fits : EnvelopeFits goldenSample where
  observation := ⟨by unfold StrFits FitsU32; decide, fun _ h => nomatch h⟩
  claim :=
    { claimId := by unfold StrFits FitsU32; decide
      reasonCode := by unfold StrFits FitsU32; decide
      provenance := by unfold StrFits FitsU32; decide
      confidenceBasis := by
        intro b hb
        obtain rfl : ConfidenceBasis.adapterAssigned = b := Option.some.inj hb
        exact trivial }
  classification := fun _ h => nomatch h

theorem tamperedSample_fits : EnvelopeFits tamperedSample where
  observation := ⟨by unfold StrFits FitsU32; decide, fun _ h => nomatch h⟩
  claim := goldenSample_fits.claim
  classification := goldenSample_fits.classification

theorem tamperedSample_rejected : (verifyDigest Sha256.hash tamperedSample).status ≠ .ok := by
  have hne : Sha256.hash (canonicalBytes goldenSample) ≠
      Sha256.hash (canonicalBytes tamperedSample) := by decide +kernel
  have hinj : Set.InjOn Sha256.hash
      {canonicalBytes goldenSample, canonicalBytes tamperedSample} :=
    Set.injOn_pair.mpr fun h => absurd h hne
  have h := (canonicalBytes_injective_verifyDigest_exact Sha256.hash goldenSample tamperedSample
    goldenSample_fits tamperedSample_fits).2 _ hinj (Or.inl rfl) (Or.inr rfl) rfl
  rw [Ne, h]
  decide

end Musubi.Core
