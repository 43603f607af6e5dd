/-
# Telling vehicles apart on a shared tap

Several vehicles may send over one tap, and `normalize_frame` names a platform by the tap and by
the system id of the frame, `{source_id}/sys{sysid}`.  A system id is written without a slash, so
the last slash of a name is the one in front of `sys`, whatever the tap is called, and the name
can be taken apart again: two names are equal only if the taps and the system ids are.

That is a fact about names, and what a consumer sees are envelopes.  Section 2 goes from the one
to the other: a normalized frame is one whose class is that of a position, and the platform of its
envelope, and the id of the claim about it, are made of the name of the tap and the byte at offset
five of the payload.  No other byte of the frame reaches them.

A stream is a list of frames from any taps, in any order, and frames that are not normalized are
left out.  Grouping by a key depends on which keys are equal and on nothing else (`Lib.Grouping`),
so the groups by platform and the groups by tap and system id are the same, members and order.
-/
import Musubi.Lib.Grouping
import Musubi.Lib.Substr
import Musubi.Mavlink.Normalizer

namespace Musubi.Mavlink

open Lib Lib.Checked Musubi.Core

/-! ## 1. Names -/

theorem slash_notMem_sys (n : ℕ) : '/' ∉ "sys".toList ++ n.repr.toList := by
  intro h
  rcases List.mem_append.mp h with h | h
  · exact absurd h (by decide)
  · exact absurd (isDigit_of_mem_repr h) (by decide)

/-- **The name of a platform names its tap and its system id**, also when the name of a tap has
slashes in it, or ends in what looks like a system id itself. -/
theorem platformId_inj {raw raw' : RawObservation} {header header' : Mavlink2Header} :
    platformId raw header = platformId raw' header' ↔
      raw.sourceId = raw'.sourceId ∧ header.sysid = header'.sysid := by
  constructor
  · intro h
    have htext (raw : RawObservation) (header : Mavlink2Header) :
        (platformId raw header).toList = raw.sourceId.toList ++
          '/' :: ("sys".toList ++ header.sysid.toNat.repr.toList) := by
      rw [platformId, String.toList_append, String.toList_append, List.append_assoc]
      rfl
    have hlist := congrArg String.toList h
    rw [htext, htext] at hlist
    obtain ⟨hsource, htail⟩ :=
      append_cons_inj_right (slash_notMem_sys _) (slash_notMem_sys _) hlist
    have hrepr := String.toList_inj.mp (List.append_cancel_left htail)
    exact ⟨String.toList_inj.mp hsource, UInt8.toNat_inj.mp (repr_injective hrepr)⟩
  · rintro ⟨hsource, hsysid⟩
    rw [platformId, platformId, hsource, hsysid]

/-! ## 2. Two frames -/

/-- The platform that an envelope is about. -/
def platformIdOf (envelope : EvidenceEnvelope) : Option String :=
  match envelope.observation with
  | .platformState platform => some platform.platformId
  | .hostStateObservation _ => none

/-- The system id as it is sent, the sixth byte of a frame. -/
def wireSysid (frame : List UInt8) : Option UInt8 := frame[5]?

variable {sha256 : List UInt8 → Digest} {n : MavlinkNormalizer} {raw : RawObservation}
  {envelope : EvidenceEnvelope}

/-- The ids of an envelope are made from the tap and the sixth byte. -/
theorem ids_of_normalized (h : normalizeFrame sha256 n raw = .ok (.normalized envelope)) :
    platformIdOf envelope = some (platformId raw (headerOf raw.payload)) ∧
      envelope.claim.claimId =
        platformId raw (headerOf raw.payload) ++ ":global_position_int" ∧
      wireSysid raw.payload = some (headerOf raw.payload).sysid := by
  have hclass := @normalizeFrame_ofClass sha256 n raw
  have hnormalized := hclass.iff.1.mp ⟨envelope, h⟩
  have hlong : 10 ≤ raw.payload.length := (frameClass_normalized.mp hnormalized).2.1.2
  rw [hnormalized] at hclass
  obtain ⟨msg, -, hr⟩ := hclass
  rw [h] at hr
  cases hr
  refine ⟨rfl, rfl, ?_⟩
  show raw.payload[5]? = some (raw.payload.getD 5 0)
  rw [List.getD_eq_getElem?_getD, List.getElem?_eq_getElem (by omega), Option.getD_some]

/-- The ids of two frames are equal exactly if their taps and system ids are. -/
theorem ids_eq_iff {n' : MavlinkNormalizer} {raw' : RawObservation} {envelope' : EvidenceEnvelope}
    (h : normalizeFrame sha256 n raw = .ok (.normalized envelope))
    (h' : normalizeFrame sha256 n' raw' = .ok (.normalized envelope')) :
    (platformIdOf envelope = platformIdOf envelope' ↔
      raw.sourceId = raw'.sourceId ∧ wireSysid raw.payload = wireSysid raw'.payload) ∧
    (envelope.claim.claimId = envelope'.claim.claimId ↔
      raw.sourceId = raw'.sourceId ∧ wireSysid raw.payload = wireSysid raw'.payload) := by
  obtain ⟨hplatform, hclaim, hsysid⟩ := ids_of_normalized h
  obtain ⟨hplatform', hclaim', hsysid'⟩ := ids_of_normalized h'
  have hcancel (s t : String) :
      s ++ ":global_position_int" = t ++ ":global_position_int" ↔ s = t := by
    rw [← String.toList_inj, String.toList_append, String.toList_append, List.append_left_inj,
      String.toList_inj]
  rw [hplatform, hplatform', hclaim, hclaim', hsysid, hsysid', hcancel, Option.some_inj,
    Option.some_inj, platformId_inj]
  exact ⟨Iff.rfl, Iff.rfl⟩

/-! ## 3. Streams -/

/-- The frames of a stream that are normalized, with their envelopes. -/
def normalizedOf (sha256 : List UInt8 → Digest) (n : MavlinkNormalizer)
    (stream : List RawObservation) : List (RawObservation × EvidenceEnvelope) :=
  stream.filterMap fun raw =>
    match normalizeFrame sha256 n raw with
    | .ok (.normalized envelope) => some (raw, envelope)
    | _ => none

theorem normalizeFrame_of_mem {stream : List RawObservation}
    (h : (raw, envelope) ∈ normalizedOf sha256 n stream) :
    normalizeFrame sha256 n raw = .ok (.normalized envelope) := by
  obtain ⟨raw', -, hraw⟩ := List.mem_filterMap.mp h
  split at hraw
  · rename_i hok
    cases hraw
    exact hok
  · cases hraw

/-- **A shared tap is taken apart by tap and system id.** The ids of two normalized frames are
equal exactly if the taps and the system ids as sent are, whatever the taps are called; so the
frames of a stream, interleaved in any way, are grouped by platform as they are by tap and system
id.  The two frames may come from two normalizers with different settings, and the tap's name is
arbitrary text: what makes the names apart is that a number holds no slash. -/
theorem demux_by_source_and_sysid (sha256 : List UInt8 → Digest) :
    (∀ n n' raw raw' envelope envelope',
      normalizeFrame sha256 n raw = .ok (.normalized envelope) →
      normalizeFrame sha256 n' raw' = .ok (.normalized envelope') →
      (platformIdOf envelope).isSome ∧
      (platformIdOf envelope = platformIdOf envelope' ↔
        raw.sourceId = raw'.sourceId ∧ wireSysid raw.payload = wireSysid raw'.payload) ∧
      (envelope.claim.claimId = envelope'.claim.claimId ↔
        raw.sourceId = raw'.sourceId ∧ wireSysid raw.payload = wireSysid raw'.payload)) ∧
    ∀ n stream,
      groupsBy (fun pair => platformIdOf pair.2) (normalizedOf sha256 n stream) =
        groupsBy (fun pair => (pair.1.sourceId, wireSysid pair.1.payload))
          (normalizedOf sha256 n stream) := by
  constructor
  · intro n n' raw raw' envelope envelope' h h'
    refine ⟨?_, ids_eq_iff h h'⟩
    rw [(ids_of_normalized h).1]
    rfl
  · intro n stream
    refine groupsBy_congr ?_
    intro pair hpair pair' hpair'
    rw [Prod.mk.injEq]
    exact (ids_eq_iff (normalizeFrame_of_mem hpair) (normalizeFrame_of_mem hpair')).1

/-- A position frame of that system, with zeros for all numbers. -/
def zeroFrame (sysid : UInt8) : List UInt8 :=
  [0xFD, 28, 0, 0, 0, sysid, 1, 33, 0, 0] ++ List.replicate 30 0

/-- Two vehicles on a tap whose own name looks like that of a platform. -/
theorem two_vehicles_apart :
    ∃ envelope envelope',
      normalizeFrame Sha256.hash .new ⟨"tap/sys1", zeroFrame 1, 0⟩ =
        .ok (.normalized envelope) ∧
      normalizeFrame Sha256.hash .new ⟨"tap/sys1", zeroFrame 2, 0⟩ =
        .ok (.normalized envelope') ∧
      platformIdOf envelope ≠ platformIdOf envelope' := by
  have hnormalized (sysid : UInt8) : ∃ envelope,
      normalizeFrame Sha256.hash .new ⟨"tap/sys1", zeroFrame sysid, 0⟩ =
        .ok (.normalized envelope) := by
    refine (@normalizeFrame_ofClass Sha256.hash .new _).iff.1.mpr ?_
    refine frameClass_normalized.mpr ?_
    have hlength : (zeroFrame sysid).length = 40 := rfl
    have hdeclared : declaredLen (zeroFrame sysid) = 28 := rfl
    exact ⟨hlength.trans_le (by decide), ⟨rfl, hlength.ge.trans' (by decide)⟩, rfl,
      hdeclared.ge.trans' (by decide), hdeclared.le, rfl⟩
  obtain ⟨envelope, h⟩ := hnormalized 1
  obtain ⟨envelope', h'⟩ := hnormalized 2
  refine ⟨envelope, envelope', h, h', ?_⟩
  have hiff := ((demux_by_source_and_sysid Sha256.hash).1 _ _ _ _ _ _ h h').2.1
  rw [ne_eq, hiff]
  exact fun hboth => absurd hboth.2 (by decide)

end Musubi.Mavlink
