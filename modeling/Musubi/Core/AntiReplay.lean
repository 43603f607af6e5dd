/-
# The replay window as a function of the history

`push` compares the replay key with a queue of remembered keys.  The queue is an optimisation: at
every point of every run it holds the keys of the last W accepted envelopes, wherever these are
now (`Accounted.window_eq`).  So what a push answers can be read off the log alone, and nothing
but an acceptance can change a later answer.

W is what the buffer was asked to remember, or one where it was asked for nothing
(`effectiveWindow`).  A refusal does not renew the key that it is refused for: the window moves by
acceptances, so a key that is sent again and again leaves the window as soon as W others have been
accepted.  An eviction does not touch the window either, and a drain neither; an envelope that has
long been delivered is refused like one that is pending.

The second half of the result is what a reader of the log may rely on: of any W + 1 keys that were
accepted in a row no two are the same (`SpacedBy`).  It is an invariant of its own, kept by one
push because the new key is not among the last W.
-/
import Musubi.Core.Accounting

namespace Musubi.Core

open Lib
open StoreAndForwardBuffer

/-! ## 1. The window, from the log -/

/-- The replay keys of what was accepted, oldest first. -/
def acceptedKeys (sha256 : List UInt8 → Digest) (log : Log) : List Digest :=
  (accepted log).map fun x => replayKey sha256 x.envelope

/-- How many keys the buffer remembers when asked to remember `replayWindowCap`. -/
def effectiveWindow (replayWindowCap : ℕ) : ℕ := max replayWindowCap 1

variable {sha256 : List UInt8 → Digest} {c w : ℕ} {log : Log} {b b' : StoreAndForwardBuffer}

@[simp] theorem acceptedKeys_append (l l' : Log) :
    acceptedKeys sha256 (l ++ l') = acceptedKeys sha256 l ++ acceptedKeys sha256 l' := by
  rw [acceptedKeys, accepted_append, List.map_append]
  rfl

theorem Accounted.replayWindow_eq (h : Accounted sha256 c w log b) :
    b.replayWindow = (acceptedKeys sha256 log).rtake (effectiveWindow w) := by
  rw [h.window_eq, h.cap_eq, acceptedKeys, List.rtake, List.rtake, List.map_drop, List.length_map]
  rfl

/-! ## 2. One step -/

/-- A push answers by the window: a remembered key is refused, any other one is accepted and
becomes the newest accepted key. -/
theorem push_answer {envelope : EvidenceEnvelope} {vc : VectorClock} {out : Output}
    (hs : b.step sha256 (.push envelope vc) = some (out, b')) :
    (replayKey sha256 envelope ∈ b.replayWindow ∧ out = .pushed .rejectedDuplicate ∧
      acceptedKeys sha256 [(.push envelope vc, out)] = []) ∨
    (replayKey sha256 envelope ∉ b.replayWindow ∧ out ≠ .pushed .rejectedDuplicate ∧
      acceptedKeys sha256 [(.push envelope vc, out)] = [replayKey sha256 envelope]) := by
  rcases push_cases sha256 b envelope vc with
    ⟨hkey, hp⟩ | ⟨hkey, -, hp⟩ | ⟨x, rest, hkey, -, -, hp⟩ <;>
    rw [StoreAndForwardBuffer.step, hp] at hs <;> cases hs
  · exact Or.inl ⟨hkey, rfl, rfl⟩
  · refine Or.inr ⟨hkey, ?_, rfl⟩
    intro h
    cases h
  · refine Or.inr ⟨hkey, ?_, rfl⟩
    intro h
    cases h

/-- What is not a push accepts nothing, so the window stands as it was: drains and changes of the
link leave the list of accepted keys alone. -/
theorem acceptedKeys_of_not_push {op : Op} {out : Output}
    (hs : b.step sha256 op = some (out, b')) (hop : ∀ envelope vc, op ≠ .push envelope vc) :
    acceptedKeys sha256 [(op, out)] = [] := by
  cases op with
  | push envelope vc => exact absurd rfl (hop envelope vc)
  | setLink state => rfl
  | drain =>
    rw [StoreAndForwardBuffer.step, Option.map_eq_some_iff] at hs
    obtain ⟨r, -, hr⟩ := hs
    cases hr
    rfl

/-- Two windows of one account agree as long as nothing is accepted in between. -/
theorem Accounted.window_kept {entry : Op × Output} (h : Accounted sha256 c w log b)
    (h' : Accounted sha256 c w (log ++ [entry]) b') (hquiet : acceptedKeys sha256 [entry] = []) :
    b'.replayWindow = b.replayWindow := by
  rw [h.replayWindow_eq, h'.replayWindow_eq, acceptedKeys_append, hquiet, List.append_nil]

/-! ## 3. Whole runs -/

/-- Any `n + 1` keys accepted one after the other are different: a key comes again only when `n`
others have come between. -/
def SpacedBy (n : ℕ) (keys : List Digest) : Prop :=
  ∀ s, s <:+: keys → s.length ≤ n + 1 → s.Nodup

/-- A key that is not among the last `n` may be accepted next. -/
theorem SpacedBy.concat {n : ℕ} {keys : List Digest} (h : SpacedBy n keys) {key : Digest}
    (hnew : key ∉ keys.rtake n) : SpacedBy n (keys ++ [key]) := by
  intro s hs hlen
  rcases List.infix_concat_iff.mp hs with hsuf | hin
  · rcases List.suffix_concat_iff.mp hsuf with rfl | ⟨t, rfl, ht⟩
    · exact List.nodup_nil
    rw [List.length_append, List.length_singleton] at hlen
    have ht1 : t.Nodup := h t ht.isInfix (by omega)
    have ht2 : key ∉ t := by
      intro hmem
      rw [eq_rtake_of_suffix ht] at hmem
      exact hnew (mem_rtake_mono (by omega) hmem)
    rw [List.nodup_append]
    refine ⟨ht1, List.nodup_singleton key, ?_⟩
    rintro a ha b hb rfl
    rw [List.mem_singleton] at hb
    exact ht2 (hb ▸ ha)
  · exact h s hin hlen

/-- Every step keeps the accepted keys apart. -/
theorem SpacedBy.step (h : Accounted sha256 c w log b)
    (hsp : SpacedBy (effectiveWindow w) (acceptedKeys sha256 log)) {op : Op} {out : Output}
    (hs : b.step sha256 op = some (out, b')) :
    SpacedBy (effectiveWindow w) (acceptedKeys sha256 (log ++ [(op, out)])) := by
  rw [acceptedKeys_append]
  by_cases hop : ∃ envelope vc, op = .push envelope vc
  · obtain ⟨envelope, vc, rfl⟩ := hop
    rcases push_answer hs with ⟨-, -, hkeys⟩ | ⟨hnew, -, hkeys⟩
    · rwa [hkeys, List.append_nil]
    · rw [hkeys]
      rw [h.replayWindow_eq] at hnew
      exact hsp.concat hnew
  · have hkeys := acceptedKeys_of_not_push hs fun envelope vc he => hop ⟨envelope, vc, he⟩
    rwa [hkeys, List.append_nil]

/-- **Anti-replay is exact.** In every run every push is refused if and only if its key is among
the last W accepted keys of the log before it; an operation that accepts nothing, and so every
refused push, drain and link change, leaves the window as it was; and of any W + 1 keys accepted
in a row no two are the same.  The hash is arbitrary: two envelopes with one key are one envelope
for the window, however they differ. -/
theorem anti_replay_exact (sha256 : List UInt8 → Digest) (initial : LinkState)
    (capacity replayWindowCap : ℕ) (ops : List Op) :
    ∃ log b, run (StoreAndForwardBuffer.step sha256)
        (withCapacity initial capacity replayWindowCap) ops = some (log, b) ∧
      log.map Prod.fst = ops ∧
      (∀ pre envelope vc out post, log = pre ++ (.push envelope vc, out) :: post →
        (out = .pushed .rejectedDuplicate ↔ replayKey sha256 envelope ∈
          (acceptedKeys sha256 pre).rtake (effectiveWindow replayWindowCap)) ∧
        (out = .pushed .rejectedDuplicate →
          acceptedKeys sha256 [(.push envelope vc, out)] = []) ∧
        (out ≠ .pushed .rejectedDuplicate →
          acceptedKeys sha256 [(.push envelope vc, out)] = [replayKey sha256 envelope])) ∧
      (∀ pre op out post, log = pre ++ (op, out) :: post →
        ∃ b₁ b₂, run (StoreAndForwardBuffer.step sha256)
            (withCapacity initial capacity replayWindowCap) (pre.map Prod.fst) = some (pre, b₁) ∧
          b₁.step sha256 op = some (out, b₂) ∧
          ((∀ envelope vc, op ≠ .push envelope vc) ∨ out = .pushed .rejectedDuplicate →
            b₂.replayWindow = b₁.replayWindow)) ∧
      ∀ s, s <:+: acceptedKeys sha256 log →
        s.length ≤ effectiveWindow replayWindowCap + 1 → s.Nodup := by
  obtain ⟨log, b, hrun, hops, -⟩ := run_accounted sha256 initial capacity replayWindowCap ops
  have haccount : ∀ {is : List Op} {l : Log} {t : StoreAndForwardBuffer},
      run (StoreAndForwardBuffer.step sha256)
        (withCapacity initial capacity replayWindowCap) is = some (l, t) →
      Accounted sha256 capacity replayWindowCap l t := by
    intro is l t h
    exact run_invariant (accounted_withCapacity initial) (fun _ _ _ _ _ h hs => h.step hs) h
  refine ⟨log, b, hrun, hops, ?_, ?_, ?_⟩
  · rintro pre envelope vc out post rfl
    obtain ⟨b₁, b₂, hpre, hs, -⟩ := run_split hrun
    rw [← (haccount hpre).replayWindow_eq]
    rcases push_answer hs with ⟨hkey, hout, hkeys⟩ | ⟨hkey, hout, hkeys⟩
    · exact ⟨iff_of_true hout hkey, fun _ => hkeys, fun hne => absurd hout hne⟩
    · exact ⟨iff_of_false hout hkey, fun hdup => absurd hdup hout, fun _ => hkeys⟩
  · rintro pre op out post rfl
    obtain ⟨b₁, b₂, hpre, hs, -⟩ := run_split hrun
    refine ⟨b₁, b₂, hpre, hs, fun hquiet => ?_⟩
    refine (haccount hpre).window_kept ((haccount hpre).step hs) ?_
    by_cases hop : ∃ envelope vc, op = .push envelope vc
    · obtain ⟨envelope, vc, rfl⟩ := hop
      rcases push_answer hs with ⟨-, -, hkeys⟩ | ⟨-, hout, -⟩
      · exact hkeys
      · rcases hquiet with hne | hdup
        · exact absurd rfl (hne envelope vc)
        · exact absurd hdup hout
    · exact acceptedKeys_of_not_push hs fun envelope vc he => hop ⟨envelope, vc, he⟩
  · have hboth : Accounted sha256 capacity replayWindowCap log b ∧
        SpacedBy (effectiveWindow replayWindowCap) (acceptedKeys sha256 log) := by
      refine run_invariant (P := fun l t => Accounted sha256 capacity replayWindowCap l t ∧
        SpacedBy (effectiveWindow replayWindowCap) (acceptedKeys sha256 l)) ⟨?_, ?_⟩ ?_ hrun
      · exact accounted_withCapacity initial
      · rintro s hs -
        rw [List.infix_nil.mp hs]
        exact List.nodup_nil
      · rintro l t op out t' ⟨h, hsp⟩ hs
        exact ⟨h.step hs, hsp.step h hs⟩
    exact hboth.2

end Musubi.Core
